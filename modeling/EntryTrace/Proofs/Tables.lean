import Mathlib
import EntryTrace.Module

/-!
# Steps that succeed

Without a journal an operation is a value of `Except Fault`. For each operation on tables and
bodies this file says when it succeeds and what it then answers, so that no later proof opens
the operation itself. Two tables are equal when they answer every entity alike.
-/

namespace EntryTrace

section Outcomes

variable {ε α β : Type}

lemma bind_eq_ok {x : Except ε α} {f : α → Except ε β} {b : β} :
    x >>= f = .ok b ↔ ∃ a, x = .ok a ∧ f a = .ok b := by
  cases x with
  | error e => simp [bind, Except.bind]
  | ok a => simp [bind, Except.bind]

lemma map_eq_ok {x : Except ε α} {f : α → β} {b : β} :
    f <$> x = .ok b ↔ ∃ a, x = .ok a ∧ f a = b := by
  cases x <;> simp

@[simp] lemma ok_bind {a : α} {f : α → Except ε β} : (Except.ok a : Except ε α) >>= f = f a := rfl

@[simp] lemma pure_eq_ok {a : α} : (pure a : Except Fault α) = .ok a := rfl

@[simp] lemma fault_ne_ok {f : Fault} {a : α} : (fault f : Except Fault α) = .ok a ↔ False := by
  simp [fault, throwThe, MonadExceptOf.throw]

@[simp] lemma orFault_eq_ok {f : Fault} {x : Option α} {a : α} :
    (orFault f x : Except Fault α) = .ok a ↔ x = some a := by
  cases x with
  | none => simp [orFault]
  | some b => simp [orFault]

end Outcomes

lemma Entity.index_injective (kind : Kind) :
    Function.Injective (Entity.index : Entity kind → Nat) := by
  rintro ⟨i⟩ ⟨j⟩ heq
  exact congrArg Entity.mk heq

/-- So many entities in order, from the one with a given index on. -/
def Entity.from (kind : Kind) (start count : Nat) : List (Entity kind) :=
  (List.range' start count).map Entity.mk

lemma Entity.from_succ (kind : Kind) (start count : Nat) :
    Entity.from kind start (count + 1) = ⟨start⟩ :: Entity.from kind (start + 1) count := by
  simp [Entity.from, List.range'_succ]

@[simp] lemma Entity.length_from (kind : Kind) (start count : Nat) :
    (Entity.from kind start count).length = count := by
  simp [Entity.from]

lemma Entity.mem_from {kind : Kind} {start count : Nat} {e : Entity kind} :
    e ∈ Entity.from kind start count ↔ start ≤ e.index ∧ e.index < start + count := by
  obtain ⟨i⟩ := e
  simp [Entity.from, List.mem_range'_1]

lemma Entity.nodup_from (kind : Kind) (start count : Nat) :
    (Entity.from kind start count).Nodup := by
  apply List.Nodup.map _ List.nodup_range'
  intro i j hij
  simpa using hij

namespace Table

variable {kind : Kind} {α : Type}

@[ext] lemma ext {s t : Table kind α} (h : s.toList = t.toList) : s = t := by
  obtain ⟨s⟩ := s
  obtain ⟨t⟩ := t
  exact congrArg Table.mk (Array.toList_inj.mp h)

@[simp] lemma toList_ofList (items : List α) : (ofList items : Table kind α).toList = items := by
  simp [ofList, toList]

@[simp] lemma ofList_toList (t : Table kind α) : ofList t.toList = t := by
  apply ext
  rw [toList_ofList]

lemma length_toList (t : Table kind α) : t.toList.length = t.size := by
  simp [toList, size]

@[simp] lemma size_ofList (items : List α) : (ofList items : Table kind α).size = items.length := by
  rw [← length_toList, toList_ofList]

@[simp] lemma size_empty : ({} : Table kind α).size = 0 := rfl

@[simp] lemma toList_empty : ({} : Table kind α).toList = [] := rfl

lemma get?_eq (t : Table kind α) (e : Entity kind) : t.get? e = t.toList[e.index]? := by
  simp [get?, toList]

lemma get?_lt {t : Table kind α} {e : Entity kind} {a : α} (h : t.get? e = some a) :
    e.index < t.size := by
  rw [get?_eq, List.getElem?_eq_some_iff] at h
  rw [← length_toList]
  exact h.1

lemma get?_of_lt {t : Table kind α} {e : Entity kind} (h : e.index < t.size) :
    ∃ a, t.get? e = some a := by
  rw [← length_toList] at h
  exact ⟨t.toList[e.index], by rw [get?_eq, List.getElem?_eq_getElem h]⟩

lemma mem_of_get? {t : Table kind α} {e : Entity kind} {a : α} (h : t.get? e = some a) :
    a ∈ t.toList := by
  rw [get?_eq] at h
  exact List.mem_of_getElem? h

lemma get?_of_mem {t : Table kind α} {a : α} (h : a ∈ t.toList) : ∃ e, t.get? e = some a := by
  obtain ⟨i, hi⟩ := List.getElem?_of_mem h
  exact ⟨⟨i⟩, by rw [get?_eq, hi]⟩

lemma ext_get? {s t : Table kind α} (h : ∀ e, s.get? e = t.get? e) : s = t := by
  apply ext
  apply List.ext_getElem?
  intro i
  have hi := h ⟨i⟩
  rwa [get?_eq, get?_eq] at hi

lemma get?_append_of_lt {t : Table kind α} {a : α} {e : Entity kind} (h : e.index < t.size) :
    (t.append a).get? e = t.get? e := by
  rw [get?_append, if_neg (by omega)]

@[simp] lemma get?_append_size (t : Table kind α) (a : α) :
    (t.append a).get? ⟨t.size⟩ = some a := by
  rw [get?_append, if_pos rfl]

lemma get?_modify (t : Table kind α) (e e' : Entity kind) (f : α → α) :
    (t.modify e f).get? e' = if e' = e then (t.get? e').map f else t.get? e' := by
  obtain ⟨i⟩ := e
  obtain ⟨j⟩ := e'
  simp only [get?, modify, Array.getElem?_modify, Entity.mk.injEq]
  by_cases h : i = j
  · rw [if_pos h, if_pos h.symm]
  · rw [if_neg h, if_neg (Ne.symm h)]

lemma toList_modify_append {t : Table kind α} {before after : List α} {a : α}
    (h : t.toList = before ++ a :: after) (f : α → α) :
    (t.modify ⟨before.length⟩ f).toList = before ++ f a :: after := by
  rw [toList] at h
  rw [toList, modify, Array.toList_modify, h, List.modify_eq_take_drop]
  simp

lemma modify_eq_self {t : Table kind α} {e : Entity kind} {f : α → α} (h : ∀ a, f a = a) :
    t.modify e f = t := by
  apply ext_get?
  intro e'
  rw [get?_modify, show f = id from funext h, Option.map_id]
  exact ite_self _

lemma modify_modify (t : Table kind α) (e : Entity kind) (f g : α → α) :
    (t.modify e f).modify e g = t.modify e fun a => g (f a) := by
  apply ext_get?
  intro e'
  simp only [get?_modify]
  split
  · simp [Function.comp_def]
  · rfl

@[simp] lemma modify_append_size (t : Table kind α) (a : α) (f : α → α) :
    (t.append a).modify ⟨t.size⟩ f = t.append (f a) := by
  apply ext_get?
  intro e
  rw [get?_modify, get?_append, get?_append]
  by_cases h : e = ⟨t.size⟩
  · simp [h]
  · have hindex : e.index ≠ t.size := fun heq => h (by rw [← heq])
    rw [if_neg h, if_neg hindex, if_neg hindex]

lemma mem_modify {t : Table kind α} {e : Entity kind} {f : α → α} {b : α}
    (h : b ∈ (t.modify e f).toList) : b ∈ t.toList ∨ ∃ a, t.get? e = some a ∧ b = f a := by
  obtain ⟨e', he'⟩ := get?_of_mem h
  rw [get?_modify] at he'
  split at he'
  · obtain ⟨a, ha, rfl⟩ := Option.map_eq_some_iff.1 he'
    rename_i heq
    exact .inr ⟨a, heq ▸ ha, rfl⟩
  · exact .inl (mem_of_get? he')

@[simp] lemma toList_map {β : Type} (t : Table kind α) (f : α → β) :
    (t.map f).toList = t.toList.map f := by
  simp [map, toList]

@[simp] lemma map_empty {β : Type} (f : α → β) : ({} : Table kind α).map f = {} := by
  apply ext
  simp

@[simp] lemma map_append {β : Type} (t : Table kind α) (a : α) (f : α → β) :
    (t.append a).map f = (t.map f).append (f a) := by
  apply ext
  simp

@[simp] lemma size_map {β : Type} (t : Table kind α) (f : α → β) : (t.map f).size = t.size := by
  rw [← length_toList, ← length_toList, toList_map, List.length_map]

@[simp] lemma get?_map {β : Type} (t : Table kind α) (f : α → β) (e : Entity kind) :
    (t.map f).get? e = (t.get? e).map f := by
  simp [get?_eq]

lemma map_modify {β : Type} {t : Table kind α} {e : Entity kind} {f : α → α} {g : α → β}
    {f' : β → β} (h : ∀ a, g (f a) = f' (g a)) : (t.modify e f).map g = (t.map g).modify e f' := by
  apply ext_get?
  intro e'
  simp only [get?_map, get?_modify]
  split
  · simp [Function.comp_def, h]
  · rfl

lemma map_modify_of_eq {β : Type} {t : Table kind α} {e : Entity kind} {f : α → α} {g : α → β}
    (h : ∀ a, g (f a) = g a) : (t.modify e f).map g = t.map g := by
  have hmap : (t.modify e f).map g = (t.map g).modify e fun b => b := map_modify h
  rw [hmap, modify_eq_self fun _ => rfl]

lemma getElem?_entries {t : Table kind α} {i : Nat} {entry : Entity kind × α}
    (h : t.entries[i]? = some entry) : entry.1 = ⟨i⟩ ∧ t.toList[i]? = some entry.2 := by
  simp only [entries, List.getElem?_map, List.getElem?_zipIdx, Option.map_map,
    Option.map_eq_some_iff, Function.comp_apply] at h
  obtain ⟨a, ha, rfl⟩ := h
  simp [ha]

lemma get?_of_mem_entries {t : Table kind α} {entry : Entity kind × α} (h : entry ∈ t.entries) :
    t.get? entry.1 = some entry.2 := by
  obtain ⟨i, hi⟩ := List.getElem?_of_mem h
  obtain ⟨hentity, hget⟩ := getElem?_entries hi
  rw [get?_eq, hentity, hget]

lemma getElem?_entries_of_get? {t : Table kind α} {e : Entity kind} {a : α} (h : t.get? e = some a) :
    t.entries[e.index]? = some (e, a) := by
  rw [get?_eq] at h
  simp [entries, h]

lemma map_fst_entries (t : Table kind α) : t.entries.map Prod.fst = Entity.from kind 0 t.size := by
  have hindices : t.toList.zipIdx.map Prod.snd = List.range' 0 t.size := by
    rw [List.zipIdx_map_snd, length_toList]
  rw [entries, List.map_map, Entity.from, ← hindices, List.map_map]
  rfl

lemma map_snd_entries (t : Table kind α) : t.entries.map Prod.snd = t.toList := by
  rw [entries, List.map_map]
  exact List.zipIdx_map_fst 0 t.toList

lemma length_entries (t : Table kind α) : t.entries.length = t.size := by
  rw [entries, List.length_map, List.length_zipIdx, length_toList]

/-- A table holds all that another one holds, and maybe more after it. -/
def PrefixOf (s t : Table kind α) : Prop := s.toList <+: t.toList

namespace PrefixOf

variable {r s t : Table kind α}

@[refl] lemma refl (t : Table kind α) : t.PrefixOf t := List.prefix_rfl

lemma trans (h : r.PrefixOf s) (h' : s.PrefixOf t) : r.PrefixOf t := List.IsPrefix.trans h h'

lemma append (t : Table kind α) (a : α) : t.PrefixOf (t.append a) := by
  rw [PrefixOf, toList_append]
  exact List.prefix_append _ _

lemma size_le (h : s.PrefixOf t) : s.size ≤ t.size := by
  simpa only [length_toList] using h.length_le

lemma get? (h : s.PrefixOf t) {e : Entity kind} {a : α} (ha : s.get? e = some a) :
    t.get? e = some a := by
  obtain ⟨rest, hrest⟩ := h
  rw [get?_eq] at ha ⊢
  rw [← hrest, List.getElem?_append_left (List.getElem?_eq_some_iff.1 ha).1, ha]

end PrefixOf

lemma find?_get? {t : Table kind α} {p : α → Bool} {e : Entity kind} (h : t.find? p = some e) :
    ∃ a, t.get? e = some a ∧ p a = true := by
  simp only [find?, Option.map_eq_some_iff] at h
  obtain ⟨i, hi, rfl⟩ := h
  rw [Array.findIdx?_eq_some_iff_getElem] at hi
  obtain ⟨hlt, hp, -⟩ := hi
  exact ⟨t.items[i], by simp [get?, hlt], hp⟩

lemma find?_append (t : Table kind α) (a : α) (p : α → Bool) :
    (t.append a).find? p = (t.find? p).or (if p a then some ⟨t.size⟩ else none) := by
  simp only [find?, append, Array.findIdx?_push, size]
  cases t.items.findIdx? p with
  | some i => simp
  | none =>
    by_cases h : p a = true
    · simp [h]
    · simp [h]

lemma find?_congr {β : Type} {s : Table kind α} {t : Table kind β} {p : α → Bool} {q : β → Bool}
    (h : s.toList.map p = t.toList.map q) : s.find? p = t.find? q := by
  obtain ⟨⟨s⟩⟩ := s
  obtain ⟨⟨t⟩⟩ := t
  have hs : s.findIdx? p = (s.map p).findIdx? id := by rw [List.findIdx?_map, Function.id_comp]
  have ht : t.findIdx? q = (t.map q).findIdx? id := by rw [List.findIdx?_map, Function.id_comp]
  simp only [toList] at h
  simp only [find?, List.findIdx?_toArray, hs, ht, h]

@[simp] lemma ofIndex_eq_ok {n : Nat} {e : Entity kind} :
    (Entity.ofIndex n : Except Fault (Entity kind)) = .ok e ↔ n < Entity.limit ∧ e = ⟨n⟩ := by
  unfold Entity.ofIndex
  split
  · simp [*, eq_comm]
  · simp [*]

@[simp] lemma push_eq_ok {t : Table kind α} {a : α} {r : Entity kind × Table kind α} :
    (t.push a : Except Fault _) = .ok r ↔ t.size < Entity.limit ∧ r = (⟨t.size⟩, t.append a) := by
  simp only [push, bind_eq_ok, ofIndex_eq_ok, pure_eq_ok, Except.ok.injEq]
  constructor
  · rintro ⟨e, ⟨h, rfl⟩, rfl⟩
    exact ⟨h, rfl⟩
  · rintro ⟨h, rfl⟩
    exact ⟨_, ⟨h, rfl⟩, rfl⟩

@[simp] lemma get_eq_ok {t : Table kind α} {e : Entity kind} {a : α} :
    (t.get e : Except Fault α) = .ok a ↔ t.get? e = some a := by
  simp [get]

@[simp] lemma update_eq_ok {t t' : Table kind α} {e : Entity kind} {f : α → α} :
    (t.update e f : Except Fault _) = .ok t' ↔ e.index < t.size ∧ t' = t.modify e f := by
  unfold update
  split
  · simp [*, eq_comm]
  · simp [*]

end Table

attribute [ext] Body Module

namespace Decl

variable (signature : Signature) (name : String) (body : Body)

@[simp] lemma signature_imported : (imported signature name).signature = signature := rfl

@[simp] lemma signature_defined : (defined signature name body).signature = signature := rfl

@[simp] lemma name_imported : (imported signature name).name = name := rfl

@[simp] lemma name_defined : (defined signature name body).name = name := rfl

@[simp] lemma body?_imported : (imported signature name).body? = none := rfl

@[simp] lemma body?_defined : (defined signature name body).body? = some body := rfl

lemma eq_defined {decl : Decl} (h : decl.body? = some body) :
    decl = defined decl.signature decl.name body := by
  cases decl with
  | imported => simp at h
  | defined signature name body' =>
    rw [body?_defined, Option.some.injEq] at h
    rw [h, signature_defined, name_defined]

end Decl

namespace Body

@[simp] lemma addValue_eq_ok {body : Body} {d : Def} {r : Value × Body} :
    (body.addValue d : Except Fault _) = .ok r ↔
      body.values.size < Entity.limit ∧
        r = (⟨body.values.size⟩, { body with values := body.values.append d }) := by
  simp only [addValue, note_silent, ok_bind, bind_eq_ok, Table.push_eq_ok, pure_eq_ok,
    Except.ok.injEq]
  constructor
  · rintro ⟨_, ⟨h, rfl⟩, rfl⟩
    exact ⟨h, rfl⟩
  · rintro ⟨h, rfl⟩
    exact ⟨_, ⟨h, rfl⟩, rfl⟩

@[simp] lemma prependInst_eq_ok {body body' : Body} {block : Block} {value : Value} :
    (body.prependInst block value : Except Fault _) = .ok body' ↔
      block.index < body.blocks.size ∧
        body' = { body with
          blocks := body.blocks.modify block fun b => { b with insts := value :: b.insts }
          home := body.home.set value block } := by
  simp only [prependInst, bind_eq_ok, Table.update_eq_ok, pure_eq_ok, Except.ok.injEq]
  constructor
  · rintro ⟨_, ⟨h, rfl⟩, rfl⟩
    exact ⟨h, rfl⟩
  · rintro ⟨h, rfl⟩
    exact ⟨_, ⟨h, rfl⟩, rfl⟩

end Body

end EntryTrace
