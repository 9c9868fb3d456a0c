import EntryTrace.Proofs.WellFormed

/-!
# The order in which values are read

In the text of a body all parameters come first, then instruction after instruction, each with
the pointers among its operands before it, and at the end of a block the pointers that its
terminator uses. A body that was read from text has numbered its values in that order.
-/

namespace EntryTrace

namespace Entity

variable {kind : Kind} {start mid stop : Nat} {es es' : List (Entity kind)}

/-- The list holds the entities from index `start` on and below `stop`, in order. -/
structure Spans (start stop : Nat) (es : List (Entity kind)) : Prop where
  eq : es = Entity.from kind start es.length
  stop : start + es.length = stop

namespace Spans

lemma nil (start : Nat) : Spans start start ([] : List (Entity kind)) := ⟨rfl, rfl⟩

lemma single (start : Nat) : Spans start (start + 1) [(⟨start⟩ : Entity kind)] := ⟨rfl, rfl⟩

lemma append (h : Spans start mid es) (h' : Spans mid stop es') : Spans start stop (es ++ es') where
  eq := by
    rw [List.length_append, Entity.from, ← List.range'_append_1, List.map_append, h.stop]
    exact congrArg₂ _ h.eq h'.eq
  stop := by
    rw [List.length_append, ← Nat.add_assoc, h.stop, h'.stop]

lemma le (h : Spans start stop es) : start ≤ stop := by
  rw [← h.stop]
  exact Nat.le_add_right _ _

lemma mem_iff (h : Spans start stop es) {e : Entity kind} :
    e ∈ es ↔ start ≤ e.index ∧ e.index < stop := by
  rw [h.eq, mem_from, h.stop]

lemma nodup (h : Spans start stop es) : es.Nodup := by
  rw [h.eq]
  exact nodup_from _ _ _

lemma pairwise_lt (h : Spans start stop es) : es.Pairwise fun e e' => e.index < e'.index := by
  rw [h.eq, Entity.from, List.pairwise_map]
  exact List.pairwise_lt_range'

end Spans

end Entity

namespace Body

/-- Does the value point to a string? -/
def isPointer (body : Body) (value : Value) : Bool :=
  match body.values.get? value with
  | some (.strRef _) => true
  | _ => false

/-- The operands of an instruction. -/
def argsOf (body : Body) (inst : Value) : List Value :=
  match body.values.get? inst with
  | some (.inst _ args _) => args
  | _ => []

/-- The pointers among some values. -/
def pointers (body : Body) (values : List Value) : List Value := values.filter body.isPointer

/-- The values that an instruction adds when it is read. -/
def instOrder (body : Body) (inst : Value) : List Value :=
  body.pointers (body.argsOf inst) ++ [inst]

/-- The values that a block adds when it is read, apart from its parameters. -/
def blockOrder (body : Body) (b : BlockData) : List Value :=
  b.insts.flatMap body.instOrder ++ body.pointers b.terminator.operands

/-- The parameters of all blocks, in order. -/
def paramOrder (body : Body) : List Value := body.blocks.toList.flatMap BlockData.paramValues

/-- All values, in the order in which they are read. -/
def readingOrder (body : Body) : List Value :=
  body.paramOrder ++ body.blocks.toList.flatMap body.blockOrder

variable {body : Body} {value : Value} {values : List Value} {d : Def}

lemma isPointer_iff : body.isPointer value = true ↔
    ∃ str, body.values.get? value = some (.strRef str) := by
  unfold isPointer
  split
  · rename_i str h
    simp [h]
  · rename_i h
    simpa using h

lemma isPointer_eq_false (h : body.values.get? value = some d) (hd : ∀ str, d ≠ .strRef str) :
    body.isPointer value = false := by
  rw [Bool.eq_false_iff, Ne, isPointer_iff, h]
  rintro ⟨str, hstr⟩
  exact hd str (Option.some.inj hstr)

lemma argsOf_eq {op : Operator} {args : List Value} {types : List ValueType}
    (h : body.values.get? value = some (.inst op args types)) : body.argsOf value = args := by
  rw [argsOf, h]

lemma mem_pointers : value ∈ body.pointers values ↔
    value ∈ values ∧ ∃ str, body.values.get? value = some (.strRef str) := by
  rw [pointers, List.mem_filter, isPointer_iff]

@[simp] lemma pointers_nil : body.pointers [] = [] := rfl

lemma pointers_append (values values' : List Value) :
    body.pointers (values ++ values') = body.pointers values ++ body.pointers values' :=
  List.filter_append _ _

lemma pointers_cons (value : Value) (values : List Value) :
    body.pointers (value :: values) = body.pointers [value] ++ body.pointers values :=
  pointers_append [value] values

lemma sublist_blockOrder (body : Body) (b : BlockData) : b.insts.Sublist (body.blockOrder b) := by
  rw [blockOrder]
  apply List.Sublist.trans _ (List.sublist_append_left _ _)
  induction b.insts with
  | nil => exact List.Sublist.slnil
  | cons inst insts ih =>
    rw [List.flatMap_cons, instOrder, List.append_assoc]
    apply List.Sublist.trans _ (List.sublist_append_right _ _)
    exact ih.cons_cons inst

lemma sublist_flatMap_blockOrder (body : Body) (blocks : List BlockData) :
    (listingOf blocks).Sublist (blocks.flatMap body.blockOrder) := by
  induction blocks with
  | nil => exact List.Sublist.slnil
  | cons b blocks ih =>
    rw [listingOf, List.flatMap_cons, List.flatMap_cons]
    exact (body.sublist_blockOrder b).append ih

lemma mem_paramOrder : value ∈ body.paramOrder ↔
    ∃ (block : Block) (data : BlockData) (position : Nat) (type : ValueType),
      body.blocks.get? block = some data ∧ data.params[position]? = some (type, value) := by
  rw [paramOrder, List.mem_flatMap]
  constructor
  · rintro ⟨data, hdata, hvalue⟩
    obtain ⟨block, hblock⟩ := Table.get?_of_mem hdata
    obtain ⟨⟨type, _⟩, hparam, rfl⟩ := List.mem_map.1 hvalue
    obtain ⟨position, hposition⟩ := List.getElem?_of_mem hparam
    exact ⟨block, data, position, type, hblock, hposition⟩
  · rintro ⟨block, data, position, type, hblock, hposition⟩
    exact ⟨data, Table.mem_of_get? hblock,
      List.mem_map.2 ⟨_, List.mem_of_getElem? hposition, rfl⟩⟩

/-- Where in a body a value is read: among the parameters, as an instruction or a pointer that one
uses, or as a pointer that a terminator uses. -/
lemma cases_readingOrder (h : value ∈ body.readingOrder) : value ∈ body.paramOrder ∨
    ∃ b ∈ body.blocks.toList,
      (∃ inst ∈ b.insts, value = inst ∨ value ∈ body.pointers (body.argsOf inst)) ∨
      value ∈ body.pointers b.terminator.operands := by
  rw [readingOrder, List.mem_append, List.mem_flatMap] at h
  rcases h with hparam | ⟨b, hb, hvalue⟩
  · exact .inl hparam
  · rw [blockOrder, List.mem_append, List.mem_flatMap] at hvalue
    refine .inr ⟨b, hb, hvalue.imp_left ?_⟩
    rintro ⟨inst, hinst, hvalue⟩
    rw [instOrder, List.mem_append, List.mem_singleton] at hvalue
    exact ⟨inst, hinst, hvalue.symm⟩

lemma of_mem_readingOrder (h : value ∈ body.readingOrder) : value ∈ body.paramOrder ∨
    value ∈ body.listing ∨ ∃ str, body.values.get? value = some (.strRef str) := by
  rcases cases_readingOrder h with hparam | ⟨b, hb, ⟨inst, hinst, rfl | hvalue⟩ | hvalue⟩
  · exact .inl hparam
  · exact .inr (.inl (List.mem_flatMap.2 ⟨b, hb, hinst⟩))
  · exact .inr (.inr (mem_pointers.1 hvalue).2)
  · exact .inr (.inr (mem_pointers.1 hvalue).2)

lemma listing_sublist_readingOrder (body : Body) : body.listing.Sublist body.readingOrder :=
  (body.sublist_flatMap_blockOrder _).trans (List.sublist_append_right _ _)

lemma listing_eq_append (body : Body) (block : Block) :
    body.listing = body.listingThrough block ++
      listingOf (body.blocks.toList.drop (block.index + 1)) := by
  rw [listing, listingThrough, listingOf, listingOf, listingOf, ← List.flatMap_append,
    List.take_append_drop]

end Body

end EntryTrace
