import EntryTrace.Proofs.Replaying
import EntryTrace.Proofs.TreeTypes

/-!
# Resolving that decides

A step of resolving decides a property of the tree: if the tree has it, the step succeeds, and
otherwise it refuses the text; it never faults. This file goes through the steps that fill the
blocks of a body, with names and types as they are known when the step begins.
-/

namespace EntryTrace

/-- The value is there, and has the type, or none. -/
def Body.Gives (body : Body) (value : Value) (type : Option ValueType) : Prop :=
  (body.values.get? value).map Def.type? = some type

lemma Body.Gives.mono {body body' : Body} {value : Value} {type : Option ValueType}
    (h : body.Gives value type) (hvalues : body.values.PrefixOf body'.values) :
    body'.Gives value type := by
  obtain ⟨d, hd, htype⟩ := Option.map_eq_some_iff.1 h
  rw [Body.Gives, hvalues.get? hd, Option.map_some, htype]

namespace Source

section Stepwise

variable {α : Type} {P : List α → α → Prop}

lemma stepwise_nil : Stepwise P [] := by
  intro before a after h
  simp at h

lemma stepwise_cons {a : α} {l : List α} :
    Stepwise P (a :: l) ↔ P [] a ∧ Stepwise (fun before => P (a :: before)) l := by
  constructor
  · intro h
    refine ⟨h [] a l rfl, fun before b after hl => h (a :: before) b after ?_⟩
    rw [hl, List.cons_append]
  · rintro ⟨hhead, htail⟩ before b after hl
    cases before with
    | nil =>
      obtain ⟨rfl, -⟩ := List.cons.inj hl
      exact hhead
    | cons c before =>
      obtain ⟨rfl, hrest⟩ := List.cons.inj hl
      exact htail before b after hrest

end Stepwise

/-- The text is found to be wrong in this way. -/
def RefusesWith {α : Type} (x : Resolving (Except Fault) α) (e : SourceError) : Prop :=
  x.run = .ok (.error e)

/-- The text is found to be wrong, without a fault. -/
def Refuses {α : Type} (x : Resolving (Except Fault) α) : Prop := ∃ e, x.run = .ok (.error e)

section Refusing

variable {α β : Type} {x : Resolving (Except Fault) α} {f : α → Resolving (Except Fault) β}
  {e : SourceError} {a : α}

lemma RefusesWith.bind (h : RefusesWith x e) : RefusesWith (x >>= f) e := by
  rw [RefusesWith, ExceptT.run_bind, h]
  rfl

/-- Work refuses a text if what is left after its first answer does. -/
lemma Answers.refusesWith_bind (ha : Answers x a) (h : RefusesWith (f a) e) :
    RefusesWith (x >>= f) e := by
  rw [RefusesWith, ExceptT.run_bind, ha]
  exact h

lemma Refuses.bind (h : Refuses x) : Refuses (x >>= f) := by
  obtain ⟨e, he⟩ := h
  exact ⟨e, RefusesWith.bind he⟩

lemma Answers.refuses_bind (ha : Answers x a) (h : Refuses (f a)) : Refuses (x >>= f) := by
  obtain ⟨e, he⟩ := h
  exact ⟨e, ha.refusesWith_bind he⟩

end Refusing

/-- The work succeeds if `p` holds, with an answer that has a property; otherwise it refuses. -/
structure Decides {α : Type} (x : Resolving (Except Fault) α) (p : Prop) (Q : α → Prop) : Prop where
  answers : p → ∃ a, Answers x a ∧ Q a
  refuses : ¬ p → Refuses x

namespace Decides

variable {α β : Type} {x y : Resolving (Except Fault) α} {f : α → Resolving (Except Fault) β}
  {p r q : Prop} {Q Q' : α → Prop} {R : β → Prop}

lemma pure {a : α} (h : Q a) : Decides (Pure.pure a) True Q where
  answers _ := ⟨a, answers_pure.2 rfl, h⟩
  refuses hnot := (hnot trivial).elim

lemma step {x : Except Fault α} {a : α} (hx : x = .ok a) (h : Q a) :
    Decides (Source.step x) True Q where
  answers _ := ⟨a, answers_step.2 hx, h⟩
  refuses hnot := (hnot trivial).elim

lemma refuse {line : Nat} {cause : Cause} (h : ¬ p) :
    Decides (Source.refuse line cause : Resolving (Except Fault) α) p Q where
  answers hp := (h hp).elim
  refuses _ := ⟨⟨line, cause⟩, rfl⟩

lemma bind (hx : Decides x p Q) (hf : p → ∀ a, Q a → Decides (f a) r R) (hq : p ∧ r ↔ q) :
    Decides (x >>= f) q R where
  answers hboth := by
    rw [← hq] at hboth
    obtain ⟨a, ha, hQ⟩ := hx.answers hboth.1
    obtain ⟨b, hb, hR⟩ := (hf hboth.1 a hQ).answers hboth.2
    exact ⟨b, answers_bind.2 ⟨a, ha, hb⟩, hR⟩
  refuses hnot := by
    rw [← hq] at hnot
    by_cases hp : p
    · obtain ⟨a, ha, hQ⟩ := hx.answers hp
      exact ha.refuses_bind ((hf hp a hQ).refuses fun hr => hnot ⟨hp, hr⟩)
    · exact (hx.refuses hp).bind

/-- Work after which nothing is left to decide. -/
lemma bindPure {f : α → β} (hx : Decides x p Q) (hf : p → ∀ a, Q a → R (f a)) :
    Decides (x >>= fun a => Pure.pure (f a)) p R :=
  hx.bind (fun hp a hQ => .pure (hf hp a hQ)) (and_iff_left trivial)

/-- A step that cannot refuse decides nothing. -/
lemma stepBind {x : Except Fault α} {a : α} (hx : x = .ok a) (hf : Decides (f a) p R) :
    Decides (Source.step x >>= f) p R where
  answers hp := by
    obtain ⟨b, hb, hR⟩ := hf.answers hp
    exact ⟨b, answers_bind.2 ⟨a, answers_step.2 hx, hb⟩, hR⟩
  refuses hnot := (answers_step.2 hx).refuses_bind (hf.refuses hnot)

lemma congr (h : Decides x p Q) (hp : p ↔ r) : Decides x r Q := by
  rwa [← propext hp]

lemma imp (h : Decides x p Q) (hQ : p → ∀ a, Answers x a → Q a → Q' a) : Decides x p Q' where
  answers hp := by
    obtain ⟨a, ha, hqa⟩ := h.answers hp
    exact ⟨a, ha, hQ hp a ha hqa⟩
  refuses := h.refuses

/-- What is known of answers can be used of the one that is given. -/
lemma withAnswer (h : Decides x p Q) : Decides x p fun a => Answers x a ∧ Q a :=
  h.imp fun _ _ ha hQ => ⟨ha, hQ⟩

lemma iff (h : Decides x p Q) : (∃ a, Answers x a) ↔ p := by
  constructor
  · rintro ⟨a, ha⟩
    by_contra hp
    obtain ⟨e, he⟩ := h.refuses hp
    rw [Answers, he] at ha
    cases ha
  · intro hp
    obtain ⟨a, ha, -⟩ := h.answers hp
    exact ⟨a, ha⟩

end Decides

/-- The module has the strings and the function types of a tree. -/
structure ModuleTree.Declares (tree : ModuleTree) (module : Module) : Prop where
  strings : module.strings.size = tree.strings.size
  funcs : ∀ index < module.funcs.size, ∃ type,
    (module.funcType ⟨index⟩ : Except Fault _) = .ok type ∧ tree.funcType? index = some type
  others : ∀ index, ¬ index < module.funcs.size → tree.funcType? index = none

namespace Scope

/-- The values that have names in a scope have these types. -/
structure Knows (types : Types) (s : Scope) : Prop where
  known : ∀ name v, s.values.lookup name = some v →
    ∃ type, (name, type) ∈ types ∧ s.body.Gives v type
  unknown : ∀ name, s.values.lookup name = none → name ∉ types.map Prod.fst
  distinct : (types.map Prod.fst).Nodup

/-- The blocks that have names in a scope have parameters of these types. -/
structure Finds (heads : Heads) (s : Scope) : Prop where
  known : ∀ name b, s.blocks.lookup name = some b →
    ∃ data, s.body.blocks.get? b = some data ∧ (name, data.paramTypes) ∈ heads
  unknown : ∀ name, s.blocks.lookup name = none → name ∉ heads.map Prod.fst
  distinct : (heads.map Prod.fst).Nodup

/-- A scope in which all blocks are open, with what is known of names and types. -/
structure Typed (heads : Heads) (returns : List ValueType) (types : Types) (s : Scope) : Prop where
  values : s.Knows types
  blocks : s.Finds heads
  returns : s.body.returns = returns

lemma mem_unique {α : Type} {pairs : List (Nat × α)} (h : (pairs.map Prod.fst).Nodup) {name : Nat}
    {a a' : α} (ha : (name, a) ∈ pairs) (ha' : (name, a') ∈ pairs) : a = a' :=
  congrArg Prod.snd (List.inj_on_of_nodup_map h ha ha' rfl)

variable {s t : Scope} {tree : ModuleTree} {module : Module} {line : Nat} {types : Types}
  {heads : Heads} {returns : List ValueType}

lemma Knows.mono (h : s.Knows types) (hvalues : s.body.values.PrefixOf t.body.values)
    (hnames : t.values = s.values) : t.Knows types where
  known name v hv := by
    obtain ⟨type, hmem, hgives⟩ := h.known name v (hnames ▸ hv)
    exact ⟨type, hmem, hgives.mono hvalues⟩
  unknown name hnone := h.unknown name (hnames ▸ hnone)
  distinct := h.distinct

lemma Knows.define (h : s.Knows types) {name : Nat} {value : Value} {type : Option ValueType}
    (hgives : s.body.Gives value type) (hnew : name ∉ types.map Prod.fst) :
    Knows (types ++ [(name, type)]) { s with values := (name, value) :: s.values } where
  known other v hv := by
    simp only [List.lookup_cons] at hv
    split at hv
    · rename_i heq
      rw [beq_iff_eq] at heq
      obtain rfl := Option.some.inj hv
      exact ⟨type, by simp [heq], hgives⟩
    · obtain ⟨found, hmem, hfound⟩ := h.known other v hv
      exact ⟨found, List.mem_append_left _ hmem, hfound⟩
  unknown other hnone := by
    simp only [List.lookup_cons] at hnone
    split at hnone
    · cases hnone
    · rename_i hne
      have hold := h.unknown other hnone
      simp only [List.map_append, List.mem_append, List.map_cons, List.map_nil,
        List.mem_singleton, not_or]
      exact ⟨hold, by simpa using hne⟩
  distinct := by
    rw [List.map_append, List.nodup_append]
    refine ⟨h.distinct, by simp, ?_⟩
    intro a ha b hb hab
    obtain rfl : b = name := by simpa using hb
    exact hnew (hab ▸ ha)

lemma decides_define (hs : s.Knows types) {name : Nat} {value : Value} {type : Option ValueType}
    (hgives : s.body.Gives value type) :
    Decides (s.define line name value) (name ∉ types.map Prod.fst) fun t =>
      t = { s with values := (name, value) :: s.values } ∧ t.Knows (types ++ [(name, type)]) := by
  unfold define
  cases hname : s.values.lookup name with
  | some v =>
    obtain ⟨found, hmem, -⟩ := hs.known name v hname
    exact .refuse fun hnew => hnew (List.mem_map_of_mem (f := Prod.fst) hmem)
  | none =>
    have hnew := hs.unknown name hname
    exact (Decides.pure ⟨rfl, hs.define hgives hnew⟩).congr (iff_of_true trivial hnew)

lemma Finds.mono (h : s.Finds heads) (hnames : t.blocks = s.blocks)
    (hparams : ∀ b data, s.body.blocks.get? b = some data →
      ∃ data', t.body.blocks.get? b = some data' ∧ data'.paramTypes = data.paramTypes) :
    t.Finds heads where
  known name b hb := by
    obtain ⟨data, hdata, hmem⟩ := h.known name b (hnames ▸ hb)
    obtain ⟨data', hdata', hsame⟩ := hparams b data hdata
    exact ⟨data', hdata', hsame ▸ hmem⟩
  unknown name hnone := h.unknown name (hnames ▸ hnone)
  distinct := h.distinct

lemma Typed.reads (h : s.Typed heads returns types) (hreads : s.Reads t) :
    t.Typed heads returns types where
  values := h.values.mono hreads.values hreads.names
  blocks := h.blocks.mono hreads.blocks fun b data hdata =>
    ⟨data, by rw [hreads.body]; exact hdata, rfl⟩
  returns := by
    rw [hreads.body]
    exact h.returns

/-! ### Operands -/

/-- The value is what the operand stands for, as far as its type goes. -/
def Fetches (tree : ModuleTree) (types : Types) (body : Body) (operand : OperandTree)
    (value : Value) : Prop :=
  ∃ type, operand.Gives tree types type ∧ body.Gives value type

lemma Fetches.mono {body body' : Body} {operand : OperandTree} {value : Value}
    (h : Fetches tree types body operand value) (hvalues : body.values.PrefixOf body'.values) :
    Fetches tree types body' operand value := by
  obtain ⟨type, hgives, hvalue⟩ := h
  exact ⟨type, hgives, hvalue.mono hvalues⟩

lemma gives_unique (h : (types.map Prod.fst).Nodup) {operand : OperandTree}
    {type type' : Option ValueType} (hgives : operand.Gives tree types type)
    (hgives' : operand.Gives tree types type') : type = type' := by
  cases operand with
  | value name => exact mem_unique h hgives hgives'
  | str index => exact hgives.2.trans hgives'.2.symm

lemma decides_operand (hs : s.Typed heads returns types) (htree : tree.Declares module)
    {operand : OperandTree} (hroom : s.body.values.size + pointerCount [operand] ≤ Entity.limit) :
    Decides (s.operand module line operand) (∃ type, operand.Gives tree types type) fun r =>
      s.Reads r.2 ∧ r.2.body.values.size = s.body.values.size + pointerCount [operand] ∧
        Fetches tree types r.2.body operand r.1 := by
  cases operand with
  | value name =>
    unfold operand
    cases hname : s.values.lookup name with
    | none =>
      have hnew := hs.values.unknown name hname
      simp only [hname]
      apply Decides.refuse
      rintro ⟨type, hmem⟩
      exact hnew (List.mem_map_of_mem (f := Prod.fst) hmem)
    | some v =>
      obtain ⟨type, hmem, hgives⟩ := hs.values.known name v hname
      simp only [hname]
      refine Decides.congr (Decides.pure ?_) (iff_of_true trivial ⟨type, hmem⟩)
      exact ⟨.refl s, rfl, type, hmem, hgives⟩
  | str index =>
    unfold operand
    have hsize : s.body.values.size < Entity.limit := hroom
    by_cases hindex : index < module.strings.size
    · have hindex' : index < tree.strings.size := htree.strings ▸ hindex
      have hadd : (s.body.addValue (.strRef ⟨index⟩) : Except Fault _) =
          .ok (⟨s.body.values.size⟩, s.body.withValue (.strRef ⟨index⟩)) :=
        Body.addValue_eq_ok.2 ⟨hsize, rfl⟩
      simp only [if_pos hindex]
      refine Decides.congr (Decides.stepBind hadd (Decides.pure ?_))
        (iff_of_true trivial ⟨some .ptr, hindex', rfl⟩)
      refine ⟨⟨rfl, Table.PrefixOf.append _ _, rfl, rfl⟩, Table.size_append _ _, some .ptr,
        ⟨hindex', rfl⟩, ?_⟩
      rw [Body.Gives, Body.withValue, Table.get?_append_size]
      rfl
    · simp only [if_neg hindex]
      apply Decides.refuse
      rintro ⟨type, hmem, -⟩
      exact hindex (htree.strings ▸ hmem)

lemma pointerCount_cons (operand : OperandTree) (operands : List OperandTree) :
    pointerCount (operand :: operands) = pointerCount [operand] + pointerCount operands :=
  @List.countP_append _ _ [operand] operands

lemma decides_operands (hs : s.Typed heads returns types) (htree : tree.Declares module)
    {operands : List OperandTree}
    (hroom : s.body.values.size + pointerCount operands ≤ Entity.limit) :
    Decides (s.operands module line operands)
      (∀ operand ∈ operands, ∃ type, operand.Gives tree types type) fun r =>
        s.Reads r.2 ∧ r.2.body.values.size = s.body.values.size + pointerCount operands ∧
          List.Forall₂ (Fetches tree types r.2.body) operands r.1 := by
  induction operands generalizing s with
  | nil => exact Decides.congr (Decides.pure ⟨.refl s, rfl, .nil⟩) (by simp)
  | cons operand rest ih =>
    rw [pointerCount_cons] at hroom ⊢
    apply (decides_operand hs htree (by omega)).bind
    · rintro - ⟨value, s'⟩ ⟨hreads, hsize, hfetches⟩
      refine (ih (hs.reads hreads) (by omega)).bindPure ?_
      rintro - ⟨values, t⟩ ⟨hreads', hsize', hfetches'⟩
      simp only at hsize hsize'
      exact ⟨hreads.trans hreads', hsize'.trans (by omega),
        .cons (hfetches.mono hreads'.values) hfetches'⟩
    · simp only [List.forall_mem_cons]

end Scope

end Source

end EntryTrace
