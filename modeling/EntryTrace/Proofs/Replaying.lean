import EntryTrace.Proofs.Spelling

/-!
# Filling blocks from their own spelling

While a text is resolved, `Scope.canonical` is the scope as it would be had the text named every
value and every block by its number. A step that succeeds leaves the body closed, and succeeds
in the canonical scope on the tree that spells what the step made. This file goes through the
steps from operands up to blocks that are filled.
-/

namespace EntryTrace

/-- A value that stands for a pointer, which no name does. -/
def Def.IsPointer : Def → Prop
  | .strRef _ => True
  | _ => False

namespace Source

/-- The scope with the numbers of values and blocks for their names. -/
def Scope.canonical (scope : Scope) : Scope :=
  ⟨scope.body, scope.values.map fun p => (p.2.index, p.2),
    scope.blocks.map fun p => (p.2.index, p.2)⟩

/-- The body is closed, and every name stands for something in it that is no pointer. -/
structure Scope.Closed (module : Module) (scope : Scope) : Prop where
  body : scope.body.Closed module
  values : ∀ p ∈ scope.values, ∃ d, scope.body.values.get? p.2 = some d ∧ ¬ d.IsPointer
  blocks : ∀ p ∈ scope.blocks, p.2.index < scope.body.blocks.size

lemma lookup_index_of_mem {kind : Kind} {names : List (Nat × Entity kind)} {name : Nat}
    {e : Entity kind} (h : (name, e) ∈ names) :
    (names.map fun p => (p.2.index, p.2)).lookup e.index = some e := by
  induction names with
  | nil => simp at h
  | cons p names ih =>
    rw [List.map_cons, List.lookup_cons]
    split
    · rename_i heq
      rw [beq_iff_eq] at heq
      obtain ⟨_, ⟨i⟩⟩ := p
      simp only at heq
      rw [← heq]
    · rename_i hne
      rcases List.mem_cons.1 h with rfl | h
      · simp at hne
      · exact ih h

lemma lookup_index_eq_none {kind : Kind} {names : List (Nat × Entity kind)} {n : Nat}
    (h : ∀ p ∈ names, p.2.index < n) : (names.map fun p => (p.2.index, p.2)).lookup n = none := by
  rw [List.lookup_eq_none_iff]
  intro p hp
  obtain ⟨q, hq, rfl⟩ := List.mem_map.1 hp
  have hlt := h q hq
  simpa using hlt.ne'

lemma mem_of_lookup {α : Type} {names : List (Nat × α)} {name : Nat} {a : α}
    (h : names.lookup name = some a) : (name, a) ∈ names := by
  obtain ⟨before, after, heq, -⟩ := List.lookup_eq_some_iff.1 h
  rw [heq]
  exact List.mem_append_right _ List.mem_cons_self

namespace Scope

variable {scope s t : Scope} {module : Module} {line line' : Nat} {values : Table .value Def}

/-- Between two scopes only values that no block lists were added to the body. -/
structure Reads (s t : Scope) : Prop where
  body : t.body = { s.body with values := t.body.values }
  values : s.body.values.PrefixOf t.body.values
  names : t.values = s.values
  blocks : t.blocks = s.blocks

namespace Reads

lemma refl (s : Scope) : s.Reads s := ⟨rfl, .refl _, rfl, rfl⟩

lemma trans {r : Scope} (h : r.Reads s) (h' : s.Reads t) : r.Reads t where
  body := by
    rw [h'.body, h.body]
  values := h.values.trans h'.values
  names := h'.names.trans h.names
  blocks := h'.blocks.trans h.blocks

lemma entry (h : s.Reads t) : t.body.entry = s.body.entry := by
  rw [h.body]

lemma outline (h : s.Reads t) : t.body.outline = s.body.outline := by
  rw [h.body]
  rfl

end Reads

lemma Closed.value_lt (h : s.Closed module) {p : Nat × Value} (hp : p ∈ s.values) :
    p.2.index < s.body.values.size := by
  obtain ⟨d, hd, -⟩ := h.values p hp
  exact Table.get?_lt hd

/-- No value of a canonical scope has the number that comes next. -/
lemma Closed.fresh (h : s.Closed module) :
    s.canonical.values.lookup s.body.values.size = none :=
  lookup_index_eq_none fun _ hp => h.value_lt hp

/-! ### Operands -/

lemma operand_effect {tree : OperandTree} {value : Value} (hs : s.Closed module)
    (h : Answers (s.operand module line tree) (value, t)) :
    s.Reads t ∧ t.Closed module ∧ value.index < t.body.values.size := by
  rcases answers_operand.1 h with
    ⟨name, rfl, hname, rfl⟩ | ⟨index, rfl, hindex, hroom, hvalue, ht⟩
  · exact ⟨.refl _, hs, hs.value_lt (mem_of_lookup hname)⟩
  · simp only at hvalue ht
    subst hvalue ht
    have hvalues := Table.PrefixOf.append s.body.values (.strRef ⟨index⟩)
    refine ⟨⟨rfl, hvalues, rfl, rfl⟩, ⟨hs.body.withValue hroom hindex, ?_, hs.blocks⟩, ?_⟩
    · intro p hp
      obtain ⟨d, hd, hpointer⟩ := hs.values p hp
      exact ⟨d, hvalues.get? hd, hpointer⟩
    · simp [Body.withValue]

lemma operand_replay {tree : OperandTree} {value : Value} (hs : s.Closed module)
    (h : Answers (s.operand module line tree) (value, t)) (hF : t.body.values.PrefixOf values) :
    Answers (s.canonical.operand module line' (.ofValue values value)) (value, t.canonical) := by
  rcases answers_operand.1 h with
    ⟨name, rfl, hname, rfl⟩ | ⟨index, rfl, hindex, hroom, hvalue, ht⟩
  · have hmem := mem_of_lookup hname
    obtain ⟨d, hd, hpointer⟩ := hs.values _ hmem
    have htree : OperandTree.ofValue values value = .value value.index := by
      unfold OperandTree.ofValue
      rw [hF.get? hd]
      cases d with
      | strRef => exact absurd trivial hpointer
      | param => rfl
      | inst => rfl
      | undefined => rfl
    rw [htree]
    exact answers_operand.2 (.inl ⟨_, rfl, lookup_index_of_mem hmem, rfl⟩)
  · simp only at hvalue ht
    subst hvalue ht
    have htree : OperandTree.ofValue values ⟨s.body.values.size⟩ = .str index := by
      unfold OperandTree.ofValue
      rw [hF.get? (Table.get?_append_size _ _)]
    rw [htree]
    exact answers_operand.2 (.inr ⟨index, rfl, hindex, hroom, rfl, rfl⟩)

lemma operands_effect {trees : List OperandTree} {args : List Value} (hs : s.Closed module)
    (h : Answers (s.operands module line trees) (args, t)) :
    s.Reads t ∧ t.Closed module ∧ ∀ arg ∈ args, arg.index < t.body.values.size := by
  induction trees generalizing s args with
  | nil =>
    obtain ⟨rfl, rfl⟩ := Prod.mk.inj (answers_operands_nil.1 h)
    exact ⟨.refl _, hs, by simp⟩
  | cons tree trees ih =>
    obtain ⟨value, s', values, t', hvalue, hvalues, heq⟩ := answers_operands_cons.1 h
    obtain ⟨rfl, rfl⟩ := Prod.mk.inj heq
    obtain ⟨hreads, hs', hlt⟩ := operand_effect hs hvalue
    obtain ⟨hreads', ht, hargs⟩ := ih hs' hvalues
    refine ⟨hreads.trans hreads', ht, ?_⟩
    intro arg harg
    rcases List.mem_cons.1 harg with rfl | harg
    · exact hlt.trans_le hreads'.values.size_le
    · exact hargs arg harg

lemma operands_replay {trees : List OperandTree} {args : List Value} (hs : s.Closed module)
    (h : Answers (s.operands module line trees) (args, t)) (hF : t.body.values.PrefixOf values) :
    Answers (s.canonical.operands module line' (args.map (.ofValue values)))
      (args, t.canonical) := by
  induction trees generalizing s args with
  | nil =>
    obtain ⟨rfl, rfl⟩ := Prod.mk.inj (answers_operands_nil.1 h)
    exact answers_operands_nil.2 rfl
  | cons tree trees ih =>
    obtain ⟨value, s', args', t', hvalue, hargs, heq⟩ := answers_operands_cons.1 h
    obtain ⟨rfl, rfl⟩ := Prod.mk.inj heq
    obtain ⟨-, hs', -⟩ := operand_effect hs hvalue
    have hreads := (operands_effect hs' hargs).1
    exact answers_operands_cons.2 ⟨value, _, args', _,
      operand_replay hs hvalue (hreads.values.trans hF), ih hs' hargs, rfl⟩

/-! ### Instructions -/

lemma operation_effect {tree : OpTree} {op : Operator} {args : List Value} (hs : s.Closed module)
    (h : Answers (s.operation module line tree) (op, args, t)) :
    s.Reads t ∧ t.Closed module ∧ op.Accepts module args ∧
      ∀ arg ∈ args, arg.index < t.body.values.size := by
  rw [answers_operation] at h
  cases tree with
  | nop =>
    obtain ⟨rfl, rfl, rfl⟩ := Prod.mk.injEq .. ▸ h
    exact ⟨.refl _, hs, rfl, by simp⟩
  | const32 value =>
    obtain ⟨-, heq⟩ := h
    simp only [Prod.mk.injEq] at heq
    obtain ⟨rfl, rfl, rfl⟩ := heq
    exact ⟨.refl _, hs, rfl, by simp⟩
  | const64 value =>
    obtain ⟨-, heq⟩ := h
    simp only [Prod.mk.injEq] at heq
    obtain ⟨rfl, rfl, rfl⟩ := heq
    exact ⟨.refl _, hs, rfl, by simp⟩
  | binary binop left right =>
    obtain ⟨a, s', b, t', hleft, hright, heq⟩ := h
    simp only [Prod.mk.injEq] at heq
    obtain ⟨rfl, rfl, rfl⟩ := heq
    obtain ⟨hreads, hs', ha⟩ := operand_effect hs hleft
    obtain ⟨hreads', ht, hb⟩ := operand_effect hs' hright
    refine ⟨hreads.trans hreads', ht, ⟨a, b, rfl⟩, ?_⟩
    intro arg harg
    simp only [List.mem_cons, List.not_mem_nil, or_false] at harg
    rcases harg with rfl | rfl
    · exact ha.trans_le hreads'.values.size_le
    · exact hb
  | call callee args' =>
    obtain ⟨values, t', hcallee, hargs, heq⟩ := h
    simp only [Prod.mk.injEq] at heq
    obtain ⟨rfl, rfl, rfl⟩ := heq
    obtain ⟨hreads, ht, hlt⟩ := operands_effect hs hargs
    exact ⟨hreads, ht, hcallee, hlt⟩

lemma fits_toNat_32 (c : UInt32) : fits 32 (c.toNat : Int) = true := by
  have := c.toNat_lt
  simp [fits]
  omega

lemma fits_toNat_64 (c : UInt64) : fits 64 (c.toNat : Int) = true := by
  have := c.toNat_lt
  simp [fits]
  omega

lemma ofInt_toNat_32 (c : UInt32) : UInt32.ofInt c.toNat = c := by
  have hmod : ((c.toNat : Int) % 2 ^ 32).toNat = c.toNat := by
    have := c.toNat_lt
    omega
  rw [UInt32.ofInt, hmod, UInt32.ofNat_toNat]

lemma ofInt_toNat_64 (c : UInt64) : UInt64.ofInt c.toNat = c := by
  have hmod : ((c.toNat : Int) % 2 ^ 64).toNat = c.toNat := by
    have := c.toNat_lt
    omega
  rw [UInt64.ofInt, hmod, UInt64.ofNat_toNat]

lemma operation_replay {tree tree' : OpTree} {op : Operator} {args : List Value}
    (hs : s.Closed module) (h : Answers (s.operation module line tree) (op, args, t))
    (hF : t.body.values.PrefixOf values) (hspells : OpTree.Spells values op args tree') :
    Answers (s.canonical.operation module line' tree') (op, args, t.canonical) := by
  rw [answers_operation] at h
  cases tree with
  | nop =>
    simp only [Prod.mk.injEq] at h
    obtain ⟨rfl, rfl, rfl⟩ := h
    cases hspells
    exact answers_operation.2 rfl
  | const32 value =>
    obtain ⟨-, heq⟩ := h
    simp only [Prod.mk.injEq] at heq
    obtain ⟨rfl, rfl, rfl⟩ := heq
    cases hspells
    exact answers_operation.2 ⟨fits_toNat_32 _, by rw [ofInt_toNat_32]⟩
  | const64 value =>
    obtain ⟨-, heq⟩ := h
    simp only [Prod.mk.injEq] at heq
    obtain ⟨rfl, rfl, rfl⟩ := heq
    cases hspells
    exact answers_operation.2 ⟨fits_toNat_64 _, by rw [ofInt_toNat_64]⟩
  | binary binop left right =>
    obtain ⟨a, s', b, t', hleft, hright, heq⟩ := h
    simp only [Prod.mk.injEq] at heq
    obtain ⟨rfl, rfl, rfl⟩ := heq
    obtain ⟨-, hs', -⟩ := operand_effect hs hleft
    have hreads := (operand_effect hs' hright).1
    cases hspells
    exact answers_operation.2 ⟨a, _, b, _, operand_replay hs hleft (hreads.values.trans hF),
      operand_replay hs' hright hF, rfl⟩
  | call callee trees =>
    obtain ⟨_, _, hcallee, hargs, heq⟩ := h
    simp only [Prod.mk.injEq] at heq
    obtain ⟨rfl, rfl, rfl⟩ := heq
    cases hspells
    exact answers_operation.2 ⟨_, _, hcallee, operands_replay hs hargs hF, rfl⟩

/-- Between two scopes instructions were added to the end of a block, with what they use. -/
structure Lists (block : Block) (insts : List Value) (s t : Scope) : Prop where
  values : s.body.values.PrefixOf t.body.values
  blocks : t.blocks = s.blocks
  entry : t.body.entry = s.body.entry
  outline : t.body.outline =
    s.body.outline.modify block fun b => { b with insts := b.insts ++ insts }

lemma addInst_replay {block : Block} {tree : InstTree} (hs : s.Closed module)
    (h : Answers (s.addInst module block tree) t) :
    t.Closed module ∧ ∃ inst, s.Lists block [inst] t ∧
      ∀ {values}, t.body.values.PrefixOf values → ∀ {tree'}, InstTree.Spells values inst tree' →
        Answers (s.canonical.addInst module block tree') t.canonical := by
  obtain ⟨op, args, s', inputs, outputs, hop, hin, htypes, hout, hroom, hblock, hname, rfl⟩ :=
    answers_addInst.1 h
  obtain ⟨hreads, hs', haccepts, hargs⟩ := operation_effect hs hop
  have hvalues := Table.PrefixOf.append s'.body.values (.inst op args outputs)
  refine ⟨⟨hs'.body.withInst hroom haccepts hargs, ?_, ?_⟩, ⟨s'.body.values.size⟩,
    ⟨hreads.values.trans hvalues, hreads.blocks, hreads.entry, ?_⟩, ?_⟩
  · intro p hp
    rcases List.mem_cons.1 hp with rfl | hp
    · exact ⟨_, Table.get?_append_size _ _, id⟩
    · obtain ⟨d, hd, hpointer⟩ := hs'.values p hp
      exact ⟨d, hvalues.get? hd, hpointer⟩
  · intro p hp
    simpa [Body.withInst] using hs'.blocks p hp
  · rw [← hreads.outline]
    exact Table.map_modify fun _ => rfl
  · intro values hF tree' hspells
    obtain ⟨hresult, op', args', types', hget, hspells⟩ := hspells
    rw [hF.get? (Table.get?_append_size _ _)] at hget
    obtain ⟨rfl, rfl, rfl⟩ := Def.inst.inj (Option.some.inj hget)
    refine answers_addInst.2 ⟨op, args, s'.canonical, inputs, outputs,
      operation_replay hs hop (hvalues.trans hF) hspells, hin, htypes, hout, hroom, hblock, ?_, ?_⟩
    · rw [hresult]
      exact hs'.fresh
    · rw [hresult]
      rfl

lemma addInsts_replay {block : Block} {trees : List InstTree} (hs : s.Closed module)
    (h : Answers (s.addInsts module block trees) t) :
    t.Closed module ∧ ∃ insts, s.Lists block insts t ∧
      ∀ {values}, t.body.values.PrefixOf values →
        ∀ {trees'}, List.Forall₂ (InstTree.Spells values) insts trees' →
          Answers (s.canonical.addInsts module block trees') t.canonical := by
  induction trees generalizing s with
  | nil =>
    rw [addInsts, answers_pure] at h
    subst h
    refine ⟨hs, [], ⟨.refl _, rfl, rfl, ?_⟩, ?_⟩
    · simp [Table.modify_eq_self]
    · intro values _ trees' hspells
      cases hspells
      rw [addInsts, answers_pure]
  | cons tree trees ih =>
    rw [addInsts, answers_bind] at h
    obtain ⟨s', htree, htrees⟩ := h
    obtain ⟨hs', inst, hlists, hreplay⟩ := addInst_replay hs htree
    obtain ⟨ht, insts, hlists', hreplay'⟩ := ih hs' htrees
    refine ⟨ht, inst :: insts, ⟨hlists.values.trans hlists'.values,
      hlists'.blocks.trans hlists.blocks, hlists'.entry.trans hlists.entry, ?_⟩, ?_⟩
    · rw [hlists'.outline, hlists.outline, Table.modify_modify]
      simp
    · intro values hF trees' hspells
      cases hspells with
      | cons hhead htail =>
        rw [addInsts, answers_bind]
        exact ⟨_, hreplay (hlists'.values.trans hF) hhead, hreplay' hF htail⟩

/-! ### Terminators and blocks -/

lemma target_effect {tree : TargetTree} {target : Target} (hs : s.Closed module)
    (h : Answers (s.target module line tree) (target, t)) :
    s.Reads t ∧ t.Closed module ∧ target.block.index < t.body.blocks.size ∧
      ∀ arg ∈ target.args, arg.index < t.body.values.size := by
  obtain ⟨block, args, t', data, hblock, hargs, hdata, -, heq⟩ := answers_target.1 h
  obtain ⟨rfl, rfl⟩ := Prod.mk.inj heq
  obtain ⟨hreads, ht, hlt⟩ := operands_effect hs hargs
  exact ⟨hreads, ht, Table.get?_lt hdata, hlt⟩

lemma target_replay {tree : TargetTree} {target : Target} (hs : s.Closed module)
    (h : Answers (s.target module line tree) (target, t)) (hF : t.body.values.PrefixOf values) :
    Answers (s.canonical.target module line' (.ofTarget values target)) (target, t.canonical) := by
  obtain ⟨block, args, t', data, hblock, hargs, hdata, htypes, heq⟩ := answers_target.1 h
  obtain ⟨rfl, rfl⟩ := Prod.mk.inj heq
  exact answers_target.2 ⟨block, args, _, data, lookup_index_of_mem (mem_of_lookup hblock),
    operands_replay hs hargs hF, hdata, htypes, rfl⟩

lemma terminator_effect {tree : TermTree} {term : Terminator} (hs : s.Closed module)
    (h : Answers (s.terminator module line tree) (term, t)) :
    s.Reads t ∧ t.Closed module ∧ term ≠ .missing ∧
      (∀ v ∈ term.operands, v.index < t.body.values.size) ∧
      ∀ target ∈ term.targets, target.block.index < t.body.blocks.size := by
  rw [answers_terminator] at h
  cases tree with
  | jump tree =>
    obtain ⟨target, t', htarget, heq⟩ := h
    obtain ⟨rfl, rfl⟩ := Prod.mk.inj heq
    obtain ⟨hreads, ht, hblock, hargs⟩ := target_effect hs htarget
    exact ⟨hreads, ht, by simp, hargs, by simpa [Terminator.targets] using hblock⟩
  | branch condTree trueTree falseTree =>
    obtain ⟨cond, s1, onTrue, s2, onFalse, t', hcond, -, htrue, hfalse, heq⟩ := h
    obtain ⟨rfl, rfl⟩ := Prod.mk.inj heq
    obtain ⟨hreads, hs1, hlt⟩ := operand_effect hs hcond
    obtain ⟨hreads1, hs2, htrueBlock, htrueArgs⟩ := target_effect hs1 htrue
    obtain ⟨hreads2, ht, hfalseBlock, hfalseArgs⟩ := target_effect hs2 hfalse
    have hblocks : t.body.blocks = s2.body.blocks := by
      rw [hreads2.body]
    refine ⟨(hreads.trans hreads1).trans hreads2, ht, by simp, ?_, ?_⟩
    · intro v hv
      simp only [Terminator.operands, List.cons_append, List.mem_cons, List.mem_append] at hv
      rcases hv with rfl | hv | hv
      · exact hlt.trans_le (hreads1.values.trans hreads2.values).size_le
      · exact (htrueArgs v hv).trans_le hreads2.values.size_le
      · exact hfalseArgs v hv
    · simp only [Terminator.targets, List.mem_cons, List.not_mem_nil, or_false]
      rintro target (rfl | rfl)
      · rwa [hblocks]
      · exact hfalseBlock
  | ret trees =>
    obtain ⟨args, t', hargs, -, heq⟩ := h
    obtain ⟨rfl, rfl⟩ := Prod.mk.inj heq
    obtain ⟨hreads, ht, hlt⟩ := operands_effect hs hargs
    exact ⟨hreads, ht, by simp, hlt, by simp [Terminator.targets]⟩
  | unreachable =>
    obtain ⟨rfl, rfl⟩ := Prod.mk.inj h
    exact ⟨.refl _, hs, by simp, by simp [Terminator.operands], by simp [Terminator.targets]⟩

lemma terminator_replay {tree tree' : TermTree} {term : Terminator} (hs : s.Closed module)
    (h : Answers (s.terminator module line tree) (term, t)) (hF : t.body.values.PrefixOf values)
    (hspells : TermTree.Spells values term tree') :
    Answers (s.canonical.terminator module line' tree') (term, t.canonical) := by
  rw [answers_terminator] at h
  cases tree with
  | jump tree =>
    obtain ⟨target, t', htarget, heq⟩ := h
    obtain ⟨rfl, rfl⟩ := Prod.mk.inj heq
    cases hspells
    exact answers_terminator.2 ⟨_, _, target_replay hs htarget hF, rfl⟩
  | branch condTree trueTree falseTree =>
    obtain ⟨cond, s1, onTrue, s2, onFalse, t', hcond, htype, htrue, hfalse, heq⟩ := h
    obtain ⟨rfl, rfl⟩ := Prod.mk.inj heq
    obtain ⟨-, hs1, -⟩ := operand_effect hs hcond
    obtain ⟨hreads1, hs2, -⟩ := target_effect hs1 htrue
    have hF2 := (target_effect hs2 hfalse).1.values.trans hF
    cases hspells
    exact answers_terminator.2 ⟨_, _, _, _, _, _,
      operand_replay hs hcond (hreads1.values.trans hF2), htype, target_replay hs1 htrue hF2,
      target_replay hs2 hfalse hF, rfl⟩
  | ret trees =>
    obtain ⟨args, t', hargs, htypes, heq⟩ := h
    obtain ⟨rfl, rfl⟩ := Prod.mk.inj heq
    cases hspells
    exact answers_terminator.2 ⟨_, _, operands_replay hs hargs hF, htypes, rfl⟩
  | unreachable =>
    obtain ⟨rfl, rfl⟩ := Prod.mk.inj h
    cases hspells
    exact answers_terminator.2 rfl

/-- Between two scopes a block got instructions and a terminator. -/
structure Fills (block : Block) (insts : List Value) (terminator : Terminator) (s t : Scope) :
    Prop where
  values : s.body.values.PrefixOf t.body.values
  blocks : t.blocks = s.blocks
  entry : t.body.entry = s.body.entry
  outline : t.body.outline = s.body.outline.modify block fun b =>
    { b with insts := b.insts ++ insts, terminator }

lemma fillBlock_replay {block : Block} {tree : BlockTree} (hs : s.Closed module)
    (h : Answers (s.fillBlock module tree block) t) :
    t.Closed module ∧ ∃ insts terminator, terminator ≠ .missing ∧ s.Fills block insts terminator t ∧
      ∀ {values}, t.body.values.PrefixOf values →
        ∀ {tree'}, List.Forall₂ (InstTree.Spells values) insts tree'.insts →
          TermTree.Spells values terminator tree'.term →
          Answers (s.canonical.fillBlock module tree' block) t.canonical := by
  obtain ⟨s1, terminator, s2, body, hinsts, hterm, hend, rfl⟩ := answers_fillBlock.1 h
  obtain ⟨hs1, insts, hlists, hreplay⟩ := addInsts_replay hs hinsts
  obtain ⟨hreads, hs2, hmissing, hoperands, htargets⟩ := terminator_effect hs1 hterm
  obtain ⟨hbody, hblock, houtline⟩ := Body.endBlock_effect hend
  have hvalues : body.values = s2.body.values := by
    rw [hbody]
  have hended : body.Closed module := by
    have hmodified : Body.Closed module { s2.body with
        blocks := s2.body.blocks.modify block fun b => { b with terminator } } :=
      hs2.body.modifyBlock fun b _ hb => ⟨hb.params, hb.insts, hoperands, htargets⟩
    rw [hbody]
    apply hmodified.of_outline
    rw [← Body.outline, houtline]
    symm
    apply Table.map_modify
    exact fun _ => rfl
  have hsize : body.blocks.size = s2.body.blocks.size := by
    simpa [Body.outline] using congrArg Table.size houtline
  refine ⟨⟨hended, ?_, ?_⟩, insts, terminator, hmissing,
    ⟨?_, hreads.blocks.trans hlists.blocks, ?_, ?_⟩, ?_⟩
  · rw [hvalues]
    exact hs2.values
  · rw [hsize]
    exact hs2.blocks
  · rw [hvalues]
    exact hlists.values.trans hreads.values
  · rw [hbody]
    exact hreads.entry.trans hlists.entry
  · rw [houtline, hreads.outline, hlists.outline, Table.modify_modify]
  · intro values hF tree' hspells hspells'
    rw [hvalues] at hF
    exact answers_fillBlock.2 ⟨_, terminator, _, body, hreplay (hreads.values.trans hF) hspells,
      terminator_replay hs1 hterm hF hspells', hend, rfl⟩

namespace Fills

variable {block other : Block} {insts : List Value} {terminator : Terminator}

lemma get?_other (h : s.Fills block insts terminator t) (hne : other ≠ block) :
    t.body.outline.get? other = s.body.outline.get? other := by
  rw [h.outline, Table.get?_modify, if_neg hne]

lemma get?_self (h : s.Fills block insts terminator t) {params : List (ValueType × Value)}
    (hempty : s.body.outline.get? block = some { params }) :
    t.body.outline.get? block = some { params, insts, terminator } := by
  rw [h.outline, Table.get?_modify, if_pos rfl, hempty]
  simp

end Fills

/-- Between two scopes all of these blocks were ended, and no other block changed. -/
structure FillsAll (blocks : List Block) (s t : Scope) : Prop where
  values : s.body.values.PrefixOf t.body.values
  entry : t.body.entry = s.body.entry
  size : t.body.blocks.size = s.body.blocks.size
  ended : ∀ block ∈ blocks, ∀ params, s.body.outline.get? block = some { params } →
    ∃ b, t.body.outline.get? block = some b ∧ b.params = params ∧ b.terminator ≠ .missing
  kept : ∀ block, block ∉ blocks → t.body.outline.get? block = s.body.outline.get? block

namespace FillsAll

lemma nil (s : Scope) : s.FillsAll [] s where
  values := .refl _
  entry := rfl
  size := rfl
  ended := by simp
  kept _ _ := rfl

lemma cons {block : Block} {blocks : List Block} {insts : List Value} {terminator : Terminator}
    {s' : Scope} (hfills : s.Fills block insts terminator s') (hmissing : terminator ≠ .missing)
    (hnew : block ∉ blocks) (h : s'.FillsAll blocks t) : s.FillsAll (block :: blocks) t where
  values := hfills.values.trans h.values
  entry := h.entry.trans hfills.entry
  size := by
    rw [h.size]
    simpa using congrArg Table.size hfills.outline
  ended other hother params hparams := by
    rcases List.mem_cons.1 hother with rfl | hother
    · exact ⟨_, by rw [h.kept _ hnew, hfills.get?_self hparams], rfl, hmissing⟩
    · have hne : other ≠ block := fun heq => hnew (heq ▸ hother)
      exact h.ended other hother params (by rw [hfills.get?_other hne, hparams])
  kept other hother := by
    rw [List.mem_cons, not_or] at hother
    rw [h.kept other hother.2, hfills.get?_other hother.1]

end FillsAll

/-- Filling blocks one after the other. Each of them is empty before, so what it holds at the end
is what filling it gave it. -/
lemma fillBlocks_replay {opened : List (BlockTree × Block)} (hs : s.Closed module)
    (hdistinct : (opened.map Prod.snd).Nodup)
    (hempty : ∀ block ∈ opened.map Prod.snd, ∃ params, s.body.outline.get? block = some { params })
    (h : Answers (s.fillBlocks module opened) t) :
    t.Closed module ∧ s.FillsAll (opened.map Prod.snd) t ∧
      ∀ {opened' : List (BlockTree × Block)}, opened'.map Prod.snd = opened.map Prod.snd →
        (∀ p ∈ opened', ∃ b, t.body.outline.get? p.2 = some b ∧
          BlockTree.Spells t.body.values p.2 b p.1) →
        Answers (s.canonical.fillBlocks module opened') t.canonical := by
  induction opened generalizing s with
  | nil =>
    rw [fillBlocks, answers_pure] at h
    subst h
    refine ⟨hs, .nil _, ?_⟩
    intro opened' hblocks _
    rw [List.map_nil, List.map_eq_nil_iff] at hblocks
    rw [hblocks, fillBlocks, answers_pure]
  | cons p opened ih =>
    obtain ⟨tree, block⟩ := p
    rw [fillBlocks, answers_bind] at h
    obtain ⟨s', hfill, hrest⟩ := h
    obtain ⟨hs', insts, terminator, hmissing, hfills, hreplay⟩ := fillBlock_replay hs hfill
    rw [List.map_cons, List.nodup_cons] at hdistinct
    obtain ⟨hnew, hdistinct⟩ := hdistinct
    have hempty' : ∀ other ∈ opened.map Prod.snd,
        ∃ params, s'.body.outline.get? other = some { params } := by
      intro other hother
      have hne : other ≠ block := by
        rintro rfl
        exact hnew hother
      rw [hfills.get?_other hne]
      exact hempty other (List.mem_cons_of_mem _ hother)
    obtain ⟨ht, hall, hreplay'⟩ := ih hs' hdistinct hempty' hrest
    refine ⟨ht, .cons hfills hmissing hnew hall, ?_⟩
    intro opened' hblocks hspells
    cases opened' with
    | nil => simp at hblocks
    | cons p' opened' =>
      obtain ⟨tree', block'⟩ := p'
      simp only [List.map_cons, List.cons.injEq] at hblocks
      obtain ⟨rfl, hblocks⟩ := hblocks
      obtain ⟨params, hparams⟩ := hempty _ List.mem_cons_self
      -- No later step touches this block, so the tree spells what filling it gave it.
      obtain ⟨b, hb, htree⟩ := hspells _ List.mem_cons_self
      rw [hall.kept _ hnew, hfills.get?_self hparams, Option.some.injEq] at hb
      subst hb
      rw [fillBlocks, answers_bind]
      exact ⟨_, hreplay hall.values htree.insts htree.term,
        hreplay' hblocks fun p hp => hspells p (List.mem_cons_of_mem _ hp)⟩

end Scope

end Source

end EntryTrace
