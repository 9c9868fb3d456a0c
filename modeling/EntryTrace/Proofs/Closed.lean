import EntryTrace.Proofs.Resolving

/-!
# References that lead somewhere

A body is closed in a module if everything it refers to is there: values, blocks, strings and
functions. Each step that builds a body keeps it closed, and so does each step of resolving.
Only the numbers of strings and functions of the module matter.
-/

namespace EntryTrace

/-- The values that a terminator uses. -/
def Terminator.operands : Terminator → List Value
  | .jump target => target.args
  | .branch cond onTrue onFalse => cond :: onTrue.args ++ onFalse.args
  | .ret values => values
  | .unreachable | .missing => []

lemma Terminator.mem_operands {term : Terminator} {target : Target} {arg : Value}
    (ht : target ∈ term.targets) (harg : arg ∈ target.args) : arg ∈ term.operands := by
  cases term with
  | jump =>
    rw [Terminator.targets, List.mem_singleton] at ht
    exact ht ▸ harg
  | branch cond onTrue onFalse =>
    simp only [Terminator.targets, List.mem_cons, List.not_mem_nil, or_false] at ht
    simp only [Terminator.operands, List.cons_append, List.mem_cons, List.mem_append]
    rcases ht with rfl | rfl
    · exact .inr (.inl harg)
    · exact .inr (.inr harg)
  | ret => simp [Terminator.targets] at ht
  | unreachable => simp [Terminator.targets] at ht
  | missing => simp [Terminator.targets] at ht

/-- The operator can have these operands, as far as their number goes, and its callee exists. -/
def Operator.Accepts (module : Module) (args : List Value) : Operator → Prop
  | .nop | .const32 _ | .const64 _ => args = []
  | .binary _ => ∃ left right, args = [left, right]
  | .call callee => callee.index < module.funcs.size

/-- What a definition refers to is there, `width` being the number of values. -/
def Def.Closed (module : Module) (width : Nat) : Def → Prop
  | .param .. => True
  | .inst op args _ => op.Accepts module args ∧ ∀ arg ∈ args, arg.index < width
  | .strRef str => str.index < module.strings.size
  | .undefined => False

/-- What a block refers to is there, and its instructions are instructions. -/
structure BlockData.Closed (values : Table .value Def) (blocks : Nat) (b : BlockData) : Prop where
  params : ∀ p ∈ b.params, p.2.index < values.size
  insts : ∀ v ∈ b.insts, ∃ op args types, values.get? v = some (.inst op args types)
  operands : ∀ v ∈ b.terminator.operands, v.index < values.size
  targets : ∀ target ∈ b.terminator.targets, target.block.index < blocks

/-- What a body refers to is there, and there are no more values and blocks than entities. -/
structure Body.Closed (module : Module) (body : Body) : Prop where
  entry : body.entry.index < body.blocks.size
  values : ∀ d ∈ body.values.toList, d.Closed module body.values.size
  blocks : ∀ b ∈ body.blocks.toList, b.Closed body.values body.blocks.size
  valueLimit : body.values.size ≤ Entity.limit
  blockLimit : body.blocks.size ≤ Entity.limit

/-- Everything in the module refers to what is there. -/
structure Module.Closed (m : Module) : Prop where
  signatures : m.SignaturesInRange
  bodies : ∀ decl ∈ m.funcs.toList, ∀ body ∈ decl.body?, body.Closed m

/-- Every block of the body has a terminator. -/
def Body.Finished (body : Body) : Prop := ∀ b ∈ body.blocks.toList, b.terminator ≠ .missing

/-- What holds of modules that were read from text, beyond being closed. -/
structure Module.Readable (m : Module) : Prop extends Module.Closed m where
  finished : ∀ decl ∈ m.funcs.toList, ∀ body ∈ decl.body?, body.Finished
  returns : ∀ type ∈ m.signatures.toList, type.returns.length ≤ 1
  signatureLimit : m.signatures.size ≤ Entity.limit
  stringLimit : m.strings.size ≤ Entity.limit
  funcLimit : m.funcs.size ≤ Entity.limit

section Bodies

variable {module : Module} {body : Body} {block : Block} {d : Def} {n n' : Nat}

lemma Def.Closed.mono (h : d.Closed module n) (hn : n ≤ n') : d.Closed module n' := by
  cases d with
  | param => trivial
  | inst op args types => exact ⟨h.1, fun arg harg => (h.2 arg harg).trans_le hn⟩
  | strRef => exact h
  | undefined => exact h

lemma BlockData.Closed.mono {values values' : Table .value Def} {b : BlockData}
    (h : b.Closed values n) (hvalues : values.PrefixOf values') (hn : n ≤ n') :
    b.Closed values' n' where
  params p hp := (h.params p hp).trans_le hvalues.size_le
  insts v hv := by
    obtain ⟨op, args, types, hget⟩ := h.insts v hv
    exact ⟨op, args, types, hvalues.get? hget⟩
  operands v hv := (h.operands v hv).trans_le hvalues.size_le
  targets target ht := (h.targets target ht).trans_le hn

lemma BlockData.closed_empty (values : Table .value Def) (n : Nat) :
    ({} : BlockData).Closed values n where
  params p hp := by simp at hp
  insts v hv := by simp at hv
  operands v hv := by simp [Terminator.operands] at hv
  targets target ht := by simp [Terminator.targets] at ht

namespace Body.Closed

lemma congr {other : Module} (h : body.Closed module)
    (hstrings : other.strings.size = module.strings.size)
    (hfuncs : other.funcs.size = module.funcs.size) : body.Closed other where
  entry := h.entry
  values d hd := by
    have hclosed := h.values d hd
    cases d with
    | param => trivial
    | inst op args types =>
      refine ⟨?_, hclosed.2⟩
      have haccepts := hclosed.1
      cases op with
      | call callee => simpa only [Operator.Accepts, hfuncs] using haccepts
      | nop => exact haccepts
      | const32 => exact haccepts
      | const64 => exact haccepts
      | binary => exact haccepts
    | strRef => simpa only [Def.Closed, hstrings] using hclosed
    | undefined => exact hclosed
  blocks := h.blocks
  valueLimit := h.valueLimit
  blockLimit := h.blockLimit

lemma withValue (h : body.Closed module) (hroom : body.values.size < Entity.limit)
    (hd : d.Closed module (body.values.size + 1)) : (body.withValue d).Closed module where
  entry := h.entry
  values d' hd' := by
    simp only [Body.withValue, Table.toList_append, List.mem_append, List.mem_singleton,
      Table.size_append] at hd' ⊢
    rcases hd' with hd' | rfl
    · exact (h.values d' hd').mono (Nat.le_succ _)
    · exact hd
  blocks b hb := (h.blocks b hb).mono (Table.PrefixOf.append _ _) (le_refl _)
  valueLimit := by
    rw [Body.withValue, Table.size_append]
    exact hroom
  blockLimit := h.blockLimit

lemma modifyBlock (h : body.Closed module) {f : BlockData → BlockData}
    {home : SideTable .value Block}
    (hf : ∀ b, body.blocks.get? block = some b → b.Closed body.values body.blocks.size →
      (f b).Closed body.values body.blocks.size) :
    Body.Closed module { body with blocks := body.blocks.modify block f, home } where
  entry := by
    rw [Table.size_modify]
    exact h.entry
  values := h.values
  blocks b hb := by
    rw [Table.size_modify]
    rcases Table.mem_modify hb with hb | ⟨a, ha, rfl⟩
    · exact h.blocks b hb
    · exact hf a ha (h.blocks a (Table.mem_of_get? ha))
  valueLimit := h.valueLimit
  blockLimit := by
    rw [Table.size_modify]
    exact h.blockLimit

lemma withParam (h : body.Closed module) (hroom : body.values.size < Entity.limit)
    (position : Nat) (type : ValueType) : (body.withParam block position type).Closed module := by
  have hvalue := h.withValue (d := .param block position type) hroom trivial
  apply hvalue.modifyBlock
  intro b _ hb
  exact { hb with
    params := by
      intro p hp
      rcases List.mem_append.1 hp with hp | hp
      · exact hb.params p hp
      · rw [List.mem_singleton.1 hp]
        simp [Body.withValue] }

lemma withInst (h : body.Closed module) (hroom : body.values.size < Entity.limit)
    {op : Operator} {args : List Value} {types : List ValueType} (hop : op.Accepts module args)
    (hargs : ∀ arg ∈ args, arg.index < body.values.size) :
    (body.withInst block (.inst op args types)).Closed module := by
  have hvalue := h.withValue (d := .inst op args types) hroom
    ⟨hop, fun arg harg => Nat.lt_succ_of_lt (hargs arg harg)⟩
  apply hvalue.modifyBlock
  intro b _ hb
  exact { hb with
    insts := by
      intro v hv
      rcases List.mem_append.1 hv with hv | hv
      · exact hb.insts v hv
      · rw [List.mem_singleton.1 hv]
        exact ⟨op, args, types, Table.get?_append_size _ _⟩ }

lemma addBlock (h : body.Closed module) (hroom : body.blocks.size < Entity.limit) :
    Body.Closed module { body with blocks := body.blocks.append {} } where
  entry := by
    rw [Table.size_append]
    exact Nat.lt_succ_of_lt h.entry
  values := h.values
  blocks b hb := by
    rw [Table.toList_append, List.mem_append, List.mem_singleton] at hb
    rw [Table.size_append]
    rcases hb with hb | rfl
    · exact (h.blocks b hb).mono (.refl _) (Nat.le_succ _)
    · exact BlockData.closed_empty _ _
  valueLimit := h.valueLimit
  blockLimit := by
    rw [Table.size_append]
    exact hroom

lemma of_outline {blocks : Table .block BlockData} (h : body.Closed module)
    (houtline : blocks.map BlockData.withoutEdges = body.outline) :
    Body.Closed module { body with blocks } := by
  have hsize : blocks.size = body.blocks.size := by
    simpa [Body.outline] using congrArg Table.size houtline
  exact { h with
    entry := by
      rw [hsize]
      exact h.entry
    blocks := by
      intro b hb
      have hmem : b.withoutEdges ∈ body.outline.toList := by
        rw [← houtline, Table.toList_map]
        exact List.mem_map_of_mem hb
      rw [Body.outline, Table.toList_map] at hmem
      obtain ⟨b', hb', heq⟩ := List.mem_map.1 hmem
      have hclosed := h.blocks b' hb'
      simp only [BlockData.withoutEdges, BlockData.mk.injEq] at heq
      obtain ⟨hparams, hinsts, hterminator, -⟩ := heq
      rw [hsize]
      exact ⟨hparams ▸ hclosed.params, hinsts ▸ hclosed.insts, hterminator ▸ hclosed.operands,
        hterminator ▸ hclosed.targets⟩
    blockLimit := by
      rw [hsize]
      exact h.blockLimit }

end Body.Closed

end Bodies

end EntryTrace
