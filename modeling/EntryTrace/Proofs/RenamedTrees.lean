import EntryTrace.Proofs.RenamedText

/-!
# Trees with other names

When two syntax trees are the same up to the names of values and blocks, and how the words that are
names and those that are not are told apart.
-/

namespace EntryTrace.Source

open Grammar (Names)

/-! ### Renamed trees -/

section Trees

variable (ren : Renaming)

/-- The value named by the first number has become the one named by the second. -/
def Renaming.Values (i i' : Nat) : Prop := i < 2 ^ 64 ∧ i' = ren.value i

def Renaming.Blocks (i i' : Nat) : Prop := i < 2 ^ 64 ∧ i' = ren.block i

inductive OperandTree.Renamed : OperandTree → OperandTree → Prop
  | value {i i' : Nat} (h : ren.Values i i') : OperandTree.Renamed (.value i) (.value i')
  | str (i : Nat) : OperandTree.Renamed (.str i) (.str i)

inductive OpTree.Renamed : OpTree → OpTree → Prop
  | nop : OpTree.Renamed .nop .nop
  | const32 (value : Int) : OpTree.Renamed (.const32 value) (.const32 value)
  | const64 (value : Int) : OpTree.Renamed (.const64 value) (.const64 value)
  | binary (op : BinaryOp) {left left' right right' : OperandTree} (hleft : left.Renamed ren left')
    (hright : right.Renamed ren right') :
    OpTree.Renamed (.binary op left right) (.binary op left' right')
  | call (callee : Nat) {args args' : List OperandTree}
    (hargs : List.Forall₂ (OperandTree.Renamed ren) args args') :
    OpTree.Renamed (.call callee args) (.call callee args')

structure InstTree.Renamed (inst inst' : InstTree) : Prop where
  line : inst'.line = inst.line
  result : ren.Values inst.result inst'.result
  op : inst.op.Renamed ren inst'.op

structure TargetTree.Renamed (target target' : TargetTree) : Prop where
  block : ren.Blocks target.block target'.block
  args : List.Forall₂ (OperandTree.Renamed ren) target.args target'.args

inductive TermTree.Renamed : TermTree → TermTree → Prop
  | jump {target target' : TargetTree} (htarget : target.Renamed ren target') :
    TermTree.Renamed (.jump target) (.jump target')
  | branch {cond cond' : OperandTree} {onTrue onTrue' onFalse onFalse' : TargetTree}
    (hcond : cond.Renamed ren cond') (htrue : onTrue.Renamed ren onTrue')
    (hfalse : onFalse.Renamed ren onFalse') :
    TermTree.Renamed (.branch cond onTrue onFalse) (.branch cond' onTrue' onFalse')
  | ret {values values' : List OperandTree}
    (hvalues : List.Forall₂ (OperandTree.Renamed ren) values values') :
    TermTree.Renamed (.ret values) (.ret values')
  | unreachable : TermTree.Renamed .unreachable .unreachable

/-- A parameter has become another of the same type. -/
def ParamRenamed (param param' : Nat × ValueType) : Prop :=
  ren.Values param.1 param'.1 ∧ param'.2 = param.2

structure BlockTree.Renamed (block block' : BlockTree) : Prop where
  line : block'.line = block.line
  name : ren.Blocks block.name block'.name
  params : List.Forall₂ (ParamRenamed ren) block.params block'.params
  insts : List.Forall₂ (InstTree.Renamed ren) block.insts block'.insts
  term : block.term.Renamed ren block'.term
  termLine : block'.termLine = block.termLine

end Trees

/-- The names in the body of a function have become others. -/
structure FuncTree.Renamed (func func' : FuncTree) : Prop where
  line : func'.line = func.line
  name : func'.name = func.name
  signature : func'.signature = func.signature
  blocks : Option.Rel (fun blocks blocks' =>
    ∃ ren, List.Forall₂ (BlockTree.Renamed ren) blocks blocks') func.blocks? func'.blocks?

/-- The names in the functions have become others, in each function in its own way. -/
structure ModuleTree.Renamed (tree tree' : ModuleTree) : Prop where
  types : tree'.types = tree.types
  strings : tree'.strings = tree.strings
  funcs : List.Forall₂ FuncTree.Renamed tree.funcs.toList tree'.funcs.toList

/-! ### Words -/

lemma entityIndex?_of_names {kind kind' : Kind} {name : String} {i : Nat} (h : Names kind i name)
    (hne : kind' ≠ kind) : entityIndex? kind' name = none :=
  entityIndex?_eq_none.2 fun _ hi => hne (hi.kind_eq h)

namespace Renaming.Words

variable {ren : Renaming} {name name' keyword : String}

lemma valueIndex (h : ren.Words name name') :
    Option.Rel ren.Values (entityIndex? .value name) (entityIndex? .value name') := by
  cases h with
  | value h h' =>
    rw [entityIndex?_eq_some.2 h, entityIndex?_eq_some.2 h']
    obtain ⟨_, _, _, _, _, hlt⟩ := h
    exact .some ⟨hlt, rfl⟩
  | block h h' =>
    have hne : Kind.value ≠ Kind.block := nofun
    rw [entityIndex?_of_names h hne, entityIndex?_of_names h' hne]
    exact .none
  | other hvalue =>
    rw [entityIndex?_eq_none.2 hvalue]
    exact .none

lemma blockIndex (h : ren.Words name name') :
    Option.Rel ren.Blocks (entityIndex? .block name) (entityIndex? .block name') := by
  cases h with
  | value h h' =>
    have hne : Kind.block ≠ Kind.value := nofun
    rw [entityIndex?_of_names h hne, entityIndex?_of_names h' hne]
    exact .none
  | block h h' =>
    rw [entityIndex?_eq_some.2 h, entityIndex?_eq_some.2 h']
    obtain ⟨_, _, _, _, _, hlt⟩ := h
    exact .some ⟨hlt, rfl⟩
  | other _ hblock =>
    rw [entityIndex?_eq_none.2 hblock]
    exact .none

/-- The first word is the second one, or both name entities of one kind, values or blocks. -/
lemma eq_or_names (h : ren.Words name name') : name' = name ∨
    ∃ kind index index', (kind = .value ∨ kind = .block) ∧ Names kind index name ∧
      Names kind index' name' := by
  cases h with
  | value h h' => exact .inr ⟨_, _, _, .inl rfl, h, h'⟩
  | block h h' => exact .inr ⟨_, _, _, .inr rfl, h, h'⟩
  | other => exact .inl rfl

/-- Other entities keep their numbers. -/
lemma otherIndex (h : ren.Words name name') {kind : Kind} (hvalue : kind ≠ .value)
    (hblock : kind ≠ .block) : entityIndex? kind name' = entityIndex? kind name := by
  obtain rfl | ⟨found, i, i', hfound, h, h'⟩ := h.eq_or_names
  · rfl
  · have hne : kind ≠ found := by
      rintro rfl
      exact hfound.elim hvalue hblock
    rw [entityIndex?_of_names h hne, entityIndex?_of_names h' hne]

/-- A word that names no entity is kept. -/
lemma keyword_iff (h : ren.Words name name') (hkeyword : ∀ kind index, ¬ Names kind index keyword) :
    name = keyword ↔ name' = keyword := by
  obtain rfl | ⟨kind, i, i', -, h, h'⟩ := h.eq_or_names
  · rfl
  · constructor
    · rintro rfl
      exact absurd h (hkeyword _ _)
    · rintro rfl
      exact absurd h' (hkeyword _ _)

end Renaming.Words

section Keywords

variable {kind : Kind} {index : Nat}

lemma not_names_typeName (type : ValueType) : ¬ Names kind index type.name := by
  rw [← entityIndex?_eq_some]
  cases kind <;> cases type <;> exact nofun

lemma not_names_mnemonic (op : BinaryOp) : ¬ Names kind index op.mnemonic := by
  rw [← entityIndex?_eq_some]
  cases kind <;> cases op <;> exact nofun

lemma ofMnemonic?_of_names {name : String} (h : Names kind index name) :
    BinaryOp.ofMnemonic? name = none := by
  rw [Option.eq_none_iff_forall_ne_some]
  intro op hop
  obtain rfl := Reader.mnemonic_eq_of_ofMnemonic?.1 hop
  exact not_names_mnemonic op h

lemma ofName?_of_names {name : String} (h : Names kind index name) :
    ValueType.ofName? name = none := by
  rw [Option.eq_none_iff_forall_ne_some]
  intro type htype
  obtain rfl := Reader.name_eq_of_ofName?.1 htype
  exact not_names_typeName type h

end Keywords

end EntryTrace.Source
