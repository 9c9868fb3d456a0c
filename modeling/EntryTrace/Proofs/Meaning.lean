import EntryTrace.Proofs.ReadingOrder

/-!
# What trees say of bodies

Once it is known what the names in a text stand for, the trees of a function say what the blocks
of its body list and how the listed values come about. They say nothing of the numbers that
values have, nor of those of pointers, which no name stands for.
-/

namespace EntryTrace.Source

/-- What the names of values and of blocks stand for. -/
structure Naming where
  value : Nat → Value → Prop
  block : Nat → Block → Prop

/-- What one naming says, the other says as well. -/
structure Naming.Within (naming naming' : Naming) : Prop where
  value : ∀ name v, naming.value name v → naming'.value name v
  block : ∀ name b, naming.block name b → naming'.block name b

namespace Naming.Within

variable {naming naming' naming'' : Naming}

@[refl] lemma refl (naming : Naming) : naming.Within naming := ⟨fun _ _ => id, fun _ _ => id⟩

lemma trans (h : naming.Within naming') (h' : naming'.Within naming'') : naming.Within naming'' where
  value name v hv := h'.value name v (h.value name v hv)
  block name b hb := h'.block name b (h.block name b hb)

end Naming.Within

/-- Names stand for one value of the body each, which is no pointer, and for one block each. -/
structure Naming.Fits (naming : Naming) (body : Body) : Prop where
  value : ∀ name v v', naming.value name v → naming.value name v' → v = v'
  block : ∀ name b b', naming.block name b → naming.block name b' → b = b'
  named : ∀ name v, naming.value name v →
    ∃ d, body.values.get? v = some d ∧ ∀ str, d ≠ .strRef str

lemma Naming.Fits.isPointer {naming : Naming} {body : Body} (h : naming.Fits body) {name : Nat}
    {v : Value} (hname : naming.value name v) : body.isPointer v = false := by
  obtain ⟨d, hd, hpointer⟩ := h.named name v hname
  exact Body.isPointer_eq_false hd hpointer

/-- An operand stands for a value by its name, or for a pointer by its string. -/
inductive OperandTree.Means (naming : Naming) (body : Body) : OperandTree → Value → Prop
  | value {name : Nat} {v : Value} (h : naming.value name v) : Means naming body (.value name) v
  | str {index : Nat} {v : Value} (h : body.values.get? v = some (.strRef ⟨index⟩)) :
    Means naming body (.str index) v

/-- The tree stands for an operator with its operands. -/
inductive OpTree.Means (naming : Naming) (body : Body) : OpTree → Operator → List Value → Prop
  | nop : Means naming body .nop .nop []
  | const32 (value : Int) : Means naming body (.const32 value) (.const32 (.ofInt value)) []
  | const64 (value : Int) : Means naming body (.const64 value) (.const64 (.ofInt value)) []
  | binary (op : BinaryOp) {left right : OperandTree} {a b : Value}
    (hleft : left.Means naming body a) (hright : right.Means naming body b) :
    Means naming body (.binary op left right) (.binary op) [a, b]
  | call (callee : Nat) {trees : List OperandTree} {args : List Value}
    (hargs : List.Forall₂ (OperandTree.Means naming body) trees args) :
    Means naming body (.call callee trees) (.call ⟨callee⟩) args

/-- The tree stands for an instruction, which its result names. -/
def InstTree.Means (naming : Naming) (body : Body) (tree : InstTree) (inst : Value) : Prop :=
  naming.value tree.result inst ∧ ∃ op args types,
    body.values.get? inst = some (.inst op args types) ∧ tree.op.Means naming body op args

/-- The tree stands for a target. -/
structure TargetTree.Means (naming : Naming) (body : Body) (tree : TargetTree) (target : Target) :
    Prop where
  block : naming.block tree.block target.block
  args : List.Forall₂ (OperandTree.Means naming body) tree.args target.args

/-- The tree stands for a terminator, which therefore is not missing. -/
inductive TermTree.Means (naming : Naming) (body : Body) : TermTree → Terminator → Prop
  | jump {tree : TargetTree} {target : Target} (h : tree.Means naming body target) :
    Means naming body (.jump tree) (.jump target)
  | branch {condTree : OperandTree} {trueTree falseTree : TargetTree} {cond : Value}
    {onTrue onFalse : Target} (hcond : condTree.Means naming body cond)
    (htrue : trueTree.Means naming body onTrue) (hfalse : falseTree.Means naming body onFalse) :
    Means naming body (.branch condTree trueTree falseTree) (.branch cond onTrue onFalse)
  | ret {trees : List OperandTree} {args : List Value}
    (hargs : List.Forall₂ (OperandTree.Means naming body) trees args) :
    Means naming body (.ret trees) (.ret args)
  | unreachable : Means naming body .unreachable .unreachable

/-- Parameters stand for parameters of the same types. -/
def ParamsMean (naming : Naming) (trees : List (Nat × ValueType))
    (params : List (ValueType × Value)) : Prop :=
  List.Forall₂ (fun tree param => tree.2 = param.1 ∧ naming.value tree.1 param.2) trees params

lemma ParamsMean.mono {naming naming' : Naming} {trees : List (Nat × ValueType)}
    {params : List (ValueType × Value)} (h : ParamsMean naming trees params)
    (hwithin : naming.Within naming') : ParamsMean naming' trees params :=
  List.Forall₂.imp (fun _ _ hparam => ⟨hparam.1, hwithin.value _ _ hparam.2⟩) h

/-- The tree stands for a block. -/
structure BlockTree.Means (naming : Naming) (body : Body) (tree : BlockTree) (data : BlockData) :
    Prop where
  params : ParamsMean naming tree.params data.params
  insts : List.Forall₂ (InstTree.Means naming body) tree.insts data.insts
  term : tree.term.Means naming body data.terminator

/-- The trees stand for the blocks of a body, in order. -/
structure BlockTree.AllMean (naming : Naming) (body : Body) (trees : List BlockTree) : Prop where
  blocks : List.Forall₂ (BlockTree.Means naming body) trees body.blocks.toList
  names : ∀ i tree, trees[i]? = some tree → naming.block tree.name ⟨i⟩

end EntryTrace.Source
