import Mathlib
import EntryTrace.Source.Tree

/-!
# Well-typed syntax trees

When a syntax tree makes sense, said of the tree alone. Names are looked up among those of all
parameters of a function and of the instructions that are earlier in the text; each stands for a
value that has a type, or for the result of an instruction that has none.
-/

namespace EntryTrace.Source

/-- Every element of a list has the property together with the elements before it. -/
def Stepwise {α : Type} (P : List α → α → Prop) (l : List α) : Prop :=
  ∀ before a after, l = before ++ a :: after → P before a

/-- The names of values with their types; a result that is none has no type. -/
abbrev Types := List (Nat × Option ValueType)

/-- The type of the function of an index, if that function and its signature exist. -/
def ModuleTree.funcType? (tree : ModuleTree) (index : Nat) : Option FuncType :=
  tree.funcs[index]?.bind fun func => tree.types[func.signature]?

variable (tree : ModuleTree)

/-- The operand is there, and has the type, or none. -/
def OperandTree.Gives (types : Types) : OperandTree → Option ValueType → Prop
  | .value name, type => (name, type) ∈ types
  | .str index, type => index < tree.strings.size ∧ type = some .ptr

/-- The operands are there, and have exactly these types. -/
def OperandsTyped (types : Types) (operands : List OperandTree) (expected : List ValueType) : Prop :=
  List.Forall₂ (fun operand type => operand.Gives tree types (some type)) operands expected

namespace OpTree

def operands : OpTree → List OperandTree
  | .nop | .const32 _ | .const64 _ => []
  | .binary _ left right => [left, right]
  | .call _ args => args

/-- What the operator takes and returns, if its callee exists. -/
def type? : OpTree → Option FuncType
  | .nop => some ⟨[], []⟩
  | .const32 _ => some ⟨[], [.i32]⟩
  | .const64 _ => some ⟨[], [.i64]⟩
  | .binary op _ _ => some ⟨[op.operandType, op.operandType], [op.resultType]⟩
  | .call callee _ => tree.funcType? callee

/-- A constant lies among those that its type can hold, signed or unsigned. -/
def Fits : OpTree → Prop
  | .const32 value => -2 ^ 31 ≤ value ∧ value ≤ 2 ^ 32 - 1
  | .const64 value => -2 ^ 63 ≤ value ∧ value ≤ 2 ^ 64 - 1
  | _ => True

/-- The operator exists and has operands as it takes them. -/
def WellTyped (types : Types) (op : OpTree) : Prop :=
  op.Fits ∧ ∃ type, op.type? tree = some type ∧ OperandsTyped tree types op.operands type.params

end OpTree

/-- What an instruction adds to the names. -/
def InstTree.typing (inst : InstTree) : Nat × Option ValueType :=
  (inst.result, (inst.op.type? tree).bind fun type => type.returns.head?)

/-- What parameters add to the names. -/
def typingsOf (params : List (Nat × ValueType)) : Types := params.map fun p => (p.1, some p.2)

/-- The blocks of a function by their names, with the types of their parameters. -/
abbrev Heads := List (Nat × List ValueType)

def BlockTree.head (block : BlockTree) : Nat × List ValueType :=
  (block.name, block.params.map Prod.snd)

/-- The target is a block, and the arguments have the types of its parameters. -/
def TargetTree.WellTyped (heads : Heads) (types : Types) (target : TargetTree) : Prop :=
  ∃ params, (target.block, params) ∈ heads ∧ OperandsTyped tree types target.args params

def TermTree.WellTyped (heads : Heads) (returns : List ValueType) (types : Types) : TermTree → Prop
  | .jump target => target.WellTyped tree heads types
  | .branch cond onTrue onFalse => cond.Gives tree types (some .i32) ∧
    onTrue.WellTyped tree heads types ∧ onFalse.WellTyped tree heads types
  | .ret values => OperandsTyped tree types values returns
  | .unreachable => True

/-- Instructions and terminator of a block make sense, `types` being what is named before. -/
structure BlockTree.WellTyped (heads : Heads) (returns : List ValueType) (types : Types)
    (block : BlockTree) : Prop where
  insts : Stepwise (fun earlier inst =>
    inst.op.WellTyped tree (types ++ earlier.map (InstTree.typing tree))) block.insts
  term : block.term.WellTyped tree heads returns
    (types ++ block.insts.map (InstTree.typing tree))

/-- The parameters of all blocks, which may be used in every block. -/
def paramTypes (blocks : List BlockTree) : Types := blocks.flatMap fun b => typingsOf b.params

/-- The results of all instructions of some blocks. -/
def resultTypes (blocks : List BlockTree) : Types :=
  (blocks.flatMap BlockTree.insts).map (InstTree.typing tree)

/-- The blocks make sense as those of a function of the given type. -/
structure BodyWellTyped (type : FuncType) (blocks : List BlockTree) : Prop where
  blockNames : (blocks.map BlockTree.name).Nodup
  valueNames : (((blocks.flatMap BlockTree.params).map Prod.fst) ++
    (blocks.flatMap BlockTree.insts).map InstTree.result).Nodup
  entryParams : ∀ entry ∈ blocks.head?, entry.params.map Prod.snd = type.params
  blocks : Stepwise (fun before block =>
    block.WellTyped tree (blocks.map BlockTree.head) type.returns
      (paramTypes blocks ++ resultTypes tree before)) blocks

/-- The blocks of a function make sense as those of one with its signature. -/
def FuncTree.WellTyped (func : FuncTree) : Prop :=
  ∀ blocks ∈ func.blocks?, ∀ type, tree.types[func.signature]? = some type →
    BodyWellTyped tree type blocks

/-- The tree makes sense. -/
structure ModuleTree.WellTyped : Prop where
  signatures : ∀ func ∈ tree.funcs.toList, func.signature < tree.types.size
  funcs : ∀ func ∈ tree.funcs.toList, func.WellTyped tree

/-! ### Counting what a tree asks for -/

/-- How many pointers the operands ask for. -/
def pointerCount (operands : List OperandTree) : Nat :=
  operands.countP fun operand => operand matches .str _

def TermTree.operands : TermTree → List OperandTree
  | .jump target => target.args
  | .branch cond onTrue onFalse => cond :: onTrue.args ++ onFalse.args
  | .ret values => values
  | .unreachable => []

/-- How many values an instruction makes. -/
def InstTree.valueCount (inst : InstTree) : Nat := pointerCount inst.op.operands + 1

/-- How many values filling a block makes. -/
def BlockTree.valueCount (block : BlockTree) : Nat :=
  (block.insts.map InstTree.valueCount).sum + pointerCount block.term.operands

/-- How many values the body of a function has. -/
def valueCount (type : FuncType) (blocks : List BlockTree) : Nat :=
  type.params.length + (blocks.tail.map fun block => block.params.length).sum +
    (blocks.map BlockTree.valueCount).sum

/-- There are numbers enough for the blocks and values of a function. -/
def FuncTree.WithinLimits (func : FuncTree) : Prop :=
  ∀ blocks ∈ func.blocks?, blocks.length ≤ Entity.limit ∧
    ∀ type, tree.types[func.signature]? = some type → valueCount type blocks ≤ Entity.limit

/-- There are numbers enough for everything that the tree asks for. -/
structure ModuleTree.WithinLimits : Prop where
  types : tree.types.size ≤ Entity.limit
  strings : tree.strings.size ≤ Entity.limit
  funcs : tree.funcs.size ≤ Entity.limit
  bodies : ∀ func ∈ tree.funcs.toList, func.WithinLimits tree

end EntryTrace.Source
