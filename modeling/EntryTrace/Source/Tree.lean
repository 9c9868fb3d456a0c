import EntryTrace.Operator

/-!
# Syntax trees

What a text says, before anything it names is looked up. Values and blocks carry the numbers
that the text gives them, which mean nothing beyond telling one from another.
-/

namespace EntryTrace.Source

inductive OperandTree
  | value (name : Nat)
  | str (index : Nat)
  deriving DecidableEq

inductive OpTree
  | nop
  | const32 (value : Int)
  | const64 (value : Int)
  | binary (op : BinaryOp) (left right : OperandTree)
  | call (callee : Nat) (args : List OperandTree)
  deriving DecidableEq

structure InstTree where
  line : Nat
  result : Nat
  op : OpTree
  deriving DecidableEq

structure TargetTree where
  block : Nat
  args : List OperandTree
  deriving DecidableEq

inductive TermTree
  | jump (target : TargetTree)
  | branch (cond : OperandTree) (onTrue onFalse : TargetTree)
  | ret (values : List OperandTree)
  | unreachable
  deriving DecidableEq

structure BlockTree where
  line : Nat
  name : Nat
  params : List (Nat × ValueType)
  insts : List InstTree
  term : TermTree
  termLine : Nat
  deriving DecidableEq

structure FuncTree where
  line : Nat
  name : String
  signature : Nat
  /-- The blocks of a function with a body; at least one. -/
  blocks? : Option (List BlockTree)
  deriving DecidableEq

structure ModuleTree where
  types : Array FuncType := #[]
  strings : Array String := #[]
  funcs : Array FuncTree := #[]
  deriving DecidableEq

end EntryTrace.Source
