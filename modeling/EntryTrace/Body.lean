import EntryTrace.Operator
import EntryTrace.Table

/-!
# Function bodies

A body is a control-flow graph. Its values are numbered in one table; a block lists the values
that are its parameters and those that are its instructions, and ends in a terminator.
-/

namespace EntryTrace

/-- How a value comes about. -/
inductive Def
  /-- The parameter of a block at a position; those of the entry block are the arguments. -/
  | param (block : Block) (position : Nat) (type : ValueType)
  /-- The result of an instruction, with its operands and the types of its results. -/
  | inst (op : Operator) (args : List Value) (types : List ValueType)
  /-- A pointer to a string of the module; no block lists it. -/
  | strRef (str : Str)
  /-- A number that was given out and not used yet. -/
  | undefined
  deriving DecidableEq

namespace Def

/-- The type of a value that has one. -/
def type? : Def → Option ValueType
  | .param _ _ type => some type
  | .inst _ _ types => types.head?
  | .strRef _ => some .ptr
  | .undefined => none

def isInst : Def → Bool
  | .inst .. => true
  | _ => false

end Def

/-- Where a branch goes, and what it hands to the parameters there. -/
structure Target where
  block : Block
  args : List Value
  deriving DecidableEq

def Target.text (t : Target) : String :=
  t.block.text ++ "(" ++ commaSeparated (t.args.map Entity.text) ++ ")"

/-- The last step of a block. -/
inductive Terminator
  | jump (target : Target)
  | branch (cond : Value) (onTrue onFalse : Target)
  | ret (values : List Value)
  | unreachable
  /-- The block is not finished. -/
  | missing
  deriving DecidableEq

namespace Terminator

def targets : Terminator → List Target
  | .jump target => [target]
  | .branch _ onTrue onFalse => [onTrue, onFalse]
  | .ret _ | .unreachable | .missing => []

/-- The blocks that may come next, with repetitions. -/
def successors (t : Terminator) : List Block := t.targets.map Target.block

/-- The terminator with all its operands by number. -/
def text : Terminator → String
  | .jump target => "br " ++ target.text
  | .branch cond onTrue onFalse =>
    "if " ++ cond.text ++ ", " ++ onTrue.text ++ ", " ++ onFalse.text
  | .ret values => "return " ++ commaSeparated (values.map Entity.text)
  | .unreachable => "unreachable"
  | .missing => "no_terminator"

end Terminator

structure BlockData where
  /-- The parameters, each with its type. -/
  params : List (ValueType × Value) := []
  /-- The instructions in the order in which they run. -/
  insts : List Value := []
  terminator : Terminator := .missing
  succs : List Block := []
  preds : List Block := []
  deriving DecidableEq

def BlockData.paramTypes (b : BlockData) : List ValueType := b.params.map Prod.fst

def BlockData.paramValues (b : BlockData) : List Value := b.params.map Prod.snd

structure Body where
  /-- How many of the entry block's parameters are arguments of the function. -/
  paramCount : Nat := 0
  returns : List ValueType := []
  entry : Block := .unset
  blocks : Table .block BlockData := {}
  values : Table .value Def := {}
  /-- The block that lists a value; unset for a value that no block lists. -/
  home : SideTable .value Block := {}
  deriving DecidableEq

instance : Inhabited Body := ⟨{}⟩

/-- The entry block and then all the others in order. -/
def Body.displayOrder (body : Body) : List Block :=
  body.entry :: body.blocks.ids.filter (· != body.entry)

end EntryTrace
