import EntryTrace.Describe

/-!
# Faults

A fault is a broken assumption of the program itself: it is not an answer to the caller but
ends everything that is going on.
-/

namespace EntryTrace

/-- What was assumed and did not hold. -/
inductive Fault
  /-- An index was needed that no entity of the kind can have. -/
  | indexOutOfRange (kind : Kind) (index : Nat)
  /-- An entity was looked up that its table does not hold. -/
  | outsideTable
  /-- Something that was checked turned out otherwise. -/
  | checkFailed
  /-- A function has a body in one module and none in another. -/
  | kindChanged (func : Func)
  /-- The argument of a tag call is not a string. -/
  | tagArgument (found : Def)
  /-- A tagged function starts with something other than a call. -/
  | firstInstruction (func : Func) (found : Def)
  /-- A block lists a value that is no instruction; seen while running it. -/
  | ranNonInstruction (found : Def)
  /-- The same, seen while printing the block. -/
  | printedNonInstruction (found : Def) (block : Block)
  deriving DecidableEq

/-- The text of a fault that has one. -/
def Fault.message? : Fault → Option String
  | .indexOutOfRange kind index =>
    some (kind.label ++ " index " ++ toString index ++ " out of range")
  | .outsideTable | .checkFailed => none
  | .kindChanged func => some (func.text ++ " changed kind")
  | .tagArgument found => some ("tag argument is " ++ found.describe)
  | .firstInstruction func found =>
    some ("first instruction of " ++ func.text ++ " is " ++ found.describe)
  | .ranNonInstruction found =>
    some ("internal error: entered unreachable code: non-instruction " ++ found.describe
      ++ " in block")
  | .printedNonInstruction found block =>
    some ("internal error: entered unreachable code: non-instruction " ++ found.describe
      ++ " in block " ++ block.text)

end EntryTrace
