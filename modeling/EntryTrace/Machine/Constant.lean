import EntryTrace.Describe

/-!
# Constants and what operators make of them

Words wrap around. Comparisons answer 1 or 0, and `less32` reads its operands as signed.
-/

namespace EntryTrace

/-- A value at run time. -/
inductive Constant
  | i32 (value : UInt32)
  | i64 (value : UInt64)
  | ptr (str : Str)
  deriving DecidableEq

namespace Constant

def type : Constant → ValueType
  | .i32 _ => .i32
  | .i64 _ => .i64
  | .ptr _ => .ptr

/-- Numbers are written as signed, pointers as what they point to. -/
def text : Constant → String
  | .i32 value => toString value.toInt32.toInt
  | .i64 value => toString value.toInt64.toInt
  | .ptr str => "&" ++ str.text

def describe : Constant → String
  | .i32 value => "I32(" ++ toString value.toNat ++ ")"
  | .i64 value => "I64(" ++ toString value.toNat ++ ")"
  | .ptr str => "Ptr(" ++ str.text ++ ")"

/-- Does a branch on this constant go to its first target? Only a 32-bit word that is not zero
does that. -/
def isTrue : Constant → Bool
  | .i32 value => value != 0
  | _ => false

end Constant

def describeConstants (cs : List Constant) : String := bracketed (cs.map Constant.describe)

namespace BinaryOp

def eval32 : BinaryOp → UInt32 → UInt32 → Option UInt32
  | .add32, a, b => some (a + b)
  | .sub32, a, b => some (a - b)
  | .mul32, a, b => some (a * b)
  | .eq32, a, b => some (if a = b then 1 else 0)
  | .less32, a, b => some (if a.toInt32 < b.toInt32 then 1 else 0)
  | _, _, _ => none

def eval64 : BinaryOp → UInt64 → UInt64 → Option UInt64
  | .add64, a, b => some (a + b)
  | .sub64, a, b => some (a - b)
  | .mul64, a, b => some (a * b)
  | _, _, _ => none

end BinaryOp

/-- The result of an operator, if it has one on these operands. A call never does: its result
is not the operator's. -/
def Operator.eval? : Operator → List Constant → Option Constant
  | .const32 value, [] => some (.i32 value)
  | .const64 value, [] => some (.i64 value)
  | .binary op, [.i32 a, .i32 b] => (op.eval32 a b).map .i32
  | .binary op, [.i64 a, .i64 b] => (op.eval64 a b).map .i64
  | _, _ => none

end EntryTrace
