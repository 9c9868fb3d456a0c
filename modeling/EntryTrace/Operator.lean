import EntryTrace.Entity
import EntryTrace.ValueType

/-!
# Operators

What an instruction does with its operands. All but calls have types of their own; a call has
those of the function it names.
-/

namespace EntryTrace

/-- Operators on two operands of one type. -/
inductive BinaryOp
  | add32
  | sub32
  | mul32
  | eq32
  | less32
  | add64
  | sub64
  | mul64
  deriving DecidableEq

namespace BinaryOp

def all : List BinaryOp := [add32, sub32, mul32, eq32, less32, add64, sub64, mul64]

def mnemonic : BinaryOp → String
  | .add32 => "i32.add"
  | .sub32 => "i32.sub"
  | .mul32 => "i32.mul"
  | .eq32 => "i32.eq"
  | .less32 => "i32.lt_s"
  | .add64 => "i64.add"
  | .sub64 => "i64.sub"
  | .mul64 => "i64.mul"

def operandType : BinaryOp → ValueType
  | .add32 | .sub32 | .mul32 | .eq32 | .less32 => .i32
  | .add64 | .sub64 | .mul64 => .i64

def resultType : BinaryOp → ValueType
  | .add32 | .sub32 | .mul32 | .eq32 | .less32 => .i32
  | .add64 | .sub64 | .mul64 => .i64

def ofMnemonic? (name : String) : Option BinaryOp := all.find? (·.mnemonic == name)

@[simp] theorem ofMnemonic?_mnemonic (op : BinaryOp) : ofMnemonic? op.mnemonic = some op := by
  cases op <;> rfl

end BinaryOp

inductive Operator
  | nop
  | const32 (value : UInt32)
  | const64 (value : UInt64)
  | binary (op : BinaryOp)
  | call (callee : Func)
  deriving DecidableEq

/-- Constants are written without a sign, a call by its callee. -/
def Operator.text : Operator → String
  | .nop => "nop"
  | .const32 value => "i32.const " ++ toString value.toNat
  | .const64 value => "i64.const " ++ toString value.toNat
  | .binary op => op.mnemonic
  | .call callee => "call " ++ callee.text

end EntryTrace
