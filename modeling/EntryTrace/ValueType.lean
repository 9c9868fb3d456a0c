/-!
# Types of values and of functions
-/

namespace EntryTrace

/-- The type of a value; `ptr` is a pointer that only its user can look behind. -/
inductive ValueType
  | i32
  | i64
  | ptr
  deriving DecidableEq

namespace ValueType

def name : ValueType → String
  | .i32 => "i32"
  | .i64 => "i64"
  | .ptr => "ptr"

def ofName? : String → Option ValueType
  | "i32" => some .i32
  | "i64" => some .i64
  | "ptr" => some .ptr
  | _ => none

@[simp] theorem ofName?_name (t : ValueType) : ofName? t.name = some t := by
  cases t <;> rfl

end ValueType

/-- The words in `items`, with a comma and a blank between any two. -/
def commaSeparated (items : List String) : String := ", ".intercalate items

/-- What a function takes and returns. A function returns at most one value in any module that
was read from text. -/
structure FuncType where
  params : List ValueType
  returns : List ValueType
  deriving DecidableEq

def FuncType.text (t : FuncType) : String :=
  "(" ++ commaSeparated (t.params.map ValueType.name) ++ ") -> ("
    ++ commaSeparated (t.returns.map ValueType.name) ++ ")"

end EntryTrace
