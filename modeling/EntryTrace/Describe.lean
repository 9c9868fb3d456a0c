import EntryTrace.Body
import EntryTrace.Text.Quoted

/-!
# Descriptions for messages

The written form in which messages show types, operators, definitions and terminators: the
name of the case followed by its parts.
-/

namespace EntryTrace

/-- A list between square brackets. -/
def bracketed (items : List String) : String := "[" ++ commaSeparated items ++ "]"

/-- A case with named parts. -/
def withFields (name : String) (fields : List (String × String)) : String :=
  name ++ " \x7b " ++ commaSeparated (fields.map fun (field, text) => field ++ ": " ++ text) ++ " \x7d"

/-- A value that may be absent. -/
def describeOption (text? : Option String) : String :=
  match text? with
  | some text => "Some(" ++ text ++ ")"
  | none => "None"

def ValueType.describe : ValueType → String
  | .i32 => "I32"
  | .i64 => "I64"
  | .ptr => "Ptr"

def BinaryOp.describe : BinaryOp → String
  | .add32 => "I32Add"
  | .sub32 => "I32Sub"
  | .mul32 => "I32Mul"
  | .eq32 => "I32Eq"
  | .less32 => "I32LtS"
  | .add64 => "I64Add"
  | .sub64 => "I64Sub"
  | .mul64 => "I64Mul"

def Operator.describe : Operator → String
  | .nop => "Nop"
  | .const32 value => withFields "I32Const" [("value", toString value.toNat)]
  | .const64 value => withFields "I64Const" [("value", toString value.toNat)]
  | .binary op => op.describe
  | .call callee => withFields "Call" [("function_index", callee.text)]

def describeTypes (types : List ValueType) : String := bracketed (types.map ValueType.describe)

def describeEntities {kind : Kind} (es : List (Entity kind)) : String :=
  bracketed (es.map Entity.text)

def Def.describe : Def → String
  | .param block position type =>
    "BlockParam(" ++ commaSeparated [block.text, toString position, type.describe] ++ ")"
  | .inst op args types =>
    "Operator(" ++ commaSeparated [op.describe, describeEntities args, describeTypes types] ++ ")"
  | .strRef str => "StrRef(" ++ str.text ++ ")"
  | .undefined => "None"

def Target.describe (t : Target) : String :=
  withFields "BlockTarget" [("block", t.block.text), ("args", describeEntities t.args)]

def Terminator.describe : Terminator → String
  | .jump target => withFields "Br" [("target", target.describe)]
  | .branch cond onTrue onFalse =>
    withFields "CondBr"
      [("cond", cond.text), ("if_true", onTrue.describe), ("if_false", onFalse.describe)]
  | .ret values => withFields "Return" [("values", describeEntities values)]
  | .unreachable => "Unreachable"
  | .missing => "None"

end EntryTrace
