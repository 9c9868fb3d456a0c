import EntryTrace.Describe
import EntryTrace.Source.Token

/-!
# Errors in source text

Why a text is not a module, and on which line that shows.
-/

namespace EntryTrace.Source

/-- Why no token could be read. -/
inductive LexicalCause
  | unexpectedCharacter (c : Char)
  | expectedDigits
  /-- A literal runs into a character that belongs to no number. -/
  | malformedInteger (next : Char)
  | integerOutOfRange (digits : String)
  | unterminatedString
  /-- A backslash in a string before a character that it does not go with, or before the end. -/
  | unknownEscape (next : Option Char)
  deriving DecidableEq

def LexicalCause.message : LexicalCause → String
  | .unexpectedCharacter c => "unexpected character " ++ Literal.ofChar c
  | .expectedDigits => "expected digits"
  | .malformedInteger next => "malformed integer literal near " ++ Literal.ofChar next
  | .integerOutOfRange digits => "integer literal `" ++ digits ++ "` out of range"
  | .unterminatedString => "unterminated string literal"
  | .unknownEscape next => "unknown escape " ++ describeOption (next.map Literal.ofChar)

/-- What would have been right at some place. -/
inductive Expected
  | token (token : Token)
  | entity (kind : Kind)
  | numbered (kind : Kind) (index : Nat)
  | stringLiteral
  | integerLiteral
  | type
  | moduleItem
  | importOrFunc
  | operand
  | valueOrString
  | instOrTerminator
  | operator
  deriving DecidableEq

def Expected.text : Expected → String
  | .token t => t.describe
  | .entity kind => kind.label ++ "N"
  | .numbered kind index => kind.label ++ toString index
  | .stringLiteral => "string literal"
  | .integerLiteral => "integer literal"
  | .type => "type"
  | .moduleItem => "module item"
  | .importOrFunc => "`import` or `func`"
  | .operand => "operand"
  | .valueOrString => "value or string operand"
  | .instOrTerminator => "instruction or terminator"
  | .operator => "operator"

/-- Why tokens do not form a module. -/
inductive GrammarCause
  | unexpectedEnd (expected : Expected)
  | unexpected (expected : Expected) (found : Token)
  | unknownType (name : String)
  | unknownOperator (name : String)
  | noBlocks (function : String)
  | trailingInput
  /-- A value or a block is given a name that another one of the function has. -/
  | redefined (kind : Kind) (index : Nat)
  deriving DecidableEq

def GrammarCause.message : GrammarCause → String
  | .unexpectedEnd expected => "unexpected end of input, expected " ++ expected.text
  | .unexpected expected found => "expected " ++ expected.text ++ ", found " ++ found.describe
  | .unknownType name => "unknown type `" ++ name ++ "`"
  | .unknownOperator name => "unknown operator `" ++ name ++ "`"
  | .noBlocks function => "function \"" ++ function ++ "\" has no blocks"
  | .trailingInput => "trailing input after module"
  | .redefined kind index => "redefinition of `" ++ kind.label ++ toString index ++ "`"

/-- What takes operands of fixed types. -/
inductive Consumer
  | operator (op : Operator)
  | condition
  | result
  | branchTo (block : Nat)
  deriving DecidableEq

def Consumer.text : Consumer → String
  | .operator op => "`" ++ op.text ++ "`"
  | .condition => "`if`"
  | .result => "`return`"
  | .branchTo block => "branch to " ++ Kind.block.label ++ toString block

/-- Why the types in a function do not fit together. -/
inductive TypeCause
  | tooManyReturns
  | entryParams (found expected : List ValueType)
  | doesNotFit (value : Int) (type : ValueType)
  | operandCount (consumer : Consumer) (expected found : Nat)
  | operandType (consumer : Consumer) (position : Nat) (expected found : ValueType)
  | noResult (consumer : Consumer) (position : Nat)
  deriving DecidableEq

def TypeCause.message : TypeCause → String
  | .tooManyReturns => "functions return at most one value"
  | .entryParams found expected =>
    "entry block params " ++ describeTypes found ++ " do not match signature params "
      ++ describeTypes expected
  | .doesNotFit value type => toString value ++ " does not fit in " ++ type.name
  | .operandCount consumer expected found =>
    consumer.text ++ " expects " ++ toString expected ++ " operand(s), found " ++ toString found
  | .operandType consumer position expected found =>
    consumer.text ++ " operand " ++ toString position ++ ": expected " ++ expected.name
      ++ ", found " ++ found.name
  | .noResult consumer position =>
    consumer.text ++ " operand " ++ toString position ++ ": value produces no result"

inductive Cause
  | lexical (cause : LexicalCause)
  | grammar (cause : GrammarCause)
  /-- A name of something that the text does not define. -/
  | undefined (kind : Kind) (index : Nat)
  | typing (cause : TypeCause)
  deriving DecidableEq

end Source

open Source in
/-- Why a text is not a module, and the line on which that shows. -/
structure SourceError where
  line : Nat
  cause : Cause
  deriving DecidableEq

/-- The line, then the kind of error unless it is lexical, then the cause. -/
def SourceError.message (e : SourceError) : String :=
  "line " ++ toString e.line ++ ": " ++
    match e.cause with
    | .lexical cause => cause.message
    | .grammar cause => "syntax error: " ++ cause.message
    | .undefined kind index => "undefined entity `" ++ kind.label ++ toString index ++ "`"
    | .typing cause => "type error: " ++ cause.message

end EntryTrace
