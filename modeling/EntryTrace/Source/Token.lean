import EntryTrace.Text.Quoted

/-!
# Tokens of source text
-/

namespace EntryTrace.Source

inductive Token
  | word (name : String)
  | int (value : Int)
  | str (value : String)
  | openParen
  | closeParen
  | openBrace
  | closeBrace
  | colon
  | comma
  | equals
  | arrow
  deriving DecidableEq

namespace Token

/-- The token that one character is, whatever follows. -/
def ofChar? : Char → Option Token
  | '(' => some .openParen
  | ')' => some .closeParen
  | '\x7b' => some .openBrace
  | '\x7d' => some .closeBrace
  | ':' => some .colon
  | ',' => some .comma
  | '=' => some .equals
  | _ => none

/-- How messages name a token. -/
def describe : Token → String
  | .word name => "`" ++ name ++ "`"
  | .int value => "integer " ++ toString value
  | .str value => "string " ++ Literal.ofString value
  | .openParen => "`(`"
  | .closeParen => "`)`"
  | .openBrace => "`\x7b`"
  | .closeBrace => "`\x7d`"
  | .colon => "`:`"
  | .comma => "`,`"
  | .equals => "`=`"
  | .arrow => "`->`"

end Token

/-- A token and the line it starts on, counted from 1. -/
structure Located where
  token : Token
  line : Nat
  deriving DecidableEq

end EntryTrace.Source
