import EntryTrace.Text.Printable

/-!
# Quoted text

Two ways to write a string between double quotes. `Quoted.encode` is the form that source text
has: five characters are escaped and all others stand for themselves. `Literal` is the form of
messages, in which a character that is not printable is given by its code point.
-/

namespace EntryTrace

namespace Quoted

/-- How one character is written inside a source string. -/
def encodeChar : Char → List Char
  | '"' => ['\\', '"']
  | '\\' => ['\\', '\\']
  | '\n' => ['\\', 'n']
  | '\t' => ['\\', 't']
  | '\x00' => ['\\', '0']
  | c => [c]

/-- A string as source text. -/
def encode (s : String) : String :=
  "\"" ++ String.ofList (s.toList.flatMap encodeChar) ++ "\""

/-- What the character after a backslash stands for. -/
def unescape? : Char → Option Char
  | '"' => some '"'
  | '\\' => some '\\'
  | 'n' => some '\n'
  | 't' => some '\t'
  | '0' => some '\x00'
  | _ => none

end Quoted

namespace Literal

/-- A code point in hexadecimal, between braces. -/
def codePoint (c : Char) : String :=
  "\\u\x7b" ++ String.ofList (Nat.toDigits 16 c.toNat) ++ "\x7d"

/-- One character in a literal closed by `quote`. -/
def escape (quote : Char) (c : Char) : String :=
  match c with
  | '\x00' => "\\0"
  | '\t' => "\\t"
  | '\r' => "\\r"
  | '\n' => "\\n"
  | '\\' => "\\\\"
  | c =>
    if c == quote then String.ofList ['\\', c]
    else if isPrintable c then String.singleton c
    else codePoint c

/-- A character between single quotes. -/
def ofChar (c : Char) : String := "'" ++ escape '\'' c ++ "'"

/-- A string between double quotes. -/
def ofString (s : String) : String :=
  "\"" ++ String.join (s.toList.map (escape '"')) ++ "\""

end Literal

end EntryTrace
