import EntryTrace.Source.Error
import EntryTrace.Text.Blank

/-!
# Reading tokens

Tokens are read from the front of the text, each as long as it can be. White space and comments
separate tokens and are dropped; no token goes over the end of a line.
-/

namespace EntryTrace.Source

def isWordStart (c : Char) : Bool := c.isAlpha || c == '_'

def isWordPart (c : Char) : Bool := c.isAlphanum || c == '_' || c == '.'

def isHexDigit (c : Char) : Bool :=
  c.isDigit || decide ('a' ≤ c) && decide (c ≤ 'f') || decide ('A' ≤ c) && decide (c ≤ 'F')

/-- The value of a decimal or hexadecimal digit. -/
def digitValue (c : Char) : Nat :=
  if c.isDigit then c.toNat - '0'.toNat
  else if 'a' ≤ c then c.toNat - 'a'.toNat + 10
  else c.toNat - 'A'.toNat + 10

/-- The number that digits stand for. -/
def numberOf (radix : Nat) (digits : List Char) : Nat :=
  digits.foldl (fun n c => n * radix + digitValue c) 0

/-- Magnitudes from here on are no literals. -/
def literalLimit : Nat := 1 <<< 127

/-- Digits of the radix at the front, as a magnitude. No letter, digit or underscore may follow. -/
def readDigits (radix : Nat) (isDigit : Char → Bool) (cs : List Char) :
    Except LexicalCause (Nat × List Char) :=
  let digits := cs.takeWhile isDigit
  let rest := cs.dropWhile isDigit
  if digits.isEmpty then .error .expectedDigits
  else
    match rest.head? with
    | some c =>
      if c.isAlphanum || c == '_' then .error (.malformedInteger c) else finish digits rest
    | none => finish digits rest
where
  finish (digits rest : List Char) : Except LexicalCause (Nat × List Char) :=
    let magnitude := numberOf radix digits
    if magnitude < literalLimit then .ok (magnitude, rest)
    else .error (.integerOutOfRange (String.ofList digits))

/-- A magnitude in hexadecimal after `0x`, else in decimal. -/
def readMagnitude : List Char → Except LexicalCause (Nat × List Char)
  | '0' :: 'x' :: cs => readDigits 16 isHexDigit cs
  | cs => readDigits 10 Char.isDigit cs

/-- The inside of a string up to its closing quote; `acc` holds what came before, backwards. -/
def readString (acc : List Char) : List Char → Except LexicalCause (String × List Char)
  | [] => .error .unterminatedString
  | '"' :: rest => .ok (String.ofList acc.reverse, rest)
  | '\n' :: _ => .error .unterminatedString
  | ['\\'] => .error (.unknownEscape none)
  | '\\' :: c :: rest =>
    match Quoted.unescape? c with
    | some escaped => readString (escaped :: acc) rest
    | none => .error (.unknownEscape (some c))
  | c :: rest => readString (c :: acc) rest

/-- What starts with `c` and goes on in `rest`: a token, or something between tokens. -/
def readLexeme (c : Char) (rest : List Char) :
    Except LexicalCause (Option Token × List Char) :=
  match Token.ofChar? c with
  | some token => .ok (some token, rest)
  | none =>
    if isBlank c then .ok (none, rest)
    else if c == '#' then .ok (none, rest.dropWhile (· != '\n'))
    else if c == '-' then
      match rest with
      | '>' :: rest => .ok (some .arrow, rest)
      | _ => (readMagnitude rest).map fun (n, rest) => (some (.int (-n)), rest)
    else if c.isDigit then (readMagnitude (c :: rest)).map fun (n, rest) => (some (.int n), rest)
    else if c == '"' then (readString [] rest).map fun (s, rest) => (some (.str s), rest)
    else if isWordStart c then
      .ok (some (.word (String.ofList (c :: rest.takeWhile isWordPart))), rest.dropWhile isWordPart)
    else .error (.unexpectedCharacter c)

theorem length_dropWhile_le (p : Char → Bool) (cs : List Char) :
    (cs.dropWhile p).length ≤ cs.length :=
  (List.dropWhile_sublist p).length_le

theorem readDigits_length {radix : Nat} {p : Char → Bool} {cs : List Char} {n : Nat}
    {rest : List Char} (h : readDigits radix p cs = .ok (n, rest)) :
    rest.length < cs.length := by
  have hsplit : (cs.takeWhile p).length + (cs.dropWhile p).length = cs.length := by
    rw [← List.length_append, List.takeWhile_append_dropWhile]
  have hfinish {digits r : List Char}
      (h : readDigits.finish radix digits r = .ok (n, rest)) : r = rest := by
    simp only [readDigits.finish] at h
    split at h <;> simp_all
  simp only [readDigits] at h
  split at h
  · simp at h
  · rename_i hne
    have hpos : 0 < (cs.takeWhile p).length := by
      simpa [List.length_pos_iff, List.isEmpty_iff] using hne
    have hrest : cs.dropWhile p = rest := by
      split at h
      · split at h
        · simp at h
        · exact hfinish h
      · exact hfinish h
    rw [← hrest]
    omega

theorem readMagnitude_length {cs rest : List Char} {n : Nat}
    (h : readMagnitude cs = .ok (n, rest)) : rest.length < cs.length := by
  unfold readMagnitude at h
  split at h
  · have := readDigits_length h
    simp only [List.length_cons]
    omega
  · exact readDigits_length h

theorem readString_length {acc cs rest : List Char} {s : String}
    (h : readString acc cs = .ok (s, rest)) : rest.length < cs.length := by
  fun_induction readString acc cs with
  | case1 => simp at h
  | case2 => simp_all
  | case3 => simp at h
  | case4 => simp at h
  | case5 _ _ _ _ _ ih =>
    have := ih h
    simp only [List.length_cons]
    omega
  | case6 => simp at h
  | case7 _ _ _ _ _ _ _ ih =>
    have := ih h
    simp only [List.length_cons]
    omega

/-- Reading moves on. -/
theorem readLexeme_length {c : Char} {cs rest : List Char} {token? : Option Token}
    (h : readLexeme c cs = .ok (token?, rest)) : rest.length ≤ cs.length := by
  unfold readLexeme at h
  split at h
  · simp_all
  · split at h
    · simp_all
    split at h
    · simp only [Except.ok.injEq, Prod.mk.injEq] at h
      rw [← h.2]
      exact length_dropWhile_le _ _
    split at h
    · split at h
      · simp only [Except.ok.injEq, Prod.mk.injEq] at h
        simp [← h.2]
      · cases hm : readMagnitude cs with
        | error e => simp [hm, Except.map] at h
        | ok r =>
          simp only [hm, Except.map, Except.ok.injEq, Prod.mk.injEq] at h
          have := readMagnitude_length hm
          rw [← h.2]
          omega
    split at h
    · cases hm : readMagnitude (c :: cs) with
      | error e => simp [hm, Except.map] at h
      | ok r =>
        simp only [hm, Except.map, Except.ok.injEq, Prod.mk.injEq] at h
        have := readMagnitude_length hm
        simp only [List.length_cons] at this
        rw [← h.2]
        omega
    split at h
    · cases hm : readString [] cs with
      | error e => simp [hm, Except.map] at h
      | ok r =>
        simp only [hm, Except.map, Except.ok.injEq, Prod.mk.injEq] at h
        have := readString_length hm
        rw [← h.2]
        omega
    split at h
    · simp only [Except.ok.injEq, Prod.mk.injEq] at h
      rw [← h.2]
      exact length_dropWhile_le _ _
    · simp at h

/-- The tokens of a text that starts on line `line`; `acc` holds those before it, backwards. -/
def readTokens (line : Nat) (acc : List Located) (cs : List Char) :
    Except SourceError (List Located) :=
  match cs with
  | [] => .ok acc.reverse
  | c :: rest =>
    match h : readLexeme c rest with
    | .error cause => .error ⟨line, .lexical cause⟩
    | .ok (none, rest) => readTokens (if c == '\n' then line + 1 else line) acc rest
    | .ok (some token, rest) => readTokens line (⟨token, line⟩ :: acc) rest
termination_by cs.length
decreasing_by
  all_goals
    have := readLexeme_length h
    simp only [List.length_cons]
    omega

/-- The tokens of a text. -/
def tokens (text : String) : Except SourceError (List Located) := readTokens 1 [] text.toList

end EntryTrace.Source
