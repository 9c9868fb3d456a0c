import EntryTrace.Proofs.RenamedTokens

/-!
# Integer literals

What an integer literal is and which integer it stands for, said by its digits and without a
reader. A literal that no letter, digit or underscore prolongs is read as this integer, and as none
if the integer is too large.
-/

namespace EntryTrace.Source

def decimals : List Char := ['0', '1', '2', '3', '4', '5', '6', '7', '8', '9']

/-- The digits that a literal may have. -/
def numerals (hex : Bool) : List Char :=
  if hex then decimals ++ ['a', 'b', 'c', 'd', 'e', 'f'] ++ ['A', 'B', 'C', 'D', 'E', 'F']
  else decimals

/-- What a digit is worth, in either case of a letter. -/
def worth (c : Char) : Nat := (decimals ++ ['a', 'b', 'c', 'd', 'e', 'f']).idxOf c.toLower

/-- An integer as a text writes it: a minus sign or none, then digits, hexadecimal ones after `0x`. -/
structure IntLiteral where
  negative : Bool
  hex : Bool
  digits : List Char
  nonempty : digits ≠ []
  valid : ∀ c ∈ digits, c ∈ numerals hex

namespace IntLiteral

/-- The literal as it is written. -/
def chars (literal : IntLiteral) : List Char :=
  (if literal.negative then ['-'] else []) ++ (if literal.hex then ['0', 'x'] else []) ++ literal.digits

def text (literal : IntLiteral) : String := String.ofList literal.chars

/-- The digits in their places, the last one worth the least. -/
def magnitude (literal : IntLiteral) : Nat :=
  Nat.ofDigits (if literal.hex then 16 else 10) (literal.digits.reverse.map worth)

/-- The integer that a literal stands for. -/
def value (literal : IntLiteral) : Int :=
  if literal.negative then -literal.magnitude else literal.magnitude

lemma natAbs_value (literal : IntLiteral) : literal.value.natAbs = literal.magnitude := by
  unfold value
  split <;> omega

end IntLiteral

/-! ### Digits -/

/-- What the reader takes for digits, with the worth it gives them. -/
lemma numeral_spec {hex : Bool} {c : Char} (h : c ∈ numerals hex) : digitValue c = worth c ∧
    isHexDigit c = true ∧ (hex = false → c.isDigit = true) := by
  cases hex with
  | false =>
    have hall : (numerals false).all
        (fun c => digitValue c = worth c ∧ isHexDigit c = true ∧ c.isDigit = true) := by decide
    obtain ⟨hworth, hhex, hdigit⟩ := of_decide_eq_true (List.all_eq_true.1 hall c h)
    exact ⟨hworth, hhex, fun _ => hdigit⟩
  | true =>
    have hall : (numerals true).all (fun c => digitValue c = worth c ∧ isHexDigit c = true) := by
      decide
    obtain ⟨hworth, hhex⟩ := of_decide_eq_true (List.all_eq_true.1 hall c h)
    exact ⟨hworth, hhex, nofun⟩

lemma numberOf_eq {hex : Bool} {radix : Nat} {digits : List Char} (h : ∀ c ∈ digits, c ∈ numerals hex) :
    numberOf radix digits = Nat.ofDigits radix (digits.reverse.map worth) := by
  rw [Nat.ofDigits_eq_foldr, List.map_reverse, List.foldr_reverse, List.foldl_map]
  refine List.foldl_ext _ _ _ fun n c hc => ?_
  rw [(numeral_spec (h c hc)).1, Nat.add_comm, Nat.mul_comm]
  rfl

/-! ### Reading a literal -/

/-- A number as it is read: the magnitude and what is left, or the digits of one that is too large. -/
def magnitudeOrRefusal (magnitude : Nat) (digits rest : List Char) :
    Except LexicalCause (Nat × List Char) :=
  if magnitude < literalLimit then .ok (magnitude, rest)
  else .error (.integerOutOfRange (String.ofList digits))

variable {rest : List Char}

lemma readDigits_numerals (radix : Nat) {p : Char → Bool} {digits : List Char} (hne : digits ≠ [])
    (hdigits : ∀ c ∈ digits, p c = true) (hp : ∀ c, p c = true → isNumberPart c = true)
    (hrest : ∀ c ∈ rest.head?, isNumberPart c = false) :
    readDigits radix p (digits ++ rest) = magnitudeOrRefusal (numberOf radix digits) digits rest := by
  have hstop : ∀ c ∈ rest.head?, p c = false := by
    intro c hc
    rw [Bool.eq_false_iff]
    intro htrue
    have hpart := hrest c hc
    rw [hp c htrue] at hpart
    cases hpart
  obtain ⟨htake, hdrop⟩ := takeWhile_append_of_apart hdigits hstop
  have hempty : digits.isEmpty = false := by simpa using hne
  simp only [readDigits, htake, hdrop, hempty, Bool.false_eq_true, if_false]
  cases hhead : rest.head? with
  | none => rfl
  | some c =>
    have hc := hrest c hhead
    rw [isNumberPart] at hc
    simp only [hc, Bool.false_eq_true, if_false]
    rfl

namespace IntLiteral

/-- The literal without its sign. -/
def unsigned (literal : IntLiteral) : List Char :=
  (if literal.hex then ['0', 'x'] else []) ++ literal.digits

lemma chars_eq (literal : IntLiteral) :
    literal.chars = (if literal.negative then ['-'] else []) ++ literal.unsigned :=
  List.append_assoc ..

lemma exists_unsigned (literal : IntLiteral) :
    ∃ c cs, literal.unsigned = c :: cs ∧ c.isDigit = true := by
  unfold unsigned
  cases hhex : literal.hex with
  | true => exact ⟨'0', 'x' :: literal.digits, rfl, rfl⟩
  | false =>
    obtain ⟨c, cs, hdigits⟩ := List.exists_cons_of_ne_nil literal.nonempty
    refine ⟨c, cs, hdigits, ?_⟩
    exact (numeral_spec (literal.valid c (by simp [hdigits]))).2.2 hhex

lemma readMagnitude_unsigned (literal : IntLiteral)
    (hrest : ∀ c ∈ rest.head?, isNumberPart c = false) :
    readMagnitude (literal.unsigned ++ rest) =
      magnitudeOrRefusal literal.magnitude literal.digits rest := by
  have hvalid := literal.valid
  unfold unsigned magnitude
  cases hhex : literal.hex with
  | true =>
    rw [hhex] at hvalid
    have hread := readDigits_numerals 16 literal.nonempty
      (fun c hc => (numeral_spec (hvalid c hc)).2.1) (fun _ => isNumberPart_of_isHexDigit) hrest
    rw [numberOf_eq hvalid] at hread
    exact hread
  | false =>
    rw [hhex] at hvalid
    have hdigits : ∀ c ∈ literal.digits, c.isDigit = true :=
      fun c hc => (numeral_spec (hvalid c hc)).2.2 rfl
    have hdecimal : ∀ ds, literal.digits ++ rest ≠ '0' :: 'x' :: ds := by
      intro ds heq
      obtain ⟨c, cs, hcs⟩ := List.exists_cons_of_ne_nil literal.nonempty
      rw [hcs, List.cons_append, List.cons.injEq] at heq
      cases cs with
      | nil =>
        -- What comes after the only digit is no letter.
        rw [List.nil_append] at heq
        exact absurd (hrest 'x' (by simp [heq.2])) (by decide)
      | cons d cs =>
        rw [List.cons_append, List.cons.injEq] at heq
        exact absurd (hdigits 'x' (by simp [hcs, heq.2.1])) (by decide)
    have hread := readDigits_numerals 10 literal.nonempty hdigits
      (fun _ => isNumberPart_of_isDigit) hrest
    rw [numberOf_eq hvalid, ← readMagnitude_of_decimal hdecimal] at hread
    exact hread

/-- A literal that nothing prolongs is read as the integer it stands for. If that is too large, the
digits are refused. -/
theorem readLexeme_chars (literal : IntLiteral)
    (hrest : ∀ c ∈ rest.head?, isNumberPart c = false) :
    ∃ c cs, literal.chars = c :: cs ∧ readLexeme c (cs ++ rest) =
      if literal.magnitude < literalLimit then .ok (some (.int literal.value), rest)
      else .error (.integerOutOfRange (String.ofList literal.digits)) := by
  have hread := literal.readMagnitude_unsigned hrest
  obtain ⟨c, cs, hunsigned, hc⟩ := literal.exists_unsigned
  rw [chars_eq, value]
  cases literal.negative with
  | true =>
    refine ⟨'-', literal.unsigned, rfl, ?_⟩
    have harrow : (literal.unsigned ++ rest).head? ≠ some '>' := by
      rw [hunsigned, List.cons_append, List.head?_cons]
      rintro ⟨⟩
      cases hc
    rw [readLexeme_negative harrow, hread, magnitudeOrRefusal]
    split <;> rfl
  | false =>
    refine ⟨c, cs, hunsigned, ?_⟩
    rw [readLexeme_of_isDigit hc, ← List.cons_append, ← hunsigned, hread, magnitudeOrRefusal]
    split <;> rfl

end IntLiteral

end EntryTrace.Source
