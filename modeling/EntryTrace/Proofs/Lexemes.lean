import Mathlib
import EntryTrace.Source.Lexer

/-!
# Texts that render tokens

`Renders` says how tokens may be written: each by its own text, with white space and comments
between any two, and with at least one of them after a word or a number that a letter, a digit
or an underscore would prolong. The main theorem says that reading such a text gives the tokens.
-/

namespace EntryTrace.Source

/-- The text of a word. -/
def IsWord (name : String) : Prop :=
  ∃ c cs, name.toList = c :: cs ∧ isWordStart c = true ∧ ∀ c' ∈ cs, isWordPart c' = true

/-- No character at the front would prolong a word or a number. -/
def Apart (cs : List Char) : Prop := ∀ c ∈ cs.head?, isWordPart c = false

/-- The text is one of those that stand for the tokens. -/
inductive Renders : List Char → List Token → Prop
  | nil : Renders [] []
  | blank {c cs ts} : isBlank c = true → Renders cs ts → Renders (c :: cs) ts
  | comment {text cs ts} : '\n' ∉ text → Renders ('\n' :: cs) ts →
    Renders ('#' :: (text ++ '\n' :: cs)) ts
  | mark {c token cs ts} : Token.ofChar? c = some token → Renders cs ts →
    Renders (c :: cs) (token :: ts)
  | arrow {cs ts} : Renders cs ts → Renders ('-' :: '>' :: cs) (.arrow :: ts)
  | word {name cs ts} : IsWord name → Apart cs → Renders cs ts →
    Renders (name.toList ++ cs) (.word name :: ts)
  | nat {n : Nat} {cs ts} : n < literalLimit → Apart cs → Renders cs ts →
    Renders ((toString n).toList ++ cs) (.int n :: ts)
  | str {s cs ts} : Renders cs ts → Renders ((Quoted.encode s).toList ++ cs) (.str s :: ts)

/-! ### The characters of a token -/

lemma toNat_of_isAlpha {c : Char} (h : c.isAlpha = true) :
    65 ≤ c.toNat ∧ c.toNat ≤ 90 ∨ 97 ≤ c.toNat ∧ c.toNat ≤ 122 := by
  simpa [Char.isAlpha, Char.isUpper, Char.isLower, UInt32.le_iff_toNat_le] using h

lemma toNat_of_isDigit {c : Char} (h : c.isDigit = true) : 48 ≤ c.toNat ∧ c.toNat ≤ 57 := by
  simpa [Char.isDigit, UInt32.le_iff_toNat_le] using h

lemma isBlank_eq_false {c : Char} (h : 33 ≤ c.toNat) (h' : c.toNat ≤ 127) : isBlank c = false := by
  rw [← Bool.not_eq_true, isBlank_iff]
  simp only [blankRanges, List.mem_cons, List.not_mem_nil, or_false, exists_eq_or_imp,
    exists_eq_left]
  omega

lemma isWordPart_of_isWordStart {c : Char} (h : isWordStart c = true) : isWordPart c = true := by
  simp only [isWordStart, isWordPart, Char.isAlphanum, Bool.or_eq_true] at h ⊢
  tauto

lemma isWordPart_of_isDigit {c : Char} (h : c.isDigit = true) : isWordPart c = true := by
  simp [isWordPart, Char.isAlphanum, h]

lemma isDigit_of_isWordStart {c : Char} (h : isWordStart c = true) : c.isDigit = false := by
  rw [Bool.eq_false_iff]
  intro hdigit
  have hrange := toNat_of_isDigit hdigit
  rw [isWordStart, Bool.or_eq_true, beq_iff_eq] at h
  rcases h with h | rfl
  · have := toNat_of_isAlpha h
    omega
  · simp at hrange

lemma isBlank_of_isWordPart {c : Char} (h : isWordPart c = true) : isBlank c = false := by
  have hrange : 33 ≤ c.toNat ∧ c.toNat ≤ 127 := by
    simp only [isWordPart, Char.isAlphanum, Bool.or_eq_true, beq_iff_eq] at h
    rcases h with ((halpha | hdigit) | rfl) | rfl
    · have := toNat_of_isAlpha halpha
      omega
    · have := toNat_of_isDigit hdigit
      omega
    · decide
    · decide
  exact isBlank_eq_false hrange.1 hrange.2

lemma beq_eq_false_of_isWordPart {c d : Char} (h : isWordPart c = true) (hd : isWordPart d = false) :
    (c == d) = false := by
  rw [beq_eq_false_iff_ne]
  rintro rfl
  cases h.symm.trans hd

/-- The characters that are tokens by themselves, with these tokens. -/
def marks : List (Char × Token) :=
  [('(', .openParen), (')', .closeParen), ('\x7b', .openBrace), ('\x7d', .closeBrace), (':', .colon),
    (',', .comma), ('=', .equals)]

lemma mem_marks {c : Char} {token : Token} (h : Token.ofChar? c = some token) : (c, token) ∈ marks := by
  unfold Token.ofChar? at h
  split at h <;> cases h <;> decide

lemma ofChar?_eq_none_of_forall {p : Char → Bool} (hmarks : ∀ mark ∈ marks, p mark.1 = false) {c : Char}
    (h : p c = true) : Token.ofChar? c = none := by
  cases hmark : Token.ofChar? c with
  | none => rfl
  | some token => rw [hmarks _ (mem_marks hmark)] at h; cases h

lemma ofChar?_eq_none {c : Char} (h : isWordPart c = true) : Token.ofChar? c = none :=
  ofChar?_eq_none_of_forall (by decide) h

lemma readLexeme_of_mark {c : Char} {token : Token} (h : Token.ofChar? c = some token) (cs : List Char) :
    readLexeme c cs = .ok (some token, cs) := by
  unfold readLexeme
  simp [h]

lemma readLexeme_of_isWordStart {c : Char} {cs : List Char} (h : isWordStart c = true) :
    readLexeme c cs =
      .ok (some (.word (String.ofList (c :: cs.takeWhile isWordPart))), cs.dropWhile isWordPart) := by
  have hpart := isWordPart_of_isWordStart h
  have hblank := isBlank_of_isWordPart hpart
  have hcomment : (c == '#') = false := beq_eq_false_of_isWordPart hpart (by decide)
  have hminus : (c == '-') = false := beq_eq_false_of_isWordPart hpart (by decide)
  have hquote : (c == '"') = false := beq_eq_false_of_isWordPart hpart (by decide)
  unfold readLexeme
  simp [ofChar?_eq_none hpart, hblank, hcomment, hminus, hquote, isDigit_of_isWordStart h, h]

lemma readLexeme_of_isDigit {c : Char} {cs : List Char} (h : c.isDigit = true) :
    readLexeme c cs = (readMagnitude (c :: cs)).map fun (n, rest) => (some (.int n), rest) := by
  have hpart := isWordPart_of_isDigit h
  have hblank := isBlank_of_isWordPart hpart
  have hcomment : (c == '#') = false := beq_eq_false_of_isWordPart hpart (by decide)
  have hminus : (c == '-') = false := beq_eq_false_of_isWordPart hpart (by decide)
  unfold readLexeme
  simp [ofChar?_eq_none hpart, hblank, hcomment, hminus, h]

lemma readLexeme_of_isBlank {c : Char} {cs : List Char} (h : isBlank c = true) :
    readLexeme c cs = .ok (none, cs) := by
  have hmark : Token.ofChar? c = none := ofChar?_eq_none_of_forall (by decide) h
  unfold readLexeme
  simp [hmark, h]

lemma readLexeme_arrow (cs : List Char) : readLexeme '-' ('>' :: cs) = .ok (some .arrow, cs) :=
  rfl

/-! ### Words, numbers and strings -/

lemma takeWhile_append_of_apart {p : Char → Bool} {cs rest : List Char} (hcs : ∀ c ∈ cs, p c = true)
    (hrest : ∀ c ∈ rest.head?, p c = false) :
    (cs ++ rest).takeWhile p = cs ∧ (cs ++ rest).dropWhile p = rest := by
  rw [List.takeWhile_append_of_pos hcs, List.dropWhile_append_of_pos hcs]
  cases rest with
  | nil => simp
  | cons c rest => simp [hrest c rfl]

lemma readLexeme_word {name : String} {c : Char} {cs rest : List Char} (hname : IsWord name)
    (hrest : Apart rest) (h : c :: cs = name.toList ++ rest) :
    readLexeme c cs = .ok (some (.word name), rest) := by
  obtain ⟨d, letters, hletters, hd, hpart⟩ := hname
  obtain ⟨htake, hdrop⟩ := takeWhile_append_of_apart hpart hrest
  rw [hletters, List.cons_append] at h
  obtain ⟨rfl, rfl⟩ := List.cons.inj h
  rw [readLexeme_of_isWordStart hd, htake, hdrop, ← hletters, String.ofList_toList]

lemma readLexeme_comment (cs : List Char) :
    readLexeme '#' cs = .ok (none, cs.dropWhile (· != '\n')) := rfl

lemma dropWhile_comment {text rest : List Char} (htext : '\n' ∉ text)
    (hrest : ∀ c ∈ rest.head?, c = '\n') : (text ++ rest).dropWhile (· != '\n') = rest := by
  have hall : ∀ c ∈ text, (c != '\n') = true := fun c hc => by
    simpa using ne_of_mem_of_not_mem hc htext
  exact (takeWhile_append_of_apart hall fun c hc => by simp [hrest c hc]).2

lemma isDigit_of_mem_toDigits {n : Nat} {c : Char} (h : c ∈ Nat.toDigits 10 n) :
    c.isDigit = true :=
  Nat.isDigit_of_mem_toDigits (by decide) (by decide) h

/-- Reading digits from the front, as numbers and the entities of a text are read. -/
lemma foldl_toDigits (n : Nat) :
    (Nat.toDigits 10 n).foldl (fun n c => n * 10 + (c.toNat - '0'.toNat)) 0 = n := by
  have h := Nat.ofDigitChars_toDigits (b := 10) (n := n) (by decide) (by decide)
  simpa only [Nat.ofDigitChars, Nat.mul_comm] using h

lemma numberOf_toDigits (n : Nat) : numberOf 10 (Nat.toDigits 10 n) = n := by
  have hfold : ∀ (cs : List Char) (k : Nat), (∀ c ∈ cs, c.isDigit = true) →
      cs.foldl (fun n c => n * 10 + digitValue c) k =
        cs.foldl (fun n c => n * 10 + (c.toNat - '0'.toNat)) k := by
    intro cs
    induction cs with
    | nil => simp
    | cons c cs ih =>
      intro k h
      have hc : digitValue c = c.toNat - '0'.toNat := by simp [digitValue, h c]
      rw [List.foldl_cons, List.foldl_cons, hc, ih _ fun c hc => h c (List.mem_cons_of_mem _ hc)]
  rw [numberOf, hfold _ _ fun c hc => isDigit_of_mem_toDigits hc, foldl_toDigits]

lemma readMagnitude_toDigits {n : Nat} {cs : List Char} (hn : n < literalLimit) (hcs : Apart cs) :
    readMagnitude (Nat.toDigits 10 n ++ cs) = .ok (n, cs) := by
  have hdigit : ∀ c ∈ cs.head?, c.isDigit = false := by
    intro c hc
    rw [Bool.eq_false_iff]
    intro hdigit
    have := hcs c hc
    rw [isWordPart_of_isDigit hdigit] at this
    cases this
  have hdigits : ∀ c ∈ Nat.toDigits 10 n, c.isDigit = true := fun c hc => isDigit_of_mem_toDigits hc
  obtain ⟨htake, hdrop⟩ := takeWhile_append_of_apart hdigits hdigit
  have hdecimal : readDigits 10 Char.isDigit (Nat.toDigits 10 n ++ cs) = .ok (n, cs) := by
    have hfinish : readDigits.finish 10 (Nat.toDigits 10 n) cs = .ok (n, cs) := by
      simp [readDigits.finish, numberOf_toDigits, hn]
    simp only [readDigits, htake, hdrop, List.isEmpty_iff, Nat.toDigits_ne_nil, if_false]
    cases hhead : cs.head? with
    | none => exact hfinish
    | some c =>
      have hc := hcs c hhead
      simp only [isWordPart, Bool.or_eq_false_iff] at hc
      simp [hc, hfinish]
  unfold readMagnitude
  split
  · rename_i rest heq
    -- The second character is a digit or comes after the number, so it is no letter.
    have hx : 'x' ∈ Nat.toDigits 10 n ∨ 'x' ∈ cs.head? := by
      cases hdigits : Nat.toDigits 10 n with
      | nil => exact absurd hdigits Nat.toDigits_ne_nil
      | cons d ds =>
        rw [hdigits, List.cons_append, List.cons.injEq] at heq
        cases ds with
        | nil =>
          rw [List.nil_append] at heq
          simp [heq.2]
        | cons d' ds => simp_all
    rcases hx with hx | hx
    · exact absurd (isDigit_of_mem_toDigits hx) (by decide)
    · exact absurd (hcs 'x' hx) (by decide)
  · exact hdecimal

lemma readLexeme_quote (cs : List Char) :
    readLexeme '"' cs = (readString [] cs).map fun (s, rest) => (some (.str s), rest) := rfl

lemma readString_encodeChar (acc : List Char) (c : Char) (rest : List Char) :
    readString acc (Quoted.encodeChar c ++ rest) = readString (c :: acc) rest := by
  unfold Quoted.encodeChar
  split
  · rfl
  · rfl
  · rfl
  · rfl
  · rfl
  · rw [List.singleton_append, readString]
    all_goals simp_all

/-- What `Quoted.encode` writes is read back up to the closing quote. -/
lemma readString_encode (acc : List Char) (s rest : List Char) :
    readString acc (s.flatMap Quoted.encodeChar ++ '"' :: rest) =
      .ok (String.ofList (acc.reverse ++ s), rest) := by
  induction s generalizing acc with
  | nil =>
    rw [List.append_nil]
    rfl
  | cons c s ih =>
    rw [List.flatMap_cons, List.append_assoc, readString_encodeChar, ih]
    simp

/-! ### Whole texts -/

section Texts

variable {line : Nat} {acc : List Located} {c : Char} {cs rest : List Char}

lemma readTokens_nil : readTokens line acc [] = .ok acc.reverse := by
  rw [readTokens]

lemma readTokens_cons : readTokens line acc (c :: cs) =
    match readLexeme c cs with
    | .error cause => .error ⟨line, .lexical cause⟩
    | .ok (none, rest) => readTokens (if c == '\n' then line + 1 else line) acc rest
    | .ok (some token, rest) => readTokens line (⟨token, line⟩ :: acc) rest := by
  rw [readTokens]
  split
  all_goals simp_all

lemma readTokens_token {token : Token} (h : readLexeme c cs = .ok (some token, rest)) :
    readTokens line acc (c :: cs) = readTokens line (⟨token, line⟩ :: acc) rest := by
  rw [readTokens_cons, h]

lemma readTokens_skip (h : readLexeme c cs = .ok (none, rest)) :
    readTokens line acc (c :: cs) =
      readTokens (if c == '\n' then line + 1 else line) acc rest := by
  rw [readTokens_cons, h]

lemma readTokens_error {cause : LexicalCause} (h : readLexeme c cs = .error cause) :
    readTokens line acc (c :: cs) = .error ⟨line, .lexical cause⟩ := by
  rw [readTokens_cons, h]

lemma located_cons {token : Token} {ts : List Token} (h : readLexeme c cs = .ok (some token, rest))
    (hrest : ∀ line acc, ∃ located, readTokens line acc rest = .ok (acc.reverse ++ located) ∧
      located.map Located.token = ts) :
    ∃ located, readTokens line acc (c :: cs) = .ok (acc.reverse ++ located) ∧
      located.map Located.token = token :: ts := by
  obtain ⟨located, hread, htokens⟩ := hrest line (⟨token, line⟩ :: acc)
  refine ⟨⟨token, line⟩ :: located, ?_, by rw [List.map_cons, htokens]⟩
  rw [readTokens_token h, hread]
  simp

lemma readTokens_of_renders {ts : List Token} (h : Renders cs ts) (line : Nat)
    (acc : List Located) :
    ∃ located, readTokens line acc cs = .ok (acc.reverse ++ located) ∧
      located.map Located.token = ts := by
  induction h generalizing line acc with
  | nil => exact ⟨[], by simp [readTokens_nil], rfl⟩
  | blank hblank _ ih =>
    rw [readTokens_skip (readLexeme_of_isBlank hblank)]
    exact ih _ _
  | @comment text cs ts htext _ ih =>
    have hskip : readLexeme '#' (text ++ '\n' :: cs) = .ok (none, '\n' :: cs) := by
      rw [readLexeme_comment, dropWhile_comment htext (by simp)]
    rw [readTokens_skip hskip]
    exact ih _ _
  | mark hmark _ ih => exact located_cons (readLexeme_of_mark hmark _) ih
  | arrow _ ih => exact located_cons (readLexeme_arrow _) ih
  | @word name cs ts hname hcs _ ih =>
    have hread {c : Char} {letters : List Char} (hletters : name.toList = c :: letters) :
        readLexeme c (letters ++ cs) = .ok (some (.word name), cs) :=
      readLexeme_word hname hcs (by rw [hletters, List.cons_append])
    obtain ⟨c, letters, hletters, -⟩ := hname
    rw [hletters, List.cons_append]
    exact located_cons (hread hletters) ih
  | @nat n cs ts hn hcs _ ih =>
    have hread := readMagnitude_toDigits hn hcs
    rw [Nat.toString_eq_repr, Nat.toList_repr]
    cases hdigits : Nat.toDigits 10 n with
    | nil => exact absurd hdigits Nat.toDigits_ne_nil
    | cons d ds =>
      have hd : d.isDigit = true := isDigit_of_mem_toDigits (hdigits ▸ List.mem_cons_self)
      rw [hdigits, List.cons_append] at hread
      rw [List.cons_append]
      refine located_cons ?_ ih
      rw [readLexeme_of_isDigit hd, hread]
      rfl
  | @str s cs ts _ ih =>
    have hencode : (Quoted.encode s).toList ++ cs =
        '"' :: (s.toList.flatMap Quoted.encodeChar ++ '"' :: cs) := by
      simp [Quoted.encode]
    rw [hencode]
    refine located_cons ?_ ih
    rw [readLexeme_quote, readString_encode]
    simp [Except.map]

end Texts

/-- A text that renders tokens is read as them. -/
theorem tokens_of_renders {text : String} {ts : List Token} (h : Renders text.toList ts) :
    ∃ located, tokens text = .ok located ∧ located.map Located.token = ts := by
  simpa [tokens] using readTokens_of_renders h 1 []

end EntryTrace.Source
