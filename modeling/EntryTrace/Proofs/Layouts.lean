import EntryTrace.Proofs.LiteralValues
import EntryTrace.Proofs.MovedModules

/-!
# Layouts

Tokens are read back however they are laid out, with blanks and comments between them and around them.
Two neighbours have to be kept apart only if both are words or numbers. So the layout of a text decides
nothing but the line of an error.
-/

namespace EntryTrace

open Source

namespace Source

/-- What can stand between tokens: a blank character, or a comment with the line break after it. -/
inductive Spacer
  | blank (c : Char) (h : isBlank c = true)
  | comment (text : List Char) (h : '\n' ∉ text)

def Spacer.chars : Spacer → List Char
  | .blank c _ => [c]
  | .comment text _ => '#' :: (text ++ ['\n'])

abbrev Layout := List Spacer

def Layout.chars (gap : Layout) : List Char := gap.flatMap Spacer.chars

namespace Token

/-- How a token may be written. Integers are decimal, with or without zeros in front. -/
def IsWrittenAs : Token → List Char → Prop
  | .word name, cs => IsWord name ∧ cs = name.toList
  | .int n, cs => |n| < 2 ^ 127 ∧
    ∃ literal : IntLiteral, literal.hex = false ∧ literal.value = n ∧ cs = literal.chars
  | .str s, cs => cs = (Quoted.encode s).toList
  | .openParen, cs => cs = ['(']
  | .closeParen, cs => cs = [')']
  | .openBrace, cs => cs = ['\x7b']
  | .closeBrace, cs => cs = ['\x7d']
  | .colon, cs => cs = [':']
  | .comma, cs => cs = [',']
  | .equals, cs => cs = ['=']
  | .arrow, cs => cs = ['-', '>']

/-- Is the token a word or a number, which a letter or a digit after it would prolong? -/
def isOpen : Token → Bool
  | .word _ | .int _ => true
  | _ => false

lemma IsWrittenAs.quoted {s : String} {cs : List Char} (h : (Token.str s).IsWrittenAs cs) :
    cs = '"' :: (s.toList.flatMap Quoted.encodeChar ++ ['"']) := by
  simpa [IsWrittenAs, Quoted.encode] using h

end Token

lemma mem_decimals_of_isDigit {c : Char} (h : c.isDigit = true) : c ∈ decimals := by
  obtain ⟨hlow, hhigh⟩ := toNat_of_isDigit h
  have hc : Char.ofNat c.toNat = c := Char.ofNat_toNat c
  generalize c.toNat = n at hlow hhigh hc
  subst hc
  interval_cases n <;> decide

/-- An integer may be written as it is printed. -/
lemma Token.isWrittenAs_toString {n : Int} (h : |n| < 2 ^ 127) :
    (Token.int n).IsWrittenAs (toString n).toList := by
  have hvalid : ∀ c ∈ Nat.toDigits 10 n.natAbs, c ∈ numerals false :=
    fun c hc => mem_decimals_of_isDigit (isDigit_of_mem_toDigits hc)
  let literal : IntLiteral :=
    ⟨decide (n < 0), false, Nat.toDigits 10 n.natAbs, Nat.toDigits_ne_nil, hvalid⟩
  have hmagnitude : literal.magnitude = n.natAbs :=
    (numberOf_eq hvalid).symm.trans (numberOf_toDigits n.natAbs)
  refine ⟨h, literal, rfl, ?_, ?_⟩
  · rw [IntLiteral.value, hmagnitude]
    simp only [literal, decide_eq_true_eq]
    split <;> omega
  · cases n with
    | ofNat m => exact Nat.toList_repr
    | negSucc m =>
      change ("-" ++ (m + 1).repr).toList = _
      rw [String.toList_append, Nat.toList_repr]
      simp only [literal, IntLiteral.chars, decide_eq_true (Int.negSucc_lt_zero m)]
      rfl

/-- A token in a text, with the layout in front of it. -/
structure Piece where
  gap : Layout
  token : Token
  written : List Char
  isWritten : token.IsWrittenAs written

def Piece.chars (piece : Piece) : List Char := piece.gap.chars ++ piece.written

/-- A word or a number is kept apart from a word or a number before it. -/
def Separated (pieces : List Piece) : Prop :=
  pieces.IsChain fun p q => p.token.isOpen = true → q.token.isOpen = true → q.gap ≠ []

/-- The text that consists of these pieces and of some layout at its end. -/
def laidOut (pieces : List Piece) (last : Layout) : String :=
  String.ofList (pieces.flatMap Piece.chars ++ last.chars)

/-! ### What does not prolong a word or a number -/

lemma isWordPart_of_isBlank {c : Char} (h : isBlank c = true) : isWordPart c = false := by
  rw [Bool.eq_false_iff]
  intro hpart
  cases h.symm.trans (isBlank_of_isWordPart hpart)

lemma Apart.isNumberPart {cs : List Char} (h : Apart cs) : ∀ c ∈ cs.head?, isNumberPart c = false := by
  intro c hc
  have hpart := h c hc
  rw [isWordPart, Bool.or_eq_false_iff] at hpart
  exact hpart.1

lemma apart_layout {gap : Layout} (hgap : gap ≠ []) (rest : List Char) : Apart (gap.chars ++ rest) := by
  obtain ⟨spacer, gap, rfl⟩ := List.exists_cons_of_ne_nil hgap
  cases spacer with
  | blank c h =>
    rintro _ ⟨⟩
    exact isWordPart_of_isBlank h
  | comment text h =>
    rintro _ ⟨⟩
    decide

lemma apart_closed {t : Token} {cs : List Char} (h : t.IsWrittenAs cs) (ht : t.isOpen = false)
    (rest : List Char) : Apart (cs ++ rest) := by
  cases t with
  | word | int => cases ht
  | str s =>
    rw [h.quoted]
    rintro _ ⟨⟩
    decide
  | openParen | closeParen | openBrace | closeBrace | colon | comma | equals | arrow =>
    obtain rfl := h
    rintro _ ⟨⟩
    decide

/-- What comes after a word or a number does not prolong it. -/
lemma apart_pieces {pieces : List Piece} (last : Layout)
    (hfirst : ∀ q ∈ pieces.head?, q.token.isOpen = true → q.gap ≠ []) :
    Apart (pieces.flatMap Piece.chars ++ last.chars) := by
  cases pieces with
  | nil =>
    by_cases hlast : last = []
    · subst hlast
      rintro _ ⟨⟩
    · have hapart := apart_layout hlast []
      rwa [List.append_nil] at hapart
  | cons q pieces =>
    rw [List.flatMap_cons, Piece.chars, List.append_assoc, List.append_assoc]
    by_cases hgap : q.gap = []
    · have hclosed : q.token.isOpen = false := by
        rw [Bool.eq_false_iff]
        exact fun hopen => hfirst q rfl hopen hgap
      rw [hgap]
      exact apart_closed q.isWritten hclosed _
    · exact apart_layout hgap _

/-! ### Reading pieces -/

lemma ReadsTo.trans {line line' line'' : Nat} {cs mid rest : List Char} {ts us : List Located}
    (h : ReadsTo line cs ts line' mid) (h' : ReadsTo line' mid us line'' rest) :
    ReadsTo line cs (ts ++ us) line'' rest := by
  induction h with
  | here => exact h'
  | skip hlexeme _ ih => exact .skip hlexeme (ih h')
  | token hlexeme _ ih => exact .token hlexeme (ih h')

/-- Nothing is read of a layout. -/
lemma readsTo_layout (gap : Layout) (line : Nat) (rest : List Char) :
    ∃ line', ReadsTo line (gap.chars ++ rest) [] line' rest := by
  induction gap generalizing line with
  | nil => exact ⟨line, .here⟩
  | cons spacer gap ih =>
    rw [Layout.chars, List.flatMap_cons, List.append_assoc]
    cases spacer with
    | blank c h =>
      obtain ⟨line', hrest⟩ := ih (if c == '\n' then line + 1 else line)
      exact ⟨line', .skip (readLexeme_of_isBlank h) hrest⟩
    | comment text h =>
      obtain ⟨line', hrest⟩ := ih (line + 1)
      have hcomment : readLexeme '#' (text ++ ['\n'] ++ (Layout.chars gap ++ rest)) =
          .ok (none, '\n' :: (Layout.chars gap ++ rest)) := by
        rw [readLexeme_comment, List.append_assoc, dropWhile_comment h]
        · rfl
        · exact fun c hc => (Option.mem_some_iff.1 hc).symm
      exact ⟨line', .skip hcomment (.skip (readLexeme_of_isBlank rfl) hrest)⟩

/-- A token is read from any of its forms, in front of what does not prolong it. -/
lemma readLexeme_written {t : Token} {cs rest : List Char} (h : t.IsWrittenAs cs)
    (hrest : t.isOpen = true → Apart rest) :
    ∃ c cs', cs = c :: cs' ∧ readLexeme c (cs' ++ rest) = .ok (some t, rest) := by
  cases t with
  | word name =>
    obtain ⟨hname, rfl⟩ := h
    obtain ⟨c, cs', hletters, -⟩ := id hname
    exact ⟨c, cs', hletters, readLexeme_word hname (hrest rfl) (by rw [hletters, List.cons_append])⟩
  | int n =>
    obtain ⟨hlt, literal, -, rfl, rfl⟩ := h
    obtain ⟨c, cs', hchars, hread⟩ := literal.readLexeme_chars (hrest rfl).isNumberPart
    exact ⟨c, cs', hchars, hread.trans (if_pos (IntLiteral.magnitude_lt_iff.2 hlt))⟩
  | str s =>
    refine ⟨_, _, h.quoted, ?_⟩
    rw [List.append_assoc, List.singleton_append, readLexeme_quote, readString_encode]
    simp [Except.map]
  | arrow => exact ⟨_, _, h, readLexeme_arrow rest⟩
  | openParen | closeParen | openBrace | closeBrace | colon | comma | equals => exact ⟨_, _, h, rfl⟩

lemma readsTo_laidOut {pieces : List Piece} (hpieces : Separated pieces) (last : Layout) (line : Nat) :
    ∃ ts line', ReadsTo line (pieces.flatMap Piece.chars ++ last.chars) ts line' [] ∧
      ts.map Located.token = pieces.map Piece.token := by
  induction pieces generalizing line with
  | nil =>
    obtain ⟨line', hlast⟩ := readsTo_layout last line []
    rw [List.append_nil] at hlast
    exact ⟨[], line', hlast, rfl⟩
  | cons p pieces ih =>
    obtain ⟨hnext, hpieces⟩ := List.isChain_cons.1 hpieces
    have hapart : p.token.isOpen = true → Apart (pieces.flatMap Piece.chars ++ last.chars) :=
      fun hopen => apart_pieces last fun q hq => hnext q hq hopen
    obtain ⟨c, cs, hwritten, hread⟩ := readLexeme_written p.isWritten hapart
    obtain ⟨line₁, hgap⟩ := readsTo_layout p.gap line
      (c :: (cs ++ (pieces.flatMap Piece.chars ++ last.chars)))
    obtain ⟨ts, line', hts, htokens⟩ := ih hpieces line₁
    refine ⟨⟨p.token, line₁⟩ :: ts, line', ?_, by rw [List.map_cons, List.map_cons, htokens]⟩
    rw [List.flatMap_cons, Piece.chars, hwritten, List.append_assoc, List.append_assoc]
    exact hgap.trans (.token hread hts)

lemma tokens_of_readsTo {cs : List Char} {ts : List Located} {line : Nat}
    (h : ReadsTo 1 cs ts line []) : tokens (String.ofList cs) = .ok ts := by
  rw [tokens, String.toList_ofList, h.tokens_eq, readTokens_nil]
  simp [Except.map]

end Source

/-- Tokens that are laid out are read back, whatever stands between them. Any two layouts of the same
tokens come to the same: to one module, or to errors for one cause. -/
theorem tokens_laidOut {pieces : List Piece} (h : Separated pieces) (last : Layout) :
    (∃ located, tokens (laidOut pieces last) = .ok located ∧
      located.map Located.token = pieces.map Piece.token) ∧
    ∀ pieces' last', Separated pieces' → pieces'.map Piece.token = pieces.map Piece.token →
      (Module.ofText (laidOut pieces' last') : Except Fault (Except SourceError Module)).map
          (Except.mapError SourceError.cause) =
        (Module.ofText (laidOut pieces last) : Except Fault (Except SourceError Module)).map
          (Except.mapError SourceError.cause) := by
  have hread {pieces : List Piece} (h : Separated pieces) (last : Layout) :
      ∃ located, tokens (laidOut pieces last) = .ok located ∧
        located.map Located.token = pieces.map Piece.token := by
    obtain ⟨located, line', hreads, htokens⟩ := readsTo_laidOut h last 1
    exact ⟨located, tokens_of_readsTo hreads, htokens⟩
  refine ⟨hread h last, fun pieces' last' h' hsame => ?_⟩
  obtain ⟨located, htokens, hlocated⟩ := hread h last
  obtain ⟨located', htokens', hlocated'⟩ := hread h' last'
  rw [ofText_eq_understand htokens, ofText_eq_understand htokens']
  exact understand_congr (hlocated'.trans (hsame.trans hlocated.symm))

/-- Tokens as close together as they may be, some of which look like others inside. -/
def tightPieces : List Piece :=
  [⟨[], .word "f.0", _, by decide, rfl⟩,
    ⟨[], .arrow, _, rfl⟩,
    ⟨[], .int (-7), _, Token.isWrittenAs_toString (by decide)⟩,
    ⟨[], .str "#\\\"\n", _, rfl⟩,
    ⟨[], .word "_", _, by decide, rfl⟩,
    ⟨[.comment [] nofun], .int 40, _, Token.isWrittenAs_toString (by decide)⟩]

/-- The same tokens, each with a comment and a wide blank in front of it. -/
def airyPieces : List Piece :=
  tightPieces.map fun piece =>
    { piece with gap := [.comment "\"->".toList (by decide), .blank '\u2003' (by decide)] }

theorem tokens_laidOut_tight :
    Separated tightPieces ∧ laidOut tightPieces [] = "f.0->-7\"#\\\\\\\"\\n\"_#\n40" ∧
    (∃ located, tokens "f.0->-7\"#\\\\\\\"\\n\"_#\n40" = .ok located ∧
      located.map Located.token = [.word "f.0", .arrow, .int (-7), .str "#\\\"\n", .word "_", .int 40]) ∧
    Separated airyPieces ∧
    (Module.ofText (laidOut airyPieces []) : Except Fault (Except SourceError Module)).map
        (Except.mapError SourceError.cause) =
      (Module.ofText "f.0->-7\"#\\\\\\\"\\n\"_#\n40" : Except Fault (Except SourceError Module)).map
        (Except.mapError SourceError.cause) := by
  have htight : Separated tightPieces := by
    simp [Separated, tightPieces, Token.isOpen]
  have hairy : Separated airyPieces := by simp [Separated, airyPieces, tightPieces]
  have htext : laidOut tightPieces [] = "f.0->-7\"#\\\\\\\"\\n\"_#\n40" := by decide
  obtain ⟨hread, hsame⟩ := tokens_laidOut htight []
  rw [htext] at hread hsame
  exact ⟨htight, htext, hread, hairy, hsame airyPieces [] hairy rfl⟩

end EntryTrace
