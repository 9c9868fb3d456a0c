import EntryTrace.Proofs.RenamedText

/-!
# The tokens of a text with other names

A text in which the names of values and blocks are exchanged is read as tokens in the same way: the
tokens are those of the first text on the same lines, with these names exchanged, or both texts fail
to be read on the same line.
-/

namespace EntryTrace.Source

open Grammar (Names)

/-- The first token has become the second one. -/
inductive Renaming.Tokens (r : Renaming) : Token → Token → Prop
  | word {name name' : String} (h : r.Words name name') : r.Tokens (.word name) (.word name')
  | other {t : Token} (h : ∀ name, t ≠ .word name) : r.Tokens t t

def Token.functionAfter (k : Nat) (t : Token) : Nat := if t = .closeBrace then k + 1 else k

/-- The second tokens are the first ones with the names of values and blocks exchanged. -/
inductive RenamedTokens (r : Nat → Renaming) : Nat → List Located → List Located → Prop
  | nil {k : Nat} : RenamedTokens r k [] []
  | cons {k line : Nat} {t t' : Token} {ts ts' : List Located} (head : (r k).Tokens t t')
    (tail : RenamedTokens r (t.functionAfter k) ts ts') :
    RenamedTokens r k (⟨t, line⟩ :: ts) (⟨t', line⟩ :: ts')

/-! ### Ending alike -/

/-- Causes of the same kind, whatever they name. -/
inductive Cause.Alike : Cause → Cause → Prop
  | lexical {cause cause' : LexicalCause} : Cause.Alike (.lexical cause) (.lexical cause')
  | grammar {cause cause' : GrammarCause} : Cause.Alike (.grammar cause) (.grammar cause')
  | undefined {kind kind' : Kind} {index index' : Nat} :
    Cause.Alike (.undefined kind index) (.undefined kind' index')
  | typing {cause cause' : TypeCause} : Cause.Alike (.typing cause) (.typing cause')

/-- Two ends of the same work: results that are related, or errors of the same kind on the same
line. -/
inductive Parallel {α β : Type} (R : α → β → Prop) : Except SourceError α → Except SourceError β → Prop
  | ok {a : α} {b : β} (h : R a b) : Parallel R (.ok a) (.ok b)
  | error {line : Nat} {cause cause' : Cause} (h : cause.Alike cause') :
    Parallel R (.error ⟨line, cause⟩) (.error ⟨line, cause'⟩)

lemma Parallel.imp {α β : Type} {R S : α → β → Prop} {x : Except SourceError α}
    {y : Except SourceError β} (h : Parallel R x y) (himp : ∀ a b, R a b → S a b) :
    Parallel S x y := by
  cases h with
  | ok h => exact .ok (himp _ _ h)
  | error h => exact .error h

/-! ### Numbers -/

lemma isNumberPart_of_isDigit {c : Char} (h : c.isDigit = true) : isNumberPart c = true := by
  simp [isNumberPart, Char.isAlphanum, h]

lemma isNumberPart_of_isHexDigit {c : Char} (h : isHexDigit c = true) : isNumberPart c = true := by
  have hlower : 'f' ≤ 'z' := by decide
  have hupper : 'F' ≤ 'Z' := by decide
  simp only [isHexDigit, isNumberPart, Char.isAlphanum, Char.isAlpha, Char.isUpper, Char.isLower,
    Bool.or_eq_true, Bool.and_eq_true, decide_eq_true_eq] at h ⊢
  obtain (h | h) | h := h
  · exact .inl (.inr h)
  · exact .inl (.inl (.inr ⟨h.1, Char.le_trans h.2 hlower⟩))
  · exact .inl (.inl (.inl ⟨h.1, Char.le_trans h.2 hupper⟩))

/-- After a number only the next character is looked at. -/
lemma readDigits_append {radix : Nat} {p : Char → Bool} {run rest : List Char}
    (hp : ∀ c, p c = true → isNumberPart c = true)
    (hrest : ∀ c ∈ rest.head?, isNumberPart c = false) :
    readDigits radix p (run ++ rest) =
      (readDigits radix p run).map fun result => (result.1, result.2 ++ rest) := by
  have hstop : ∀ c ∈ (run.dropWhile p ++ rest).head?, p c = false := by
    intro c hc
    cases hdrop : run.dropWhile p with
    | nil =>
      rw [hdrop, List.nil_append] at hc
      rw [Bool.eq_false_iff]
      intro htrue
      have := hrest c hc
      rw [hp c htrue] at this
      cases this
    | cons d ds =>
      rw [hdrop, List.cons_append, List.head?_cons, Option.mem_some_iff] at hc
      exact apart_dropWhile p run c (by rw [hdrop, hc]; rfl)
  have hall : ∀ c ∈ run.takeWhile p, p c = true := fun c hc => List.mem_takeWhile_imp hc
  obtain ⟨htake, hdrop⟩ := takeWhile_append_of_apart hall hstop
  rw [← List.append_assoc, List.takeWhile_append_dropWhile] at htake hdrop
  have hfinish (digits left : List Char) : readDigits.finish radix digits (left ++ rest) =
      (readDigits.finish radix digits left).map fun result => (result.1, result.2 ++ rest) := by
    dsimp only [readDigits.finish]
    split <;> rfl
  simp only [readDigits, htake, hdrop]
  split
  · rfl
  · cases hleft : run.dropWhile p with
    | nil =>
      rw [List.nil_append, List.head?_nil, ← hfinish, List.nil_append]
      cases hhead : rest.head? with
      | none => rfl
      | some c =>
        have hc := hrest c hhead
        rw [isNumberPart] at hc
        simp only [hc, Bool.false_eq_true, if_false]
    | cons d ds =>
      simp only [List.cons_append, List.head?_cons]
      split
      · rfl
      · exact hfinish _ (d :: ds)

lemma readMagnitude_of_decimal {cs : List Char} (h : ∀ ds, cs ≠ '0' :: 'x' :: ds) :
    readMagnitude cs = readDigits 10 Char.isDigit cs := by
  unfold readMagnitude
  split
  · rename_i ds
    exact absurd rfl (h ds)
  · rfl

lemma readMagnitude_append {run rest : List Char} (hrun : run ≠ [])
    (hrest : ∀ c ∈ rest.head?, isNumberPart c = false) :
    readMagnitude (run ++ rest) =
      (readMagnitude run).map fun result => (result.1, result.2 ++ rest) := by
  by_cases hhex : ∃ ds, run = '0' :: 'x' :: ds
  · obtain ⟨ds, rfl⟩ := hhex
    exact readDigits_append (fun _ => isNumberPart_of_isHexDigit) hrest
  · have hdecimal : ∀ ds, run ≠ '0' :: 'x' :: ds := fun ds heq => hhex ⟨ds, heq⟩
    have hdecimal' : ∀ ds, run ++ rest ≠ '0' :: 'x' :: ds := by
      intro ds heq
      obtain ⟨c, run, rfl⟩ := List.exists_cons_of_ne_nil hrun
      cases run with
      | nil =>
        -- What comes after the only digit is no letter.
        obtain ⟨-, rfl⟩ := List.cons.inj heq
        exact absurd (hrest 'x' rfl) (by decide)
      | cons d run =>
        simp only [List.cons_append, List.cons.injEq] at heq
        exact hdecimal run (by rw [heq.1, heq.2.1])
    rw [readMagnitude_of_decimal hdecimal, readMagnitude_of_decimal hdecimal']
    exact readDigits_append (fun _ => isNumberPart_of_isDigit) hrest

/-- What is left after a number could not go on with it. -/
lemma head?_of_readDigits {radix : Nat} {p : Char → Bool} {cs rest : List Char} {n : Nat}
    (h : readDigits radix p cs = .ok (n, rest)) :
    rest <:+ cs ∧ ∀ c ∈ rest.head?, isNumberPart c = false := by
  have hfinish {digits left : List Char}
      (h : readDigits.finish radix digits left = .ok (n, rest)) : left = rest := by
    dsimp only [readDigits.finish] at h
    split at h
    · cases h
      rfl
    · cases h
  dsimp only [readDigits] at h
  split at h
  · cases h
  · split at h
    · rename_i c hc
      split at h
      · cases h
      · rename_i hnot
        obtain rfl := hfinish h
        refine ⟨List.dropWhile_suffix p, fun d hd => ?_⟩
        rw [hc, Option.mem_some_iff] at hd
        subst hd
        simpa [isNumberPart] using hnot
    · rename_i hnone
      obtain rfl := hfinish h
      refine ⟨List.dropWhile_suffix p, fun d hd => ?_⟩
      rw [hnone] at hd
      cases hd

lemma head?_of_readMagnitude {cs rest : List Char} {n : Nat} (h : readMagnitude cs = .ok (n, rest)) :
    rest <:+ cs ∧ ∀ c ∈ rest.head?, isNumberPart c = false := by
  unfold readMagnitude at h
  split at h
  · obtain ⟨hsuffix, hhead⟩ := head?_of_readDigits h
    exact ⟨hsuffix.trans ((List.suffix_cons _ _).trans (List.suffix_cons _ _)), hhead⟩
  · exact head?_of_readDigits h

/-- A run of number parts is a number as a whole, or none, whatever comes after it. -/
lemma readMagnitude_run {run : List Char} (hrun : run ≠ []) (hpart : ∀ c ∈ run, isNumberPart c = true) :
    (∃ n, ∀ rest : List Char, (∀ c ∈ rest.head?, isNumberPart c = false) →
      readMagnitude (run ++ rest) = .ok (n, rest)) ∨
    ∃ cause, ∀ rest : List Char, (∀ c ∈ rest.head?, isNumberPart c = false) →
      readMagnitude (run ++ rest) = .error cause := by
  cases hread : readMagnitude run with
  | error cause =>
    refine .inr ⟨cause, fun rest hrest => ?_⟩
    rw [readMagnitude_append hrun hrest, hread]
    rfl
  | ok result =>
    obtain ⟨n, left⟩ := result
    obtain ⟨hsuffix, hhead⟩ := head?_of_readMagnitude hread
    have hleft : left = [] := by
      cases left with
      | nil => rfl
      | cons c left =>
        have hc := hhead c rfl
        rw [hpart c (hsuffix.subset List.mem_cons_self)] at hc
        cases hc
    refine .inl ⟨n, fun rest hrest => ?_⟩
    rw [readMagnitude_append hrun hrest, hread, hleft]
    rfl

lemma readMagnitude_of_not_isDigit {cs : List Char} (h : ∀ c ∈ cs.head?, c.isDigit = false) :
    readMagnitude cs = .error .expectedDigits := by
  have hdecimal : ∀ ds, cs ≠ '0' :: 'x' :: ds := by
    rintro ds rfl
    exact absurd (h '0' rfl) (by decide)
  have htake : cs.takeWhile Char.isDigit = [] := by
    cases cs with
    | nil => rfl
    | cons c cs => rw [List.takeWhile_cons_of_neg (by simp [h c rfl])]
  rw [readMagnitude_of_decimal hdecimal]
  simp [readDigits, htake]

/-! ### One lexeme -/

namespace Renaming.Words

variable {ren : Renaming} {name name' : String}

lemma isWord (h : ren.Words name name') (hname : IsWord name) : IsWord name' := by
  have hnames {kind : Kind} {index : Nat} (h : Names kind index name') : IsWord name' := by
    obtain ⟨digits, -, hall, rfl, -⟩ := h
    have hletters : (kind.label ++ String.ofList digits).toList = kind.label.toList ++ digits := by
      rw [String.toList_append, String.toList_ofList]
    exact (isWord_label kind).append hletters fun c hc => isWordPart_of_isDigit (hall c hc)
  cases h with
  | value _ h' => exact hnames h'
  | block _ h' => exact hnames h'
  | other => exact hname

/-- The first letters of a name stay. -/
lemma head?_eq (h : ren.Words name name') : name.toList.head? = name'.toList.head? := by
  have hhead {kind : Kind} {index : Nat} {name : String} (h : Names kind index name) :
      name.toList.head? = kind.label.toList.head? := by
    obtain ⟨c, cs, heq, -⟩ := isWord_label kind
    obtain ⟨digits, -, -, rfl, -⟩ := h
    rw [String.toList_append, heq]
    rfl
  cases h with
  | value h h' => rw [hhead h, hhead h']
  | block h h' => rw [hhead h, hhead h']
  | other => rfl

end Renaming.Words

section Lexemes

lemma readLexeme_negative {cs : List Char} (h : cs.head? ≠ some '>') : readLexeme '-' cs =
    (readMagnitude cs).map fun (n, rest) => (some (.int (-n)), rest) := by
  have hblank : isBlank '-' = false := by decide
  simp only [readLexeme, Token.ofChar?, hblank]
  cases cs with
  | nil => rfl
  | cons c cs =>
    have hc : c ≠ '>' := by simpa using h
    simp [hc]

/-- A character that is nothing of what a lexeme can start with is none itself. -/
lemma readLexeme_unexpected {c : Char} (cs : List Char) (hmark : Token.ofChar? c = none)
    (hblank : isBlank c = false) (hdash : c ≠ '-') (hword : isWordStart c = false)
    (hdigit : c.isDigit = false) (hcomment : c ≠ '#') (hquote : c ≠ '"') :
    readLexeme c cs = .error (.unexpectedCharacter c) := by
  simp [readLexeme, hmark, hblank, hdash, hword, hdigit, hcomment, hquote]

lemma functionAfter_of_mark {k : Nat} {c : Char} {t : Token} (h : Token.ofChar? c = some t) :
    t.functionAfter k = functionAfter k c := by
  unfold Token.ofChar? at h
  split at h <;> cases h <;> rfl

lemma functionAfter_of_not_mark {k : Nat} {c : Char} (h : Token.ofChar? c = none) :
    functionAfter k c = k := by
  refine if_neg ?_
  rintro rfl
  cases h

variable {r : Nat → Renaming} {k : Nat} {cs cs' : List Char}

lemma Renamed.head?_eq (h : Renamed r k cs cs') : cs.head? = cs'.head? := by
  cases h with
  | word hname hwords =>
    obtain ⟨c, letters, heq, -⟩ := hname
    have hhead := hwords.head?_eq
    rw [List.head?_append, List.head?_append, ← hhead, heq]
    rfl
  | _ => rfl

/-- Both texts have no number in front, or the same one. -/
lemma Renamed.magnitude (h : Renamed r k cs cs') :
    (∃ cause cause', readMagnitude cs = .error cause ∧ readMagnitude cs' = .error cause') ∨
    ∃ n rest rest', readMagnitude cs = .ok (n, rest) ∧ readMagnitude cs' = .ok (n, rest') ∧
      Renamed r k rest rest' := by
  have hhead := h.head?_eq
  have hnone (hdigit : ∀ c ∈ cs.head?, c.isDigit = false) :
      ∃ cause cause', readMagnitude cs = .error cause ∧ readMagnitude cs' = .error cause' :=
    ⟨_, _, readMagnitude_of_not_isDigit hdigit, readMagnitude_of_not_isDigit (hhead ▸ hdigit)⟩
  cases h with
  | nil => exact .inl (hnone (by simp))
  | word hname =>
    obtain ⟨c, letters, heq, hc, -⟩ := hname
    refine .inl (hnone fun d hd => ?_)
    rw [heq, List.cons_append, List.head?_cons, Option.mem_some_iff] at hd
    exact hd ▸ isDigit_of_isWordStart hc
  | @number _ c run rest rest' hc hrun hrest h =>
    have hpart : ∀ d ∈ c :: run, isNumberPart d = true :=
      List.forall_mem_cons.2 ⟨isNumberPart_of_isDigit hc, hrun⟩
    have hrest' : ∀ d ∈ rest'.head?, isNumberPart d = false := by rwa [← h.head?_eq]
    obtain ⟨n, hn⟩ | ⟨cause, hcause⟩ := readMagnitude_run (List.cons_ne_nil c run) hpart
    · exact .inr ⟨n, rest, rest', hn rest hrest, hn rest' hrest', h⟩
    · exact .inl ⟨cause, cause, hcause rest hrest, hcause rest' hrest'⟩
  | comment | str | unclosed => exact .inl (hnone (by simp))
  | char _ hdigit => exact .inl (hnone (by simpa using hdigit))

/-- Both texts have no lexeme in front, or the same one up to names, and what is left is related. -/
inductive SameLexeme (r : Nat → Renaming) (k : Nat) : Except LexicalCause (Option Token × List Char) →
    Except LexicalCause (Option Token × List Char) → Prop
  | error {cause cause' : LexicalCause} : SameLexeme r k (.error cause) (.error cause')
  | skip {rest rest' : List Char} (h : Renamed r k rest rest') :
    SameLexeme r k (.ok (none, rest)) (.ok (none, rest'))
  | token {t t' : Token} {rest rest' : List Char} (ht : (r k).Tokens t t')
    (h : Renamed r (t.functionAfter k) rest rest') :
    SameLexeme r k (.ok (some t, rest)) (.ok (some t', rest'))

lemma sameLexeme_magnitude {f : Nat → Int} (h : Renamed r k cs cs') : SameLexeme r k
    ((readMagnitude cs).map fun (n, rest) => (some (.int (f n)), rest))
    ((readMagnitude cs').map fun (n, rest) => (some (.int (f n)), rest)) := by
  obtain ⟨cause, cause', hread, hread'⟩ | ⟨n, rest, rest', hread, hread', hrest⟩ := h.magnitude
  · rw [hread, hread']
    exact .error
  · rw [hread, hread']
    exact .token (.other nofun) hrest

lemma Renamed.of_arrow (h : Renamed r k ('>' :: cs) cs') :
    ∃ rest, cs' = '>' :: rest ∧ Renamed r k cs rest := by
  generalize htext : '>' :: cs = text at h
  cases h with
  | nil => cases htext
  | word hname =>
    obtain ⟨c, letters, heq, hc, -⟩ := hname
    rw [heq, List.cons_append] at htext
    obtain ⟨rfl, -⟩ := List.cons.inj htext
    cases hc
  | number hc =>
    obtain ⟨rfl, -⟩ := List.cons.inj htext
    cases hc
  | comment => cases htext
  | str => cases htext
  | unclosed => cases htext
  | @char _ _ _ rest' _ _ _ _ h =>
    obtain ⟨rfl, rfl⟩ := List.cons.inj htext
    exact ⟨rest', rfl, h⟩

/-- A dash starts an arrow in both texts, or a number in both, or nothing. -/
lemma sameLexeme_dash (h : Renamed r k cs cs') :
    SameLexeme r k (readLexeme '-' cs) (readLexeme '-' cs') := by
  by_cases harrow : cs.head? = some '>'
  · obtain ⟨rest, rfl⟩ : ∃ rest, cs = '>' :: rest := List.head?_eq_some_iff.1 harrow
    obtain ⟨rest', rfl, hrest⟩ := h.of_arrow
    rw [readLexeme_arrow, readLexeme_arrow]
    exact .token (.other nofun) hrest
  · rw [readLexeme_negative harrow, readLexeme_negative (h.head?_eq ▸ harrow)]
    exact sameLexeme_magnitude (f := fun n => -n) h

/-- Texts that are related start with the same character, and with the same lexeme up to names. -/
theorem Renamed.lexeme {c c' : Char} (h : Renamed r k (c :: cs) (c' :: cs')) :
    c = c' ∧ SameLexeme r k (readLexeme c cs) (readLexeme c' cs') := by
  have hhead := h.head?_eq
  obtain rfl : c = c' := by simpa using hhead
  refine ⟨rfl, ?_⟩
  generalize htext : c :: cs = text at h
  generalize htext' : c :: cs' = text' at h
  cases h with
  | nil => cases htext
  | @word _ name name' rest rest' hname hwords hrest h =>
    have hrest' : Apart rest' := by rwa [Apart, ← h.head?_eq]
    rw [readLexeme_word hname hrest htext, readLexeme_word (hwords.isWord hname) hrest' htext']
    exact .token (.word hwords) h
  | number hc hrun hrest h =>
    have hwhole := Renamed.number (k := k) hc hrun hrest h
    obtain ⟨rfl, rfl⟩ := List.cons.inj htext
    obtain ⟨-, rfl⟩ := List.cons.inj htext'
    rw [readLexeme_of_isDigit hc, readLexeme_of_isDigit hc]
    exact sameLexeme_magnitude (f := fun n => n) hwhole
  | comment hcomment hcomment' hrest h =>
    obtain ⟨rfl, rfl⟩ := List.cons.inj htext
    obtain ⟨-, rfl⟩ := List.cons.inj htext'
    rw [readLexeme_comment, readLexeme_comment, dropWhile_comment hcomment hrest,
      dropWhile_comment hcomment' (h.head?_eq ▸ hrest)]
    exact .skip h
  | str hinside h =>
    obtain ⟨rfl, rfl⟩ := List.cons.inj htext
    obtain ⟨-, rfl⟩ := List.cons.inj htext'
    obtain ⟨s, hs⟩ := readString_of_enclosed hinside []
    rw [readLexeme_quote, readLexeme_quote, hs, hs]
    exact .token (.other nofun) h
  | unclosed h h' =>
    obtain ⟨rfl, rfl⟩ := List.cons.inj htext
    obtain ⟨-, rfl⟩ := List.cons.inj htext'
    obtain ⟨cause, hcause⟩ := readString_of_unclosed h []
    obtain ⟨cause', hcause'⟩ := readString_of_unclosed h' []
    rw [readLexeme_quote, readLexeme_quote, hcause, hcause']
    exact .error
  | @char _ _ rest rest' hword hdigit hcomment hquote h =>
    obtain ⟨rfl, rfl⟩ := List.cons.inj htext
    obtain ⟨-, rfl⟩ := List.cons.inj htext'
    cases hmark : Token.ofChar? c with
    | some t =>
      have hmarked := readLexeme_of_mark hmark
      have hnoWord : ∀ name, t ≠ .word name := by
        rintro name rfl
        unfold Token.ofChar? at hmark
        split at hmark <;> cases hmark
      rw [hmarked, hmarked]
      exact .token (.other hnoWord) (by rwa [functionAfter_of_mark hmark])
    | none =>
      rw [functionAfter_of_not_mark hmark] at h
      by_cases hblank : isBlank c = true
      · rw [readLexeme_of_isBlank hblank, readLexeme_of_isBlank hblank]
        exact .skip h
      · by_cases hdash : c = '-'
        · subst hdash
          exact sameLexeme_dash h
        · rw [Bool.not_eq_true] at hblank
          rw [readLexeme_unexpected _ hmark hblank hdash hword hdigit hcomment hquote,
            readLexeme_unexpected _ hmark hblank hdash hword hdigit hcomment hquote]
          exact .error

end Lexemes

/-! ### Whole texts -/

section Texts

variable {r : Nat → Renaming}

lemma Renamed.eq_nil_iff {k : Nat} {cs cs' : List Char} (h : Renamed r k cs cs') :
    cs = [] ↔ cs' = [] := by
  rw [← List.head?_eq_none_iff, h.head?_eq, List.head?_eq_none_iff]

/-- Lexeme by lexeme, on the same lines. -/
theorem Renamed.readTokens {cs cs' : List Char} {k : Nat} (h : Renamed r k cs cs') (line : Nat)
    (acc acc' : List Located) :
    Parallel (fun ts ts' => ∃ added added', ts = acc.reverse ++ added ∧ ts' = acc'.reverse ++ added' ∧
      RenamedTokens r k added added') (readTokens line acc cs) (readTokens line acc' cs') := by
  induction hlength : cs.length using Nat.strong_induction_on generalizing cs cs' k line acc acc' with
  | _ n ih =>
  subst hlength
  cases cs with
  | nil =>
    obtain rfl := h.eq_nil_iff.1 rfl
    rw [readTokens_nil, readTokens_nil]
    exact .ok ⟨[], [], by simp, by simp, .nil⟩
  | cons c cs =>
    cases cs' with
    | nil => cases h.eq_nil_iff.2 rfl
    | cons c' cs' =>
      obtain ⟨rfl, hlexeme⟩ := h.lexeme
      generalize hread : readLexeme c cs = result at hlexeme
      generalize hread' : readLexeme c cs' = result' at hlexeme
      cases hlexeme with
      | error =>
        rw [readTokens_error hread, readTokens_error hread']
        exact .error .lexical
      | skip hrest =>
        have hlt := Nat.lt_succ_of_le (readLexeme_length hread)
        rw [readTokens_skip hread, readTokens_skip hread']
        exact ih _ hlt hrest _ acc acc' rfl
      | @token t t' rest rest' ht hrest =>
        have hlt := Nat.lt_succ_of_le (readLexeme_length hread)
        rw [readTokens_token hread, readTokens_token hread']
        refine (ih _ hlt hrest line (⟨t, line⟩ :: acc) (⟨t', line⟩ :: acc') rfl).imp ?_
        rintro _ _ ⟨added, added', rfl, rfl, hadded⟩
        exact ⟨⟨t, line⟩ :: added, ⟨t', line⟩ :: added', by simp, by simp, .cons ht hadded⟩

end Texts

/-- A text with other names is read as the same tokens with other names on the same lines, or none of
the two texts is read, on the same line. -/
theorem tokens_renamed {r : Nat → Renaming} {text text' : String}
    (h : Renamed r 0 text.toList text'.toList) :
    Parallel (RenamedTokens r 0) (tokens text) (tokens text') := by
  refine (h.readTokens 1 [] []).imp ?_
  rintro _ _ ⟨added, added', rfl, rfl, hadded⟩
  exact hadded

end EntryTrace.Source
