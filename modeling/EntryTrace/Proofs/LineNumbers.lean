import EntryTrace.Proofs.LiteralPlaces
import EntryTrace.Proofs.MovedModules
import EntryTrace.Proofs.TaggedText

/-!
# Line numbers

A token is on the line on which its first character is, and a lexical error on the line on which reading
stopped. No lexeme but a line break goes over the end of a line, so it is enough to count the line breaks
in front of a lexeme. Every other error is on the line of a token.
-/

namespace EntryTrace

open Source

namespace Source

/-- The line on which a text goes on after `before`, counted from 1. -/
def lineAfter (before : List Char) : Nat := 1 + before.count '\n'

/-! ### How far a lexeme is read -/

/-- What is left of a text in front of which a number was read, or where no number could be read. -/
def pastDigits : List Char → List Char
  | '0' :: 'x' :: cs => cs.dropWhile isHexDigit
  | cs => cs.dropWhile Char.isDigit

/-- What is left after the closing quote of a string, or where the string goes wrong. -/
def pastString : List Char → List Char
  | [] => []
  | '"' :: rest => rest
  | '\n' :: rest => '\n' :: rest
  | ['\\'] => ['\\']
  | '\\' :: c :: rest =>
    match Quoted.unescape? c with
    | some _ => pastString rest
    | none => '\\' :: c :: rest
  | _ :: rest => pastString rest

/-- What is left after an arrow or a number that starts with a minus sign, from what follows the sign. -/
def pastDash : List Char → List Char
  | '>' :: rest => rest
  | cs => pastDigits cs

/-- What is left after the lexeme that starts with `c` and goes on in `rest`, or at the character where
the reading of it stops with an error. -/
def pastLexeme (c : Char) (rest : List Char) : List Char :=
  match Token.ofChar? c with
  | some _ => rest
  | none =>
    if isBlank c then rest
    else if c == '#' then rest.dropWhile (· != '\n')
    else if c == '-' then pastDash rest
    else if c.isDigit then pastDigits (c :: rest)
    else if c == '"' then pastString rest
    else if isWordStart c then rest.dropWhile isWordPart
    else c :: rest

lemma readDigits_past {radix n : Nat} {p : Char → Bool} {cs rest : List Char}
    (h : readDigits radix p cs = .ok (n, rest)) : rest = cs.dropWhile p := by
  have hfinish {digits left : List Char}
      (h : readDigits.finish radix digits left = .ok (n, rest)) : rest = left := by
    dsimp only [readDigits.finish] at h
    split at h
    · cases h
      rfl
    · cases h
  dsimp only [readDigits] at h
  split at h
  · cases h
  split at h
  · split at h
    · cases h
    · exact hfinish h
  · exact hfinish h

lemma readMagnitude_past {n : Nat} {cs rest : List Char} (h : readMagnitude cs = .ok (n, rest)) :
    rest = pastDigits cs := by
  unfold readMagnitude at h
  split at h
  · exact readDigits_past h
  · rw [pastDigits]
    · exact readDigits_past h
    · assumption

lemma readString_past {acc cs rest : List Char} {s : String}
    (h : readString acc cs = .ok (s, rest)) : rest = pastString cs := by
  fun_induction readString acc cs with
  | case1 => cases h
  | case2 =>
    cases h
    rw [pastString]
  | case3 => cases h
  | case4 => cases h
  | case5 acc c rest escaped hescaped ih =>
    rw [pastString, hescaped]
    exact ih h
  | case6 => cases h
  | case7 acc c rest hquote hline hend hescape ih =>
    rw [pastString]
    · exact ih h
    all_goals assumption

lemma map_past {α β : Type} {x : Except LexicalCause (α × List Char)} {f : α → β} {b : β}
    {past rest : List Char} (hx : ∀ a, x = .ok (a, rest) → rest = past)
    (h : (x.map fun (a, rest) => (f a, rest)) = .ok (b, rest)) : rest = past := by
  cases x with
  | error cause => cases h
  | ok p =>
    cases h
    exact hx p.1 rfl

/-- A lexeme is read as far as `pastLexeme` says. -/
lemma readLexeme_past {c : Char} {cs rest : List Char} {token? : Option Token}
    (h : readLexeme c cs = .ok (token?, rest)) : rest = pastLexeme c cs := by
  unfold readLexeme at h
  unfold pastLexeme
  cases hmark : Token.ofChar? c with
  | some t =>
    rw [hmark] at h
    cases h
    rfl
  | none =>
    rw [hmark] at h
    dsimp only at h ⊢
    split_ifs at h ⊢
    · cases h
      rfl
    · cases h
      rfl
    · split at h
      · cases h
        rfl
      · rename_i harrow
        rw [pastDash.eq_2 cs harrow]
        exact map_past (f := fun n : Nat => some (Token.int (-n))) (fun _ => readMagnitude_past) h
    · exact map_past (f := fun n : Nat => some (Token.int n)) (fun _ => readMagnitude_past) h
    · exact map_past (f := fun s => some (Token.str s)) (fun _ => readString_past) h
    · cases h
      rfl

/-- What is met where reading stops for a cause. -/
def LexicalCause.Meets : LexicalCause → List Char → Prop
  | .unexpectedCharacter c, left => left.head? = some c
  | .expectedDigits, left => ∀ c ∈ left.head?, c.isDigit = false
  | .malformedInteger next, left => left.head? = some next
  | .integerOutOfRange _, left => ∀ c ∈ left.head?, isNumberPart c = false
  | .unterminatedString, left => ∀ c ∈ left.head?, c = '\n'
  | .unknownEscape next, left => left.head? = some '\\' ∧ left.tail.head? = next

lemma readDigits_meets {radix : Nat} {p : Char → Bool} {cs : List Char} {cause : LexicalCause}
    (hp : ∀ c : Char, c.isDigit = true → p c = true) (h : readDigits radix p cs = .error cause) :
    cause.Meets (cs.dropWhile p) := by
  have hfinish {digits left : List Char} (h : readDigits.finish radix digits left = .error cause) :
      cause = .integerOutOfRange (String.ofList digits) := by
    dsimp only [readDigits.finish] at h
    split at h
    · cases h
    · cases h
      rfl
  dsimp only [readDigits] at h
  split at h
  · cases h
    intro c hc
    rw [Bool.eq_false_iff]
    intro hdigit
    cases (hp c hdigit).symm.trans (apart_dropWhile p cs c hc)
  split at h
  · rename_i c hc
    split at h
    · cases h
      exact hc
    · rename_i hpart
      rw [hfinish h]
      intro d hd
      rw [hc, Option.mem_some_iff] at hd
      exact hd ▸ Bool.eq_false_iff.2 hpart
  · rename_i hnone
    rw [hfinish h]
    intro d hd
    rw [hnone] at hd
    cases hd

lemma readMagnitude_meets {cs : List Char} {cause : LexicalCause} (h : readMagnitude cs = .error cause) :
    cause.Meets (pastDigits cs) := by
  unfold readMagnitude at h
  split at h
  · exact readDigits_meets (fun c hc => by rw [isHexDigit, hc]; rfl) h
  · rw [pastDigits]
    · exact readDigits_meets (fun _ hc => hc) h
    · assumption

lemma readString_meets {acc cs : List Char} {cause : LexicalCause}
    (h : readString acc cs = .error cause) : cause.Meets (pastString cs) := by
  fun_induction readString acc cs with
  | case1 =>
    cases h
    rintro c ⟨⟩
  | case2 => cases h
  | case3 acc rest =>
    cases h
    exact fun c hc => (Option.mem_some_iff.1 hc).symm
  | case4 =>
    cases h
    exact ⟨rfl, rfl⟩
  | case5 acc c rest escaped hescaped ih =>
    rw [pastString, hescaped]
    exact ih h
  | case6 acc c rest hescaped =>
    cases h
    rw [pastString, hescaped]
    exact ⟨rfl, rfl⟩
  | case7 acc c rest hquote hline hend hescape ih =>
    rw [pastString]
    · exact ih h
    all_goals assumption

lemma map_meets {α β : Type} {x : Except LexicalCause (α × List Char)} {f : α → β}
    {cause : LexicalCause} {past : List Char} (hx : x = .error cause → cause.Meets past)
    (h : (x.map fun (a, rest) => (f a, rest)) = .error cause) : cause.Meets past := by
  cases x with
  | error cause =>
    cases h
    exact hx rfl
  | ok => cases h

/-- A lexeme that is wrong is read up to the place where that shows. -/
lemma readLexeme_meets {c : Char} {cs : List Char} {cause : LexicalCause}
    (h : readLexeme c cs = .error cause) : cause.Meets (pastLexeme c cs) := by
  unfold readLexeme at h
  unfold pastLexeme
  cases hmark : Token.ofChar? c with
  | some t =>
    rw [hmark] at h
    cases h
  | none =>
    rw [hmark] at h
    dsimp only at h ⊢
    split_ifs at h ⊢
    · split at h
      · cases h
      · rename_i harrow
        rw [pastDash.eq_2 cs harrow]
        exact map_meets (f := fun n : Nat => some (Token.int (-n))) readMagnitude_meets h
    · exact map_meets (f := fun n : Nat => some (Token.int n)) readMagnitude_meets h
    · exact map_meets (f := fun s => some (Token.str s)) readString_meets h
    · cases h
      rfl

/-! ### Places on one line -/

/-- No line ends between the two places. -/
def SameLine (cs rest : List Char) : Prop := ∃ passed, '\n' ∉ passed ∧ cs = passed ++ rest

namespace SameLine

variable {c : Char} {cs rest : List Char}

lemma refl (cs : List Char) : SameLine cs cs := ⟨[], List.not_mem_nil, rfl⟩

lemma cons (hc : c ≠ '\n') (h : SameLine cs rest) : SameLine (c :: cs) rest := by
  obtain ⟨passed, hpassed, rfl⟩ := h
  refine ⟨c :: passed, fun hmem => ?_, rfl⟩
  rcases List.mem_cons.1 hmem with hc' | hmem
  · exact hc hc'.symm
  · exact hpassed hmem

/-- From a place on the same line there are as many line breaks to a later place. -/
lemma line_eq {line line' : Nat} {mid : List Char} (h : SameLine cs mid)
    (hmid : ∃ before, mid = before ++ rest ∧ line' = line + before.count '\n') :
    ∃ before, cs = before ++ rest ∧ line' = line + before.count '\n' := by
  obtain ⟨passed, hpassed, rfl⟩ := h
  obtain ⟨before, rfl, rfl⟩ := hmid
  refine ⟨passed ++ before, (List.append_assoc ..).symm, ?_⟩
  rw [List.count_append, List.count_eq_zero_of_not_mem hpassed, Nat.zero_add]

lemma dropWhile {p : Char → Bool} (hp : p '\n' = false) (cs : List Char) :
    SameLine cs (cs.dropWhile p) := by
  refine ⟨cs.takeWhile p, fun hmem => ?_, List.takeWhile_append_dropWhile.symm⟩
  rw [List.mem_takeWhile_imp hmem] at hp
  cases hp

end SameLine

lemma sameLine_pastDigits (cs : List Char) : SameLine cs (pastDigits cs) := by
  unfold pastDigits
  split
  · exact ((SameLine.dropWhile rfl _).cons (by decide)).cons (by decide)
  · exact SameLine.dropWhile rfl _

lemma sameLine_pastDash (cs : List Char) : SameLine cs (pastDash cs) := by
  unfold pastDash
  split
  · exact (SameLine.refl _).cons (by decide)
  · exact sameLine_pastDigits cs

lemma sameLine_pastString (cs : List Char) : SameLine cs (pastString cs) := by
  fun_induction pastString cs with
  | case1 => exact .refl []
  | case2 rest => exact (SameLine.refl rest).cons (by decide)
  | case3 rest => exact .refl _
  | case4 => exact .refl _
  | case5 c rest escaped hescaped ih =>
    refine (ih.cons ?_).cons (by decide)
    rintro rfl
    cases hescaped
  | case6 c rest hescaped => exact .refl _
  | case7 c rest hquote hline hend hescape ih => exact ih.cons hline

lemma sameLine_pastLexeme {c : Char} (hc : c ≠ '\n') (cs : List Char) :
    SameLine (c :: cs) (pastLexeme c cs) := by
  unfold pastLexeme
  split
  · exact (SameLine.refl cs).cons hc
  split_ifs
  · exact (SameLine.refl cs).cons hc
  · exact (SameLine.dropWhile rfl cs).cons hc
  · exact (sameLine_pastDash cs).cons hc
  · exact sameLine_pastDigits (c :: cs)
  · exact (sameLine_pastString cs).cons hc
  · exact (SameLine.dropWhile rfl cs).cons hc
  · exact .refl _

lemma readLexeme_newline (cs : List Char) : readLexeme '\n' cs = .ok (none, cs) :=
  readLexeme_of_isBlank rfl

/-! ### Lines of places -/

/-- The line of a place that reading comes to tells how many lines end before it. -/
lemma ReadsTo.line_eq {line line' : Nat} {cs rest : List Char} {ts : List Located}
    (h : ReadsTo line cs ts line' rest) :
    ∃ before, cs = before ++ rest ∧ line' = line + before.count '\n' := by
  induction h with
  | here => exact ⟨[], rfl, rfl⟩
  | @skip line line' c cs mid rest ts hread _ ih =>
    by_cases hc : c = '\n'
    · subst hc
      cases hread.symm.trans (readLexeme_newline cs)
      obtain ⟨before, rfl, rfl⟩ := ih
      refine ⟨'\n' :: before, rfl, ?_⟩
      rw [if_pos (beq_self_eq_true _), List.count_cons_self]
      omega
    · rw [if_neg (by simpa using hc)] at ih
      exact (readLexeme_past hread ▸ sameLine_pastLexeme hc cs).line_eq ih
  | @token line line' c cs mid rest t ts hread _ ih =>
    have hc : c ≠ '\n' := by
      rintro rfl
      cases hread.symm.trans (readLexeme_newline cs)
    exact (readLexeme_past hread ▸ sameLine_pastLexeme hc cs).line_eq ih

/-- Reading comes to each of the tokens. -/
lemma ReadsTo.exists_token {line line' : Nat} {cs rest : List Char} {ts front back : List Located}
    {l : Located} (h : ReadsTo line cs ts line' rest) (hts : ts = front ++ l :: back) :
    ∃ c mid left, ReadsTo line cs front l.line (c :: mid) ∧
      readLexeme c mid = .ok (some l.token, left) := by
  induction h generalizing front with
  | here => exact absurd hts (by simp)
  | skip hread _ ih =>
    obtain ⟨c, mid, left, hfront, htoken⟩ := ih hts
    exact ⟨c, mid, left, .skip hread hfront, htoken⟩
  | token hread _ ih =>
    cases front with
    | nil =>
      obtain ⟨rfl, rfl⟩ := List.cons.inj hts
      exact ⟨_, _, _, .here, hread⟩
    | cons first front =>
      obtain ⟨rfl, rfl⟩ := List.cons.inj hts
      obtain ⟨c, mid, left, hfront, htoken⟩ := ih rfl
      exact ⟨c, mid, left, .token hread hfront, htoken⟩

section Ends

variable {line : Nat} {acc : List Located} {cs : List Char}

/-- Reading that gives tokens comes to the end of the text. -/
lemma readsTo_of_ok {located : List Located} (h : readTokens line acc cs = .ok located) :
    ∃ ts line', located = acc.reverse ++ ts ∧ ReadsTo line cs ts line' [] := by
  fun_induction readTokens line acc cs with
  | case1 line acc =>
    cases h
    exact ⟨[], line, (List.append_nil _).symm, .here⟩
  | case2 => cases h
  | case3 line acc c cs rest hread ih =>
    obtain ⟨ts, line', hlocated, hrest⟩ := ih h
    exact ⟨ts, line', hlocated, .skip hread hrest⟩
  | case4 line acc c cs token rest hread ih =>
    obtain ⟨ts, line', rfl, hrest⟩ := ih h
    exact ⟨⟨token, line⟩ :: ts, line', by simp, .token hread hrest⟩

/-- Reading that fails comes to a lexeme that is wrong. -/
lemma readsTo_of_error {e : SourceError} (h : readTokens line acc cs = .error e) :
    ∃ ts c rest cause, ReadsTo line cs ts e.line (c :: rest) ∧ readLexeme c rest = .error cause ∧
      e.cause = .lexical cause := by
  fun_induction readTokens line acc cs with
  | case1 => cases h
  | case2 line acc c rest cause hread =>
    cases h
    exact ⟨[], c, rest, cause, .here, hread, rfl⟩
  | case3 line acc c cs rest hread ih =>
    obtain ⟨ts, c', rest', cause, hrest, herror⟩ := ih h
    exact ⟨ts, c', rest', cause, .skip hread hrest, herror⟩
  | case4 line acc c cs token rest hread ih =>
    obtain ⟨ts, c', rest', cause, hrest, herror⟩ := ih h
    exact ⟨⟨token, line⟩ :: ts, c', rest', cause, .token hread hrest, herror⟩

end Ends

/-- Reading the text as tokens, this one comes after `front`, and its first character after `before`. -/
def Located.StartsAfter (l : Located) (text : String) (front : List Located) (before : List Char) :
    Prop :=
  ∃ c rest left, ReadsTo 1 text.toList front l.line (c :: rest) ∧
    readLexeme c rest = .ok (some l.token, left) ∧ text.toList = before ++ c :: rest

/-- Reading the text as tokens stops between `before` and `left`, in a lexeme that is wrong. -/
def LexicalCause.StopsBetween (cause : LexicalCause) (text : String) (before left : List Char) : Prop :=
  ∃ front line c rest, ReadsTo 1 text.toList front line (c :: rest) ∧
    readLexeme c rest = .error cause ∧ left = pastLexeme c rest ∧ text.toList = before ++ left

lemma exists_startsAfter {text : String} {front back : List Located} {l : Located}
    (h : tokens text = .ok (front ++ l :: back)) :
    ∃ before, l.StartsAfter text front before ∧ l.line = lineAfter before := by
  obtain ⟨ts, line', rfl, hreads⟩ := readsTo_of_ok h
  obtain ⟨c, rest, left, hfront, htoken⟩ := hreads.exists_token rfl
  obtain ⟨before, hbefore, hline⟩ := hfront.line_eq
  exact ⟨before, ⟨c, rest, left, hfront, htoken, hbefore⟩, hline⟩

lemma exists_stopsBetween {text : String} {e : SourceError} (h : tokens text = .error e) :
    ∃ cause before left, e.cause = .lexical cause ∧ cause.StopsBetween text before left ∧
      cause.Meets left ∧ e.line = lineAfter before := by
  obtain ⟨ts, c, rest, cause, hfront, herror, hcause⟩ := readsTo_of_error h
  obtain ⟨before, hbefore, hline⟩ := hfront.line_eq
  have hc : c ≠ '\n' := by
    rintro rfl
    cases herror.symm.trans (readLexeme_newline rest)
  obtain ⟨passed, hpassed, hrest⟩ := sameLine_pastLexeme hc rest
  have hstops : cause.StopsBetween text (before ++ passed) (pastLexeme c rest) :=
    ⟨ts, e.line, c, rest, hfront, herror, rfl, by rw [hbefore, hrest, List.append_assoc]⟩
  refine ⟨cause, before ++ passed, _, hcause, hstops, readLexeme_meets herror, ?_⟩
  rw [hline, lineAfter, List.count_append, List.count_eq_zero_of_not_mem hpassed, Nat.add_zero]

lemma lineAfter_le {text before rest : List Char} (h : text = before ++ rest) :
    1 ≤ lineAfter before ∧ lineAfter before ≤ lineAfter text := by
  subst h
  rw [lineAfter, lineAfter, List.count_append]
  omega

end Source

/-- A token is on the line on which its first character is, and a lexical error on the line on which
reading the text stopped. If a text is refused, then on one of its lines, and if not for a lexical error,
then on the line of one of its tokens; on line 1 if it has none. -/
theorem line_of_ofText (text : String) :
    (∀ front l back, tokens text = .ok (front ++ l :: back) →
      ∃ before, l.StartsAfter text front before ∧ l.line = lineAfter before) ∧
    (∀ e, tokens text = .error e → ∃ cause before left, e.cause = .lexical cause ∧
      cause.StopsBetween text before left ∧ cause.Meets left ∧ e.line = lineAfter before) ∧
    ∀ e, (Module.ofText text : Except Fault (Except SourceError Module)) = .ok (.error e) →
      1 ≤ e.line ∧ e.line ≤ lineAfter text.toList ∧
        ((∀ cause, e.cause ≠ .lexical cause) → ∃ located, tokens text = .ok located ∧
          (e.line ∈ located.map Located.line ∨ located = [] ∧ e.line = 1)) := by
  refine ⟨fun _ _ _ => exists_startsAfter, fun _ => exists_stopsBetween, fun e herror => ?_⟩
  cases htokens : tokens text with
  | error e' =>
    rw [ofText_of_tokens_error htokens] at herror
    cases herror
    obtain ⟨cause, before, left, hcause, hstops, -, hline⟩ := exists_stopsBetween htokens
    obtain ⟨_, _, _, _, _, _, _, hbefore⟩ := hstops
    rw [hline]
    exact ⟨(lineAfter_le hbefore).1, (lineAfter_le hbefore).2, fun hnot => absurd hcause (hnot cause)⟩
  | ok located =>
    rw [ofText_eq_understand htokens] at herror
    have hline := line_of_understand herror
    have hbounds : 1 ≤ e.line ∧ e.line ≤ lineAfter text.toList := by
      rcases hline with hmem | ⟨-, hone⟩
      · obtain ⟨l, hl, hleq⟩ := List.mem_map.1 hmem
        obtain ⟨front, back, rfl⟩ := List.append_of_mem hl
        obtain ⟨before, ⟨_, _, _, _, _, hbefore⟩, hbeforeLine⟩ := exists_startsAfter htokens
        rw [← hleq, hbeforeLine]
        exact lineAfter_le hbefore
      · rw [hone, lineAfter]
        omega
    exact ⟨hbounds.1, hbounds.2, fun _ => ⟨located, rfl, hline⟩⟩

/-- A text that is refused on its eighth line, because of a type. -/
def lateText : String :=
  "# one, \"
module \x7b
  str0 = \"\\n#\" # two
  sig0 = () -> (i32)
  func0 = func \"f\" : sig0 \x7b
    block0():
      v0 = i64.const 1
      return v0
  \x7d
\x7d"

set_option maxRecDepth 4000 in
lemma ofText_lateText : (Module.ofText lateText : Except Fault (Except SourceError Module)) =
    .ok (.error ⟨8, .typing (.operandType .result 0 .i32 .i64)⟩) :=
  (ofText_ofList _).trans (by decide +kernel)

theorem line_of_ofText_lateText :
    (Module.ofText lateText : Except Fault (Except SourceError Module)) =
      .ok (.error ⟨8, .typing (.operandType .result 0 .i32 .i64)⟩) ∧
    8 ≤ lineAfter lateText.toList ∧
    ∃ located, tokens lateText = .ok located ∧ 8 ∈ located.map Located.line := by
  obtain ⟨-, -, hrefused⟩ := line_of_ofText lateText
  obtain ⟨-, hle, hline⟩ := hrefused _ ofText_lateText
  obtain ⟨located, htokens, hmem | ⟨-, hone⟩⟩ := hline (by rintro _ ⟨⟩)
  · exact ⟨ofText_lateText, hle, located, htokens, hmem⟩
  · cases hone

end EntryTrace
