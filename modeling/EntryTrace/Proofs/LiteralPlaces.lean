import EntryTrace.Proofs.IntLiterals

/-!
# Places in a text

A text is read up to some place if lexeme by lexeme the reading comes to what stands there. What was
read before the place depends on nothing that follows: if the reading comes to the place whatever of
two things stands there, the tokens up to it are the same.
-/

namespace EntryTrace.Source

/-- Reading comes from one text, on a line, to another one that is left of it. -/
inductive ReadsTo : Nat → List Char → List Located → Nat → List Char → Prop
  | here {line : Nat} {cs : List Char} : ReadsTo line cs [] line cs
  | skip {line line' : Nat} {c : Char} {cs mid rest : List Char} {ts : List Located}
    (hlexeme : readLexeme c cs = .ok (none, mid))
    (h : ReadsTo (if c == '\n' then line + 1 else line) mid ts line' rest) :
    ReadsTo line (c :: cs) ts line' rest
  | token {line line' : Nat} {c : Char} {cs mid rest : List Char} {t : Token} {ts : List Located}
    (hlexeme : readLexeme c cs = .ok (some t, mid)) (h : ReadsTo line mid ts line' rest) :
    ReadsTo line (c :: cs) (⟨t, line⟩ :: ts) line' rest

/-- The tokens of what is left come after those that were read already. -/
lemma readTokens_acc (line : Nat) (acc : List Located) (cs : List Char) :
    readTokens line acc cs = (readTokens line [] cs).map (acc.reverse ++ ·) := by
  induction hlength : cs.length using Nat.strong_induction_on generalizing cs line acc with
  | _ n ih =>
  subst hlength
  cases cs with
  | nil => simp [readTokens_nil, Except.map]
  | cons c cs =>
    cases hread : readLexeme c cs with
    | error cause =>
      rw [readTokens_error hread, readTokens_error hread]
      rfl
    | ok result =>
      obtain ⟨token?, rest⟩ := result
      have hlt := Nat.lt_succ_of_le (readLexeme_length hread)
      cases token? with
      | none =>
        rw [readTokens_skip hread, readTokens_skip hread]
        exact ih _ hlt _ _ _ rfl
      | some token =>
        rw [readTokens_token hread, readTokens_token hread, ih _ hlt _ _ _ rfl, ih _ hlt _ [_] _ rfl]
        cases readTokens line [] rest <;> simp [Except.map]

namespace ReadsTo

variable {line line' : Nat} {cs rest : List Char} {ts : List Located}

lemma tokens_eq (h : ReadsTo line cs ts line' rest) :
    readTokens line [] cs = (readTokens line' [] rest).map (ts ++ ·) := by
  induction h with
  | @here line cs => cases readTokens line [] cs <;> rfl
  | skip hlexeme _ ih => rw [readTokens_skip hlexeme, ih]
  | @token _ line' _ _ _ rest _ _ hlexeme _ ih =>
    rw [readTokens_token hlexeme, readTokens_acc, ih]
    cases readTokens line' [] rest <;> simp [Except.map]

/-- Reading comes to the end in one way. -/
lemma unique {ts' : List Located} {line'' : Nat} (h : ReadsTo line cs ts line' [])
    (h' : ReadsTo line cs ts' line'' []) : ts = ts' ∧ line' = line'' := by
  generalize hend : [] = rest at h
  induction h generalizing ts' with
  | here =>
    cases hend
    cases h'
    exact ⟨rfl, rfl⟩
  | skip hlexeme _ ih =>
    cases h' with
    | skip hlexeme' h' =>
      cases hlexeme.symm.trans hlexeme'
      exact ih h' hend
    | token hlexeme' => cases hlexeme.symm.trans hlexeme'
  | token hlexeme _ ih =>
    cases h' with
    | skip hlexeme' => cases hlexeme.symm.trans hlexeme'
    | token hlexeme' h' =>
      cases hlexeme.symm.trans hlexeme'
      obtain ⟨rfl, hline⟩ := ih h' hend
      exact ⟨rfl, hline⟩

end ReadsTo

/-! ### What is read before a place -/

section Cut

variable {u v s : List Char}

/-- A run that ends before a place ends in the same way where the text is cut off at the place. -/
lemma dropWhile_cut {p : Char → Bool} (h : (u ++ s).dropWhile p = v ++ s) :
    u.dropWhile p = v ∧ u.takeWhile p = (u ++ s).takeWhile p := by
  have hdrop : u.dropWhile p = v := by
    induction u with
    | nil =>
      have hle := length_dropWhile_le p s
      rw [List.nil_append] at h
      rw [h, List.length_append] at hle
      exact (List.eq_nil_of_length_eq_zero (by omega)).symm
    | cons c u ih =>
      rw [List.cons_append, List.dropWhile_cons] at h
      rw [List.dropWhile_cons]
      split at h
      · rename_i hc
        rw [if_pos hc, ih h]
      · rename_i hc
        rw [if_neg hc]
        exact List.append_cancel_right h
  refine ⟨hdrop, ?_⟩
  have hall := List.takeWhile_append_dropWhile (p := p) (l := u ++ s)
  rw [h, ← List.append_assoc] at hall
  have hcut := List.takeWhile_append_dropWhile (p := p) (l := u)
  rw [hdrop] at hcut
  exact List.append_cancel_right (hcut.trans (List.append_cancel_right hall).symm)

lemma readDigits_cut {radix n : Nat} {p : Char → Bool}
    (h : readDigits radix p (u ++ s) = .ok (n, v ++ s)) : readDigits radix p u = .ok (n, v) := by
  have hfinish {digits left : List Char} (h : readDigits.finish radix digits left = .ok (n, v ++ s)) :
      left = v ++ s ∧ readDigits.finish radix digits v = .ok (n, v) := by
    dsimp only [readDigits.finish] at h ⊢
    split at h
    · rename_i hlt
      rw [if_pos hlt]
      cases h
      exact ⟨rfl, rfl⟩
    · cases h
  dsimp only [readDigits] at h ⊢
  split at h
  · cases h
  rename_i hne
  have hall : (u ++ s).dropWhile p = v ++ s ∧
      readDigits.finish radix ((u ++ s).takeWhile p) v = .ok (n, v) ∧
      ∀ c ∈ (v ++ s).head?, ¬ (c.isAlphanum || c == '_') = true := by
    split at h
    · rename_i c hc
      split at h
      · cases h
      · rename_i hpart
        obtain ⟨hdrop, hdigits⟩ := hfinish h
        refine ⟨hdrop, hdigits, fun d hd => ?_⟩
        rw [← hdrop, hc, Option.mem_some_iff] at hd
        exact hd ▸ hpart
    · rename_i hnone
      obtain ⟨hdrop, hdigits⟩ := hfinish h
      refine ⟨hdrop, hdigits, fun d hd => ?_⟩
      rw [← hdrop, hnone] at hd
      cases hd
  obtain ⟨hdrop, hdigits, hpart⟩ := hall
  obtain ⟨hcut, htake⟩ := dropWhile_cut hdrop
  rw [hcut, htake, if_neg hne]
  cases v with
  | nil => exact hdigits
  | cons c v => exact (if_neg (hpart c rfl)).trans hdigits

lemma readMagnitude_cut {n : Nat} (h : readMagnitude (u ++ s) = .ok (n, v ++ s)) :
    readMagnitude u = .ok (n, v) := by
  by_cases hhex : ∃ ds, u ++ s = '0' :: 'x' :: ds
  · obtain ⟨ds, hds⟩ := hhex
    rw [hds] at h
    have hlength := readDigits_length h
    rw [List.length_append] at hlength
    obtain _ | ⟨c, _ | ⟨d, u⟩⟩ := u
    · rw [List.nil_append] at hds
      simp only [hds, List.length_cons] at hlength
      omega
    · obtain ⟨-, rfl⟩ := List.cons.inj hds
      simp only [List.length_cons] at hlength
      omega
    · simp only [List.cons_append, List.cons.injEq] at hds
      obtain ⟨rfl, rfl, rfl⟩ := hds
      exact readDigits_cut h
  · have hdecimal : ∀ ds, u ++ s ≠ '0' :: 'x' :: ds := fun ds hds => hhex ⟨ds, hds⟩
    have hdecimal' : ∀ ds, u ≠ '0' :: 'x' :: ds := by
      rintro ds rfl
      exact hdecimal _ rfl
    rw [readMagnitude_of_decimal hdecimal] at h
    rw [readMagnitude_of_decimal hdecimal']
    exact readDigits_cut h

lemma readString_cut {acc : List Char} {str : String} (h : readString acc (u ++ s) = .ok (str, v ++ s)) :
    readString acc u = .ok (str, v) := by
  fun_induction readString acc u with
  | case1 =>
    have hlength := readString_length h
    rw [List.nil_append, List.length_append] at hlength
    omega
  | case2 acc rest =>
    simp only [List.cons_append, readString, Except.ok.injEq, Prod.mk.injEq] at h
    rw [h.1, List.append_cancel_right h.2]
  | case3 acc rest => simp [readString] at h
  | case4 acc =>
    -- An escape across the place would be read to its end, which is past the place.
    cases s with
    | nil => simp [readString] at h
    | cons d s =>
      rw [List.singleton_append, readString] at h
      split at h
      · have hlength := readString_length h
        rw [List.length_append, List.length_cons] at hlength
        omega
      · cases h
  | case5 acc c rest escaped hescaped ih =>
    rw [List.cons_append, List.cons_append, readString, hescaped] at h
    exact ih h
  | case6 acc c rest hescaped =>
    rw [List.cons_append, List.cons_append, readString, hescaped] at h
    cases h
  | case7 acc c rest hquote hline hend hescape ih =>
    have hplain : c ≠ '\\' := by
      intro hc
      cases rest with
      | nil => exact hend hc rfl
      | cons d rest => exact hescape d rest hc rfl
    rw [List.cons_append, readString] at h
    · exact ih h
    · exact hquote
    · exact hline
    · exact fun hc _ => hplain hc
    · exact fun _ _ hc _ => hplain hc

/-- A number or a string that ends before a place, as a lexeme. -/
lemma map_cut {α : Type} {x x' : Except LexicalCause (α × List Char)} {f : α → Token}
    {token? : Option Token} (hx : ∀ a, x = .ok (a, v ++ s) → x' = .ok (a, v))
    (h : (x.map fun (a, rest) => (some (f a), rest)) = .ok (token?, v ++ s)) :
    (x'.map fun (a, rest) => (some (f a), rest)) = .ok (token?, v) := by
  cases x with
  | error cause => cases h
  | ok result =>
    obtain ⟨a, rest⟩ := result
    simp only [Except.map, Except.ok.injEq, Prod.mk.injEq] at h
    rw [hx a (by rw [h.2]), ← h.1]
    rfl

/-- A dash starts an arrow or a number before the place. -/
lemma readLexeme_dash_cut {token? : Option Token} (h : readLexeme '-' (u ++ s) = .ok (token?, v ++ s)) :
    readLexeme '-' u = .ok (token?, v) := by
  by_cases harrow : (u ++ s).head? = some '>'
  · obtain ⟨rest, hrest⟩ := List.head?_eq_some_iff.1 harrow
    rw [hrest, readLexeme_arrow, Except.ok.injEq, Prod.mk.injEq] at h
    cases u with
    | nil =>
      have hlength := congrArg List.length hrest
      rw [List.nil_append, List.length_cons, h.2, List.length_append] at hlength
      omega
    | cons d u =>
      rw [List.cons_append, List.cons.injEq] at hrest
      obtain ⟨rfl, rfl⟩ := hrest
      rw [readLexeme_arrow, h.1, List.append_cancel_right h.2]
  · have hcut : u.head? ≠ some '>' := by
      cases u with
      | nil => exact nofun
      | cons d u => exact harrow
    rw [readLexeme_negative harrow] at h
    rw [readLexeme_negative hcut]
    exact map_cut (f := fun n : Nat => .int (-n)) (fun _ => readMagnitude_cut) h

/-- A lexeme that ends before a place is the same where the text is cut off at the place. -/
lemma readLexeme_cut {c : Char} {token? : Option Token}
    (h : readLexeme c (u ++ s) = .ok (token?, v ++ s)) : readLexeme c u = .ok (token?, v) := by
  have hsame (first : Option Token) (hu : ∀ rest, readLexeme c rest = .ok (first, rest)) :
      readLexeme c u = .ok (token?, v) := by
    rw [hu, Except.ok.injEq, Prod.mk.injEq] at h
    rw [hu, h.1, List.append_cancel_right h.2]
  cases hmark : Token.ofChar? c with
  | some t => exact hsame (some t) (readLexeme_of_mark hmark)
  | none =>
    by_cases hblank : isBlank c = true
    · exact hsame none fun rest => readLexeme_of_isBlank hblank
    by_cases hcomment : c = '#'
    · subst hcomment
      rw [readLexeme_comment, Except.ok.injEq, Prod.mk.injEq] at h
      rw [readLexeme_comment, (dropWhile_cut h.2).1, h.1]
    by_cases hdash : c = '-'
    · subst hdash
      exact readLexeme_dash_cut h
    by_cases hdigit : c.isDigit = true
    · rw [readLexeme_of_isDigit hdigit] at h ⊢
      exact map_cut (f := fun n : Nat => .int n) (fun _ => readMagnitude_cut (u := c :: u)) h
    by_cases hquote : c = '"'
    · subst hquote
      rw [readLexeme_quote] at h ⊢
      exact map_cut (fun _ => readString_cut) h
    by_cases hword : isWordStart c = true
    · rw [readLexeme_of_isWordStart hword, Except.ok.injEq, Prod.mk.injEq] at h
      obtain ⟨hdrop, htake⟩ := dropWhile_cut h.2
      rw [readLexeme_of_isWordStart hword, hdrop, htake, h.1]
    rw [Bool.not_eq_true] at hblank hdigit hword
    rw [readLexeme_unexpected _ hmark hblank hdash hword hdigit hcomment hquote] at h
    cases h

/-- What is left after a lexeme is the end of the text. -/
lemma readLexeme_suffix {c : Char} {cs rest : List Char} {token? : Option Token}
    (h : readLexeme c cs = .ok (token?, rest)) : rest <:+ cs := by
  have hmap {α : Type} {x : Except LexicalCause (α × List Char)} {f : α → Token}
      (h : (x.map fun (a, rest) => (some (f a), rest)) = .ok (token?, rest)) :
      ∃ a, x = .ok (a, rest) := by
    cases x with
    | error cause => cases h
    | ok result =>
      simp only [Except.map, Except.ok.injEq, Prod.mk.injEq] at h
      exact ⟨result.1, by rw [← h.2]⟩
  unfold readLexeme at h
  split at h
  · cases h
    exact List.suffix_rfl
  split at h
  · cases h
    exact List.suffix_rfl
  split at h
  · cases h
    exact List.dropWhile_suffix _
  split at h
  · split at h
    · cases h
      exact List.suffix_cons ..
    · obtain ⟨n, hn⟩ := hmap (f := fun n : Nat => .int (-n)) h
      exact (head?_of_readMagnitude hn).1
  split at h
  · obtain ⟨n, hn⟩ := hmap (f := fun n : Nat => .int n) h
    have hlength := readMagnitude_length hn
    obtain heq | hsuffix := List.suffix_cons_iff.1 (head?_of_readMagnitude hn).1
    · exact absurd hlength (by simp [heq])
    · exact hsuffix
  split at h
  · obtain ⟨s, hs⟩ := hmap (f := .str) h
    obtain ⟨inside, -, rfl⟩ := exists_enclosed_of_readString hs
    exact (List.suffix_cons ..).trans (List.suffix_append ..)
  split at h
  · cases h
    exact List.dropWhile_suffix _
  · cases h

end Cut

namespace ReadsTo

variable {line line' : Nat} {cs rest u s : List Char} {ts : List Located}

lemma suffix (h : ReadsTo line cs ts line' rest) : rest <:+ cs := by
  induction h with
  | here => exact List.suffix_rfl
  | skip hlexeme _ ih | token hlexeme _ ih =>
    exact ih.trans ((readLexeme_suffix hlexeme).trans (List.suffix_cons ..))

/-- A step towards a place is one in the text that is cut off there. -/
lemma step_cut {c : Char} {mid : List Char} {token? : Option Token} (htext : u ++ s = c :: cs)
    (hlexeme : readLexeme c cs = .ok (token?, mid)) (h : ReadsTo line mid ts line' s) :
    ∃ u' v, u = c :: u' ∧ mid = v ++ s ∧ readLexeme c u' = .ok (token?, v) := by
  obtain ⟨v, rfl⟩ := h.suffix
  cases u with
  | nil =>
    have hlength := readLexeme_length hlexeme
    rw [List.nil_append] at htext
    rw [htext, List.length_append, List.length_cons] at hlength
    omega
  | cons d u =>
    obtain ⟨rfl, rfl⟩ := List.cons.inj htext
    exact ⟨u, v, rfl, rfl, readLexeme_cut hlexeme⟩

/-- Cut off at a place, the text is read to its end as the tokens up to the place. -/
theorem cut (h : ReadsTo line (u ++ s) ts line' s) : ReadsTo line u ts line' [] := by
  generalize htext : u ++ s = text at h
  induction h generalizing u with
  | here =>
    obtain rfl := List.append_left_eq_self.1 htext
    exact .here
  | skip hlexeme hrest ih =>
    obtain ⟨u, v, rfl, rfl, hcut⟩ := step_cut htext hlexeme hrest
    exact .skip hcut (ih rfl)
  | token hlexeme hrest ih =>
    obtain ⟨u, v, rfl, rfl, hcut⟩ := step_cut htext hlexeme hrest
    exact .token hcut (ih rfl)

end ReadsTo

/-! ### Literals in their places -/

/-- The words of constants, by the type of the constant. -/
inductive Width
  | i32
  | i64
  deriving DecidableEq

/-- The word before the literal of a constant. -/
def Width.mnemonic : Width → String
  | .i32 => "i32.const"
  | .i64 => "i64.const"

/-- Reading a text comes to a literal right after the word of a constant, and what follows the literal
does not prolong it. -/
def IntLiteral.StandsIn (literal : IntLiteral) (width : Width) (before after : String) : Prop :=
  (∀ c ∈ after.toList.head?, isNumberPart c = false) ∧ ∃ front line line',
    ReadsTo 1 (before ++ literal.text ++ after).toList (front ++ [⟨.word width.mnemonic, line⟩]) line'
      (literal.text ++ after).toList

namespace IntLiteral.StandsIn

variable {literal literal₀ : IntLiteral} {width : Width} {before after : String}

/-- Up to its place a literal is read as any other one that stands there. -/
lemma readsTo (h : literal.StandsIn width before after) {ts : List Located} {line : Nat}
    (h₀ : ReadsTo 1 (before ++ literal₀.text ++ after).toList ts line (literal₀.text ++ after).toList) :
    ReadsTo 1 (before ++ literal.text ++ after).toList ts line (literal.text ++ after).toList := by
  obtain ⟨-, front, word, line', hreads⟩ := h
  have hcut {l : IntLiteral} {ts : List Located} {line : Nat}
      (h : ReadsTo 1 (before ++ l.text ++ after).toList ts line (l.text ++ after).toList) :
      ReadsTo 1 before.toList ts line [] := by
    rw [String.append_assoc, String.toList_append] at h
    exact h.cut
  obtain ⟨rfl, rfl⟩ := (hcut hreads).unique (hcut h₀)
  exact hreads

/-- What is read of a text in which a literal stands, if all that is read up to its place is known. -/
lemma tokens_eq (h : literal.StandsIn width before after) {ts : List Located} {line : Nat}
    (hreads : ReadsTo 1 (before ++ literal.text ++ after).toList ts line (literal.text ++ after).toList) :
    tokens (before ++ literal.text ++ after) =
      if literal.magnitude < literalLimit then
        (readTokens line [] after.toList).map (ts ++ ⟨.int literal.value, line⟩ :: ·)
      else .error ⟨line, .lexical (.integerOutOfRange (String.ofList literal.digits))⟩ := by
  obtain ⟨c, cs, hchars, hlexeme⟩ := literal.readLexeme_chars h.1
  have htext : (literal.text ++ after).toList = c :: (cs ++ after.toList) := by
    rw [String.toList_append, text, String.toList_ofList, hchars, List.cons_append]
  rw [tokens, hreads.tokens_eq, htext]
  split at hlexeme
  · rw [readTokens_token hlexeme, readTokens_acc]
    rename_i hlt
    rw [if_pos hlt]
    cases readTokens line [] after.toList <;> simp [Except.map]
  · rw [readTokens_error hlexeme]
    rename_i hlt
    rw [if_neg hlt]
    rfl

end IntLiteral.StandsIn

/-- The tokens around a literal are the same for all literals that stand in one place. If one of the
texts is read, then each one is with the integer of its literal, unless that is too large. -/
theorem exists_tokens_around {width : Width} {before after : String} {literal₀ : IntLiteral}
    {located₀ : List Located} (h₀ : literal₀.StandsIn width before after)
    (htokens₀ : tokens (before ++ literal₀.text ++ after) = .ok located₀) :
    ∃ front line line' back,
      located₀ = front ++ ⟨.word width.mnemonic, line⟩ :: ⟨.int literal₀.value, line'⟩ :: back ∧
      ∀ literal : IntLiteral, literal.StandsIn width before after →
        tokens (before ++ literal.text ++ after) =
          if literal.magnitude < literalLimit then
            .ok (front ++ ⟨.word width.mnemonic, line⟩ :: ⟨.int literal.value, line'⟩ :: back)
          else .error ⟨line', .lexical (.integerOutOfRange (String.ofList literal.digits))⟩ := by
  have hcopy := h₀
  obtain ⟨-, front, line, line', hreads₀⟩ := hcopy
  rw [h₀.tokens_eq hreads₀] at htokens₀
  split at htokens₀
  · cases hback : readTokens line' [] after.toList with
    | error e =>
      rw [hback] at htokens₀
      cases htokens₀
    | ok back =>
      rw [hback] at htokens₀
      cases htokens₀
      refine ⟨front, line, line', back, by simp, fun literal h => ?_⟩
      rw [h.tokens_eq (h.readsTo hreads₀), hback]
      split <;> simp [Except.map]
  · cases htokens₀

end EntryTrace.Source
