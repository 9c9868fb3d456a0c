import Mathlib
import EntryTrace.Proofs.Lexemes
import EntryTrace.Source.Grammar

/-!
# Readers in front of known tokens

`Reader.Gives` says what a reader makes of tokens at the front, whatever their lines are. Such
statements compose like the readers do, so that one about a larger part of the grammar follows
the text of its reader.
-/

namespace EntryTrace.Source

namespace Reader

variable {α β : Type}

/-- In front of `ts` and `rest` the reader takes just `ts`, and what it answers satisfies `P`. -/
def Gives (x : Reader α) (ts rest : List Token) (P : α → Prop) : Prop :=
  ∀ extent located, located.map Located.token = ts ++ rest → located.length ≤ extent.size →
    ∃ a located', x extent located = .ok (a, located') ∧ P a ∧ located'.map Located.token = rest

variable {x : Reader α} {f : α → Reader β} {t : Token} {ts us rest : List Token} {P Q : α → Prop}
  {R : β → Prop}

lemma Gives.imp (h : x.Gives ts rest P) (himp : ∀ a, P a → Q a) : x.Gives ts rest Q := by
  intro extent located htokens hsize
  obtain ⟨a, located', hx, ha, hrest⟩ := h extent located htokens hsize
  exact ⟨a, located', hx, himp a ha, hrest⟩

lemma gives_pure {a : α} (ha : P a) : (pure a : Reader α).Gives [] rest P :=
  fun _ located htokens _ => ⟨a, located, rfl, ha, htokens⟩

/-- Readers one after the other take tokens one after the other. -/
lemma gives_bind (hx : x.Gives ts (us ++ rest) P) (hf : ∀ a, P a → (f a).Gives us rest R) :
    (x >>= f).Gives (ts ++ us) rest R := by
  intro extent located htokens hsize
  rw [List.append_assoc] at htokens
  obtain ⟨a, located', hxeq, ha, hrest⟩ := hx extent located htokens hsize
  have hsize' : located'.length ≤ extent.size := by
    have hlength := congrArg List.length htokens
    have hlength' := congrArg List.length hrest
    simp only [List.length_map, List.length_append] at hlength hlength'
    omega
  obtain ⟨b, located'', hfeq, hb, hrest'⟩ := hf a ha extent located' hrest hsize'
  refine ⟨b, located'', ?_, hb, hrest'⟩
  change (x extent located >>= fun p => f p.1 extent p.2) = _
  rw [hxeq]
  exact hfeq

lemma gives_bind_one (hx : x.Gives [t] (us ++ rest) P) (hf : ∀ a, P a → (f a).Gives us rest R) :
    (x >>= f).Gives (t :: us) rest R :=
  gives_bind hx hf

lemma gives_bind_none (hx : x.Gives [] (us ++ rest) P) (hf : ∀ a, P a → (f a).Gives us rest R) :
    (x >>= f).Gives us rest R :=
  gives_bind hx hf

lemma gives_map {g : α → β} (hx : x.Gives ts rest P) :
    (g <$> x).Gives ts rest fun b => ∃ a, P a ∧ b = g a := by
  rw [← bind_pure_comp, ← List.append_nil ts]
  exact gives_bind hx fun a ha => gives_pure ⟨a, ha, rfl⟩

lemma gives_take {expected : Expected} {accept : Token → Except GrammarCause α} {a : α}
    (h : accept t = .ok a) : (take expected accept).Gives [t] rest (· = a) := by
  intro extent located htokens _
  cases located with
  | nil => simp at htokens
  | cons l located =>
    simp only [List.map_cons, List.singleton_append, List.cons.injEq] at htokens
    exact ⟨a, located, by simp [take, htokens.1, h], rfl, htokens.2⟩

lemma gives_expect : (expect t).Gives [t] rest fun _ => True :=
  (gives_take (a := ()) (by simp)).imp fun _ _ => trivial

lemma gives_word {expected : Expected} {name : String} :
    (word expected).Gives [.word name] rest (· = name) :=
  gives_take rfl

lemma gives_eat : (eat t).Gives [t] rest (· = true) := by
  intro extent located htokens _
  cases located with
  | nil => simp at htokens
  | cons l located =>
    simp only [List.map_cons, List.singleton_append, List.cons.injEq] at htokens
    exact ⟨true, located, by simp [eat, htokens.1], rfl, htokens.2⟩

lemma gives_eat_none (h : rest.head? ≠ some t) : (eat t).Gives [] rest (· = false) := by
  intro extent located htokens _
  rw [List.nil_append] at htokens
  cases located with
  | nil => exact ⟨false, [], rfl, rfl, htokens⟩
  | cons l located =>
    rw [← htokens] at h
    have hne : l.token ≠ t := by simpa using h
    exact ⟨false, l :: located, by simp [eat, hne], rfl, htokens⟩

lemma gives_peek : peek?.Gives [] rest (· = rest.head?) := by
  intro extent located htokens _
  rw [List.nil_append] at htokens
  exact ⟨rest.head?, located, by simp [peek?, ← htokens, List.head?_map], rfl, htokens⟩

lemma gives_line : line.Gives [] rest fun _ => True := by
  intro extent located htokens _
  cases located with
  | nil => exact ⟨_, _, rfl, trivial, htokens⟩
  | cons l located => exact ⟨_, _, rfl, trivial, htokens⟩

/-! ### Repetition -/

variable {σ : Type} {round : σ → Reader (σ ⊕ α)} {s : σ} {n : Nat}

lemma gives_iterate (h : ∀ n, ts.length + rest.length < n → (rounds round n s).Gives ts rest P) :
    (iterate round s).Gives ts rest P := by
  intro extent located htokens hsize
  have hlength := congrArg List.length htokens
  rw [List.length_map, List.length_append] at hlength
  exact h (extent.size + 1) (by omega) extent located htokens hsize

lemma gives_rounds_more {S : σ → Prop}
    (hround : (round s).Gives ts (us ++ rest) fun r => ∃ s', r = .inl s' ∧ S s')
    (hmore : ∀ s', S s' → (rounds round n s').Gives us rest P) :
    (rounds round (n + 1) s).Gives (ts ++ us) rest P := by
  rw [rounds]
  refine gives_bind hround ?_
  rintro r ⟨s', rfl, hs'⟩
  exact hmore s' hs'

lemma gives_rounds_last (hround : (round s).Gives ts rest fun r => ∃ a, r = .inr a ∧ P a) :
    (rounds round (n + 1) s).Gives ts rest P := by
  rw [rounds, ← List.append_nil ts]
  refine gives_bind (by simpa using hround) ?_
  rintro r ⟨a, rfl, ha⟩
  exact gives_pure ha

/-- One round for each item of a list, and then others. What holds before round `i` is `S i`. -/
lemma gives_rounds_each {items : List β} {tokensOf : β → List Token} {S : Nat → σ → Prop}
    (hround : ∀ i b s rest, items[i]? = some b → S i s →
      (round s).Gives (tokensOf b) rest fun r => ∃ s', r = .inl s' ∧ S (i + 1) s')
    (hmore : ∀ s, S items.length s → (rounds round n s).Gives us rest P) (hs : S 0 s) :
    (rounds round (n + items.length) s).Gives (items.flatMap tokensOf ++ us) rest P := by
  induction items generalizing s S with
  | nil => exact hmore s hs
  | cons b items ih =>
    rw [List.flatMap_cons, List.append_assoc]
    refine gives_rounds_more (hround 0 b s _ rfl hs) fun s' hs' => ?_
    exact ih (fun i b' s rest hb' h => hround (i + 1) b' s rest hb' h) hmore hs'

end Reader

/-- Tokens of items, with a comma between any two. -/
def commaTokens : List (List Token) → List Token
  | [] => []
  | [ts] => ts
  | ts :: us :: rest => ts ++ .comma :: commaTokens (us :: rest)

/-- Tokens of items between parentheses, with a comma between any two. -/
def parenTokens (items : List (List Token)) : List Token :=
  .openParen :: (commaTokens items ++ [.closeParen])

lemma le_length_commaTokens (ts : List Token) (items : List (List Token)) :
    items.length ≤ (commaTokens (ts :: items)).length := by
  induction items generalizing ts with
  | nil => simp
  | cons us items ih =>
    have := ih us
    simp only [commaTokens, List.length_append, List.length_cons]
    omega

lemma le_length_flatMap {β : Type} {tokensOf : β → List Token} {items : List β}
    (h : ∀ b ∈ items, tokensOf b ≠ []) : items.length ≤ (items.flatMap tokensOf).length := by
  induction items with
  | nil => simp
  | cons b items ih =>
    have hb := List.length_pos_iff.2 (h b List.mem_cons_self)
    have hrest := ih fun b' hb' => h b' (List.mem_cons_of_mem _ hb')
    rw [List.flatMap_cons, List.length_append, List.length_cons]
    omega

namespace Reader

variable {α β : Type} {item : Reader α} {tokensOf : β → List Token} {R : β → α → Prop}
  {rest : List Token}

lemma forall₂_concat {before : List β} {acc : List α} {b : β} {a : α}
    (hacc : List.Forall₂ R before acc.reverse) (hb : R b a) :
    List.Forall₂ R (before ++ [b]) (a :: acc).reverse := by
  rw [List.reverse_cons]
  exact List.rel_append hacc (.cons hb .nil)

lemma gives_items (before : List β) {items : List β} {b : β} {acc : List α} {n : Nat}
    (hitem : ∀ b' ∈ b :: items, ∀ rest, item.Gives (tokensOf b') rest (R b'))
    (hacc : List.Forall₂ R before acc.reverse) (hn : items.length < n) :
    (rounds (fun items => do
      let items := (← item) :: items
      if ← eat .closeParen then
        pure (.inr items.reverse)
      else
        expect .comma
        pure (.inl items)) n acc).Gives (commaTokens ((b :: items).map tokensOf) ++ [.closeParen])
      rest (List.Forall₂ R (before ++ b :: items)) := by
  have hb := hitem b List.mem_cons_self
  obtain ⟨n, rfl⟩ := Nat.exists_eq_succ_of_ne_zero (Nat.ne_zero_of_lt hn)
  induction items generalizing before b acc n with
  | nil =>
    apply gives_rounds_last
    refine gives_bind (hb _) fun a ha => ?_
    refine gives_bind_one gives_eat fun _ h => ?_
    rw [h, if_pos rfl]
    exact gives_pure ⟨_, rfl, forall₂_concat hacc ha⟩
  | cons b' items ih =>
    obtain ⟨n, rfl⟩ : ∃ k, n = k + 1 := Nat.exists_eq_succ_of_ne_zero (by simp at hn; omega)
    have htokens : commaTokens ((b :: b' :: items).map tokensOf) ++ [.closeParen] =
        (tokensOf b ++ [.comma]) ++ (commaTokens ((b' :: items).map tokensOf) ++ [.closeParen]) := by
      simp [commaTokens]
    rw [htokens]
    refine gives_rounds_more (S := fun acc => List.Forall₂ R (before ++ [b]) acc.reverse) ?_ ?_
    · refine gives_bind (hb _) fun a ha => ?_
      refine gives_bind_none (gives_eat_none (by simp)) fun _ h => ?_
      rw [h, if_neg Bool.false_ne_true]
      refine gives_bind_one gives_expect fun _ _ => ?_
      exact gives_pure ⟨_, rfl, forall₂_concat hacc ha⟩
    · intro acc' hacc'
      have hrest := ih (before ++ [b]) (fun b'' h => hitem b'' (List.mem_cons_of_mem _ h)) hacc'
        (hitem b' (by simp)) n (by simpa using hn)
      simpa using hrest

/-- Items between parentheses. None of them starts like the closing one. -/
lemma gives_parenthesized {items : List β}
    (hitem : ∀ b ∈ items, ∀ rest, item.Gives (tokensOf b) rest (R b))
    (hhead : ∀ b ∈ items, ∃ t ts, tokensOf b = t :: ts ∧ t ≠ .closeParen) :
    (parenthesized item).Gives (parenTokens (items.map tokensOf)) rest (List.Forall₂ R items) := by
  unfold parenthesized parenTokens
  refine gives_bind_one gives_expect fun _ _ => ?_
  cases items with
  | nil =>
    refine gives_bind_one gives_eat fun _ h => ?_
    rw [h, if_pos rfl]
    exact gives_pure .nil
  | cons b items =>
    refine gives_bind_none (gives_eat_none ?_) fun _ h => ?_
    · obtain ⟨t, ts, htokens, hne⟩ := hhead b List.mem_cons_self
      cases items with
      | nil => simpa [commaTokens, htokens] using hne
      | cons b' items => simpa [commaTokens, htokens] using hne
    rw [h, if_neg Bool.false_ne_true]
    apply gives_iterate
    intro n hn
    have hle := le_length_commaTokens (tokensOf b) (items.map tokensOf)
    rw [List.length_map, ← List.map_cons] at hle
    rw [List.length_append] at hn
    exact gives_items [] hitem .nil (by omega)

/-- Items that nothing closes, of which there is at least one. No comma follows them. -/
lemma gives_bare (before : List β) {items : List β} {b : β} {acc : List α} {n : Nat}
    (hitem : ∀ b' ∈ b :: items, ∀ rest, item.Gives (tokensOf b') rest (R b'))
    (hacc : List.Forall₂ R before acc.reverse) (hn : items.length < n)
    (hrest : rest.head? ≠ some .comma) :
    (rounds (fun values => do
      let values := (← item) :: values
      if ← eat .comma then pure (.inl values) else pure (.inr values.reverse)) n acc).Gives
      (commaTokens ((b :: items).map tokensOf)) rest (List.Forall₂ R (before ++ b :: items)) := by
  have hb := hitem b List.mem_cons_self
  obtain ⟨n, rfl⟩ := Nat.exists_eq_succ_of_ne_zero (Nat.ne_zero_of_lt hn)
  induction items generalizing before b acc n with
  | nil =>
    apply gives_rounds_last
    rw [← List.append_nil (commaTokens _)]
    refine gives_bind (hb _) fun a ha => ?_
    refine gives_bind_none (gives_eat_none (by simpa using hrest)) fun _ h => ?_
    rw [h, if_neg Bool.false_ne_true]
    exact gives_pure ⟨_, rfl, forall₂_concat hacc ha⟩
  | cons b' items ih =>
    obtain ⟨n, rfl⟩ : ∃ k, n = k + 1 := Nat.exists_eq_succ_of_ne_zero (by simp at hn; omega)
    have htokens : commaTokens ((b :: b' :: items).map tokensOf) =
        (tokensOf b ++ [.comma]) ++ commaTokens ((b' :: items).map tokensOf) := by
      simp [commaTokens]
    rw [htokens]
    refine gives_rounds_more (S := fun acc => List.Forall₂ R (before ++ [b]) acc.reverse) ?_ ?_
    · refine gives_bind (hb _) fun a ha => ?_
      refine gives_bind_one gives_eat fun _ h => ?_
      rw [h, if_pos rfl]
      exact gives_pure ⟨_, rfl, forall₂_concat hacc ha⟩
    · intro acc' hacc'
      have hrest' := ih (before ++ [b]) (fun b'' h => hitem b'' (List.mem_cons_of_mem _ h)) hacc'
        (hitem b' (by simp)) n (by simpa using hn)
      simpa using hrest'

end Reader

end EntryTrace.Source
