import EntryTrace.Proofs.Tables
import EntryTrace.Source.Grammar

/-!
# What readers accept

`Reader.Reads` says of a reader exactly which tokens it takes and what it answers. Readers look
ahead by one token, so what they take may depend on what comes next. Such statements compose like
the readers do. They hold in both directions, so that the reader of a whole rule both takes nothing
but derivations of the rule and misses none.
-/

namespace EntryTrace.Source

/-- Tokens that are taken, the answer to them, and the tokens that stay. -/
abbrev Phrase (α : Type) := List Located → α → List Located → Prop

/-- The token that comes next is not this one. -/
def NotNext (t : Token) (rest : List Located) : Prop := rest.head?.map Located.token ≠ some t

namespace Reader

variable {α β σ : Type}

/-- The reader succeeds just where a phrase is at the front, and takes the phrase. -/
def Reads (x : Reader α) (R : Phrase α) : Prop :=
  ∀ (extent : Extent) (located : List Located), located.length ≤ extent.size → ∀ a rest,
    x extent located = .ok (a, rest) ↔ ∃ ts, located = ts ++ rest ∧ R ts a rest

variable {x y : Reader α} {f : α → Reader β} {R S : Phrase α} {T : α → Phrase β}

lemma Reads.congr (h : x.Reads R) (hiff : ∀ ts a rest, R ts a rest ↔ S ts a rest) : x.Reads S := by
  intro extent located hsize a rest
  rw [h extent located hsize a rest]
  simp only [hiff]

lemma reads_pure (a : α) : (pure a : Reader α).Reads fun ts b _ => ts = [] ∧ b = a := by
  intro extent located _ b rest
  constructor
  · rintro ⟨⟩
    exact ⟨[], rfl, rfl, rfl⟩
  · rintro ⟨_, rfl, rfl, rfl⟩
    rfl

lemma reads_fail (line : Nat) (cause : Cause) :
    (fail line cause : Reader α).Reads fun _ _ _ => False := by
  intro extent located _ a rest
  constructor
  · rintro ⟨⟩
  · rintro ⟨_, _, ⟨⟩⟩

lemma bind_apply (x : Reader α) (f : α → Reader β) (extent : Extent) (located : List Located) :
    (x >>= f) extent located = x extent located >>= fun p => f p.1 extent p.2 := rfl

/-- Readers one after the other take phrases one after the other. -/
lemma reads_bind (hx : x.Reads R) (hf : ∀ a, (f a).Reads (T a)) :
    (x >>= f).Reads fun ts b rest =>
      ∃ us vs a, ts = us ++ vs ∧ R us a (vs ++ rest) ∧ T a vs b rest := by
  intro extent located hsize b rest
  rw [bind_apply, bind_eq_ok]
  constructor
  · rintro ⟨⟨a, mid⟩, hread, hrest⟩
    obtain ⟨us, rfl, hus⟩ := (hx extent located hsize a mid).1 hread
    have hmid : mid.length ≤ extent.size := by
      rw [List.length_append] at hsize
      omega
    obtain ⟨vs, rfl, hvs⟩ := (hf a extent mid hmid b rest).1 hrest
    exact ⟨us ++ vs, (List.append_assoc ..).symm, us, vs, a, rfl, hus, hvs⟩
  · rintro ⟨_, rfl, us, vs, a, rfl, hus, hvs⟩
    rw [List.append_assoc] at hsize ⊢
    have hmid : (vs ++ rest).length ≤ extent.size := by
      rw [List.length_append] at hsize
      omega
    exact ⟨(a, vs ++ rest), (hx extent _ hsize a _).2 ⟨us, rfl, hus⟩,
      (hf a extent _ hmid b rest).2 ⟨vs, rfl, hvs⟩⟩

lemma reads_bindPure {g : α → β} (hx : x.Reads R) :
    (x >>= fun a => pure (g a)).Reads fun ts b rest => ∃ a, R ts a rest ∧ b = g a := by
  refine (reads_bind hx fun a => reads_pure (g a)).congr fun ts b rest => ?_
  constructor
  · rintro ⟨us, _, a, rfl, hus, rfl, rfl⟩
    rw [List.append_nil]
    exact ⟨a, hus, rfl⟩
  · rintro ⟨a, hts, rfl⟩
    exact ⟨ts, [], a, (List.append_nil ts).symm, hts, rfl, rfl⟩

lemma reads_map {g : α → β} (hx : x.Reads R) :
    (g <$> x).Reads fun ts b rest => ∃ a, R ts a rest ∧ b = g a := by
  rw [map_eq_pure_bind]
  exact reads_bindPure hx

/-! ### Single tokens -/

variable {expected : Expected} {accept : Token → Except GrammarCause α} {t : Token}

lemma reads_take : (take expected accept).Reads fun ts a _ =>
    ∃ l, ts = [l] ∧ accept l.token = .ok a := by
  intro extent located _ a rest
  cases located with
  | nil => simp [take]
  | cons l located =>
    rw [take]
    cases haccept : accept l.token with
    | error cause =>
      constructor
      · rintro ⟨⟩
      · rintro ⟨_, hlocated, l', rfl, hl'⟩
        obtain ⟨rfl, -⟩ := List.cons.inj hlocated
        rw [haccept] at hl'
        cases hl'
    | ok b =>
      constructor
      · rintro ⟨⟩
        exact ⟨[l], rfl, l, rfl, haccept⟩
      · rintro ⟨_, hlocated, l', rfl, hl'⟩
        obtain ⟨rfl, rfl⟩ := List.cons.inj hlocated
        obtain rfl := Except.ok.inj (haccept.symm.trans hl')
        rfl

section Ones

variable {P : Located → α → Prop}

/-- Reading a single token, and then reading on. -/
lemma reads_bindOne (hx : x.Reads fun ts a _ => ∃ l, ts = [l] ∧ P l a)
    (hf : ∀ a, (f a).Reads (T a)) :
    (x >>= f).Reads fun ts b rest => ∃ l us a, ts = l :: us ∧ P l a ∧ T a us b rest := by
  refine (reads_bind hx hf).congr fun ts b rest => ?_
  constructor
  · rintro ⟨_, us, a, rfl, ⟨l, rfl, hl⟩, hus⟩
    exact ⟨l, us, a, rfl, hl, hus⟩
  · rintro ⟨l, us, a, rfl, hl, hus⟩
    exact ⟨[l], us, a, rfl, ⟨l, rfl, hl⟩, hus⟩

/-- Reading a single token, with the line it is on known, and then reading on. -/
lemma reads_lineBindOne {g : Nat → α → Reader β} {U : Nat → α → Phrase β}
    (hx : x.Reads fun ts a _ => ∃ l, ts = [l] ∧ P l a)
    (hg : ∀ line a, (g line a).Reads (U line a)) :
    (line >>= fun line => x >>= g line).Reads fun ts b rest =>
      ∃ l us a, ts = l :: us ∧ P l a ∧ U l.line a us b rest := by
  intro extent located hsize b rest
  have hline : (Reader.line >>= fun line => x >>= g line) extent located =
      (x >>= g ((located.head?.map Located.line).getD extent.endLine)) extent located := by
    cases located <;> rfl
  rw [hline, reads_bindOne hx (hg _) extent located hsize]
  constructor
  · rintro ⟨_, rfl, l, us, a, rfl, hl, hus⟩
    exact ⟨_, rfl, l, us, a, rfl, hl, hus⟩
  · rintro ⟨_, rfl, l, us, a, rfl, hl, hus⟩
    exact ⟨_, rfl, l, us, a, rfl, hl, hus⟩

end Ones

lemma reads_expect : (expect t).Reads fun ts _ _ => ∃ l, ts = [l] ∧ l.token = t := by
  refine reads_take.congr fun ts a rest => exists_congr fun l => and_congr_right fun _ => ?_
  by_cases h : l.token = t <;> simp [h]

lemma reads_word {expected : Expected} :
    (word expected).Reads fun ts name _ => ∃ l, ts = [l] ∧ l.token = .word name := by
  refine reads_take.congr fun ts name rest => exists_congr fun l => and_congr_right fun _ => ?_
  cases l.token <;> simp

lemma reads_expectBind {y : Reader β} {R : Phrase β} (hy : y.Reads R) :
    (expect t >>= fun _ => y).Reads fun ts b rest =>
      ∃ line us, ts = ⟨t, line⟩ :: us ∧ R us b rest := by
  refine (reads_bindOne reads_expect fun _ => hy).congr fun ts b rest => ?_
  constructor
  · rintro ⟨⟨_, line⟩, us, -, rfl, rfl, hus⟩
    exact ⟨line, us, rfl, hus⟩
  · rintro ⟨line, us, rfl, hus⟩
    exact ⟨⟨t, line⟩, us, (), rfl, rfl, hus⟩

/-- Whether a token comes next decides how reading goes on. -/
lemma reads_eatBind (hx : x.Reads R) (hy : y.Reads S) :
    (eat t >>= fun found => if found then x else y).Reads fun ts a rest =>
      (∃ line us, ts = ⟨t, line⟩ :: us ∧ R us a rest) ∨ NotNext t (ts ++ rest) ∧ S ts a rest := by
  intro extent located hsize a rest
  rw [bind_apply]
  by_cases hnext : NotNext t located
  · have heat : eat t extent located = .ok (false, located) := by
      cases located with
      | nil => rfl
      | cons l located =>
        have hne : l.token ≠ t := by simpa [NotNext] using hnext
        simp [eat, hne]
    rw [heat, ok_bind, if_neg Bool.false_ne_true, hy extent located hsize]
    constructor
    · rintro ⟨ts, rfl, hts⟩
      exact ⟨ts, rfl, .inr ⟨hnext, hts⟩⟩
    · rintro ⟨ts, rfl, ⟨line, us, rfl, -⟩ | ⟨-, hts⟩⟩
      · exact absurd rfl hnext
      · exact ⟨ts, rfl, hts⟩
  · cases located with
    | nil => exact absurd (show NotNext t [] by simp [NotNext]) hnext
    | cons l located =>
      have htoken : l.token = t := by simpa [NotNext] using hnext
      have heat : eat t extent (l :: located) = .ok (true, located) := by simp [eat, htoken]
      have hsize' : located.length ≤ extent.size := (Nat.le_succ _).trans hsize
      rw [heat, ok_bind, if_pos rfl, hx extent located hsize']
      constructor
      · rintro ⟨us, rfl, hus⟩
        exact ⟨l :: us, rfl, .inl ⟨l.line, us, by rw [← htoken], hus⟩⟩
      · rintro ⟨_, hlocated, ⟨line, us, rfl, hus⟩ | ⟨hnot, -⟩⟩
        · exact ⟨us, (List.cons.inj hlocated).2, hus⟩
        · rw [← hlocated] at hnot
          exact absurd hnot hnext

/-! ### Repetition -/

/-- Rounds one after the other, of which the last one answers. -/
inductive Repeats (R : σ → Phrase (σ ⊕ α)) : σ → Phrase α
  | last {s : σ} {ts : List Located} {a : α} {rest : List Located} (h : R s ts (.inr a) rest) :
    Repeats R s ts a rest
  | more {s s' : σ} {ts us : List Located} {a : α} {rest : List Located}
    (h : R s ts (.inl s') (us ++ rest)) (hrest : Repeats R s' us a rest) :
    Repeats R s (ts ++ us) a rest

section Repetition

variable {round : σ → Reader (σ ⊕ α)} {Q : σ → Phrase (σ ⊕ α)}

lemma rounds_succ (n : Nat) (s : σ) (extent : Extent) (located : List Located) :
    (rounds round (n + 1) s : Reader α) extent located =
      round s extent located >>= fun p =>
        (match p.1 with
          | .inl s => rounds round n s
          | .inr a => pure a : Reader α) extent p.2 := rfl

lemma repeats_of_rounds (hround : ∀ s, (round s).Reads (Q s)) {n : Nat} {s : σ} {extent : Extent}
    {located : List Located} (hsize : located.length ≤ extent.size) {a : α} {rest : List Located}
    (h : rounds round n s extent located = .ok (a, rest)) :
    ∃ ts, located = ts ++ rest ∧ Repeats Q s ts a rest := by
  induction n generalizing s located with
  | zero => cases h
  | succ n ih =>
    rw [rounds_succ, bind_eq_ok] at h
    obtain ⟨⟨result, mid⟩, hread, hrest⟩ := h
    obtain ⟨ts, rfl, hts⟩ := (hround s extent located hsize result mid).1 hread
    cases result with
    | inl s' =>
      have hmid : mid.length ≤ extent.size := by
        rw [List.length_append] at hsize
        omega
      obtain ⟨us, rfl, hus⟩ := ih hmid hrest
      exact ⟨ts ++ us, (List.append_assoc ..).symm, .more hts hus⟩
    | inr b =>
      cases hrest
      exact ⟨ts, rfl, .last hts⟩

/-- A round that does not answer takes a token, so there are no more rounds than tokens. -/
lemma rounds_of_repeats (hround : ∀ s, (round s).Reads (Q s))
    (hmove : ∀ s ts s' rest, Q s ts (.inl s') rest → ts ≠ []) {s : σ} {ts : List Located} {a : α}
    {rest : List Located} (h : Repeats Q s ts a rest) {n : Nat} (hn : ts.length < n)
    {extent : Extent} (hsize : (ts ++ rest).length ≤ extent.size) :
    rounds round n s extent (ts ++ rest) = .ok (a, rest) := by
  induction h generalizing n with
  | @last s ts a rest h =>
    obtain ⟨n, rfl⟩ := Nat.exists_eq_succ_of_ne_zero (Nat.ne_zero_of_lt hn)
    rw [rounds_succ, (hround s extent _ hsize _ _).2 ⟨ts, rfl, h⟩]
    rfl
  | @more s s' ts us a rest h _ ih =>
    obtain ⟨n, rfl⟩ := Nat.exists_eq_succ_of_ne_zero (Nat.ne_zero_of_lt hn)
    have hpos := List.length_pos_iff.2 (hmove s ts s' _ h)
    rw [List.append_assoc] at hsize ⊢
    rw [rounds_succ, (hround s extent _ hsize _ _).2 ⟨ts, rfl, h⟩]
    rw [List.length_append] at hn hsize
    exact ih (by omega) (by omega)

lemma reads_iterate (hround : ∀ s, (round s).Reads (Q s))
    (hmove : ∀ s ts s' rest, Q s ts (.inl s') rest → ts ≠ []) (s : σ) :
    (iterate round s : Reader α).Reads (Repeats Q s) := by
  intro extent located hsize a rest
  constructor
  · exact repeats_of_rounds hround hsize
  · rintro ⟨ts, rfl, hts⟩
    have hle : ts.length ≤ extent.size := by
      rw [List.length_append] at hsize
      omega
    exact rounds_of_repeats hround hmove hts (by omega) hsize

end Repetition

end Reader

end EntryTrace.Source
