import EntryTrace.Proofs.ParsedModules

/-!
# Loops of readers end by themselves

The loops of the readers have a bound, the number of all tokens. It is never what ends them: each
round that goes on takes a token. So a reader answers the same, be it a tree or an error, under any
bound that is not below the number of tokens it is given.
-/

namespace EntryTrace.Source.Reader

variable {α β σ : Type}

/-- The bound of its loops does not matter to the reader, as long as it is not below the number of
tokens. -/
structure Settles (x : Reader α) : Prop where
  same : ∀ endLine size size' located, located.length ≤ size → located.length ≤ size' →
    x ⟨endLine, size⟩ located = x ⟨endLine, size'⟩ located
  shrinks : ∀ extent located a rest, x extent located = .ok (a, rest) → rest.length ≤ located.length

lemma settles_pure (a : α) : (pure a : Reader α).Settles where
  same _ _ _ _ _ _ := rfl
  shrinks _ _ _ _ h := by
    cases h
    exact le_rfl

lemma settles_fail (line : Nat) (cause : Cause) : (fail line cause : Reader α).Settles where
  same _ _ _ _ _ _ := rfl
  shrinks _ _ _ _ h := by cases h

lemma settles_line : line.Settles where
  same _ _ _ located _ _ := by cases located <;> rfl
  shrinks _ located _ _ h := by
    cases located <;> cases h <;> exact le_rfl

lemma settles_peek? : peek?.Settles where
  same _ _ _ _ _ _ := rfl
  shrinks _ _ _ _ h := by
    cases h
    exact le_rfl

lemma settles_take (expected : Expected) (accept : Token → Except GrammarCause α) :
    (take expected accept).Settles where
  same _ _ _ located _ _ := by cases located <;> rfl
  shrinks extent located a rest h := by
    cases located with
    | nil => cases h
    | cons l located =>
      rw [take] at h
      cases haccept : accept l.token with
      | error cause =>
        rw [haccept] at h
        cases h
      | ok a =>
        rw [haccept] at h
        cases h
        exact Nat.le_succ _

lemma settles_eat (t : Token) : (eat t).Settles where
  same _ _ _ _ _ _ := rfl
  shrinks extent located a rest h := by
    cases located with
    | nil =>
      cases h
      exact le_rfl
    | cons l located =>
      rw [eat] at h
      split at h
      · cases h
        exact Nat.le_succ _
      · cases h
        exact le_rfl

lemma Settles.bind {x : Reader α} {f : α → Reader β} (hx : x.Settles) (hf : ∀ a, (f a).Settles) :
    (x >>= f).Settles where
  same endLine size size' located h h' := by
    rw [bind_apply, bind_apply, hx.same endLine size size' located h h']
    cases hread : x ⟨endLine, size'⟩ located with
    | error e => rfl
    | ok p =>
      obtain ⟨a, rest⟩ := p
      have hrest := hx.shrinks _ _ _ _ hread
      exact (hf a).same endLine size size' rest (hrest.trans h) (hrest.trans h')
  shrinks extent located b rest h := by
    rw [bind_apply, bind_eq_ok] at h
    obtain ⟨⟨a, mid⟩, hread, h⟩ := h
    exact ((hf a).shrinks _ _ _ _ h).trans (hx.shrinks _ _ _ _ hread)

lemma settles_map {x : Reader α} (hx : x.Settles) (f : α → β) : (f <$> x).Settles := by
  rw [map_eq_pure_bind]
  exact hx.bind fun a => settles_pure (f a)

lemma settles_ite {x y : Reader α} {p : Prop} [Decidable p] (hx : x.Settles) (hy : y.Settles) :
    (if p then x else y).Settles := by
  split
  · exact hx
  · exact hy

/-! ### Loops -/

/-- A round that goes on takes a token. -/
def Moves (round : σ → Reader (σ ⊕ α)) : Prop :=
  ∀ s extent located s' rest, located.length ≤ extent.size →
    round s extent located = .ok (.inl s', rest) → rest.length < located.length

lemma moves_of_reads {round : σ → Reader (σ ⊕ α)} {Q : σ → Phrase (σ ⊕ α)}
    (hround : ∀ s, (round s).Reads (Q s)) (hmove : ∀ s ts s' rest, Q s ts (.inl s') rest → ts ≠ []) :
    Moves round := by
  intro s extent located s' rest hsize h
  obtain ⟨ts, rfl, hts⟩ := (hround s extent located hsize _ _).1 h
  have hpos := List.length_pos_iff.2 (hmove s ts s' rest hts)
  rw [List.length_append]
  omega

variable {round : σ → Reader (σ ⊕ α)}

/-- With more rounds left than tokens, it does not matter how many. -/
lemma rounds_same (hround : ∀ s, (round s).Settles) (hmove : Moves round) {endLine size size' : Nat}
    {n n' : Nat} {s : σ} {located : List Located} (hn : located.length < n) (hn' : located.length < n')
    (hsize : located.length ≤ size) (hsize' : located.length ≤ size') :
    rounds round n s ⟨endLine, size⟩ located = rounds round n' s ⟨endLine, size'⟩ located := by
  induction n generalizing n' s located with
  | zero => exact absurd hn (Nat.not_lt_zero _)
  | succ n ih =>
    obtain ⟨n', rfl⟩ := Nat.exists_eq_succ_of_ne_zero (Nat.ne_zero_of_lt hn')
    rw [rounds_succ, rounds_succ, (hround s).same endLine size size' located hsize hsize']
    cases hread : round s ⟨endLine, size'⟩ located with
    | error e => rfl
    | ok p =>
      obtain ⟨result, rest⟩ := p
      cases result with
      | inr a => rfl
      | inl s' =>
        have hrest := hmove s _ located s' rest hsize' hread
        have hleft : rest.length < n := by omega
        have hleft' : rest.length < n' := by omega
        exact ih hleft hleft' (hrest.le.trans hsize) (hrest.le.trans hsize')

lemma rounds_shrinks (hround : ∀ s, (round s).Settles) {n : Nat} {s : σ} {extent : Extent}
    {located rest : List Located} {a : α} (h : rounds round n s extent located = .ok (a, rest)) :
    rest.length ≤ located.length := by
  induction n generalizing s located with
  | zero => cases h
  | succ n ih =>
    rw [rounds_succ, bind_eq_ok] at h
    obtain ⟨⟨result, mid⟩, hread, h⟩ := h
    have hmid := (hround s).shrinks _ _ _ _ hread
    cases result with
    | inl s' => exact (ih h).trans hmid
    | inr b =>
      cases h
      exact hmid

lemma settles_iterate (hround : ∀ s, (round s).Settles) (hmove : Moves round) (s : σ) :
    (iterate round s : Reader α).Settles where
  same _ _ _ _ h h' := rounds_same hround hmove (Nat.lt_succ_of_le h) (Nat.lt_succ_of_le h') h h'
  shrinks _ _ _ _ h := rounds_shrinks hround h

/-! ### The readers of the grammar -/

lemma settles_expect (t : Token) : (expect t).Settles := settles_take _ _

lemma settles_parenthesized {item : Reader α} {g : Grammar.Rule α} (hitem : item.Settles)
    (hreads : item.Reads fun ts a _ => g ts a) : (parenthesized item).Settles := by
  refine (settles_expect _).bind fun _ => (settles_eat _).bind fun found =>
    settles_ite (settles_pure _) (settles_iterate (fun acc => ?_) ?_ _)
  · exact hitem.bind fun a => (settles_eat _).bind fun found =>
      settles_ite (settles_pure _) ((settles_expect _).bind fun _ => settles_pure _)
  · exact moves_of_reads (reads_itemRound hreads) fun _ _ _ _ => ne_nil_of_itemRound

lemma settles_operands : (parenthesized operand).Settles :=
  settles_parenthesized (settles_take _ _) reads_operand

lemma settles_target : target.Settles :=
  (settles_take _ _).bind fun _ => Settles.bind settles_operands fun _ => settles_pure _

lemma settles_operation : operation.Settles := by
  refine Settles.bind settles_line fun line => (settles_take _ _).bind fun mnemonic => ?_
  split
  · exact settles_pure _
  · exact settles_map (settles_take _ _) _
  · exact settles_map (settles_take _ _) _
  · exact (settles_take _ _).bind fun _ => Settles.bind settles_operands fun _ => settles_pure _
  · split
    · exact (settles_take _ _).bind fun _ => (settles_expect _).bind fun _ =>
        (settles_take _ _).bind fun _ => settles_pure _
    · exact settles_fail _ _

lemma settles_atOperand : atOperand.Settles := by
  refine Settles.bind settles_peek? fun found => ?_
  split <;> exact settles_pure _

lemma settles_bareOperands : bareOperands.Settles := by
  refine Settles.bind settles_atOperand fun found =>
    settles_ite (settles_iterate (fun acc => ?_) ?_ _) (settles_pure _)
  · exact (settles_take _ _).bind fun _ => (settles_eat _).bind fun _ =>
      settles_ite (settles_pure _) (settles_pure _)
  · exact moves_of_reads (reads_bareRound reads_operand) fun _ _ _ _ => ne_nil_of_bareRound

lemma settles_terminator (line : Nat) (keyword : String) : (terminator line keyword).Settles := by
  unfold terminator
  split
  · exact settles_map settles_target _
  · exact (settles_take _ _).bind fun _ => (settles_expect _).bind fun _ =>
      Settles.bind settles_target fun _ => (settles_expect _).bind fun _ =>
        Settles.bind settles_target fun _ => settles_pure _
  · exact settles_map settles_bareOperands _
  · exact settles_pure _
  · exact settles_fail _ _

lemma settles_blockInside : blockInside.Settles := by
  refine settles_iterate (fun insts => Settles.bind settles_line fun line =>
    (settles_take _ _).bind fun keyword => ?_) ?_ _
  · split
    · exact (settles_expect _).bind fun _ => Settles.bind settles_operation fun _ => settles_pure _
    · exact (settles_terminator _ _).bind fun _ => settles_pure _
  · exact moves_of_reads reads_insideRound fun _ _ _ _ => ne_nil_of_closedRound worded_inst.ne_nil

lemma settles_block : block.Settles := by
  have hparam : blockParam.Settles := (settles_take _ _).bind fun _ => (settles_expect _).bind
    fun _ => (settles_take _ _).bind fun _ => settles_pure _
  exact Settles.bind settles_line fun _ => (settles_take _ _).bind fun _ =>
    (settles_parenthesized hparam reads_blockParam).bind fun _ => (settles_expect _).bind
      fun _ => Settles.bind settles_blockInside fun _ => settles_pure _

lemma settles_blocks : blocks.Settles := by
  refine settles_iterate (fun acc => (settles_eat _).bind fun found =>
    settles_ite (settles_pure _) (Settles.bind settles_block fun _ => settles_pure _)) ?_ _
  exact moves_of_reads reads_blocksRound fun _ _ _ _ => ne_nil_of_closedRound worded_block.ne_nil

lemma settles_func (line : Nat) : (func line).Settles := by
  refine (settles_expect _).bind fun _ => Settles.bind settles_line fun _ => (settles_take _ _).bind
    fun kind => (settles_take _ _).bind fun _ => (settles_expect _).bind fun _ =>
      (settles_take _ _).bind fun _ => ?_
  split
  · exact settles_pure _
  · exact (settles_expect _).bind fun _ => Settles.bind settles_blocks fun _ =>
      settles_ite (settles_fail _ _) (settles_pure _)
  · exact settles_fail _ _

lemma settles_funcType (line : Nat) : (funcType line).Settles := by
  have htypes : (parenthesized valueType).Settles :=
    settles_parenthesized (settles_take _ _) reads_valueType
  exact (settles_expect _).bind fun _ => htypes.bind fun _ => (settles_expect _).bind fun _ =>
    htypes.bind fun _ => settles_ite (settles_fail _ _) (settles_pure _)

lemma settles_item (tree : ModuleTree) : (item tree).Settles := by
  have hnumber (line : Nat) (kind : Kind) (found size : Nat) (name : String) :
      (checkNumber line kind found size name).Settles :=
    settles_ite (settles_pure _) (settles_fail _ _)
  refine Settles.bind settles_line fun line => (settles_take _ _).bind fun name => ?_
  split
  · exact (hnumber _ _ _ _ _).bind fun _ => (settles_funcType _).bind fun _ => settles_pure _
  · split
    · exact (hnumber _ _ _ _ _).bind fun _ => (settles_expect _).bind fun _ =>
        (settles_take _ _).bind fun _ => settles_pure _
    · split
      · exact (hnumber _ _ _ _ _).bind fun _ => (settles_func _).bind fun _ => settles_pure _
      · exact settles_fail _ _

theorem settles_module : module.Settles := by
  refine (settles_expect _).bind fun _ => (settles_expect _).bind fun _ =>
    (settles_iterate (fun tree => ?_) ?_ _).bind fun tree =>
      Settles.bind settles_peek? fun found => ?_
  · exact (settles_eat _).bind fun _ =>
      settles_ite (settles_pure _) ((settles_item _).bind fun _ => settles_pure _)
  · exact moves_of_reads reads_itemsRound fun _ _ _ _ => ne_nil_of_itemsRound
  · split
    · exact settles_pure _
    · exact Settles.bind settles_line fun _ => settles_fail _ _

end EntryTrace.Source.Reader
