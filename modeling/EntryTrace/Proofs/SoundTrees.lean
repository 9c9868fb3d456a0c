import EntryTrace.Proofs.ReplayedModules
import EntryTrace.Source.Grammar

/-!
# What the grammar promises

A reader ensures a property if whatever it answers has it, in front of any tokens. The grammar
ensures that the tree of a module is sound: no signature has two results and no body is without
blocks.
-/

namespace EntryTrace.Source

namespace Reader

variable {α β σ : Type} {x : Reader α} {f : α → Reader β} {P : α → Prop} {Q : β → Prop}

/-- Every answer of the reader has the property. -/
def Ensures (x : Reader α) (P : α → Prop) : Prop :=
  ∀ extent located a rest, x extent located = .ok (a, rest) → P a

lemma ensures_pure {a : α} (ha : P a) : (pure a : Reader α).Ensures P := by
  rintro extent located _ rest ⟨⟩
  exact ha

lemma ensures_fail (line : Nat) (cause : Cause) : (fail line cause : Reader α).Ensures P := by
  rintro extent located a rest ⟨⟩

lemma ensures_bind (hx : x.Ensures P) (hf : ∀ a, P a → (f a).Ensures Q) : (x >>= f).Ensures Q := by
  intro extent located b rest h
  change (x extent located >>= fun p => f p.1 extent p.2) = _ at h
  obtain ⟨p, hread, hrest⟩ := bind_eq_ok.1 h
  exact hf p.1 (hx _ _ _ _ hread) _ _ _ _ hrest

lemma ensures_after (hf : ∀ a, (f a).Ensures Q) : (x >>= f).Ensures Q :=
  ensures_bind (P := fun _ => True) (fun _ _ _ _ _ => trivial) fun a _ => hf a

/-- What every round keeps, the whole repetition keeps. -/
lemma ensures_iterate {round : σ → Reader (σ ⊕ α)} {S : σ → Prop} {s : σ}
    (hround : ∀ s, S s → (round s).Ensures (Sum.elim S P)) (hs : S s) :
    (iterate round s).Ensures P := by
  have hrounds : ∀ n s, S s → (rounds round n s).Ensures P := by
    intro n
    induction n with
    | zero =>
      rintro s hs extent located a rest ⟨⟩
    | succ n ih =>
      intro s hs
      rw [rounds]
      refine ensures_bind (hround s hs) fun r hr => ?_
      cases r with
      | inl s' => exact ih s' hr
      | inr a => exact ensures_pure hr
  exact fun extent => hrounds (extent.size + 1) s hs extent

/-! ### The grammar -/

lemma ensures_funcType (line : Nat) : (funcType line).Ensures fun type => type.returns.length ≤ 1 := by
  unfold funcType
  refine ensures_after fun _ => ensures_after fun params => ensures_after fun _ =>
    ensures_after fun returns => ?_
  split
  · exact ensures_fail _ _
  · exact ensures_pure (by simp only; omega)

lemma ensures_func (line : Nat) : (func line).Ensures fun func => func.blocks? ≠ some [] := by
  unfold func
  refine ensures_after fun _ => ensures_after fun _ => ensures_after fun kind =>
    ensures_after fun name => ensures_after fun _ => ensures_after fun signature => ?_
  split
  · exact ensures_pure (by simp)
  · refine ensures_after fun _ => ensures_after fun blocks => ?_
    split
    · exact ensures_fail _ _
    · rename_i hblocks
      exact ensures_pure (by simpa using hblocks)
  · exact ensures_fail _ _

lemma ensures_item {tree : ModuleTree} (h : tree.Sound) : (item tree).Ensures ModuleTree.Sound := by
  unfold item
  refine ensures_after fun line => ensures_after fun name => ?_
  split
  · refine ensures_after fun _ => ensures_bind (ensures_funcType line) fun type htype => ?_
    refine ensures_pure { h with returns := ?_ }
    intro type' htype'
    rw [Array.toList_push, List.mem_append, List.mem_singleton] at htype'
    rcases htype' with htype' | rfl
    · exact h.returns type' htype'
    · exact htype
  split
  · refine ensures_after fun _ => ensures_after fun _ => ensures_after fun s => ?_
    exact ensures_pure { h with }
  split
  · refine ensures_after fun _ => ensures_bind (ensures_func line) fun func hfunc => ?_
    refine ensures_pure { h with blocks := ?_ }
    intro func' hfunc'
    rw [Array.toList_push, List.mem_append, List.mem_singleton] at hfunc'
    rcases hfunc' with hfunc' | rfl
    · exact h.blocks func' hfunc'
    · exact hfunc
  · exact ensures_fail _ _

lemma ensures_module : Reader.module.Ensures ModuleTree.Sound := by
  unfold Reader.module
  refine ensures_after fun _ => ensures_after fun _ => ?_
  refine ensures_bind (P := ModuleTree.Sound) ?_ fun tree htree => ?_
  · refine ensures_iterate (S := ModuleTree.Sound) (fun tree htree => ?_) ⟨by simp, by simp⟩
    refine ensures_after fun found => ?_
    split
    · exact ensures_pure htree
    · exact ensures_bind (ensures_item htree) fun tree' htree' => ensures_pure htree'
  · refine ensures_after fun token => ?_
    split
    · exact ensures_pure htree
    · exact ensures_after fun line => ensures_fail _ _

end Reader

theorem sound_of_parse {located : List Located} {tree : ModuleTree} (h : parse located = .ok tree) :
    tree.Sound := by
  rw [parse] at h
  cases hread : Reader.module (Extent.of located) located with
  | error e =>
    rw [hread] at h
    cases h
  | ok p =>
    rw [hread] at h
    cases h
    exact Reader.ensures_module _ _ _ _ hread

end EntryTrace.Source
