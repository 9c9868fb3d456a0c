import Mathlib

/-!
# Lists side by side

Facts about lists whose elements correspond one by one.
-/

namespace EntryTrace

variable {α β : Type} {R : α → β → Prop}

lemma exists_right_of_forall₂ {as : List α} {bs : List β} (h : List.Forall₂ R as bs) {a : α}
    (ha : a ∈ as) : ∃ b ∈ bs, R a b := by
  induction h with
  | nil => simp at ha
  | cons hhead _ ih =>
    rcases List.mem_cons.1 ha with rfl | ha
    · exact ⟨_, List.mem_cons_self, hhead⟩
    · obtain ⟨b, hb, hR⟩ := ih ha
      exact ⟨b, List.mem_cons_of_mem _ hb, hR⟩

lemma exists_left_of_forall₂ {as : List α} {bs : List β}
    (h : List.Forall₂ R as bs) {b : β} (hb : b ∈ bs) : ∃ a ∈ as, R a b := by
  induction h with
  | nil => simp at hb
  | cons hhead _ ih =>
    rcases List.mem_cons.1 hb with rfl | hb
    · exact ⟨_, List.mem_cons_self, hhead⟩
    · obtain ⟨a, ha, hR⟩ := ih hb
      exact ⟨a, List.mem_cons_of_mem _ ha, hR⟩

/-- If everything in a list has a counterpart, there is a list of counterparts. -/
lemma exists_forall₂ {bs : List β} (h : ∀ b ∈ bs, ∃ a, R a b) : ∃ as, List.Forall₂ R as bs := by
  induction bs with
  | nil => exact ⟨[], .nil⟩
  | cons b bs ih =>
    obtain ⟨⟨a, ha⟩, hrest⟩ := List.forall_mem_cons.1 h
    obtain ⟨as, has⟩ := ih hrest
    exact ⟨a :: as, .cons ha has⟩

lemma getElem?_of_forall₂ {as : List α} {bs : List β} {i : Nat} {a : α}
    (h : List.Forall₂ R as bs) (ha : as[i]? = some a) : ∃ b, bs[i]? = some b ∧ R a b := by
  induction h generalizing i with
  | nil => simp at ha
  | @cons _ b _ _ hhead _ ih =>
    cases i with
    | zero =>
      obtain rfl : _ = a := Option.some.inj ha
      exact ⟨b, rfl, hhead⟩
    | succ i => exact ih ha

lemma forall₂_and {S : α → β → Prop} {as : List α} {bs : List β} (h : List.Forall₂ R as bs)
    (h' : List.Forall₂ S as bs) : List.Forall₂ (fun a b => R a b ∧ S a b) as bs := by
  induction h with
  | nil => exact .nil
  | cons hhead _ ih =>
    cases h' with
    | cons hhead' htail' => exact .cons ⟨hhead, hhead'⟩ (ih htail')

lemma forall₂_imp_of_mem {S : α → β → Prop} {as : List α} {bs : List β} (h : List.Forall₂ R as bs)
    (himp : ∀ a ∈ as, ∀ b ∈ bs, R a b → S a b) : List.Forall₂ S as bs := by
  induction h with
  | nil => exact .nil
  | cons hhead _ ih =>
    refine .cons (himp _ List.mem_cons_self _ List.mem_cons_self hhead) (ih fun a ha b hb => ?_)
    exact himp a (List.mem_cons_of_mem _ ha) b (List.mem_cons_of_mem _ hb)

/-- What corresponds to the parts around an element of a list. -/
lemma forall₂_split {as : List α} {before after : List β} {b : β}
    (h : List.Forall₂ R as (before ++ b :: after)) :
    ∃ before' a after', as = before' ++ a :: after' ∧ List.Forall₂ R before' before ∧ R a b ∧
      List.Forall₂ R after' after := by
  induction before generalizing as with
  | nil =>
    cases h with
    | cons hhead htail => exact ⟨[], _, _, rfl, .nil, hhead, htail⟩
  | cons c before ih =>
    cases h with
    | cons hhead htail =>
      obtain ⟨before', a, after', rfl, hbefore, ha, hafter⟩ := ih htail
      exact ⟨_ :: before', a, after', rfl, .cons hhead hbefore, ha, hafter⟩

/-- Lists that correspond to one list correspond to each other. -/
lemma forall₂_common {γ : Type} {S : α → γ → Prop} {as : List α} {bs : List β} {cs : List γ}
    (h : List.Forall₂ R as bs) (h' : List.Forall₂ S as cs) :
    List.Forall₂ (fun b c => ∃ a, R a b ∧ S a c) bs cs := by
  induction h generalizing cs with
  | nil =>
    cases h'
    exact .nil
  | cons hhead _ ih =>
    cases h' with
    | cons hhead' htail' => exact .cons ⟨_, hhead, hhead'⟩ (ih htail')

lemma length_flatMap_of_forall₂ {γ : Type} {f : β → List γ} {n : α → Nat} {as : List α} {bs : List β}
    (h : List.Forall₂ (fun a b => (f b).length = n a) as bs) :
    (bs.flatMap f).length = (as.map n).sum := by
  induction h with
  | nil => rfl
  | cons hhead _ ih => rw [List.flatMap_cons, List.length_append, List.map_cons, List.sum_cons, hhead, ih]

lemma flatMap_eq_of_forall₂ {γ : Type} {f : α → List γ} {g : β → List γ} {as : List α} {bs : List β}
    (h : List.Forall₂ (fun a b => f a = g b) as bs) : as.flatMap f = bs.flatMap g := by
  induction h with
  | nil => rfl
  | cons hhead _ ih => rw [List.flatMap_cons, List.flatMap_cons, hhead, ih]

lemma map_eq_of_forall₂ {γ : Type} {f : α → γ} {g : β → γ} {as : List α} {bs : List β}
    (h : List.Forall₂ (fun a b => f a = g b) as bs) : as.map f = bs.map g := by
  rwa [← List.forall₂_eq_eq_eq, List.forall₂_map_left_iff, List.forall₂_map_right_iff]

/-- A map between lists that are put together from pieces of equal lengths maps piece to piece. -/
lemma forall₂_of_map_flatMap {γ δ : Type} {f : α → List γ} {g : β → List δ} {σ : γ → δ}
    {as : List α} {bs : List β}
    (hlength : List.Forall₂ (fun a b => (f a).length = (g b).length) as bs)
    (h : (as.flatMap f).map σ = bs.flatMap g) :
    List.Forall₂ (fun a b => (f a).map σ = g b) as bs := by
  induction hlength with
  | nil => exact .nil
  | cons hhead _ ih =>
    rw [List.flatMap_cons, List.flatMap_cons, List.map_append] at h
    obtain ⟨hfirst, hrest⟩ := List.append_inj h (by rw [List.length_map, hhead])
    exact .cons hfirst (ih hrest)

/-- Some map takes a list without repetitions to any list of the same length. -/
lemma exists_map_eq {γ δ : Type} [DecidableEq γ] [Inhabited δ] {cs : List γ} {ds : List δ}
    (hdistinct : cs.Nodup) (hlength : cs.length = ds.length) : ∃ σ : γ → δ, cs.map σ = ds := by
  refine ⟨fun c => ds.getD (cs.idxOf c) default, List.ext_getElem (by simpa using hlength) ?_⟩
  intro i hi hi'
  rw [List.getElem_map, hdistinct.idxOf_getElem, List.getD_eq_getElem _ _ hi']

end EntryTrace
