/-!
# Sets of characters as ranges

A set of characters is a list of closed ranges of code points, ascending and apart. Because of
the order a search may end at the first range that begins beyond the character; `contains_iff`
says that nothing is lost by that.
-/

namespace EntryTrace

/-- Closed ranges of code points, written as pairs of the first and the last. -/
abbrev Ranges := List (Nat × Nat)

namespace Ranges

/-- Whether each range is nonempty and ends before the next begins, with a gap between the two. -/
def ascending : Ranges → Bool
  | [] => true
  | [(low, high)] => decide (low ≤ high)
  | (low, high) :: (low', high') :: rest =>
    decide (low ≤ high) && decide (high + 1 < low') && ascending ((low', high') :: rest)

/-- Looks for a code point from the front, as far as the ranges begin at or before it. -/
def contains : Ranges → Nat → Bool
  | [], _ => false
  | (low, high) :: rest, n => decide (low ≤ n) && (decide (n ≤ high) || contains rest n)

theorem ascending_cons_cons (range next : Nat × Nat) (rest : Ranges) :
    ascending (range :: next :: rest) =
      (decide (range.1 ≤ range.2) && decide (range.2 + 1 < next.1) && ascending (next :: rest)) := rfl

theorem contains_nil (n : Nat) : contains [] n = false := rfl

theorem contains_cons (range : Nat × Nat) (rest : Ranges) (n : Nat) :
    contains (range :: rest) n =
      (decide (range.1 ≤ n) && (decide (n ≤ range.2) || contains rest n)) := rfl

theorem contains_cons_of_lt {low high n : Nat} {rest : Ranges} (h : n < low) :
    contains ((low, high) :: rest) n = false := by
  simp [contains_cons, Nat.not_le.2 h]

theorem contains_cons_of_gt {low high n : Nat} {rest : Ranges} (h : low ≤ n) (h' : high < n) :
    contains ((low, high) :: rest) n = contains rest n := by
  simp [contains_cons, h, Nat.not_le.2 h']

theorem ascending_head {low high : Nat} {rest : Ranges}
    (h : ascending ((low, high) :: rest) = true) : low ≤ high := by
  cases rest with
  | nil => exact of_decide_eq_true h
  | cons _ _ =>
    simp only [ascending_cons_cons, Bool.and_eq_true, decide_eq_true_eq] at h
    exact h.1.1

theorem ascending_tail {range : Nat × Nat} {rest : Ranges}
    (h : ascending (range :: rest) = true) : ascending rest = true := by
  cases rest with
  | nil => rfl
  | cons _ _ => simp_all [ascending_cons_cons]

/-- In ascending ranges all others lie above the first. -/
theorem lt_of_mem_tail {low high : Nat} {rest : Ranges}
    (h : ascending ((low, high) :: rest) = true) {range : Nat × Nat} (hr : range ∈ rest) :
    high < range.1 := by
  induction rest generalizing low high with
  | nil => simp at hr
  | cons next rest ih =>
    have hn := ascending_tail h
    simp only [ascending_cons_cons, Bool.and_eq_true, decide_eq_true_eq] at h
    rcases List.mem_cons.1 hr with rfl | hr
    · omega
    · have hle := ascending_head hn
      have hlt := ih hn hr
      omega

/-- A code point is found exactly if one of the ranges holds it. -/
theorem contains_iff {ranges : Ranges} (h : ascending ranges = true) {n : Nat} :
    contains ranges n = true ↔ ∃ range ∈ ranges, range.1 ≤ n ∧ n ≤ range.2 := by
  induction ranges with
  | nil => simp [contains_nil]
  | cons range rest ih =>
    have hle := ascending_head h
    simp only [contains_cons, Bool.and_eq_true, Bool.or_eq_true, decide_eq_true_eq,
      ih (ascending_tail h), List.mem_cons, exists_eq_or_imp]
    constructor
    · rintro ⟨hl, hh | hh⟩
      · exact .inl ⟨hl, hh⟩
      · exact .inr hh
    · rintro (hh | ⟨other, hm, hh⟩)
      · exact ⟨hh.1, .inl hh.2⟩
      · have hlt := lt_of_mem_tail h hm
        exact ⟨by omega, .inr ⟨other, hm, hh⟩⟩

end Ranges

end EntryTrace
