import EntryTrace.Text.Ranges

/-!
# Blank characters

The white space of Unicode, which separates tokens.
-/

namespace EntryTrace

/-- Code points with the property White_Space. -/
def blankRanges : Ranges :=
  [(0x09, 0x0d), (0x20, 0x20), (0x85, 0x85), (0xa0, 0xa0), (0x1680, 0x1680), (0x2000, 0x200a),
    (0x2028, 0x2029), (0x202f, 0x202f), (0x205f, 0x205f), (0x3000, 0x3000)]

def isBlank (c : Char) : Bool := blankRanges.contains c.toNat

theorem blankRanges_ascending : blankRanges.ascending = true := by decide

theorem isBlank_iff {c : Char} :
    isBlank c = true ↔ ∃ range ∈ blankRanges, range.1 ≤ c.toNat ∧ c.toNat ≤ range.2 :=
  Ranges.contains_iff blankRanges_ascending

theorem isBlank_of_isWhitespace {c : Char} (h : c.isWhitespace = true) : isBlank c = true := by
  simp only [Char.isWhitespace, Bool.or_eq_true, decide_eq_true_eq] at h
  rcases h with ((h | h) | h) | h <;> subst h <;> decide

end EntryTrace
