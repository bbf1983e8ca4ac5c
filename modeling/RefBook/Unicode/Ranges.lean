/-!
# RefBook.Unicode.Ranges — character properties as lists of ranges

* `inRanges`: a property of characters is given by the inclusive ranges of its code points.
-/

namespace RefBook.Unicode

/-- Whether the code point of the character lies in one of the inclusive ranges. -/
def inRanges (ranges : List (Nat × Nat)) (c : Char) : Bool :=
  ranges.any fun (lo, hi) => lo ≤ c.toNat && c.toNat ≤ hi

theorem inRanges_eq_true_iff {ranges : List (Nat × Nat)} {c : Char} :
    inRanges ranges c = true ↔ ∃ r ∈ ranges, r.1 ≤ c.toNat ∧ c.toNat ≤ r.2 := by
  simp [inRanges]

end RefBook.Unicode
