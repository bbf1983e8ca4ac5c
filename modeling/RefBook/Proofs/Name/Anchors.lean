import Mathlib.Tactic.SplitIfs
import RefBook.Name.Anchor
import RefBook.Proofs.Text.Separators

/-!
# RefBook.Proofs.Name.Anchors — what an anchor tells

* `anchor_inj`: the anchors of headings of one name differ by their numbers.
* `eq_or_mem_of_mem_slug`: a slug holds hyphens and what the small form has but blank characters and dots.
* `not_isWhiteSpace_of_mem_anchor`: no anchor holds a blank character.
-/

namespace RefBook

open Unicode (isWhiteSpace)

/-! ## Numbers -/

theorem decimal_injective : Function.Injective decimal := by
  intro i j h
  have hread := congrArg (fun ds => Nat.ofDigitChars 10 ds 0) h
  simpa only [decimal, Nat.ofDigitChars_ten_toDigits] using hread

theorem isDigit_of_mem_decimal {c : Char} {n : Nat} (h : c ∈ decimal n) : c.isDigit = true :=
  Nat.isDigit_of_mem_toDigits (by decide) (by decide) h

theorem anchor_inj {name : Text} {i j : Nat} : anchor name i = anchor name j ↔ i = j := by
  refine ⟨fun h => ?_, fun h => h ▸ rfl⟩
  unfold anchor at h
  split_ifs at h with hi hj hj
  · rw [hi, hj]
  · -- only a number lengthens the slug
    simpa using congrArg List.length h
  · simpa using congrArg List.length h
  · have hnumbers := List.append_cancel_left h
    exact decimal_injective (List.cons.inj hnumbers).2

/-! ## Characters -/

theorem not_isWhiteSpace_of_mem_decimal {c : Char} {n : Nat} (h : c ∈ decimal n) :
    isWhiteSpace c = false := by
  have hdigit := isDigit_of_mem_decimal h
  rw [Char.isDigit, Bool.and_eq_true, decide_eq_true_eq, decide_eq_true_eq] at hdigit
  have hlo : 48 ≤ c.toNat := hdigit.1
  have hhi : c.toNat ≤ 57 := hdigit.2
  rw [isWhiteSpace, Bool.eq_false_iff, ne_eq, Unicode.inRanges_eq_true_iff]
  rintro ⟨r, hr, hmin, hmax⟩
  simp only [Unicode.whiteSpaceRanges, List.mem_cons, List.not_mem_nil, or_false] at hr
  rcases hr with rfl | rfl | rfl | rfl | rfl | rfl | rfl | rfl | rfl | rfl
    <;> simp only at hmin hmax <;> omega

/-- But for the hyphens, a slug holds characters of the small form that are neither blank nor dots. -/
theorem eq_or_mem_of_mem_slug {c : Char} {name : Text} (h : c ∈ slug name) :
    c = '-' ∨ (c ∈ Unicode.lowercase name ∧ isWhiteSpace c = false ∧ c ≠ '.') := by
  rcases eq_or_mem_of_mem_intercalate h with hc | ⟨v, hv, hc⟩
  · exact Or.inl hc
  · obtain ⟨w, hw, rfl⟩ := List.mem_map.mp hv
    obtain ⟨hmem, hdot⟩ := List.mem_filter.mp hc
    obtain ⟨hlower, hblank⟩ := mem_and_not_of_mem_splitOnP (List.mem_of_mem_filter hw) hmem
    exact Or.inr ⟨hlower, hblank, of_decide_eq_true hdot⟩

theorem not_isWhiteSpace_of_mem_slug {c : Char} {name : Text} (h : c ∈ slug name) :
    isWhiteSpace c = false := by
  rcases eq_or_mem_of_mem_slug h with rfl | ⟨-, hblank, -⟩
  · decide
  · exact hblank

theorem not_isWhiteSpace_of_mem_anchor {c : Char} {name : Text} {k : Nat}
    (h : c ∈ anchor name k) : isWhiteSpace c = false := by
  unfold anchor at h
  split_ifs at h with hk
  · exact not_isWhiteSpace_of_mem_slug h
  · rcases List.mem_append.mp h with h | h
    · exact not_isWhiteSpace_of_mem_slug h
    · rcases List.mem_cons.mp h with rfl | h
      · decide
      · exact not_isWhiteSpace_of_mem_decimal h

end RefBook
