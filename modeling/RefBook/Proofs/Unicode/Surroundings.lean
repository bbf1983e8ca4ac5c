import RefBook.Proofs.Text.Trimming
import RefBook.Proofs.Unicode.SmallLetters

/-!
# RefBook.Proofs.Unicode.Surroundings — lowering a text in parts

Only the small form of a capital sigma depends on what stands around it, and only on whether a cased
letter comes next on either side.  Blank space stops that search; dots are looked through.

* `lowerBetween`: the small form of a part of a text, with what stands before and after it.
* `lowerBetween_congr`: two surroundings in which the search for a cased letter ends alike are as good as
  each other.
* `lowercase_eq_self_iff`: the texts that lowering leaves alone.
* `lowercase_across_blank`: so the parts on both sides of blank space are lowered each on its own.
* `exists_lowercase_dots`: so dots beside a character stand beside its small form, and change nothing else.
-/

namespace RefBook.Unicode

/-! ## Ranges that do not meet -/

section Ranges

variable {R S : List (Nat × Nat)} {c : Char}

/-- Whether no range of the one list meets a range of the other. -/
def apart (R S : List (Nat × Nat)) : Bool :=
  R.all fun r => S.all fun s => r.2.blt s.1 || s.2.blt r.1

theorem not_inRanges_of_apart (h : apart R S = true) (hc : inRanges R c = true) :
    inRanges S c = false := by
  obtain ⟨r, hr, hrlo, hrhi⟩ := inRanges_eq_true_iff.mp hc
  rw [Bool.eq_false_iff, ne_eq, inRanges_eq_true_iff]
  rintro ⟨s, hs, hslo, hshi⟩
  have hout := List.all_eq_true.mp (List.all_eq_true.mp h r hr) s hs
  simp only [Bool.or_eq_true, Nat.blt_eq] at hout
  omega

end Ranges

/-! ## The next cased letter -/

section NextCased

variable {s t u b : Text}

theorem nextIsCased_cons (c : Char) (t : Text) :
    nextIsCased (c :: t) = if isCaseIgnorable c then nextIsCased t else isCased c := by
  by_cases hc : isCaseIgnorable c = true
  · rw [if_pos hc, nextIsCased, List.dropWhile_cons_of_pos hc, nextIsCased]
  · rw [if_neg hc, nextIsCased, List.dropWhile_cons_of_neg hc]

theorem nextIsCased_append_congr (s : Text) (h : nextIsCased t = nextIsCased u) :
    nextIsCased (s ++ t) = nextIsCased (s ++ u) := by
  induction s with
  | nil => exact h
  | cons c s ih => rw [List.cons_append, List.cons_append, nextIsCased_cons, nextIsCased_cons, ih]

/-- Dots are looked through. -/
theorem nextIsCased_dots_append (hs : ∀ x ∈ s, x = '.') (t : Text) :
    nextIsCased (s ++ t) = nextIsCased t := by
  induction s with
  | nil => rfl
  | cons c s ih =>
    obtain ⟨hc, hrest⟩ := List.forall_mem_cons.mp hs
    have hdot : isCaseIgnorable '.' = true := by decide
    rw [List.cons_append, nextIsCased_cons, hc, if_pos hdot, ih hrest]

theorem apart_whiteSpace_casing : apart whiteSpaceRanges (casedRanges ++ caseIgnorableRanges) = true := by
  decide +kernel

/-- Blank space is not looked through, and is not cased. -/
theorem nextIsCased_blank_append (hb : isBlank b = true) (hne : b ≠ []) (t : Text) :
    nextIsCased (b ++ t) = false := by
  obtain ⟨c, r, rfl⟩ := List.exists_cons_of_ne_nil hne
  have hc : isWhiteSpace c = true := forall_mem_of_isBlank hb c List.mem_cons_self
  have hneither : inRanges (casedRanges ++ caseIgnorableRanges) c = false :=
    not_inRanges_of_apart apart_whiteSpace_casing hc
  rw [inRanges, List.any_append, Bool.or_eq_false_iff] at hneither
  have hcased : isCased c = false := hneither.1
  have hstop : isCaseIgnorable c = false := hneither.2
  rw [List.cons_append, nextIsCased_cons, hstop, hcased]
  rfl

end NextCased

/-! ## Parts of a text -/

/-- The small form of a part that stands between the characters `before`, nearest first, and `after`. -/
def lowerBetween (before : Text) : Text → Text → Text
  | [], _ => []
  | c :: t, after => lowerAt before c (t ++ after) ++ lowerBetween (c :: before) t after

theorem lowerBetween_cons (before : Text) (c : Char) (t after : Text) :
    lowerBetween before (c :: t) after
      = lowerAt before c (t ++ after) ++ lowerBetween (c :: before) t after := rfl

section Parts

variable {s t b d before before' after after' : Text} {c : Char}

theorem lowerFrom_eq_lowerBetween (before t : Text) :
    lowerFrom before t = lowerBetween before t [] := by
  induction t generalizing before with
  | nil => rfl
  | cons c t ih => rw [lowerFrom, lowerBetween_cons, List.append_nil, ih]

theorem lowercase_eq_lowerBetween (t : Text) : lowercase t = lowerBetween [] t [] :=
  lowerFrom_eq_lowerBetween [] t

theorem lowerBetween_append (before s t after : Text) :
    lowerBetween before (s ++ t) after
      = lowerBetween before s (t ++ after) ++ lowerBetween (s.reverse ++ before) t after := by
  induction s generalizing before with
  | nil => rfl
  | cons c s ih =>
    rw [List.cons_append, lowerBetween_cons, lowerBetween_cons, ih, List.append_assoc, List.append_assoc,
      List.reverse_cons, List.append_assoc]
    rfl

/-- The cases in which a capital sigma has its small form depend on the two searches alone. -/
theorem lowerAt_congr (hbefore : nextIsCased before = nextIsCased before')
    (hafter : nextIsCased after = nextIsCased after') :
    lowerAt before c after = lowerAt before' c after' := by
  unfold lowerAt
  rw [hbefore, hafter]

theorem lowerBetween_congr (hbefore : nextIsCased before = nextIsCased before')
    (hafter : nextIsCased after = nextIsCased after') :
    lowerBetween before t after = lowerBetween before' t after' := by
  induction t generalizing before before' with
  | nil => rfl
  | cons c t ih =>
    have hnearest : nextIsCased (c :: before) = nextIsCased (c :: before') :=
      nextIsCased_append_congr [c] hbefore
    rw [lowerBetween_cons, lowerBetween_cons, lowerAt_congr hbefore (nextIsCased_append_congr t hafter),
      ih hnearest]

theorem lowerBetween_eq_self (h : ∀ c ∈ t, IsSmall c) (before after : Text) :
    lowerBetween before t after = t := by
  induction t generalizing before with
  | nil => rfl
  | cons c t ih =>
    obtain ⟨hc, ht⟩ := List.forall_mem_cons.mp h
    rw [lowerBetween_cons, hc before, ih ht, List.singleton_append]

/-- Lowering leaves the texts of small characters alone, and no others. -/
theorem lowercase_eq_self_iff : lowercase t = t ↔ ∀ c ∈ t, IsSmall c := by
  constructor
  · intro h c hc
    rw [← h] at hc
    exact isSmall_of_mem_lowercase hc
  · intro h
    rw [lowercase_eq_lowerBetween]
    exact lowerBetween_eq_self h [] []

/-! ## Blank space -/

theorem isSmall_of_isBlank (hb : isBlank b = true) : ∀ c ∈ b, IsSmall c :=
  fun c hc => isSmall_of_isWhiteSpace (forall_mem_of_isBlank hb c hc)

/-- The texts on both sides of blank space are lowered each on its own. -/
theorem lowercase_across_blank (hb : isBlank b = true) (hne : b ≠ []) (s t : Text) :
    lowercase (s ++ b ++ t) = lowercase s ++ b ++ lowercase t := by
  have hleft : lowerBetween [] s (b ++ t) = lowercase s := by
    rw [lowercase_eq_lowerBetween]
    exact lowerBetween_congr rfl (nextIsCased_blank_append hb hne t)
  have hright : lowerBetween (b.reverse ++ s.reverse) t [] = lowercase t := by
    rw [lowercase_eq_lowerBetween]
    have hblank : isBlank b.reverse = true := (isBlank_reverse b).trans hb
    have hreverse : b.reverse ≠ [] := mt List.reverse_eq_nil_iff.mp hne
    exact lowerBetween_congr (nextIsCased_blank_append hblank hreverse s.reverse) rfl
  rw [lowercase_eq_lowerBetween, lowerBetween_append, lowerBetween_append,
    lowerBetween_eq_self (isSmall_of_isBlank hb), List.reverse_append, List.append_nil,
    List.append_nil, hleft, hright]

theorem lowercase_blank_append (hb : isBlank b = true) (t : Text) :
    lowercase (b ++ t) = b ++ lowercase t := by
  by_cases hne : b = []
  · rw [hne, List.nil_append, List.nil_append]
  · exact lowercase_across_blank hb hne [] t

theorem lowercase_append_blank (hb : isBlank b = true) (t : Text) :
    lowercase (t ++ b) = lowercase t ++ b := by
  by_cases hne : b = []
  · rw [hne, List.append_nil, List.append_nil]
  · have hacross := lowercase_across_blank hb hne t []
    rwa [List.append_nil, show lowercase [] = [] from rfl, List.append_nil] at hacross

/-! ## Dots -/

theorem isSmall_of_dots (hd : ∀ x ∈ d, x = '.') : ∀ x ∈ d, IsSmall x :=
  fun x hx => hd x hx ▸ isSmall_dot

/-- Dots stay where they are and change nothing behind them. -/
theorem lowerBetween_dots_append (hd : ∀ x ∈ d, x = '.') (before t after : Text) :
    lowerBetween before (d ++ t) after = d ++ lowerBetween before t after := by
  have hreverse : ∀ x ∈ d.reverse, x = '.' := fun x hx => hd x (List.mem_reverse.mp hx)
  rw [lowerBetween_append, lowerBetween_eq_self (isSmall_of_dots hd),
    lowerBetween_congr (nextIsCased_dots_append hreverse before) rfl]

/-- Dots on both sides of a character that is not blank stand beside its small form, which is not empty
and holds no blank character; the rest of the text is lowered as without them. -/
theorem exists_lowercase_dots (hc : isWhiteSpace c = false) (s t : Text) :
    ∃ left small right, small ≠ [] ∧ (∀ x ∈ small, isWhiteSpace x = false)
      ∧ ∀ d e : Text, (∀ x ∈ d, x = '.') → (∀ x ∈ e, x = '.') →
        lowercase (s ++ d ++ c :: (e ++ t)) = left ++ (d ++ small ++ e) ++ right := by
  refine ⟨lowerBetween [] s (c :: t), lowerAt s.reverse c t, lowerBetween (c :: s.reverse) t [],
    lowerAt_ne_nil, ?_, ?_⟩
  · intro x hx
    rw [isWhiteSpace_of_mem_lowerAt hx, hc]
  · intro d e hd he
    have hbehind : nextIsCased (e ++ t) = nextIsCased t := nextIsCased_dots_append he t
    have hbefore : nextIsCased (d ++ c :: (e ++ t)) = nextIsCased (c :: t) :=
      (nextIsCased_dots_append hd _).trans (nextIsCased_append_congr [c] hbehind)
    calc lowercase (s ++ d ++ c :: (e ++ t))
        = lowerBetween [] s (d ++ c :: (e ++ t)) ++ lowerBetween s.reverse (d ++ c :: (e ++ t)) [] := by
          rw [lowercase_eq_lowerBetween, List.append_assoc, lowerBetween_append, List.append_nil,
            List.append_nil]
      _ = lowerBetween [] s (c :: t) ++ (d ++ lowerBetween s.reverse (c :: (e ++ t)) []) := by
          rw [lowerBetween_congr rfl hbefore, lowerBetween_dots_append hd]
      _ = lowerBetween [] s (c :: t)
            ++ (d ++ (lowerAt s.reverse c t ++ (e ++ lowerBetween (c :: s.reverse) t []))) := by
          rw [lowerBetween_cons, List.append_nil, lowerAt_congr rfl hbehind, lowerBetween_dots_append he]
      _ = _ := by simp only [List.append_assoc]

end Parts

end RefBook.Unicode
