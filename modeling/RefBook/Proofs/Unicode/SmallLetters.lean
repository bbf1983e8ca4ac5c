import Mathlib.Tactic.SplitIfs
import RefBook.Unicode.LowerCase
import RefBook.Unicode.WhiteSpace

/-!
# RefBook.Proofs.Unicode.SmallLetters — small letters stay small

The table of capital letters is a list of runs, so what holds of all letters is checked on pairs of runs.

* `CaseRun.misses`: no letter of the one run is sent to a letter that the other one steps on.
* `CaseRun.IsSound`: where the letters of a run lie and where they are sent; `CaseRun.isSound_of_mem`: so it
  is for every run of the table.
* `lowerChar_cases`: a character that no run covers is its own small letter; any other is sent as far as
  its run says.  What a run sends it to is not covered again (`lowerChar_lowerChar`).
* `IsSmall`: characters that lowering leaves alone wherever they stand; `isSmall_of_mem_lowercase`: it
  writes no others.
* `isWhiteSpace_of_mem_lowerAt`: blank characters stay what they are, and no others become blank.
-/

namespace RefBook.Unicode

/-! ## Where a run leads -/

namespace CaseRun

variable {r q : CaseRun} {n lo hi : Nat}

/-- Where the run sends a letter. -/
def sent (r : CaseRun) (n : Nat) : Nat :=
  (n + r.shift).toNat

/-- The run sends its letters below `lo` or above `hi`. -/
def leadsPast (r : CaseRun) (lo hi : Nat) : Bool :=
  (r.sent r.last).blt lo || hi.blt (r.sent r.first)

/-- The other run takes steps of two, and this one sends its letters between them. -/
def leadsBetween (r q : CaseRun) : Bool :=
  q.step == 2 && (r.step == 2 || r.first == r.last) && (r.sent r.first - q.first) % 2 == 1

/-- The run sends none of its letters to a letter that the other one steps on. -/
def misses (r q : CaseRun) : Bool :=
  r.leadsPast q.first q.last || r.leadsBetween q

theorem covers_iff :
    r.covers n = true ↔ r.first ≤ n ∧ n ≤ r.last ∧ (n - r.first) % r.step = 0 := by
  simp [covers, and_assoc]

theorem lt_or_lt_of_leadsPast (h : r.leadsPast lo hi = true) (hn : r.covers n = true) :
    r.sent n < lo ∨ hi < r.sent n := by
  obtain ⟨hfirst, hlast, -⟩ := covers_iff.mp hn
  simp only [leadsPast, Bool.or_eq_true, Nat.blt_eq, sent] at h
  unfold sent
  omega

theorem not_covers_of_leadsBetween (h : r.leadsBetween q = true) (hn : r.covers n = true) :
    q.covers (r.sent n) = false := by
  rw [Bool.eq_false_iff]
  intro hq
  obtain ⟨hfirst, hlast, hstep⟩ := covers_iff.mp hn
  obtain ⟨hqfirst, hqlast, hqstep⟩ := covers_iff.mp hq
  simp only [leadsBetween, Bool.and_eq_true, Bool.or_eq_true, beq_iff_eq] at h
  obtain ⟨⟨htwo, hparity⟩, hodd⟩ := h
  rw [htwo] at hqstep
  unfold sent at hodd hqfirst hqstep
  -- an even number of places behind the first letter of the run, so an odd one behind that of the other
  have heven : (n - r.first) % 2 = 0 := by
    rcases hparity with hparity | hparity
    · rwa [hparity] at hstep
    · omega
  omega

theorem not_covers_of_misses (h : r.misses q = true) (hn : r.covers n = true) :
    q.covers (r.sent n) = false := by
  rcases Bool.or_eq_true_iff.mp h with hpast | hbetween
  · rw [Bool.eq_false_iff]
    intro hq
    obtain ⟨hqfirst, hqlast, -⟩ := covers_iff.mp hq
    have hout := lt_or_lt_of_leadsPast hpast hn
    omega
  · exact not_covers_of_leadsBetween hbetween hn

/-- What is true of every run of the table. -/
structure IsSound (r : CaseRun) : Prop where
  /-- It leads to no surrogates. -/
  past_surrogates : r.leadsPast 0xD800 0xDFFF = true
  /-- It leads to characters. -/
  sent_last_lt : r.sent r.last < 0x110000
  /-- It does not lead to the capital I with a dot. -/
  past_dottedI : r.leadsPast 'İ'.toNat 'İ'.toNat = true
  /-- It leads to no blank character. -/
  past_blank : ∀ w ∈ whiteSpaceRanges, r.leadsPast w.1 w.2 = true
  /-- It covers no blank character. -/
  blank_outside : ∀ w ∈ whiteSpaceRanges, w.2 < r.first ∨ r.last < w.1
  /-- It leads to no letter that has a small letter of its own. -/
  misses_all : ∀ q ∈ lowerRuns, r.misses q = true

/-- Whether all of that is true of a run. -/
def checks (r : CaseRun) : Bool :=
  r.leadsPast 0xD800 0xDFFF && (r.sent r.last).blt 0x110000 && r.leadsPast 'İ'.toNat 'İ'.toNat
    && whiteSpaceRanges.all (fun w => r.leadsPast w.1 w.2)
    && whiteSpaceRanges.all (fun w => w.2.blt r.first || r.last.blt w.1)
    && lowerRuns.all r.misses

theorem isSound_of_checks (h : r.checks = true) : r.IsSound := by
  simp only [checks, Bool.and_eq_true, Nat.blt_eq, List.all_eq_true, Bool.or_eq_true] at h
  obtain ⟨⟨⟨⟨⟨hsurrogates, hlt⟩, hdotted⟩, hblank⟩, houtside⟩, hmisses⟩ := h
  exact ⟨hsurrogates, hlt, hdotted, hblank, houtside, hmisses⟩

theorem isSound_of_mem (hr : r ∈ lowerRuns) : r.IsSound := by
  have hall : lowerRuns.all checks = true := by decide +kernel
  exact isSound_of_checks (List.all_eq_true.mp hall r hr)

end CaseRun

/-! ## Single characters -/

section Characters

variable {c d : Char}

theorem toNat_ofNat_of_isValidChar {n : Nat} (h : n.isValidChar) : (Char.ofNat n).toNat = n := by
  unfold Char.ofNat
  rw [dif_pos h]
  unfold Char.ofNatAux Char.toNat
  simp

/-- A character that no run covers is its own small letter; any other is sent as far as its run says. -/
theorem lowerChar_cases (c : Char) :
    (lowerChar c = c ∧ ∀ q ∈ lowerRuns, q.covers c.toNat = false)
      ∨ ∃ r ∈ lowerRuns, r.covers c.toNat = true
        ∧ (lowerChar c).toNat = r.sent c.toNat := by
  unfold lowerChar
  split
  · next r hfind =>
    have hr : r ∈ lowerRuns := List.mem_of_find?_eq_some hfind
    have hfound := List.find?_some hfind
    obtain ⟨-, hlast, -⟩ := CaseRun.covers_iff.mp hfound
    have hsound := CaseRun.isSound_of_mem hr
    have hhigh := hsound.sent_last_lt
    have hpast := CaseRun.lt_or_lt_of_leadsPast hsound.past_surrogates hfound
    have hvalid : (r.sent c.toNat).isValidChar := by
      unfold CaseRun.sent at hhigh hpast ⊢
      unfold Nat.isValidChar
      omega
    exact Or.inr ⟨r, hr, hfound, toNat_ofNat_of_isValidChar hvalid⟩
  · next hfind =>
    refine Or.inl ⟨rfl, ?_⟩
    intro q hq
    simpa using List.find?_eq_none.mp hfind q hq

theorem lowerChar_eq_self (h : ∀ q ∈ lowerRuns, q.covers c.toNat = false) : lowerChar c = c := by
  rcases lowerChar_cases c with ⟨hsame, -⟩ | ⟨r, hr, hcovers, -⟩
  · exact hsame
  · rw [h r hr] at hcovers
    contradiction

/-- A small letter has no other small letter. -/
theorem lowerChar_lowerChar (c : Char) : lowerChar (lowerChar c) = lowerChar c := by
  rcases lowerChar_cases c with ⟨hsame, -⟩ | ⟨r, hr, hcovers, hsent⟩
  · rw [hsame, hsame]
  · apply lowerChar_eq_self
    intro q hq
    rw [hsent]
    exact CaseRun.not_covers_of_misses ((CaseRun.isSound_of_mem hr).misses_all q hq) hcovers

theorem lowerChar_ne_dottedI (h : c ≠ 'İ') : lowerChar c ≠ 'İ' := by
  rcases lowerChar_cases c with ⟨hsame, -⟩ | ⟨r, hr, hcovers, hsent⟩
  · rwa [hsame]
  · intro hdotted
    have hpast := CaseRun.lt_or_lt_of_leadsPast (CaseRun.isSound_of_mem hr).past_dottedI hcovers
    rw [← hsent, hdotted] at hpast
    omega

theorem not_covers_of_isWhiteSpace (h : isWhiteSpace c = true) :
    ∀ q ∈ lowerRuns, q.covers c.toNat = false := by
  intro q hq
  obtain ⟨w, hw, hlo, hhi⟩ := inRanges_eq_true_iff.mp h
  have hout := (CaseRun.isSound_of_mem hq).blank_outside w hw
  rw [Bool.eq_false_iff, ne_eq, CaseRun.covers_iff]
  omega

theorem isWhiteSpace_lowerChar (c : Char) : isWhiteSpace (lowerChar c) = isWhiteSpace c := by
  rcases lowerChar_cases c with ⟨hsame, -⟩ | ⟨r, hr, hcovers, hsent⟩
  · rw [hsame]
  · have hbefore : isWhiteSpace c = false := by
      rw [Bool.eq_false_iff]
      intro hblank
      rw [not_covers_of_isWhiteSpace hblank r hr] at hcovers
      contradiction
    have hbehind : isWhiteSpace (lowerChar c) = false := by
      rw [isWhiteSpace, Bool.eq_false_iff, ne_eq, inRanges_eq_true_iff]
      rintro ⟨w, hw, hlo, hhi⟩
      have hnot := (CaseRun.isSound_of_mem hr).past_blank w hw
      have hpast := CaseRun.lt_or_lt_of_leadsPast hnot hcovers
      omega
    rw [hbefore, hbehind]

/-! ## Characters in a text -/

/-- The character is its own small form wherever it stands. -/
def IsSmall (c : Char) : Prop :=
  ∀ before after, lowerAt before c after = [c]

theorem isSmall_of_lowerChar_eq (h : lowerChar c = c) (hdotted : c ≠ 'İ') : IsSmall c := by
  intro before after
  have hsigma : c ≠ 'Σ' := by
    rintro rfl
    exact absurd h (by decide)
  rw [lowerAt, if_neg hsigma, if_neg hdotted, h]

theorem isSmall_of_isWhiteSpace (h : isWhiteSpace c = true) : IsSmall c := by
  apply isSmall_of_lowerChar_eq
  · exact lowerChar_eq_self (not_covers_of_isWhiteSpace h)
  · rintro rfl
    exact absurd h (by decide)

theorem isSmall_dot : IsSmall '.' :=
  isSmall_of_lowerChar_eq (by decide) (by decide)

theorem isSmall_hyphen : IsSmall '-' :=
  isSmall_of_lowerChar_eq (by decide) (by decide)

variable {before after : Text}

theorem lowerAt_ne_nil : lowerAt before c after ≠ [] := by
  unfold lowerAt
  split_ifs <;> simp

/-- What lowering writes for a character: the small letter in the table, but for two capital letters. -/
theorem mem_lowerAt_cases (h : d ∈ lowerAt before c after) :
    (c ∈ ['Σ', 'İ'] ∧ d ∈ ['ς', 'σ', 'i', '\u0307']) ∨ (c ≠ 'İ' ∧ d = lowerChar c) := by
  unfold lowerAt at h
  split_ifs at h with hsigma hfinal hdotted
  · rw [hsigma, List.mem_singleton.mp h]
    decide
  · rw [hsigma, List.mem_singleton.mp h]
    decide
  · refine Or.inl ⟨by simp [hdotted], ?_⟩
    exact List.mem_append_right ['ς', 'σ'] h
  · exact Or.inr ⟨hdotted, List.mem_singleton.mp h⟩

theorem isSmall_of_mem_lowerAt (h : d ∈ lowerAt before c after) : IsSmall d := by
  rcases mem_lowerAt_cases h with ⟨-, hd⟩ | ⟨hc, rfl⟩
  · -- checked on the list: a bounded statement about characters would be decided by running over all of them
    have hown : (['ς', 'σ', 'i', '\u0307'].all fun x => lowerChar x == x && x != 'İ') = true := by
      decide
    have hd' := List.all_eq_true.mp hown d hd
    rw [Bool.and_eq_true, beq_iff_eq, bne_iff_ne] at hd'
    exact isSmall_of_lowerChar_eq hd'.1 hd'.2
  · exact isSmall_of_lowerChar_eq (lowerChar_lowerChar c) (lowerChar_ne_dottedI hc)

/-- Blank characters stay what they are, and no others become blank. -/
theorem isWhiteSpace_of_mem_lowerAt (h : d ∈ lowerAt before c after) :
    isWhiteSpace d = isWhiteSpace c := by
  rcases mem_lowerAt_cases h with ⟨hc, hd⟩ | ⟨-, rfl⟩
  · have hcapital : (['Σ', 'İ'].all fun x => isWhiteSpace x == false) = true := by decide
    have hsmall : (['ς', 'σ', 'i', '\u0307'].all fun x => isWhiteSpace x == false) = true := by
      decide
    rw [beq_iff_eq.mp (List.all_eq_true.mp hcapital c hc),
      beq_iff_eq.mp (List.all_eq_true.mp hsmall d hd)]
  · exact isWhiteSpace_lowerChar c

end Characters

/-! ## Texts -/

variable {t : Text}

theorem isSmall_of_mem_lowerFrom {d : Char} {before : Text} (h : d ∈ lowerFrom before t) :
    IsSmall d := by
  induction t generalizing before with
  | nil => contradiction
  | cons c after ih =>
    rcases List.mem_append.mp h with h | h
    · exact isSmall_of_mem_lowerAt h
    · exact ih h

theorem isSmall_of_mem_lowercase {d : Char} (h : d ∈ lowercase t) : IsSmall d :=
  isSmall_of_mem_lowerFrom h

end RefBook.Unicode
