import RefBook.Comment.Line
import RefBook.Proofs.Text.Trimming

/-!
# RefBook.Proofs.Comment.Kinds — the kinds of a line exclude each other

* `directiveNames?_mark`, `directiveNames?_eq_none_of_isHeading`: a heading is no directive.
* `Line.ofText_eq`: so the order in which the kinds are tried does not show.  A line is a directive
  exactly when `directiveNames?` says so, on which the index of a section relies.
* `lineNames`, `demoted`: what a line contributes to an index, and to a body if it is no directive;
  `isHeading_demoted`, `directiveNames?_demoted`: a demoted line has nothing left to demote and is no
  directive either.
-/

namespace RefBook

/-! ## Headings and directives -/

theorem isHeading_eq_true_iff {line : Text} :
    isHeading line = true ↔ ∃ c r, line = '#' :: ' ' :: c :: r ∧ c.isAlpha = true := by
  constructor
  · intro h
    unfold isHeading at h
    split at h
    · next c r => exact ⟨c, r, rfl, h⟩
    · contradiction
  · rintro ⟨c, r, rfl, hc⟩
    exact hc

/-- A heading of any level begins with its mark, a directive with its word. -/
theorem directiveNames?_mark (r : Text) : directiveNames? ('#' :: r) = none := by
  have ht : trim ('#' :: r) = '#' :: trimEnd r := trim_cons_of_not_blank (by decide)
  have hd : dropLeading directiveWord ('#' :: trimEnd r) = none := by
    simp [directiveWord, dropLeading]
  rw [directiveNames?, ht, hd]

theorem directiveNames?_eq_none_of_isHeading {line : Text} (h : isHeading line = true) :
    directiveNames? line = none := by
  obtain ⟨c, r, rfl, -⟩ := isHeading_eq_true_iff.mp h
  exact directiveNames?_mark _

/-- A carriage return at the end of a line is blank, so it is no part of a directive. -/
theorem directiveNames?_dropReturn (line : Text) :
    directiveNames? (dropReturn line) = directiveNames? line := by
  have htrim : trim (dropReturn line) = trim line := by
    by_cases h : line.getLast? = some '\r'
    · obtain ⟨front, rfl⟩ := List.getLast?_eq_some_iff.mp h
      rw [dropReturn, if_pos h, List.dropLast_concat, trim_append_of_blank (by decide)]
    · rw [dropReturn, if_neg h]
  rw [directiveNames?, htrim, directiveNames?]

/-- The kind of a line, whatever the order of the tests. -/
theorem Line.ofText_eq (line : Text) :
    Line.ofText line = match directiveNames? line with
      | some names => .directive names
      | none =>
        if isHeading line then .heading line
        else match codeSample? line with
          | some text => .code text
          | none => .plain line := by
  unfold Line.ofText
  by_cases hh : isHeading line = true
  · rw [directiveNames?_eq_none_of_isHeading hh]
    simp [hh]
  · cases directiveNames? line <;> cases codeSample? line <;> simp [hh]

theorem directiveNames?_of_ofText {line : Text} {names : List Text}
    (h : Line.ofText line = .directive names) : directiveNames? line = some names := by
  rw [Line.ofText_eq] at h
  cases hd : directiveNames? line with
  | some found =>
    rw [hd] at h
    exact congrArg some (Line.directive.inj h)
  | none =>
    rw [hd] at h
    simp only at h
    split at h
    · contradiction
    · split at h <;> contradiction

/-! ## What a line contributes -/

/-- The names that a line lists: none if it is no directive. -/
def lineNames (line : Text) : List Text :=
  (directiveNames? line).getD []

/-- The line as prose of a section: a heading of the first level goes down one level. -/
def demoted (line : Text) : Text :=
  if isHeading line then '#' :: line else line

theorem documentedNames_eq (comment : Text) :
    documentedNames comment = (lines comment).flatMap lineNames := rfl

theorem lineNames_of_directive {line : Text} {names : List Text}
    (h : directiveNames? line = some names) : lineNames line = names := by
  rw [lineNames, h, Option.getD_some]

theorem lineNames_of_not_directive {line : Text} (h : directiveNames? line = none) :
    lineNames line = [] := by
  rw [lineNames, h, Option.getD_none]

/-! ## Demoted lines -/

theorem demoted_eq_nil_iff {line : Text} : demoted line = [] ↔ line = [] := by
  unfold demoted
  split
  · next h =>
    obtain ⟨c, r, rfl, -⟩ := isHeading_eq_true_iff.mp h
    simp
  · rfl

theorem demoted_of_not_isHeading {line : Text} (h : isHeading line = false) :
    demoted line = line :=
  if_neg (Bool.eq_false_iff.mp h)

/-- A heading that went down one level is none of the first level any more. -/
theorem isHeading_demoted (line : Text) : isHeading (demoted line) = false := by
  unfold demoted
  split
  · next h =>
    obtain ⟨c, r, rfl, -⟩ := isHeading_eq_true_iff.mp h
    rfl
  · next h => exact Bool.eq_false_iff.mpr h

theorem directiveNames?_demoted (line : Text) :
    directiveNames? (demoted line) = directiveNames? line := by
  unfold demoted
  split
  · next h => rw [directiveNames?_mark, directiveNames?_eq_none_of_isHeading h]
  · rfl

theorem not_mem_demoted {line : Text} {c : Char} (hc : c ≠ '#') (h : c ∉ line) :
    c ∉ demoted line := by
  unfold demoted
  split
  · intro hmem
    rcases List.mem_cons.mp hmem with rfl | hmem
    · contradiction
    · exact h hmem
  · exact h

end RefBook
