import RefBook.Text.Basic
import RefBook.Unicode.WhiteSpace

/-!
# RefBook.Text.Blank — blank space in texts

* `trimStart`, `trimEnd`, `trim` take blank characters off the ends of a text.
* `isBlank`: nothing but blank characters.
* `words`: the maximal runs of characters that are not blank.
-/

namespace RefBook

open Unicode (isWhiteSpace)

/-- The text without the blank characters at its start. -/
def trimStart (t : Text) : Text :=
  t.dropWhile isWhiteSpace

/-- The text without the blank characters at its end. -/
def trimEnd (t : Text) : Text :=
  (trimStart t.reverse).reverse

/-- The text without the blank characters at either end. -/
def trim (t : Text) : Text :=
  trimEnd (trimStart t)

/-- Whether every character is blank; the empty text is. -/
def isBlank (t : Text) : Bool :=
  t.all isWhiteSpace

/-- The maximal runs of characters that are not blank, in order. -/
def words (t : Text) : List Text :=
  (t.splitOnP isWhiteSpace).filter fun w => !w.isEmpty

theorem trimStart_eq_nil_iff {t : Text} : trimStart t = [] ↔ isBlank t = true := by
  induction t with
  | nil => simp [trimStart, isBlank]
  | cons c r ih =>
    simp only [trimStart, isBlank] at ih
    by_cases h : isWhiteSpace c = true <;> simp [trimStart, isBlank, h, ih]

/-- A text is blank exactly when trimming leaves nothing of it. -/
theorem trim_eq_nil_iff {t : Text} : trim t = [] ↔ isBlank t = true := by
  simp only [trim, trimEnd, List.reverse_eq_nil_iff, trimStart_eq_nil_iff, isBlank,
    List.all_reverse]
  constructor
  · intro h
    cases hd : trimStart t with
    | nil => exact trimStart_eq_nil_iff.1 hd
    | cons c r =>
      -- the first character left by trimming is not blank
      have hc := List.head?_dropWhile_not isWhiteSpace t
      rw [show t.dropWhile isWhiteSpace = c :: r from hd] at hc
      simp_all
  · intro h
    simp [trimStart_eq_nil_iff.2 h]

end RefBook
