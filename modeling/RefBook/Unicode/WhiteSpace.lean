import RefBook.Unicode.Ranges

/-!
# RefBook.Unicode.WhiteSpace — blank characters

* `isWhiteSpace`: the 25 characters with the property White_Space of Unicode.
-/

namespace RefBook.Unicode

/-- The ranges of blank characters, in ascending order. -/
def whiteSpaceRanges : List (Nat × Nat) := [
  (9, 13), (32, 32), (133, 133), (160, 160), (5760, 5760), (8192, 8202), (8232, 8233),
  (8239, 8239), (8287, 8287), (12288, 12288)]

/-- Whether the character is blank. -/
def isWhiteSpace (c : Char) : Bool :=
  inRanges whiteSpaceRanges c

example : (whiteSpaceRanges.map fun r => r.2 + 1 - r.1).sum = 25 := by decide

end RefBook.Unicode
