import RefBook.Text.Basic

/-!
# RefBook.Text.Lines — the lines of a text

* `lines`: a line feed ends a line, and a carriage return just before it belongs to the line's end.
  A last line without a line feed keeps its carriage return; an empty one is no line.
-/

namespace RefBook

/-- The text without one carriage return at its end. -/
def dropReturn (t : Text) : Text :=
  if t.getLast? = some '\r' then t.dropLast else t

/-- The lines from the pieces between line feeds: only the last piece had no line feed behind it. -/
def linesOfPieces : List Text → List Text
  | [] => []
  | [last] => if last.isEmpty then [] else [last]
  | piece :: next :: more => dropReturn piece :: linesOfPieces (next :: more)

/-- The lines of a text, without their ends. -/
def lines (t : Text) : List Text :=
  linesOfPieces (t.splitOn '\n')

example : lines "a\r\nb\n\nc\r".toList = [['a'], ['b'], [], ['c', '\r']] := by decide

end RefBook
