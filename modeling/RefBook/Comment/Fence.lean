import RefBook.Comment.Line

/-!
# RefBook.Comment.Fence — code samples between fences

* `fenceCode`: each run of code-sample lines of a comment is put between fences and loses its
  indent.  Blank lines inside a run are dropped, those after it stay.
-/

namespace RefBook

/-- The line that opens a code block. -/
def fenceOpen : Text := "```elm".toList

/-- The line that closes a code block. -/
def fenceClose : Text := "```".toList

/-- Fences the lines of a comment.  Inside a run, `held` are the blank lines since the last line of
code: code drops them, anything else ends the run before them. -/
def fenceLines : Option (List Text) → List Text → List Text
  | none, [] => []
  | none, line :: more =>
    match codeSample? line with
    | some code => fenceOpen :: code :: fenceLines (some []) more
    | none => line :: fenceLines none more
  | some held, [] => fenceClose :: held
  | some held, line :: more =>
    match codeSample? line with
    | some code => code :: fenceLines (some []) more
    | none =>
      if isBlank line then fenceLines (some (held ++ [line])) more
      else fenceClose :: held ++ line :: fenceLines none more

/-- The comment with its code samples fenced. -/
def fenceCode (comment : Text) : Text :=
  unlines (fenceLines none (comment.splitOn '\n'))

example : fenceCode "a\n    b\n\n     c\n \nd".toList
    = "a\n```elm\nb\n c\n```\n \nd".toList := by decide

end RefBook
