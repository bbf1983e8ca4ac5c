import RefBook.Text.Blank
import RefBook.Text.Lines

/-!
# RefBook.Comment.Line — the kinds of lines in a comment

* `Line`: a heading, a directive that names declarations, a line of a code sample, or prose.
* `Line.ofText` tries the kinds in that order; each kind has a test of its own.
* `documentedNames`: the names of all directives of a comment.
-/

namespace RefBook

/-- A line of a comment by its kind. -/
inductive Line where
  /-- A heading of the first level. -/
  | heading (text : Text)
  /-- A directive with the names it lists. -/
  | directive (names : List Text)
  /-- A line of a code sample, without its indent. -/
  | code (text : Text)
  /-- Any other line. -/
  | plain (text : Text)
deriving DecidableEq, Repr

/-- The word that begins a directive. -/
def directiveWord : Text := "@docs".toList

/-- The indent of a code sample. -/
def codeIndent : Text := "    ".toList

/-- Whether the line is a heading of the first level: the mark, a space and an ASCII letter. -/
def isHeading (line : Text) : Bool :=
  match line with
  | '#' :: ' ' :: c :: _ => c.isAlpha
  | _ => false

/-- The entry of a directive as a key: trimmed, then without parentheses. -/
def bareName (entry : Text) : Text :=
  (trim entry).filter fun c => c ≠ '(' && c ≠ ')'

/-- The names that a directive lists, or `none` if the line is no directive.  Blank space must follow
the word; entries that leave no name are left out. -/
def directiveNames? (line : Text) : Option (List Text) :=
  match dropLeading directiveWord (trim line) with
  | some (c :: rest) =>
    if Unicode.isWhiteSpace c then
      some ((((c :: rest).splitOn ',').map bareName).filter fun name => !name.isEmpty)
    else none
  | _ => none

/-- The code of a line in a code sample: the indent, then something that is not blank. -/
def codeSample? (line : Text) : Option Text :=
  (dropLeading codeIndent line).filter fun code => !isBlank code

/-- The kind of a line. -/
def Line.ofText (line : Text) : Line :=
  if isHeading line then heading line
  else
    match directiveNames? line, codeSample? line with
    | some names, _ => directive names
    | none, some text => code text
    | none, none => plain line

/-- The names that the directives of a comment list, in order. -/
def documentedNames (comment : Text) : List Text :=
  (lines comment).flatMap fun line => (directiveNames? line).getD []

end RefBook
