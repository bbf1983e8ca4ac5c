import RefBook.Comment.Fence
import RefBook.Name.Operator
import RefBook.Name.Reference
import RefBook.Record.Basic

/-!
# RefBook.Catalog.Block — the entry of one declaration

* `block`: a heading, the declaration in a code block, its comment, and a rule.
* `aliasBlock`, `unionBlock`, `valueBlock`: the entry of each kind of declaration.
-/

namespace RefBook

/-- The words that are not empty, with single spaces between. -/
def unwords (ws : List Text) : Text :=
  [' '].intercalate (ws.filter fun w => !w.isEmpty)

/-- The comment without blank space at its end and without line ends at its start. -/
def tidyComment (comment : Text) : Text :=
  (trimEnd comment).dropWhile fun c => c = '\n' || c = '\r'

/-- The lines of an entry that show its comment: none if it is blank. -/
def commentLines (comment : Text) : List Text :=
  if isBlank (tidyComment comment) then [] else [[], tidyComment comment]

/-- The entry of a declaration. -/
def block (heading code comment : Text) : Text :=
  unlines ([[], "### `".toList ++ heading ++ ['`'], fenceOpen, code, fenceClose]
    ++ commentLines comment ++ [[], "---".toList, []])

/-- The declaration of a type alias. -/
def aliasCode (a : Alias) : Text :=
  unwords ("type alias".toList :: a.name :: a.args ++ ["=".toList, a.type])

/-- The entry of a type alias. -/
def aliasBlock (a : Alias) : Text :=
  block a.name (aliasCode a) a.comment

/-- The line of one constructor behind its mark. -/
def constructorLine (mark : Char) (c : Constructor) : Text :=
  codeIndent ++ [mark, ' '] ++ unwords (c.name :: c.args)

/-- The lines of the constructors: an equals sign leads the first and a bar each other one. -/
def constructorLines : List Constructor → List Text
  | [] => []
  | c :: cs => constructorLine '=' c :: cs.map (constructorLine '|')

/-- The declaration of a union type, one constructor on each line. -/
def unionCode (u : UnionType) : Text :=
  unlines (unwords ("type".toList :: u.name :: u.args) :: constructorLines u.cases)

/-- The entry of a union type. -/
def unionBlock (u : UnionType) : Text :=
  block u.name (unionCode u) u.comment

/-- The entry of a value of the module `owner`: its name is displayed in the style, the owner's own
names are unqualified, and code samples of the comment are fenced. -/
def valueBlock (style : OperatorStyle) (owner : Text) (v : Value) : Text :=
  block (style.display v.name)
    (style.display v.name ++ " : ".toList ++ stripModule owner v.type)
    (fenceCode v.comment)

end RefBook
