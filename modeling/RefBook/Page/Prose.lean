import RefBook.Catalog.Suggestion

/-!
# RefBook.Page.Prose — comments with their directives resolved

* `Unresolved`: a directive of a module names what the module does not declare.
* `resolve`: the comment of a module as prose.  A directive becomes the entries it names, one after
  the other; a heading of the first level goes down one level; other lines stay.  Lines of which
  nothing is left are dropped.
-/

namespace RefBook

/-- A directive names a declaration that its module lacks. -/
structure Unresolved where
  /-- The module. -/
  owner : Text
  /-- The name that the directive lists. -/
  name : Text
  /-- The nearest name that the module does declare, if any is near. -/
  suggestion : Option Text
deriving DecidableEq, Repr

/-- The wording of an unresolved directive. -/
def Unresolved.message (u : Unresolved) : Text :=
  let hint := match u.suggestion with
    | some s => " (did you mean `".toList ++ s ++ "`?)".toList
    | none => []
  "module ".toList ++ u.owner ++ " documents `".toList ++ u.name
    ++ "` but exposes no such declaration".toList ++ hint

/-- The entry of a name, or the complaint that there is none. -/
def Catalog.entry (c : Catalog) (owner name : Text) : Except Unresolved Text :=
  match c.get? name with
  | some e => .ok e
  | none => .error ⟨owner, name, c.nearest? name⟩

/-- The entries of names, one after the other. -/
def Catalog.inline (c : Catalog) (owner : Text) : List Text → Except Unresolved Text
  | [] => .ok []
  | name :: names => do
    let e ← c.entry owner name
    let es ← c.inline owner names
    return e ++ es

/-- What becomes of one line of a comment. -/
def resolveLine (owner : Text) (c : Catalog) (line : Text) : Except Unresolved Text :=
  match Line.ofText line with
  | .directive names => c.inline owner names
  | .heading text => .ok ('#' :: text)
  | .code _ => .ok line
  | .plain _ => .ok line

/-- What becomes of the lines of a comment, without those of which nothing is left. -/
def resolveLines (owner : Text) (c : Catalog) : List Text → Except Unresolved (List Text)
  | [] => .ok []
  | line :: more => do
    let r ← resolveLine owner c line
    let rs ← resolveLines owner c more
    return if r.isEmpty then rs else r :: rs

/-- The comment of the module `owner` with its directives resolved in the catalog. -/
def resolve (owner : Text) (c : Catalog) (comment : Text) : Except Unresolved Text :=
  unlines <$> resolveLines owner c (lines comment)

end RefBook
