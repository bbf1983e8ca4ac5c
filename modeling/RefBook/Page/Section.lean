import RefBook.Name.Anchor
import RefBook.Page.Prose

/-!
# RefBook.Page.Section — the section of one module

* `Link`: a name with the anchor of its heading; `Outline`: those of a section.
* `Outline.plan` allocates the anchors of a section: its heading, then each documented name.
* `Module.render`: heading, index and body of a section.
-/

namespace RefBook

/-- A heading to link to. -/
structure Link where
  /-- The name of the heading; operators go by their bare name. -/
  name : Text
  /-- Its anchor. -/
  anchor : Text
deriving DecidableEq, Repr

/-- The headings of a section. -/
structure Outline where
  /-- The heading of the module. -/
  heading : Link
  /-- The documented names in the order of the directives. -/
  entries : List Link
deriving DecidableEq, Repr

/-- The headings of a module in the order in which they are written. -/
def Module.headings (m : Module) : List Text :=
  m.name :: documentedNames m.comment

/-- Allocates the anchors of a section. -/
def Outline.plan (m : Module) (r : Registry) : Outline × Registry :=
  let (head, r) := r.allocate m.name
  let names := documentedNames m.comment
  let (anchors, r) := r.allocateAll names
  (⟨⟨m.name, head⟩, List.zipWith Link.mk names anchors⟩, r)

/-- A bullet that links a label to an anchor. -/
def bullet (label anchor : Text) : Text :=
  "- [".toList ++ label ++ "](#".toList ++ anchor ++ [')']

/-- The bullets of the index of a section. -/
def Outline.index (o : Outline) (style : OperatorStyle) : List Text :=
  o.entries.map fun e => bullet (style.display e.name) e.anchor

/-- The body of a section: the comment of the module over its own entries. -/
def Module.body (m : Module) (style : OperatorStyle) : Except Unresolved Text :=
  resolve m.name (m.catalog style) m.comment

/-- The lines of a section with a given body. -/
def Outline.lines (o : Outline) (style : OperatorStyle) (body : Text) : List Text :=
  ("# ".toList ++ o.heading.name) :: [] :: o.index style ++ [[], body, []]

/-- The section of a module. -/
def Module.render (m : Module) (o : Outline) (style : OperatorStyle) : Except Unresolved Text := do
  let body ← m.body style
  return unlines (o.lines style body)

end RefBook
