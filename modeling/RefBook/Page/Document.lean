import RefBook.Page.Section

/-!
# RefBook.Page.Document — the whole reference

* `RenderOptions`: how operators are shown, and what the footer reports.
* `plan` allocates the anchors of all sections in the order in which the headings are written.
* `document`: a table of contents, the sections of the modules in their order, and a footer.
-/

namespace RefBook

/-- How a reference is rendered. -/
structure RenderOptions where
  /-- How operators are shown. -/
  style : OperatorStyle := .bare
  /-- The version of this tool, for the footer. -/
  toolVersion : Text := "0.3.0".toList
  /-- The name of the compiler, for the footer. -/
  compilerLabel : Text := "elm-make".toList
deriving DecidableEq, Repr

/-- The title of the table of contents. -/
def contentsTitle : Text := "Modules".toList

/-- The name of this tool. -/
def toolName : Text := "elmdocs".toList

/-- The version reported where the first module carries none. -/
def unknownVersion : Text := "unknown".toList

/-- The outlines of modules in their order. -/
def plan (r : Registry) : List Module → List Outline × Registry
  | [] => ([], r)
  | m :: ms =>
    let (o, r) := Outline.plan m r
    let (os, r) := plan r ms
    (o :: os, r)

/-- The outlines of a document: its first heading is that of the table of contents. -/
def outlines (ms : List Module) : List Outline :=
  (plan (({} : Registry).allocate contentsTitle).2 ms).1

/-- The table of contents. -/
def contents (os : List Outline) : List Text :=
  ("# ".toList ++ contentsTitle) :: [] :: os.map (fun o => bullet o.heading.name o.heading.anchor)
    ++ [[]]

/-- The version of the compiler: that of the first module. -/
def compilerVersion (ms : List Module) : Text :=
  (ms.head?.bind (·.version)).getD unknownVersion

/-- The last lines of a document. -/
def footer (options : RenderOptions) (ms : List Module) : Text :=
  "---\n\n> Generated with ".toList ++ options.compilerLabel ++ ": ".toList ++ compilerVersion ms
    ++ " and ".toList ++ toolName ++ ": ".toList ++ options.toolVersion ++ ['\n']

/-- The sections of modules with their outlines. -/
def sections (style : OperatorStyle) : List (Module × Outline) → Except Unresolved (List Text)
  | [] => .ok []
  | (m, o) :: more => do
    let s ← m.render o style
    let ss ← sections style more
    return s :: ss

/-- The reference of a list of modules. -/
def document (options : RenderOptions) (ms : List Module) : Except Unresolved Text := do
  let os := outlines ms
  let ss ← sections options.style (ms.zip os)
  return unlines (contents os ++ ss ++ [footer options ms])

end RefBook
