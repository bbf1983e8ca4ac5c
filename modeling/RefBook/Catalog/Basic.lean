import RefBook.Catalog.Block

/-!
# RefBook.Catalog.Basic — the entries of a module by name

* `Catalog`: entries in the order in which their names were first given.  A later entry of a name
  replaces the earlier one and keeps its place.
* `Module.catalog`: the entries of all declarations of a module.
-/

namespace RefBook

/-- Puts an entry under its name. -/
def putEntry (name entry : Text) : List (Text × Text) → List (Text × Text)
  | [] => [(name, entry)]
  | (n, e) :: entries =>
    if n = name then (n, entry) :: entries else (n, e) :: putEntry name entry entries

/-- Entries by name, in first-seen order of the names. -/
structure Catalog where
  /-- The names with their entries. -/
  entries : List (Text × Text) := []
deriving DecidableEq, Repr

namespace Catalog

/-- The catalog with an entry put under its name. -/
def insert (c : Catalog) (name entry : Text) : Catalog :=
  ⟨putEntry name entry c.entries⟩

/-- The entry of a name. -/
def get? (c : Catalog) (name : Text) : Option Text :=
  c.entries.lookup name

/-- The names in order. -/
def keys (c : Catalog) : List Text :=
  c.entries.map (·.1)

/-- The catalog of named entries, each put in after those before it. -/
def ofList (entries : List (Text × Text)) : Catalog :=
  entries.foldl (fun c e => c.insert e.1 e.2) {}

end Catalog

/-- The entry of every declaration of a module, aliases first, then union types, then values. -/
def Module.namedBlocks (m : Module) (style : OperatorStyle) : List (Text × Text) :=
  m.aliases.map (fun a => (a.name, aliasBlock a))
    ++ m.unions.map (fun u => (u.name, unionBlock u))
    ++ m.values.map (fun v => (v.name, valueBlock style m.name v))

/-- The entries of a module by name. -/
def Module.catalog (m : Module) (style : OperatorStyle) : Catalog :=
  .ofList (m.namedBlocks style)

theorem Module.map_fst_namedBlocks (m : Module) (style : OperatorStyle) :
    (m.namedBlocks style).map (·.1) = m.declarationNames := by
  simp [namedBlocks, declarationNames, Function.comp_def]

end RefBook
