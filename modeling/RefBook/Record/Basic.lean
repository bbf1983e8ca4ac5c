import RefBook.Text.Basic

/-!
# RefBook.Record.Basic — what a compiler says about a package

* `Module`: the public surface of one module: its comment, and its declarations in three groups.
* `Module.declarationNames`: the names of all of them, in the order of the groups.
-/

namespace RefBook

/-- A type alias. -/
structure Alias where
  /-- The name of the alias. -/
  name : Text
  /-- The comment on it. -/
  comment : Text
  /-- The type it stands for, as written. -/
  type : Text
  /-- Its type parameters. -/
  args : List Text
deriving DecidableEq, Repr

/-- One constructor of a union type. -/
structure Constructor where
  /-- The name of the constructor. -/
  name : Text
  /-- The types of its arguments, as written. -/
  args : List Text
deriving DecidableEq, Repr

/-- A union type; one without constructors is opaque. -/
structure UnionType where
  /-- The name of the type. -/
  name : Text
  /-- The comment on it. -/
  comment : Text
  /-- Its type parameters. -/
  args : List Text
  /-- Its constructors. -/
  cases : List Constructor
deriving DecidableEq, Repr

/-- A function, a constant or an operator; operators go by their bare name. -/
structure Value where
  /-- The name of the value. -/
  name : Text
  /-- The comment on it. -/
  comment : Text
  /-- Its type, as written. -/
  type : Text
deriving DecidableEq, Repr

/-- The public surface of one module. -/
structure Module where
  /-- The dotted name of the module. -/
  name : Text
  /-- The comment on the module. -/
  comment : Text
  /-- Its type aliases. -/
  aliases : List Alias
  /-- Its union types. -/
  unions : List UnionType
  /-- Its values. -/
  values : List Value
  /-- The version of the compiler that described it, if it says. -/
  version : Option Text
deriving DecidableEq, Repr

/-- The names of all declarations: aliases, then union types, then values. -/
def Module.declarationNames (m : Module) : List Text :=
  m.aliases.map (·.name) ++ m.unions.map (·.name) ++ m.values.map (·.name)

end RefBook
