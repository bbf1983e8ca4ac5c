import RefBook.Record.Basic
import RefBook.Json.Reader

/-!
# RefBook.Record.Reader — module records from JSON

* `aliasShape`, `unionShape`, `valueShape`, `moduleShape`: the fields of each record.  A name is
  always needed, a type wherever there is one; other fields may be left out.
* `readModules`: a text that holds a list of module records.
-/

namespace RefBook

open Json (Shape Reader Fault readText readOptional readList readPair readRecord readAll)

/-- The fields of an alias read so far. -/
structure AliasDraft where
  /-- The name. -/
  name : Option Text := none
  /-- The comment. -/
  comment : Option Text := none
  /-- The type. -/
  type : Option Text := none
  /-- The type parameters. -/
  args : Option (List Text) := none

/-- The fields of a union type read so far. -/
structure UnionDraft where
  /-- The name. -/
  name : Option Text := none
  /-- The comment. -/
  comment : Option Text := none
  /-- The type parameters. -/
  args : Option (List Text) := none
  /-- The constructors. -/
  cases : Option (List Constructor) := none

/-- The fields of a value read so far. -/
structure ValueDraft where
  /-- The name. -/
  name : Option Text := none
  /-- The comment. -/
  comment : Option Text := none
  /-- The type. -/
  type : Option Text := none

/-- The fields of a module read so far. -/
structure ModuleDraft where
  /-- The name. -/
  name : Option Text := none
  /-- The comment. -/
  comment : Option Text := none
  /-- The aliases. -/
  aliases : Option (List Alias) := none
  /-- The union types. -/
  unions : Option (List UnionType) := none
  /-- The values. -/
  values : Option (List Value) := none
  /-- The version, which may be given as absent. -/
  version : Option (Option Text) := none

/-- A field that is read by one reader and put into the draft. -/
def fieldOf {σ β : Type} (key : String) (get : σ → Option β) (read : Reader β)
    (put : σ → β → σ) : Json.Field σ where
  key := key.toList
  isSet d := (get d).isSome
  read d t := do
    let (b, t) ← read t
    return (put d b, t)

/-- The record of a type alias. -/
def aliasShape : Shape AliasDraft Alias where
  name := "AliasDecl".toList
  fields := [
    fieldOf "name" (·.name) readText fun d x => { d with name := some x },
    fieldOf "comment" (·.comment) readText fun d x => { d with comment := some x },
    fieldOf "type" (·.type) readText fun d x => { d with type := some x },
    fieldOf "args" (·.args) (readList readText) fun d x => { d with args := some x }]
  empty := {}
  finish d :=
    match d.name, d.type with
    | none, _ => .error 0
    | _, none => .error 2
    | some name, some type => .ok ⟨name, d.comment.getD [], type, d.args.getD []⟩

/-- A constructor: its name, then the types of its arguments. -/
def readConstructor : Reader Constructor := fun t => do
  let ((name, args), t) ← readPair readText (readList readText) t
  return (⟨name, args⟩, t)

/-- The record of a union type. -/
def unionShape : Shape UnionDraft UnionType where
  name := "UnionTypeDecl".toList
  fields := [
    fieldOf "name" (·.name) readText fun d x => { d with name := some x },
    fieldOf "comment" (·.comment) readText fun d x => { d with comment := some x },
    fieldOf "args" (·.args) (readList readText) fun d x => { d with args := some x },
    fieldOf "cases" (·.cases) (readList readConstructor) fun d x => { d with cases := some x }]
  empty := {}
  finish d :=
    match d.name with
    | none => .error 0
    | some name => .ok ⟨name, d.comment.getD [], d.args.getD [], d.cases.getD []⟩

/-- The record of a value. -/
def valueShape : Shape ValueDraft Value where
  name := "ValueDecl".toList
  fields := [
    fieldOf "name" (·.name) readText fun d x => { d with name := some x },
    fieldOf "comment" (·.comment) readText fun d x => { d with comment := some x },
    fieldOf "type" (·.type) readText fun d x => { d with type := some x }]
  empty := {}
  finish d :=
    match d.name, d.type with
    | none, _ => .error 0
    | _, none => .error 2
    | some name, some type => .ok ⟨name, d.comment.getD [], type⟩

/-- The record of a module. -/
def moduleShape : Shape ModuleDraft Module where
  name := "ModuleRecord".toList
  fields := [
    fieldOf "name" (·.name) readText fun d x => { d with name := some x },
    fieldOf "comment" (·.comment) readText fun d x => { d with comment := some x },
    fieldOf "aliases" (·.aliases) (readList (readRecord aliasShape))
      fun d x => { d with aliases := some x },
    fieldOf "types" (·.unions) (readList (readRecord unionShape))
      fun d x => { d with unions := some x },
    fieldOf "values" (·.values) (readList (readRecord valueShape))
      fun d x => { d with values := some x },
    fieldOf "generated-with-elm-version" (·.version) (readOptional readText)
      fun d x => { d with version := some x }]
  empty := {}
  finish d :=
    match d.name with
    | none => .error 0
    | some name => .ok ⟨name, d.comment.getD [], d.aliases.getD [], d.unions.getD [],
        d.values.getD [], d.version.getD none⟩

/-- The module records that a text describes, or why it describes none. -/
def readModules (t : Text) : Except Fault (List Module) :=
  readAll (readList (readRecord moduleShape)) t

end RefBook
