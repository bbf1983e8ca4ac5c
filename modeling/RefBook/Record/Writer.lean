import RefBook.Record.Basic
import RefBook.Json.Writer

/-!
# RefBook.Record.Writer — module records as JSON

* `writeModule` writes every field of a record in the order of the fields; a version only if there
  is one.  `writeModules` writes a list of records.
-/

namespace RefBook

open Json (writeText writeList writeObject)

/-- A written value under a key. -/
def entryOf (key : String) (written : Text) : Text × Text :=
  (key.toList, written)

/-- The written form of a list of texts. -/
def writeTexts (ts : List Text) : Text :=
  writeList (ts.map writeText)

/-- The written form of a type alias. -/
def writeAlias (a : Alias) : Text :=
  writeObject [
    entryOf "name" (writeText a.name),
    entryOf "comment" (writeText a.comment),
    entryOf "type" (writeText a.type),
    entryOf "args" (writeTexts a.args)]

/-- The written form of a constructor: its name, then the types of its arguments. -/
def writeConstructor (c : Constructor) : Text :=
  writeList [writeText c.name, writeTexts c.args]

/-- The written form of a union type. -/
def writeUnion (u : UnionType) : Text :=
  writeObject [
    entryOf "name" (writeText u.name),
    entryOf "comment" (writeText u.comment),
    entryOf "args" (writeTexts u.args),
    entryOf "cases" (writeList (u.cases.map writeConstructor))]

/-- The written form of a value. -/
def writeValue (v : Value) : Text :=
  writeObject [
    entryOf "name" (writeText v.name),
    entryOf "comment" (writeText v.comment),
    entryOf "type" (writeText v.type)]

/-- The written form of a module. -/
def writeModule (m : Module) : Text :=
  writeObject ([
    entryOf "name" (writeText m.name),
    entryOf "comment" (writeText m.comment),
    entryOf "aliases" (writeList (m.aliases.map writeAlias)),
    entryOf "types" (writeList (m.unions.map writeUnion)),
    entryOf "values" (writeList (m.values.map writeValue))]
    ++ (m.version.map fun v => entryOf "generated-with-elm-version" (writeText v)).toList)

/-- The written form of a list of modules. -/
def writeModules (ms : List Module) : Text :=
  writeList (ms.map writeModule)

end RefBook
