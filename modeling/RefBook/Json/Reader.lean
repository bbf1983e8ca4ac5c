import RefBook.Json.Skip

/-!
# RefBook.Json.Reader — reading values of known kinds

* `readText`, `readOptional`, `readList`, `readPair`: one value of the kind, or the complaint that
  another kind stands there.
* `Shape`: a record by its fields; `readRecord` reads it as an object of named fields in any order,
  or as the list of its fields in their order.
* `readAll`: a whole text that holds one value.
-/

namespace RefBook.Json

/-! ## Values of another kind -/

/-- The complaint that a value is not of the expected kind; the value is read as far as its kind
shows, and its own faults come first. -/
def misplaced (expected : Expected) (t : Text) : Halt :=
  let mistyped (found : Found) (rest : Text) : Halt := { cause := .invalidType found expected, rest }
  let ofWord (letters : Text) (found : Found) (r : Text) : Halt :=
    match readWord letters r with
    | .ok r => mistyped found r
    | .error h => h
  match t with
  | [] => { cause := .endInValue, rest := [] }
  | 'n' :: r => ofWord "ull".toList .null r
  | 't' :: r => ofWord "rue".toList (.boolean true) r
  | 'f' :: r => ofWord "alse".toList (.boolean false) r
  | '"' :: r =>
    match readBody r with
    | .ok (s, r) => mistyped (.text s) r
    | .error h => h
  | '[' :: _ => mistyped .sequence t
  | '{' :: _ => mistyped .map t
  | c :: _ =>
    if c = '-' ∨ c.isDigit then
      match readNumeral .endInValue t with
      | .error h => h
      | .ok (n, r) =>
        match n.found r with
        | .ok found => mistyped found r
        | .error h => h
    else { cause := .valueExpected, rest := t, ahead := 1 }

/-- Reads a string. -/
def readText : Reader Text := fun t =>
  match skipSpace t with
  | [] => halt .endInValue []
  | '"' :: r => readBody r
  | t => .error (misplaced .text t)

/-- Reads a value, or the word for nothing. -/
def readOptional {α : Type} (read : Reader α) : Reader (Option α) := fun t =>
  match skipSpace t with
  | 'n' :: r => do return (none, ← readWord "ull".toList r)
  | t => do
    let (a, t) ← read t
    return (some a, t)

/-! ## Brackets -/

/-- Ends a list: where the reader stands afterwards, and the complaint if it did not end. -/
def closeList (t : Text) : Text × Option Cause :=
  match skipSpace t with
  | [] => ([], some .endInList)
  | ']' :: r => (r, none)
  | ',' :: r =>
    match skipSpace r with
    | ']' :: r => (']' :: r, some .trailingComma)
    | r => (r, some .trailingCharacters)
  | t => (t, some .trailingCharacters)

/-- Ends an object: where the reader stands afterwards, and the complaint if it did not end. -/
def closeObject (t : Text) : Text × Option Cause :=
  match skipSpace t with
  | [] => ([], some .endInObject)
  | '}' :: r => (r, none)
  | ',' :: r => (',' :: r, some .trailingComma)
  | t => (t, some .trailingCharacters)

/-- Ends the brackets around what was read.  A halt inside comes first; if its place was not settled
it is where the reader stands after the brackets. -/
def closing {α : Type} (close : Text → Text × Option Cause) (inside : Except Halt (α × Text)) :
    Except Halt (α × Text) :=
  match inside with
  | .ok (a, t) =>
    match close t with
    | (t, none) => .ok (a, t)
    | (t, some cause) => haltNext cause t
  | .error h =>
    if h.settled then .error h
    else .error { h with rest := (close h.rest).1, ahead := 0, settled := true }

/-- Stops with a cause whose place is where the enclosing brackets end. -/
def haltAtClose {α : Type} (cause : Cause) (rest : Text) : Except Halt α :=
  .error { cause, rest, settled := false }

/-- Goes to the next element of a list, if there is one. -/
def nextElement (first : Bool) (t : Text) : Except Halt (Option Text) :=
  match skipSpace t with
  | [] => halt .endInList []
  | ']' :: _ => .ok none
  | c :: r =>
    if first then .ok (some (c :: r))
    else if c = ',' then
      match skipSpace r with
      | [] => halt .endInValue []
      | ']' :: r => haltNext .trailingComma (']' :: r)
      | r => .ok (some r)
    else haltNext .listEndExpected (c :: r)

/-- Goes past the quote that opens the next key of an object, if there is one. -/
def nextKey (first : Bool) (t : Text) : Except Halt (Option Text) :=
  let quote (cut : Cause) (t : Text) : Except Halt (Option Text) :=
    match t with
    | '"' :: r => .ok (some r)
    | [] => halt cut []
    | c :: r => haltNext .keyExpected (c :: r)
  match skipSpace t with
  | [] => halt .endInObject []
  | '}' :: _ => .ok none
  | c :: r =>
    if first then quote .endInObject (c :: r)
    else if c = ',' then
      match skipSpace r with
      | '}' :: r => haltNext .trailingComma ('}' :: r)
      | r => quote .endInValue r
    else haltNext .objectEndExpected (c :: r)

/-! ## Lists -/

/-- Reads elements up to the end of a list, at most as many as there are steps. -/
def readElements {α : Type} (read : Reader α) : Nat → Bool → Reader (List α)
  | 0, _, t => halt .endInList t
  | n + 1, first, t => do
    match ← nextElement first t with
    | none => return ([], t)
    | some t =>
      let (a, t) ← read t
      let (as, t) ← readElements read n false t
      return (a :: as, t)

/-- Reads a list of any length. -/
def readList {α : Type} (read : Reader α) : Reader (List α) := fun t =>
  match skipSpace t with
  | [] => halt .endInValue []
  | '[' :: r => closing closeList (readElements read (r.length + 1) true r)
  | t => .error (misplaced .sequence t)

/-- Reads one of exactly two elements, the one of that number. -/
def readHalf {α : Type} (read : Reader α) (number : Nat) : Reader α := fun t => do
  match ← nextElement (number == 0) t with
  | none => haltAtClose (.invalidLength number .pair) t
  | some t => read t

/-- Reads a list of exactly two elements. -/
def readPair {α β : Type} (left : Reader α) (right : Reader β) : Reader (α × β) := fun t =>
  match skipSpace t with
  | [] => halt .endInValue []
  | '[' :: r => closing closeList do
    let (a, t) ← readHalf left 0 r
    let (b, t) ← readHalf right 1 t
    return ((a, b), t)
  | t => .error (misplaced .pair t)

/-! ## Records -/

/-- A field of a record, as part of the draft `σ` that collects the fields. -/
structure Field (σ : Type) where
  /-- The key that names the field. -/
  key : Text
  /-- Whether the draft has the field. -/
  isSet : σ → Bool
  /-- Reads the field into the draft. -/
  read : σ → Reader σ

/-- A record by its fields. -/
structure Shape (σ α : Type) where
  /-- The name of the record in messages. -/
  name : Text
  /-- The fields, in their order. -/
  fields : List (Field σ)
  /-- The draft without any field. -/
  empty : σ
  /-- The record of a draft, or the number of the first field that it needs and lacks. -/
  finish : σ → Except Nat α

variable {σ α : Type}

/-- Reads entries up to the end of an object, at most as many as there are steps.  Entries with keys
that are no field's are read past. -/
def readEntries (fields : List (Field σ)) : Nat → Bool → σ → Reader σ
  | 0, _, _, t => halt .endInObject t
  | n + 1, first, draft, t => do
    match ← nextKey first t with
    | none => return (draft, t)
    | some t =>
      let (key, t) ← readBody t
      match fields.find? (·.key = key) with
      | some field =>
        if field.isSet draft then haltAtClose (.duplicateField key) t
        else
          let (draft, t) ← field.read draft (← readColon t)
          readEntries fields n false draft t
      | none => readEntries fields n false draft (← skipValue (← readColon t))

/-- Reads fields by their order, up to the last one or the end of the list. -/
def readPositions : List (Field σ) → Bool → σ → Reader σ
  | [], _, draft, t => return (draft, t)
  | field :: fields, first, draft, t => do
    match ← nextElement first t with
    | none => return (draft, t)
    | some t =>
      let (draft, t) ← field.read draft t
      readPositions fields false draft t

/-- The record of a draft, or a halt with the cause for the field it lacks. -/
def Shape.finishAt (shape : Shape σ α) (lacking : Nat → Cause) : σ × Text → Except Halt (α × Text)
  | (draft, t) =>
    match shape.finish draft with
    | .ok a => .ok (a, t)
    | .error number => haltAtClose (lacking number) t

/-- The cause for a field that an object lacks. -/
def Shape.missing (shape : Shape σ α) (number : Nat) : Cause :=
  .missingField ((shape.fields[number]?.map (·.key)).getD [])

/-- The cause for a list that ends before a field it needs. -/
def Shape.tooShort (shape : Shape σ α) (number : Nat) : Cause :=
  .invalidLength number (.fields shape.name shape.fields.length)

/-- Reads a record, as an object or as the list of its fields. -/
def readRecord (shape : Shape σ α) : Reader α := fun t =>
  match skipSpace t with
  | [] => halt .endInValue []
  | '[' :: r => closing closeList do
    shape.finishAt shape.tooShort (← readPositions shape.fields true shape.empty r)
  | '{' :: r => closing closeObject do
    shape.finishAt shape.missing (← readEntries shape.fields (r.length + 1) true shape.empty r)
  | t => .error (misplaced (.record shape.name) t)

/-! ## Whole texts -/

/-- Reads a text that holds one value and nothing else. -/
def readWhole? (read : Reader α) (t : Text) : Except Halt α := do
  let (a, rest) ← read t
  match skipSpace rest with
  | [] => return a
  | c :: r => haltNext .trailingCharacters (c :: r)

/-- The value that a text holds, or the fault that keeps it from being read. -/
def readAll (read : Reader α) (t : Text) : Except Fault α :=
  match readWhole? read t with
  | .ok a => .ok a
  | .error h => .error (h.fault t)

end RefBook.Json
