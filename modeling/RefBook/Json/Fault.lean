import RefBook.Text.Quoted

/-!
# RefBook.Json.Fault — why a JSON text is refused

* `Cause`: one constructor for each thing that can be wrong; `Cause.message` is its wording.
* `Category`: whether a text ended too early, breaks the grammar, or holds the wrong data.
* `Position`: line and column; the column counts **bytes** since the last line feed.
* `Halt`: where a reader stopped, in terms of what it had left to read; `Fault` is the same with
  the position worked out against the whole text.
-/

namespace RefBook.Json

/-! ## What is wrong -/

/-- What a place in the text has to hold. -/
inductive Expected where
  /-- A string. -/
  | text
  /-- A list of any length. -/
  | sequence
  /-- A list of exactly two elements. -/
  | pair
  /-- A record of that name. -/
  | record (name : Text)
  /-- A record of that name, written as the list of its fields. -/
  | fields (name : Text) (count : Nat)
deriving DecidableEq, Repr

/-- What stands in a place that has to hold something else. -/
inductive Found where
  /-- The word for nothing. -/
  | null
  /-- A truth value. -/
  | boolean (value : Bool)
  /-- A whole number of at most 64 bits. -/
  | integer (value : Int)
  /-- Any other number, in its shortest form. -/
  | float (written : Text)
  /-- A string. -/
  | text (value : Text)
  /-- A list. -/
  | sequence
  /-- An object. -/
  | map
deriving DecidableEq, Repr

/-- What can be wrong with a text. -/
inductive Cause where
  /-- The text ends inside a list. -/
  | endInList
  /-- The text ends inside an object. -/
  | endInObject
  /-- The text ends inside a string. -/
  | endInString
  /-- The text ends where a value has to be. -/
  | endInValue
  /-- A key is not followed by a colon. -/
  | colonExpected
  /-- An element is followed by neither a comma nor the end of the list. -/
  | listEndExpected
  /-- An entry is followed by neither a comma nor the end of the object. -/
  | objectEndExpected
  /-- No value begins with this character. -/
  | valueExpected
  /-- A word that begins like one of the three does not go on like it. -/
  | wordExpected
  /-- A backslash is followed by what is no escape. -/
  | invalidEscape
  /-- A number breaks off or has a leading zero. -/
  | invalidNumber
  /-- A number is too large for any representation. -/
  | numberOutOfRange
  /-- Half of a surrogate pair stands alone. -/
  | loneSurrogate
  /-- The first half of a surrogate pair is not followed by another escape. -/
  | pairExpected
  /-- A key does not begin with a quote. -/
  | keyExpected
  /-- A control character stands for itself inside a string. -/
  | controlCharacter
  /-- A comma is followed by the end of the list or object. -/
  | trailingComma
  /-- Something follows where nothing may. -/
  | trailingCharacters
  /-- A value of another kind than its place demands. -/
  | invalidType (found : Found) (expected : Expected)
  /-- A list with too few elements. -/
  | invalidLength (length : Nat) (expected : Expected)
  /-- A record without a field that it needs. -/
  | missingField (key : Text)
  /-- A record that gives a field twice. -/
  | duplicateField (key : Text)
deriving DecidableEq, Repr

/-- The three kinds of causes. -/
inductive Category where
  /-- The text ended too early. -/
  | early
  /-- The text breaks the grammar. -/
  | grammar
  /-- The text is well formed but does not describe what it has to. -/
  | data
deriving DecidableEq, Repr

/-! ## Wording -/

/-- How a message names what was expected. -/
def Expected.describe : Expected → Text
  | text => "a string".toList
  | sequence => "a sequence".toList
  | pair => "a tuple of size 2".toList
  | record name => "struct ".toList ++ name
  | fields name count =>
    "struct ".toList ++ name ++ " with ".toList ++ decimal count ++ " elements".toList

/-- How a message names what was found. -/
def Found.describe : Found → Text
  | null => "null".toList
  | boolean true => "boolean `true`".toList
  | boolean false => "boolean `false`".toList
  | integer n =>
    "integer `".toList ++ (if n < 0 then ['-'] else []) ++ decimal n.natAbs ++ ['`']
  | float written => "floating point `".toList ++ written ++ ['`']
  | text t => "string ".toList ++ quoted t
  | sequence => "sequence".toList
  | map => "map".toList

/-- The wording of a cause. -/
def Cause.message : Cause → Text
  | endInList => "EOF while parsing a list".toList
  | endInObject => "EOF while parsing an object".toList
  | endInString => "EOF while parsing a string".toList
  | endInValue => "EOF while parsing a value".toList
  | colonExpected => "expected `:`".toList
  | listEndExpected => "expected `,` or `]`".toList
  | objectEndExpected => "expected `,` or `\x7d`".toList
  | valueExpected => "expected value".toList
  | wordExpected => "expected ident".toList
  | invalidEscape => "invalid escape".toList
  | invalidNumber => "invalid number".toList
  | numberOutOfRange => "number out of range".toList
  | loneSurrogate => "lone leading surrogate in hex escape".toList
  | pairExpected => "unexpected end of hex escape".toList
  | keyExpected => "key must be a string".toList
  | controlCharacter =>
    "control character (\\u0000-\\u001F) found while parsing a string".toList
  | trailingComma => "trailing comma".toList
  | trailingCharacters => "trailing characters".toList
  | invalidType found expected =>
    "invalid type: ".toList ++ found.describe ++ ", expected ".toList ++ expected.describe
  | invalidLength length expected =>
    "invalid length ".toList ++ decimal length ++ ", expected ".toList ++ expected.describe
  | missingField key => "missing field `".toList ++ key ++ ['`']
  | duplicateField key => "duplicate field `".toList ++ key ++ ['`']

/-- The kind of a cause. -/
def Cause.category : Cause → Category
  | endInList | endInObject | endInString | endInValue => .early
  | invalidType .. | invalidLength .. | missingField .. | duplicateField .. => .data
  | _ => .grammar

/-! ## Places -/

/-- A place in a text. -/
structure Position where
  /-- The number of the line, from one. -/
  line : Nat
  /-- The number of bytes since the line began. -/
  column : Nat
deriving DecidableEq, Repr

/-- The place after one more character. -/
def Position.next (p : Position) (c : Char) : Position :=
  if c = '\n' then ⟨p.line + 1, 0⟩ else ⟨p.line, p.column + c.utf8Size⟩

/-- The place a number of bytes further on, at most at the end of the text that follows. -/
def Position.ahead (p : Position) : Text → Nat → Position
  | _, 0 => p
  | [], _ => p
  | c :: r, bytes =>
    if c.utf8Size ≤ bytes then (p.next c).ahead r (bytes - c.utf8Size)
    else ⟨p.line, p.column + bytes⟩

/-- Where a reader stopped: the cause, and what was left of the text. -/
structure Halt where
  /-- What is wrong. -/
  cause : Cause
  /-- What had not been read. -/
  rest : Text
  /-- How many bytes of the rest lie before the place to report. -/
  ahead : Nat := 0
  /-- Whether the place is final; until then the end of the enclosing brackets moves it. -/
  settled : Bool := true
deriving DecidableEq, Repr

/-- A cause and the place it is reported at. -/
structure Fault where
  /-- What is wrong. -/
  cause : Cause
  /-- Where it is reported. -/
  position : Position
deriving DecidableEq, Repr

/-- The place of a halt in the whole text. -/
def Halt.position (h : Halt) (whole : Text) : Position :=
  ((whole.take (whole.length - h.rest.length)).foldl Position.next ⟨1, 0⟩).ahead h.rest h.ahead

/-- The halt with its place worked out. -/
def Halt.fault (h : Halt) (whole : Text) : Fault :=
  ⟨h.cause, h.position whole⟩

/-- The wording of a fault: its cause and its place. -/
def Fault.message (f : Fault) : Text :=
  f.cause.message ++ " at line ".toList ++ decimal f.position.line ++ " column ".toList
    ++ decimal f.position.column

/-! ## Readers -/

/-- A reader takes something off the front of a text and returns it with the rest. -/
abbrev Reader (α : Type) := Text → Except Halt (α × Text)

/-- Stops in front of the rest. -/
def halt {α : Type} (cause : Cause) (rest : Text) : Except Halt α :=
  .error { cause, rest }

/-- Stops one byte into the rest, or at its end if there is none. -/
def haltNext {α : Type} (cause : Cause) (rest : Text) : Except Halt α :=
  .error { cause, rest, ahead := 1 }

/-- Whether a character may stand between any two tokens. -/
def isSpace (c : Char) : Bool :=
  c = ' ' || c = '\n' || c = '\t' || c = '\r'

/-- The text from its next token on. -/
def skipSpace (t : Text) : Text :=
  t.dropWhile isSpace

theorem skipSpace_cons_of_not_isSpace {c : Char} (h : isSpace c = false) (r : Text) :
    skipSpace (c :: r) = c :: r := by
  simp [skipSpace, h]

end RefBook.Json
