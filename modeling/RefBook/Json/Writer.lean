import RefBook.Json.Fault

/-!
# RefBook.Json.Writer — compact JSON

* `writeText`: a string in quotes.  Quotes, backslashes and controls are escaped, all else stands
  for itself.
* `writeList`, `writeObject`: brackets and commas with no space between.
-/

namespace RefBook.Json

/-- A character as it stands inside a string. -/
def writeChar (c : Char) : Text :=
  match c with
  | '"' => ['\\', '"']
  | '\\' => ['\\', '\\']
  | '\x08' => ['\\', 'b']
  | '\x0c' => ['\\', 'f']
  | '\n' => ['\\', 'n']
  | '\r' => ['\\', 'r']
  | '\t' => ['\\', 't']
  | c =>
    if c.toNat < 0x20 then
      "\\u00".toList ++ [Nat.digitChar (c.toNat / 16), Nat.digitChar (c.toNat % 16)]
    else [c]

/-- A text in quotes. -/
def writeText (t : Text) : Text :=
  '"' :: t.flatMap writeChar ++ ['"']

/-- The written elements of a list. -/
def writeList (elements : List Text) : Text :=
  '[' :: [','].intercalate elements ++ [']']

/-- A key with its written value. -/
def writeEntry (entry : Text × Text) : Text :=
  writeText entry.1 ++ ':' :: entry.2

/-- The entries of an object, keys with their written values. -/
def writeObject (entries : List (Text × Text)) : Text :=
  '\x7b' :: [','].intercalate (entries.map writeEntry) ++ ['\x7d']

example : writeText "a\"\u0007é".toList = "\"a\\\"\\u0007é\"".toList := by decide

end RefBook.Json
