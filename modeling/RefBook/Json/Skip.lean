import RefBook.Json.StringBody
import RefBook.Json.Numeral

/-!
# RefBook.Json.Skip — reading past values

* `readWord`: the words for nothing and for the truth values, letter by letter.
* `skipScalar`: reads past a word, a number or a string.
* `skipValue`: reads past any value.  The open brackets are kept on a list, so values may be nested
  to any depth.
-/

namespace RefBook.Json

/-- Reads given letters. -/
def readWord : Text → Text → Except Halt Text
  | [], t => .ok t
  | _ :: _, [] => halt .endInValue []
  | a :: letters, c :: r => if a = c then readWord letters r else haltNext .wordExpected (c :: r)

/-- Reads past a value that is neither a list nor an object. -/
def skipScalar : Text → Except Halt Text
  | [] => halt .endInValue []
  | 'n' :: r => readWord "ull".toList r
  | 't' :: r => readWord "rue".toList r
  | 'f' :: r => readWord "alse".toList r
  | '"' :: r => skipBody r
  | c :: r =>
    if c = '-' ∨ c.isDigit then (·.2) <$> readNumeral .invalidNumber (c :: r)
    else haltNext .valueExpected (c :: r)

/-- The two kinds of brackets. -/
inductive Bracket where
  /-- Around the elements of a list. -/
  | list
  /-- Around the entries of an object. -/
  | object
deriving DecidableEq, Repr

/-- The character that ends the bracket. -/
def Bracket.close : Bracket → Char
  | list => ']'
  | object => '\x7d'

/-- The complaint when the text ends inside the bracket. -/
def Bracket.cut : Bracket → Cause
  | list => .endInList
  | object => .endInObject

/-- The complaint when an element is followed by neither a comma nor the end. -/
def Bracket.separator : Bracket → Cause
  | list => .listEndExpected
  | object => .objectEndExpected

/-- Reads a colon between a key and its value. -/
def readColon (t : Text) : Except Halt Text :=
  match skipSpace t with
  | ':' :: r => .ok r
  | [] => halt .endInObject []
  | c :: r => haltNext .colonExpected (c :: r)

/-- Reads past what stands before a value inside the bracket: nothing, or a key and a colon. -/
def Bracket.skipKey : Bracket → Text → Except Halt Text
  | list, t => .ok t
  | object, t =>
    match skipSpace t with
    | '"' :: r => do readColon (← skipBody r)
    | [] => halt .endInObject []
    | c :: r => haltNext .keyExpected (c :: r)

/-- Where in a value a reader stands. -/
inductive Place where
  /-- Before a value. -/
  | before
  /-- Just inside a bracket. -/
  | inside
  /-- After a value. -/
  | after
deriving DecidableEq, Repr

/-- Reads on to the end of the outermost value, with the brackets that are open, innermost first.
No more than two steps are spent on a character. -/
def skipFrom : Nat → List Bracket → Place → Text → Except Halt Text
  | 0, _, _, t => halt .endInValue t
  | _ + 1, [], .after, t => .ok t
  | n + 1, opened, .before, t =>
    match skipSpace t with
    | '[' :: r => skipFrom n (.list :: opened) .inside r
    | '{' :: r => skipFrom n (.object :: opened) .inside r
    | t => do skipFrom n opened .after (← skipScalar t)
  | n + 1, [], .inside, t => skipFrom n [] .before t
  | n + 1, b :: opened, .inside, t =>
    match skipSpace t with
    | [] => halt b.cut []
    | c :: r =>
      if c = b.close then skipFrom n opened .after r
      else do skipFrom n (b :: opened) .before (← b.skipKey (c :: r))
  | n + 1, b :: opened, .after, t =>
    match skipSpace t with
    | [] => halt b.cut []
    | c :: r =>
      if c = b.close then skipFrom n opened .after r
      else if c = ',' then do skipFrom n (b :: opened) .before (← b.skipKey r)
      else haltNext b.separator (c :: r)

/-- Reads past one value. -/
def skipValue (t : Text) : Except Halt Text :=
  skipFrom (2 * t.length + 2) [] .before t

end RefBook.Json
