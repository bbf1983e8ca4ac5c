import RefBook.Json.Fault
import RefBook.Decimal.Shortest

/-!
# RefBook.Json.Numeral — numbers as they are written

* `Numeral`: the parts of a written number; `readNumeral` takes one off a text.
* `Numeral.found`: the number that the parts stand for.  It is an integer where 64 bits hold it, and
  otherwise a binary64 value scaled from the first 64 bits of its digits.
-/

namespace RefBook.Json

/-! ## Grammar -/

/-- The power of ten behind a number. -/
structure Exponent where
  /-- Whether the power is negative. -/
  negative : Bool
  /-- The digits of the power, at least one. -/
  digits : Text
deriving DecidableEq, Repr

/-- A number in the parts it is written in. -/
structure Numeral where
  /-- Whether a minus sign leads. -/
  negative : Bool
  /-- The digits before the point, at least one. -/
  whole : Text
  /-- The digits after the point; none if there is no point. -/
  fraction : Text
  /-- The power of ten, if there is one. -/
  exponent : Option Exponent
deriving DecidableEq, Repr

/-- Reads the digits before the point; `cut` is the complaint when the text ends first. -/
def readWhole (cut : Cause) : Reader Text
  | [] => halt cut []
  | '0' :: r =>
    match r with
    | d :: _ => if d.isDigit then haltNext .invalidNumber r else .ok (['0'], r)
    | [] => .ok (['0'], [])
  | c :: r => if c.isDigit then .ok ((c :: r).span Char.isDigit) else haltNext .invalidNumber (c :: r)

/-- Reads the point and the digits after it, if there is a point. -/
def readFraction (cut : Cause) : Reader Text
  | '.' :: r =>
    match r.span Char.isDigit with
    | ([], []) => halt cut []
    | ([], c :: r) => haltNext .invalidNumber (c :: r)
    | (digits, r) => .ok (digits, r)
  | t => .ok ([], t)

/-- Reads the sign of a power of ten, if there is one. -/
def readSign : Text → Bool × Text
  | '-' :: r => (true, r)
  | '+' :: r => (false, r)
  | t => (false, t)

/-- Reads the power of ten, if there is one. -/
def readExponent (cut : Cause) : Reader (Option Exponent)
  | c :: r =>
    if c = 'e' ∨ c = 'E' then
      let (negative, r) := readSign r
      match r.span Char.isDigit with
      | ([], []) => halt cut []
      | ([], c :: r) => haltNext .invalidNumber (c :: r)
      | (digits, r) => .ok (some ⟨negative, digits⟩, r)
    else .ok (none, c :: r)
  | [] => .ok (none, [])

/-- Reads a number; `cut` is the complaint when the text ends where a digit has to be. -/
def readNumeral (cut : Cause) (t : Text) : Except Halt (Numeral × Text) := do
  let (negative, t) := match t with
    | '-' :: r => (true, r)
    | t => (false, t)
  let (whole, t) ← readWhole cut t
  let (fraction, t) ← readFraction cut t
  let (exponent, t) ← readExponent cut t
  .ok (⟨negative, whole, fraction, exponent⟩, t)

/-! ## Value -/

/-- The largest number of 64 bits. -/
def wordMax : Nat := 0xFFFFFFFFFFFFFFFF

/-- The largest amount that 64 bits hold below zero. -/
def negativeMax : Nat := 0x8000000000000000

/-- The largest power of ten that is worked out. -/
def powerMax : Nat := 0x7FFFFFFF

/-- Appends digits to a number as long as it stays within the limit, and returns the others. -/
def absorb (limit : Nat) (n : Nat) : Text → Nat × Text
  | [] => (n, [])
  | d :: ds =>
    let next := n * 10 + (d.toNat - '0'.toNat)
    if next ≤ limit then absorb limit next ds else (n, d :: ds)

/-- The integer that a number without point and power stands for, if 64 bits hold it.  Zero with a
minus sign is no integer. -/
def Numeral.integer? (n : Numeral) : Option Int :=
  match n.fraction, n.exponent, absorb wordMax 0 n.whole with
  | [], none, (v, []) =>
    if n.negative then if v = 0 ∨ negativeMax < v then none else some (-(v : Int)) else some v
  | _, _, _ => none

/-- Ten to a power of at most 308, rounded to binary64. -/
def tenTo (power : Nat) : Float :=
  Float.ofScientific 1 false power

/-- A number times a power of ten, or `none` if it has no finite value.  Powers below −308 are
divided out in steps of at most 308; below −616 nothing is left of any significand of 64 bits. -/
def scaled (f : Float) (power : Int) : Option Float :=
  if 308 < power then
    if f == 0 then some f else none
  else if 0 ≤ power then
    let g := f * tenTo power.toNat
    if g.isInf then none else some g
  else if -308 ≤ power then some (f / tenTo (-power).toNat)
  else if -616 ≤ power then some (f / tenTo 308 / tenTo (-(power + 308)).toNat)
  else some 0

/-- The leading digits that fit 64 bits, and the power of ten that they are short of.  Digits before
the point that do not fit count one power each; digits after it that do not fit are dropped. -/
def Numeral.significand (n : Numeral) : Nat × Int :=
  let (v, left) := absorb wordMax 0 n.whole
  let (w, dropped) := absorb wordMax v n.fraction
  (w, left.length - (n.fraction.length - dropped.length : Nat))

/-- The binary64 value without its sign; `rest` is the text after the number. -/
def Numeral.magnitude (n : Numeral) (rest : Text) : Except Halt Float :=
  let (digits, power) := n.significand
  let value (power : Int) : Except Halt Float :=
    match scaled (Float.ofScientific digits false 0) power with
    | some f => .ok f
    | none => halt .numberOutOfRange rest
  match n.exponent with
  | none => value power
  | some e =>
    match absorb powerMax 0 e.digits with
    | (p, []) => value (if e.negative then power - p else power + p)
    | (_, _ :: left) =>
      -- the digit that overflowed is read before the number is given up
      if digits ≠ 0 ∧ !e.negative then halt .numberOutOfRange (left ++ rest) else .ok 0

/-- Numbers from 0.00001 to below 10^16 are written without a power of ten. -/
def floatLayout : Decimal.Layout := ⟨-5, 15⟩

/-- What the number stands for; `rest` is the text after it. -/
def Numeral.found (n : Numeral) (rest : Text) : Except Halt Found :=
  match n.integer? with
  | some i => .ok (.integer i)
  | none => do
    let f ← n.magnitude rest
    .ok (.float ((if n.negative then ['-'] else []) ++ floatLayout.write f))

end RefBook.Json
