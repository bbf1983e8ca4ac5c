import RefBook.Text.Basic

/-!
# RefBook.Decimal.Shortest — the fewest digits that read back

* `Binary`: a finite binary64 value without its sign, as m · 2^q.
* `Binary.holds`: the decimals that are nearer to the value than to its neighbours.
* `Binary.shortest`: the decimal of fewest digits among them, the nearest of those, and of two
  equally near ones that with the even last digit.
* `Layout.write`: that decimal written out, with a power of ten where the layout asks for one.
-/

namespace RefBook.Decimal

/-- A finite value m · 2^q without its sign. -/
structure Binary where
  /-- The significand. -/
  m : Nat
  /-- The power of two. -/
  q : Int
  /-- Whether the neighbour below is half as far away as the one above. -/
  narrow : Bool
deriving DecidableEq, Repr

/-- The decimal d · 10^e. -/
structure Digits where
  /-- The digits, as a number. -/
  d : Nat
  /-- The power of ten. -/
  e : Int
deriving DecidableEq, Repr

/-- The number of fractions that the bits of a number distinguish. -/
def fractions : Nat := Nat.pow 2 52

/-- The number of exponents that they distinguish. -/
def exponents : Nat := Nat.pow 2 11

/-- The value that the bits of a finite number stand for, without its sign. -/
def Binary.ofFloat (f : Float) : Binary :=
  let bits := f.toBits.toNat
  let exponent := bits / fractions % exponents
  let fraction := bits % fractions
  if exponent = 0 then ⟨fraction, -1074, false⟩
  else ⟨fractions + fraction, (exponent : Int) - 1075, fraction = 0 ∧ 1 < exponent⟩

/-- Compares d · 10^e with v · 2^s. -/
def Digits.compareBinary (x : Digits) (v : Nat) (s : Int) : Ordering :=
  compare (x.d * Nat.pow 10 x.e.toNat * Nat.pow 2 (-s).toNat)
    (v * Nat.pow 2 s.toNat * Nat.pow 10 (-x.e).toNat)

/-- Whether the decimal is nearer to the value than to its neighbours.  Halfway counts when the
significand is even. -/
def Binary.holds (b : Binary) (x : Digits) : Bool :=
  let below := x.compareBinary (4 * b.m - if b.narrow then 1 else 2) (b.q - 2)
  let above := x.compareBinary (4 * b.m + 2) (b.q - 2)
  if b.m % 2 = 0 then below != .lt && above != .gt else below == .gt && above == .lt

/-- The least power of ten above the value, found from below. -/
def Binary.scale (b : Binary) : Int :=
  let estimate : Int := ((b.m.log2 : Int) + b.q) * 30103 / 100000 - 1
  let above (k : Int) : Bool := (Digits.mk 1 k).compareBinary b.m b.q == .gt
  if above estimate then estimate
  else if above (estimate + 1) then estimate + 1
  else if above (estimate + 2) then estimate + 2
  else estimate + 3

/-- The largest multiple of 10^e that is at most the value, in units of 10^e. -/
def Binary.floorAt (b : Binary) (e : Int) : Nat :=
  b.m * Nat.pow 2 b.q.toNat * Nat.pow 10 (-e).toNat
    / (Nat.pow 2 (-b.q).toNat * Nat.pow 10 e.toNat)

/-- The multiple of 10^e that is held, the nearer of two, and the even one of two equally near. -/
def Binary.onGrid (b : Binary) (e : Int) : Option Digits :=
  let lower : Digits := ⟨b.floorAt e, e⟩
  let upper : Digits := ⟨lower.d + 1, e⟩
  match b.holds lower, b.holds upper with
  | true, true =>
    match (Digits.mk (lower.d + upper.d) e).compareBinary (2 * b.m) b.q with
    | .gt => some lower
    | .lt => some upper
    | .eq => some (if lower.d % 2 = 0 then lower else upper)
  | true, false => some lower
  | false, true => some upper
  | false, false => none

/-- The same decimal without zeros at the end of its digits. -/
def Digits.reduced (x : Digits) : Digits :=
  if x.d ≠ 0 ∧ x.d % 10 = 0 then reduced ⟨x.d / 10, x.e + 1⟩ else x
termination_by x.d
decreasing_by omega

/-- The decimal of fewest digits that reads back to the value.  Seventeen digits always do. -/
def Binary.shortest (b : Binary) : Digits :=
  let k := b.scale
  match (List.range 17).findSome? fun n => b.onGrid (k - (n + 1 : Nat)) with
  | some x => x.reduced
  | none => ⟨b.floorAt (k - 17), k - 17⟩

/-! ## Writing -/

/-- Where the powers of ten that are written out begin and end. -/
structure Layout where
  /-- The least exponent of a leading digit that is written without a power of ten. -/
  least : Int
  /-- The greatest such exponent. -/
  greatest : Int
deriving DecidableEq, Repr

/-- The exponent of the leading digit. -/
def Digits.leading (x : Digits) : Int :=
  x.e + (decimal x.d).length - 1

/-- The decimal without a power of ten, with at least one digit on each side of the point. -/
def Digits.positional (x : Digits) : Text :=
  let digits := decimal x.d
  if 0 ≤ x.e then digits ++ List.replicate x.e.toNat '0' ++ ".0".toList
  else
    let places := (-x.e).toNat
    if places < digits.length then
      digits.take (digits.length - places) ++ '.' :: digits.drop (digits.length - places)
    else "0.".toList ++ List.replicate (places - digits.length) '0' ++ digits

/-- The decimal with one digit before the point and a power of ten, whose sign is always written.
A single digit has no point. -/
def Digits.scientific (x : Digits) : Text :=
  let digits := decimal x.d
  let fraction := digits.drop 1
  digits.take 1 ++ (if fraction.isEmpty then [] else '.' :: fraction)
    ++ ['e', if x.leading < 0 then '-' else '+'] ++ decimal x.leading.natAbs

/-- The decimal in the layout. -/
def Layout.place (l : Layout) (x : Digits) : Text :=
  if l.least ≤ x.leading ∧ x.leading ≤ l.greatest then x.positional else x.scientific

/-- The shortest digits of a finite number without its sign, in the layout. -/
def Layout.write (l : Layout) (f : Float) : Text :=
  let b := Binary.ofFloat f
  if b.m = 0 then "0.0".toList else l.place b.shortest

example : (Layout.mk (-5) 15).write 0.1 = "0.1".toList := by decide +kernel

example : (Layout.mk (-5) 15).write 1e23 = "1e+23".toList := by decide +kernel

example : (Layout.mk (-5) 15).write 675266251652951.25 = "675266251652951.2".toList := by
  decide +kernel

end RefBook.Decimal
