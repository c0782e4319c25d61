set_option autoImplicit false

/-!
# Decimal numerals

A numeral keeps the digits it was written with. `toDouble?` gives its value in
double precision: as many leading digits as fit an unsigned 64-bit word are read
exactly, and the power of ten is applied by one rounded multiplication or
division per 308 decimal places. A value beyond the largest double is refused,
one below the smallest is zero.

`Gain` is a number in single precision, kept as its IEEE-754 bits.
-/

namespace Narrative

/-- A numeral: sign, digits before and after the point, and power of ten. -/
structure Decimal where
  negative : Bool
  whole : List Nat
  fraction : List Nat
  exponent : Option Int
deriving DecidableEq, Repr

namespace Decimal

/-- The largest unsigned 64-bit word. -/
def maxWord : Nat := UInt64.size - 1

/-- Whether an integer fits 64 bits, signed or not. -/
def isWord (n : Int) : Bool := Int64.minValue.toInt ≤ n && n ≤ maxWord

/-- The largest power of ten that a numeral may spell out. -/
def maxExponent : Int := Int32.maxValue.toInt

/-- Appends leading digits to a word while it does not overflow; also counts the digits left. -/
def absorb (word : Nat) : List Nat → Nat × Nat
  | [] => (word, 0)
  | d :: rest =>
      let next := word * 10 + d
      if next ≤ maxWord then absorb next rest else (word, rest.length + 1)

/-- The word of leading digits, and the power of ten it stands at. -/
def significand (d : Decimal) : Nat × Int :=
  let (word, leftWhole) := absorb 0 d.whole
  let (word', leftFraction) := absorb word d.fraction
  -- whole digits that do not fit still raise the power; fraction digits that do not are lost
  (word', (leftWhole : Int) - ((d.fraction.length - leftFraction : Nat) : Int))

/-- A power of ten with at most 308 zeros, rounded to double precision. -/
def powerOfTen (n : Nat) : Float := Float.ofScientific 1 false n

/-- Divides by the power of ten with `n` zeros, 308 of them at a time. -/
def scaleDown (x : Float) (n : Nat) : Float :=
  if x == 0.0 then x
  else if n ≤ 308 then x / powerOfTen n
  else scaleDown (x / powerOfTen 308) (n - 308)
termination_by n

/-- A word times a power of ten in double precision; nothing if that is too large. -/
def scale (word : Nat) (exponent : Int) : Option Float :=
  let x := (UInt64.ofNat word).toFloat
  match exponent with
  | .ofNat n =>
      if n ≤ 308 then
        let y := x * powerOfTen n
        if y.isInf then none else some y
      else if word = 0 then some x
      else none
  | .negSucc n => some (scaleDown x (n + 1))

/-- The value of a numeral in double precision; nothing beyond the largest double. -/
def toDouble? (d : Decimal) : Option Float :=
  let (word, place) := d.significand
  let power := d.exponent.getD 0
  -- a power out of range makes a number zero or too large, whatever its other digits
  let magnitude :=
    if power.natAbs ≤ maxExponent.natAbs then scale word (place + power)
    else if power < 0 || word = 0 then some 0.0
    else none
  magnitude.map fun x => if d.negative then -x else x

/-- The numeral of an integer. -/
def ofInt (n : Int) : Decimal :=
  ⟨n < 0, (Nat.toDigits 10 n.natAbs).map fun c => c.toNat - '0'.toNat, [], none⟩

end Decimal

/-- A number in single precision, given by its IEEE-754 bits. -/
structure Gain where
  bits : UInt32
deriving DecidableEq, Repr, Inhabited

namespace Gain

/-- Rounds a double to single precision. -/
def ofDouble (x : Float) : Gain := ⟨x.toFloat32.toBits⟩

/-- Rounds an integer to single precision. Integers of 64 bits are rounded once; others go
through double precision first. -/
def ofInt? (n : Int) : Option Gain :=
  if 0 ≤ n && n ≤ Decimal.maxWord then some ⟨(UInt64.ofNat n.toNat).toFloat32.toBits⟩
  else if n < 0 && Int64.minValue.toInt ≤ n then some ⟨(Int64.ofInt n).toFloat32.toBits⟩
  else (Decimal.ofInt n).toDouble?.map ofDouble

/-- Whether the bits stand for a number: the exponent is not all ones. -/
def isFinite (g : Gain) : Bool := (g.bits >>> 23) &&& 0xFF != 0xFF

end Gain

end Narrative
