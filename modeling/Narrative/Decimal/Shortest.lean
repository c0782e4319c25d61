import Narrative.Decimal

set_option autoImplicit false

/-!
# Shortest numerals

The numeral that shows a double: the fewest digits that read back as it, and of those the
nearest ones. The search is exact. A double is a mantissa times a power of two
(`Binary`), and the decimals that round to it are those between the midpoints to its two
neighbours (`Binary.readsBack`). The coarsest power of ten with a multiple among them
needs the fewest digits (`Binary.shortest?`).
-/

namespace Narrative

/-- The magnitude of a double: a mantissa times a power of two. -/
structure Binary where
  mantissa : Nat
  exponent : Int
  /-- Whether the double below is half as far away as the one above. -/
  isNarrowBelow : Bool
deriving DecidableEq, Repr

namespace Binary

/-- The magnitude of a finite double. -/
def ofDouble (x : Float) : Binary :=
  let exponent := ((x.toBits >>> 52) &&& 0x7FF).toNat
  let fraction := (x.toBits &&& 0xFFFFFFFFFFFFF).toNat
  if exponent = 0 then ⟨fraction, -1074, false⟩
  else ⟨(1 <<< 52) + fraction, (exponent : Int) - 1075, fraction == 0 && exponent != 1⟩

/-- A unit of the mantissa over a power of ten, as a quotient. -/
def unitOver (x : Binary) (place : Int) : Nat × Nat :=
  ((1 <<< x.exponent.toNat) * Nat.pow 10 (-place).toNat,
    (1 <<< (-x.exponent).toNat) * Nat.pow 10 place.toNat)

/-- Whether a multiple of a power of ten rounds to the magnitude: it lies between the midpoints
to both neighbours. A midpoint itself rounds to an even mantissa. -/
def readsBack (x : Binary) (place : Int) (n : Nat) : Bool :=
  let (num, den) := x.unitOver place
  let low := (4 * x.mantissa - if x.isNarrowBelow then 1 else 2) * num
  let high := (4 * x.mantissa + 2) * num
  let here := 4 * n * den
  if x.mantissa % 2 = 0 then low ≤ here && here ≤ high else low < here && here < high

/-- The multiple of a power of ten nearest to the magnitude among those that read back, which
are next to it. Of two equally near ones the even one is taken. -/
def nearest? (x : Binary) (place : Int) : Option Nat :=
  let (num, den) := x.unitOver place
  let below := x.mantissa * num / den
  match x.readsBack place below, x.readsBack place (below + 1) with
  | true, true =>
      let twice := 2 * x.mantissa * num
      let midpoint := (2 * below + 1) * den
      let isBelow := twice < midpoint || (twice == midpoint && below % 2 == 0)
      some (if isBelow then below else below + 1)
  | true, false => some below
  | false, true => some (below + 1)
  | false, false => none

/-- The powers of ten that digits of a double may stand at, the coarsest first. -/
def places : List Int := (List.range 633).map fun (i : Nat) => 308 - (i : Int)

/-- The fewest digits that read back, as a number, with the power of ten they stand at. -/
def shortest? (x : Binary) : Option (Nat × Int) :=
  places.findSome? fun place => (x.nearest? place).map (·, place)

end Binary

namespace Decimal

/-- The most digits that a whole double is written out with. -/
def maxWholeDigits : Nat := 16

/-- The numeral of a number of units of a power of ten. A whole number of few digits is written
out, with a zero after the point. -/
def ofUnits (negative : Bool) (n : Nat) (place : Int) : Decimal :=
  let ds := (ofInt n).whole
  if 0 ≤ place && ds.length + place ≤ maxWholeDigits then
    ⟨negative, ds ++ List.replicate place.toNat 0, [0], none⟩
  else ⟨negative, ds, [], some place⟩

/-- The shortest numeral of a finite double. -/
def ofDouble (x : Float) : Decimal :=
  let (n, place) := if x == 0.0 then (0, 0) else (Binary.ofDouble x).shortest?.getD (0, 0)
  ofUnits (x.toBits >>> 63 != 0) n place

end Decimal

end Narrative
