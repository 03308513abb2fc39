/-
# LoxLang.Decimal.Shortest -- the fewest decimal digits that read back

A finite float is an integer times a power of two, so its value is an exact fraction.
For one, two, … seventeen significant digits the value lies between two neighbours on
the grid of decimals with that many digits.  The first grid on which a neighbour reads
back as the same float wins; of two such neighbours the nearer one is taken, and an
exact tie goes to the even digit.  Seventeen digits suffice for every float; the exact
expansion stands behind the search so that the function is total.
-/

namespace LoxLang

set_option autoImplicit false

/-- The decimal `digits × 10 ^ exponent`. -/
structure Decimal where
  digits : Nat
  exponent : Int
  deriving DecidableEq, Repr

/-- The sign bit of a float. -/
def floatSign (x : Float) : Bool := x.toBits >>> 63 == 1

/-- Mantissa and binary exponent of the magnitude of a finite float. -/
def floatParts (x : Float) : Nat × Int :=
  let field := (x.toBits >>> 52 &&& 0x7ff).toNat
  let fraction := (x.toBits &&& 0xfffffffffffff).toNat
  if field = 0 then (fraction, -1074) else (fraction + 0x10000000000000, field - 1075)

/-- The magnitude of a finite float as a fraction. -/
def floatRatio (x : Float) : Nat × Nat :=
  let (mantissa, exponent) := floatParts x
  if 0 ≤ exponent then (mantissa * Nat.pow 2 exponent.toNat, 1)
  else (mantissa, Nat.pow 2 (-exponent).toNat)

namespace Decimal

/-- The number of decimal digits a natural number is written with. -/
def width (n : Nat) : Nat := (Nat.toDigits 10 n).length

/-- The float nearest to a decimal. -/
def toFloat (d : Decimal) : Float :=
  Float.ofScientific d.digits (d.exponent < 0) d.exponent.natAbs

/-- The exact value of the magnitude of a finite float. -/
def exact (x : Float) : Decimal :=
  let (mantissa, exponent) := floatParts x
  if 0 ≤ exponent then ⟨mantissa * Nat.pow 2 exponent.toNat, 0⟩
  else ⟨mantissa * Nat.pow 5 (-exponent).toNat, exponent⟩

/-- The power of ten just above a positive fraction: `10 ^ (k - 1) ≤ num / den < 10 ^ k`. -/
def magnitude (num den : Nat) : Int :=
  if den ≤ num then width (num / den) else 1 - width ((den + num - 1) / num - 1)

/-- The two neighbours of a fraction among the multiples of `10 ^ exponent`, the nearer one first
and of equally near ones the even one first. -/
def neighbours (num den : Nat) (exponent : Int) : List Decimal :=
  let num := num * Nat.pow 10 (-exponent).toNat
  let den := den * Nat.pow 10 exponent.toNat
  let below := num / den
  let excess := 2 * (num % den)
  if excess < den || (excess = den && below % 2 = 0) then
    [⟨below, exponent⟩, ⟨below + 1, exponent⟩]
  else [⟨below + 1, exponent⟩, ⟨below, exponent⟩]

/-- Drop the zeros at the end of the digits; the fuel bounds their number. -/
def dropZeros : Nat → Decimal → Decimal
  | 0, d => d
  | fuel + 1, d =>
      if d.digits ≠ 0 && d.digits % 10 = 0 then dropZeros fuel ⟨d.digits / 10, d.exponent + 1⟩
      else d

/-- A decimal without zeros at the end of its digits. -/
def normal (d : Decimal) : Decimal := dropZeros (width d.digits) d

/-- The shortest decimal that reads back as the magnitude of a finite float other than zero. -/
def shortest (x : Float) : Decimal :=
  let (num, den) := floatRatio x
  let top := magnitude num den
  let grids := (List.range 17).flatMap fun n => neighbours num den (top - (n + 1 : Nat))
  normal <| (grids.find? fun d => d.toFloat.toBits == x.abs.toBits).getD (exact x)

end Decimal

end LoxLang
