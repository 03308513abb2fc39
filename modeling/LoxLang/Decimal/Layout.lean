/-
# LoxLang.Decimal.Layout -- how decimals are written

Positional notation never uses an exponent.  The literal layout always shows a fraction
or an exponent, and changes to an exponent outside the range from `10 ^ -4` up to
`10 ^ 16`.
-/
import LoxLang.Decimal.Shortest

namespace LoxLang.Decimal

set_option autoImplicit false

/-- Digits with a point in front of the last `places` of them. -/
def pointed (digits : List Char) (places : Nat) : String :=
  let padded := List.replicate (places + 1 - digits.length) '0' ++ digits
  let whole := padded.length - places
  String.ofList (padded.take whole ++ '.' :: padded.drop whole)

/-- Positional notation; a whole number has no point. -/
def positional (d : Decimal) : String :=
  let digits := Nat.toDigits 10 d.digits
  if 0 ≤ d.exponent then String.ofList (digits ++ List.replicate d.exponent.toNat '0')
  else pointed digits (-d.exponent).toNat

/-- One digit, the others behind a point, and the exponent with a sign and two digits or more. -/
def scientific (d : Decimal) : String :=
  let digits := Nat.toDigits 10 d.digits
  let exponent := d.exponent + (digits.length - 1 : Nat)
  let size := Nat.toDigits 10 exponent.natAbs
  let body := match digits with
    | first :: second :: rest => first :: '.' :: second :: rest
    | short => short
  String.ofList (body ++ 'e' :: (if exponent < 0 then '-' else '+') ::
    (List.replicate (2 - size.length) '0' ++ size))

/-- The decimal exponents of the leading digit that literals write without an exponent. -/
def literalRange (exponent : Int) : Bool := -4 ≤ exponent && exponent < 16

/-- The literal layout: a fraction or an exponent always shows. -/
def literal (d : Decimal) : String :=
  if literalRange (d.exponent + width d.digits - 1) then
    if 0 ≤ d.exponent then d.positional ++ ".0" else d.positional
  else d.scientific

end LoxLang.Decimal
