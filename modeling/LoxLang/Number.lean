/-
# LoxLang.Number -- the text of a float

The plain text never uses an exponent: whole numbers are written exactly, digit for
digit, other numbers with their shortest digits, and zero keeps its sign.  The literal
text always shows a fraction or an exponent.  Both read back as the number.
-/
import LoxLang.Decimal.Layout

namespace LoxLang.Number

set_option autoImplicit false

/-- Whether a finite float has no fraction. -/
def isWhole (x : Float) : Bool :=
  let (num, den) := floatRatio x
  num % den == 0

/-- The magnitude of a finite float that has no fraction. -/
def wholePart (x : Float) : Nat :=
  let (num, den) := floatRatio x
  num / den

def signed (x : Float) (text : String) : String := if floatSign x then "-" ++ text else text

/-- The text of a number in the plain layout. -/
def plain (x : Float) : String :=
  if x.isNaN then "NaN"
  else if x.isInf then signed x "inf"
  else if isWhole x then signed x (toString (wholePart x))
  else signed x (Decimal.shortest x).positional

/-- The text of a number in the literal layout. -/
def literal (x : Float) : String :=
  if x.isNaN then "nan"
  else if x.isInf then signed x "inf"
  else if (floatRatio x).1 = 0 then signed x "0.0"
  else signed x (Decimal.shortest x).literal

end LoxLang.Number
