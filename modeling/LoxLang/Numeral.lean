/-
# LoxLang.Numeral -- written numbers

Digits with a point read as the nearest float.  Numbers in free text may have blanks
around them, a sign, an exponent, digits of any script and single underscores between
digits; infinity and not-a-number are written as words in either case.
-/
import LoxLang.Decimal.Shortest
import LoxLang.Text
import LoxLang.Text.Blank
import LoxLang.Text.Digit

namespace LoxLang.Numeral

set_option autoImplicit false

/-- The natural number that a row of digits denotes. -/
def ofDigits (digits : List Nat) : Nat := digits.foldl (fun n d => 10 * n + d) 0

/-- The value of an ASCII digit. -/
def digit (c : Char) : Nat := c.toNat - '0'.toNat

/-- The float of digits, with those of `fraction` behind the point and a decimal exponent.  Exponents
far outside the range of floats are settled without computing the power. -/
def float (whole fraction : List Nat) (exponent : Int) : Float :=
  let digits := ofDigits (whole ++ fraction)
  let exponent := exponent - fraction.length
  if digits = 0 then 0
  else if exponent + Decimal.width digits < -400 then 0
  else if 400 < exponent + Decimal.width digits then Float.ofBits 0x7ff0000000000000
  else Decimal.toFloat ⟨digits, exponent⟩

/-- Digits of any script with single underscores between them, and the rest of the text. -/
def digits : List Char → List Nat × List Char
  | [] => ([], [])
  | c :: cs =>
      match Text.digitValue? c with
      | none => ([], c :: cs)
      | some d =>
          match cs with
          | [] => ([d], [])
          | '_' :: next :: rest =>
              if (Text.digitValue? next).isSome then
                let (more, rest) := digits (next :: rest)
                (d :: more, rest)
              else ([d], '_' :: next :: rest)
          | cs =>
              let (more, rest) := digits cs
              (d :: more, rest)

/-- An optional sign: whether the number is negative, and the rest. -/
def sign : List Char → Bool × List Char
  | '-' :: rest => (true, rest)
  | '+' :: rest => (false, rest)
  | rest => (false, rest)

/-- An optional exponent that reaches the end of the text. -/
def exponent? : List Char → Option Int
  | [] => some 0
  | mark :: rest =>
      if mark = 'e' || mark = 'E' then
        let (negative, rest) := sign rest
        match digits rest with
        | ([], _) => none
        | (ds, []) => some (if negative then -(ofDigits ds : Int) else ofDigits ds)
        | (_, _ :: _) => none
      else none

/-- An unsigned number of digits with an optional point and exponent. -/
def magnitude? (cs : List Char) : Option Float :=
  let (whole, rest) := digits cs
  match rest with
  | '.' :: rest =>
      let (fraction, rest) := digits rest
      if whole.isEmpty && fraction.isEmpty then none
      else (exponent? rest).map (float whole fraction)
  | rest => if whole.isEmpty then none else (exponent? rest).map (float whole [])

/-- The value of an unsigned number or of a word for an infinite or undefined one. -/
def unsigned? (cs : List Char) : Option Float :=
  let word := String.ofList (cs.map Char.toLower)
  if word = "inf" || word = "infinity" then some (Float.ofBits 0x7ff0000000000000)
  else if word = "nan" then some (Float.ofBits 0x7ff8000000000000)
  else magnitude? cs

/-- A float in free text. -/
def readFloat? (text : Text) : Option Float :=
  let (negative, rest) := sign (Text.trimEnds Text.isSpace text.chars)
  (unsigned? rest).map fun x => if negative then -x else x

/-- The integer with the given sign and digits. -/
def integer (negative : Bool) (ds : List Nat) : Int :=
  if negative then -(ofDigits ds : Int) else ofDigits ds

/-- The most digits that a written integer may have. -/
def maxDigits : Nat := 4300

/-- Why a text is not read as an integer. -/
inductive IntegerFault where
  | malformed
  | tooManyDigits (count : Nat)
  deriving DecidableEq, Repr

/-- The words about an integer with too many digits. -/
def tooManyDigitsMessage (count : Nat) : String :=
  "Exceeds the limit (" ++ toString maxDigits ++
    " digits) for integer string conversion: value has " ++ toString count ++
    " digits; use sys.set_int_max_str_digits() to increase the limit"

/-- An integer in free text.  The digits are taken first, as far as they go, and an underscore that
stands behind them without a digit spoils them; then they are counted, and only then has the text
to end. -/
def readInteger (text : Text) : Except IntegerFault Int :=
  let (negative, rest) := sign (Text.trimEnds Text.isSpace text.chars)
  let (ds, rest) := digits rest
  if ds.isEmpty || rest.head? = some '_' then .error .malformed
  else if maxDigits < ds.length then .error (.tooManyDigits ds.length)
  else if rest.isEmpty then .ok (integer negative ds)
  else .error .malformed

end LoxLang.Numeral
