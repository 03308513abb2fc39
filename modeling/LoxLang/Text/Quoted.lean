/-
# LoxLang.Text.Quoted -- a text as a quoted literal

Quoted text stands between single quotes, or between double quotes when it holds a
single quote and no double one.  The backslash, the chosen quote, line feed, carriage
return and tab are escaped by a backslash; every other code point that is not printable
is written by its number in two, four or eight hexadecimal digits.  So quoted text holds
no surrogates.
-/
import LoxLang.Text
import LoxLang.Text.Printable

namespace LoxLang.Text

set_option autoImplicit false

/-- A number in lower case hexadecimal, padded with zeros to a width. -/
def hexCode (width : Nat) (n : Nat) : String :=
  let digits := Nat.toDigits 16 n
  String.ofList (List.replicate (width - digits.length) '0' ++ digits)

/-- The escape of a code point by its number. -/
def numberEscape (code : Nat) : String :=
  if code < 0x100 then "\\x" ++ hexCode 2 code
  else if code < 0x10000 then "\\u" ++ hexCode 4 code
  else "\\U" ++ hexCode 8 code

/-- One code point of a quoted literal. -/
def quotedPoint (quote : Char) : CodePoint → String
  | .surrogate offset => numberEscape (CodePoint.surrogate offset).code
  | .char c =>
      if c = quote || c = '\\' then String.ofList ['\\', c]
      else if c = '\n' then "\\n"
      else if c = '\r' then "\\r"
      else if c = '\t' then "\\t"
      else if isPrintable c then String.singleton c
      else numberEscape c.toNat

/-- The quote that surrounds a text: a single one unless only that one would need escaping. -/
def quoteFor (t : Text) : Char :=
  if t.contains (.char '\'') && !t.contains (.char '"') then '"' else '\''

/-- A text as a quoted literal. -/
def quoted (t : Text) : Text :=
  let quote := quoteFor t
  .char quote :: t.flatMap (fun point => ofString (quotedPoint quote point)) ++ [.char quote]

end LoxLang.Text
