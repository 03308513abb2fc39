/-
# LoxLang.Text.Blank -- white space and its removal at the ends of a text

Two classes are in use.  `isBlank` is the wide one: every white space character of
the standard and the four information separators.  `isSpace` leaves the separators
out; it is the class that may surround a written number.
-/
import LoxLang.Text.Ranges

namespace LoxLang.Text

set_option autoImplicit false

/-- White space, the information separators included. -/
def blanks : Ranges :=
  [(0x9, 0xd), (0x1c, 0x20), (0x85, 0x85), (0xa0, 0xa0), (0x1680, 0x1680), (0x2000, 0x200a),
   (0x2028, 0x2029), (0x202f, 0x202f), (0x205f, 0x205f), (0x3000, 0x3000)]

def isBlank (c : Char) : Bool := blanks.contains c.toNat

/-- White space without the information separators. -/
def isSpace (c : Char) : Bool := isBlank c && !(0x1c ≤ c.toNat && c.toNat ≤ 0x1f)

/-- The characters left when those of a class are removed at both ends. -/
def trimEnds (p : Char → Bool) (cs : List Char) : List Char :=
  ((cs.dropWhile p).reverse.dropWhile p).reverse

/-- A text without the blanks at its ends. -/
def strip (s : String) : String := String.ofList (trimEnds isBlank s.toList)

end LoxLang.Text
