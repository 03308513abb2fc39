/-
# LoxLang.Text.Ranges -- character classes as sorted code point ranges

A character class that no formula describes is a table of closed ranges of code
points in increasing order.  Membership walks the table and stops at the first
range that lies beyond the character.
-/

namespace LoxLang.Text

set_option autoImplicit false

/-- Closed ranges of code points, in increasing order. -/
abbrev Ranges := List (Nat × Nat)

/-- Whether a code point lies in one of the ranges. -/
def Ranges.contains : Ranges → Nat → Bool
  | [], _ => false
  | (low, high) :: rest, n => if n < low then false else n ≤ high || Ranges.contains rest n

end LoxLang.Text
