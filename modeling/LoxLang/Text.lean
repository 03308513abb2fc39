/-
# LoxLang.Text -- texts as code points

A text is a list of code points.  Programs are written in characters; a saved program can
also name a surrogate alone, half of a pair for which no character stands.  A surrogate
is carried along: it is compared, joined and escaped as any other code point is, but it
is in no class of characters, and no file can hold it.

Literal strings stand for their texts wherever a text is asked for.
-/
namespace LoxLang

set_option autoImplicit false

/-- A character, or a surrogate by its distance from the first one. -/
inductive CodePoint where
  | char (c : Char)
  | surrogate (offset : Fin 0x800)
  deriving DecidableEq, Repr

namespace CodePoint

/-- The number of a code point. -/
def code : CodePoint → Nat
  | .char c => c.toNat
  | .surrogate offset => 0xd800 + offset

/-- The code point of a code unit that is not joined to another. -/
def ofUnit (n : Nat) : CodePoint :=
  if h : 0xd800 ≤ n ∧ n < 0xe000 then .surrogate ⟨n - 0xd800, by omega⟩ else .char (Char.ofNat n)

def isChar : CodePoint → Bool
  | .char _ => true
  | .surrogate _ => false

/-- A character in the place of a code point: the replacement character for a surrogate. -/
def toChar : CodePoint → Char
  | .char c => c
  | .surrogate _ => '\ufffd'

end CodePoint

abbrev Text := List CodePoint

namespace Text

def ofChars (cs : List Char) : Text := cs.map .char

def ofString (s : String) : Text := ofChars s.toList

instance : Coe String Text := ⟨ofString⟩

/-- The characters of a text, with replacements for surrogates. -/
def chars (t : Text) : List Char := t.map CodePoint.toChar

/-- The text as a string, with replacements for surrogates. -/
def shown (t : Text) : String := String.ofList t.chars

/-- The string of a text that has no surrogates. -/
def string? (t : Text) : Option String := if t.all CodePoint.isChar then some t.shown else none

/-- Whether a text stands before another, or is the same, in the order of code points. -/
def before : Text → Text → Bool
  | [], _ => true
  | _ :: _, [] => false
  | p :: s, q :: t => p.code < q.code || (p = q && before s t)

/-- Texts one after another with `separator` between them. -/
def intercalate (separator : Text) (parts : List Text) : Text := List.intercalate separator parts

/-- Texts as lines, each one ended. -/
def lines (parts : List Text) : Text := parts.flatMap (· ++ "\n")

end Text

end LoxLang
