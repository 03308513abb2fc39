/-
# LoxLang.Json.Writer -- writing JSON text

Each item and each field stands on a line of its own, two columns further in than its
container; an empty container stays on one line.  Strings escape the double quote, the
backslash and the control characters, and nothing else.
-/
import LoxLang.Json

namespace LoxLang.Json

set_option autoImplicit false

/-- One character of a written string. -/
def writeChar (c : Char) : String :=
  if c = '"' then "\\\""
  else if c = '\\' then "\\\\"
  else if c = '\n' then "\\n"
  else if c = '\r' then "\\r"
  else if c = '\t' then "\\t"
  else if c = '\x0c' then "\\f"
  else if c = '\x08' then "\\b"
  else if c.toNat < 0x20 then "\\u" ++ Text.hexCode 4 c.toNat
  else String.singleton c

/-- One code point of a written string; only characters are ever escaped. -/
def writePoint : CodePoint → Text
  | .char c => writeChar c
  | .surrogate offset => [.surrogate offset]

def writeString (s : Text) : Text := "\"" ++ s.flatMap writePoint ++ "\""

/-- A line break in front of a line that starts `columns` columns in. -/
def lineBreak (columns : Nat) : String := "\n" ++ String.ofList (List.replicate columns ' ')

/-- The comma between an item and the ones behind it, if there are any. -/
def comma {α : Type} (rest : List α) : Text := if rest.isEmpty then [] else ","

mutual

/-- The text of a value whose line starts at `columns`, in front of `tail`. -/
def write (columns : Nat) : Json → (tail : Text) → Text
  | .null, tail => "null" ++ tail
  | .boolean true, tail => "true" ++ tail
  | .boolean false, tail => "false" ++ tail
  | .integer n, tail => toString n ++ tail
  | .real x, tail => Number.literal x ++ tail
  | .string s, tail => writeString s ++ tail
  | .array items, tail =>
      if items.isEmpty then "[]" ++ tail
      else "[" ++ writeItems (columns + 2) items (lineBreak columns ++ "]" ++ tail)
  | .object fields, tail =>
      if fields.isEmpty then "\x7b\x7d" ++ tail
      else "\x7b" ++ writeFields (columns + 2) fields (lineBreak columns ++ "\x7d" ++ tail)
termination_by structural j => j

def writeItems (columns : Nat) : List Json → (tail : Text) → Text
  | [], tail => tail
  | item :: rest, tail =>
      lineBreak columns ++ write columns item (comma rest ++ writeItems columns rest tail)
termination_by structural items => items

def writeFields (columns : Nat) : List (Text × Json) → (tail : Text) → Text
  | [], tail => tail
  | field :: rest, tail =>
      lineBreak columns ++ writeField columns field (comma rest ++ writeFields columns rest tail)
termination_by structural fields => fields

def writeField (columns : Nat) : Text × Json → (tail : Text) → Text
  | (name, value), tail => writeString name ++ ": " ++ write columns value tail
termination_by structural field => field

end

/-- The text of a value. -/
def pretty (value : Json) : Text := value.write 0 []

end LoxLang.Json
