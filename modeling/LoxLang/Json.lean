/-
# LoxLang.Json -- the data in which programs are saved

Integers and reals are kept apart, because a line number and a number of the language
are read from either by different rules.  An object keeps its fields in the order in
which their names first appear, one value per name.
-/
import LoxLang.Number
import LoxLang.Text.Quoted

namespace LoxLang

set_option autoImplicit false

inductive Json where
  | null
  | boolean (b : Bool)
  | integer (n : Int)
  | real (x : Float)
  | string (s : Text)
  | array (items : List Json)
  | object (fields : List (Text × Json))

namespace Json

/-- The value of a field. -/
def field? (fields : List (Text × Json)) (name : Text) : Option Json := fields.lookup name

/-- The text that a value is, if it is a string. -/
def text? : Json → Option Text
  | .string s => some s
  | _ => none

/-- The word that a value is, if it is a string of characters. -/
def word? : Json → Option String
  | .string s => s.string?
  | _ => none

/-- The name of a value's type in messages. -/
def typeName : Json → String
  | .null => "NoneType"
  | .boolean _ => "bool"
  | .integer _ => "int"
  | .real _ => "float"
  | .string _ => "str"
  | .array _ => "list"
  | .object _ => "dict"

/-! ## Nesting -/

mutual

/-- How deep arrays and objects nest; a value without parts has depth zero. -/
def depth : Json → Nat
  | .array items => depthItems items + 1
  | .object fields => depthFields fields + 1
  | _ => 0
termination_by structural j => j

def depthItems : List Json → Nat
  | [] => 0
  | item :: rest => max (depth item) (depthItems rest)
termination_by structural items => items

def depthFields : List (Text × Json) → Nat
  | [] => 0
  | field :: rest => max (depthField field) (depthFields rest)
termination_by structural fields => fields

def depthField : Text × Json → Nat
  | (_, value) => depth value
termination_by structural field => field

end

/-! ## Values in messages -/

mutual

/-- A value as part of a message: strings are quoted, containers show their parts. -/
def describe : Json → Text
  | .null => "None"
  | .boolean true => "True"
  | .boolean false => "False"
  | .integer n => toString n
  | .real x => Number.literal x
  | .string s => Text.quoted s
  | .array items => "[" ++ Text.intercalate ", " (describeItems items) ++ "]"
  | .object fields => "\x7b" ++ Text.intercalate ", " (describeFields fields) ++ "\x7d"
termination_by structural j => j

def describeItems : List Json → List Text
  | [] => []
  | item :: rest => describe item :: describeItems rest
termination_by structural items => items

def describeFields : List (Text × Json) → List Text
  | [] => []
  | field :: rest => describeField field :: describeFields rest
termination_by structural fields => fields

def describeField : Text × Json → Text
  | (name, value) => Text.quoted name ++ ": " ++ describe value
termination_by structural field => field

end

/-- A value that is a whole message: a string shows as it is. -/
def display : Json → Text
  | .string s => s
  | value => value.describe

end Json

end LoxLang
