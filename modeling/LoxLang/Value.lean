/-
# LoxLang.Value -- what expressions evaluate to

Values are numbers, strings, booleans and nil.  They never turn into one another; only
false and nil count as false.  Equality is defined between all of them, and values of
different types are unequal; numbers compare as floats, so not-a-number differs from
itself.
-/
import LoxLang.Number
import LoxLang.Text.Quoted

namespace LoxLang

set_option autoImplicit false

inductive Value where
  | number (x : Float)
  | string (s : Text)
  | boolean (b : Bool)
  | nil
  deriving DecidableEq

namespace Value

def isTruthy : Value → Bool
  | .boolean false | .nil => false
  | _ => true

/-- Logical negation: only false and nil negate to true. -/
def negate (v : Value) : Value := .boolean !v.isTruthy

/-- Equality as the language has it. -/
def equals : Value → Value → Bool
  | .number x, .number y => x == y
  | .string s, .string t => s == t
  | .boolean a, .boolean b => a == b
  | .nil, .nil => true
  | _, _ => false

/-- The name of a value's type. -/
def typeName : Value → String
  | .number _ => "number"
  | .string _ => "string"
  | .boolean _ => "boolean"
  | .nil => "nil"

/-- The text that printing a value shows. -/
def text : Value → Text
  | .number x => Number.plain x
  | .string s => s
  | .boolean true => "true"
  | .boolean false => "false"
  | .nil => "nil"

/-- A value in a debug message. -/
def describe : Value → Text
  | .number x => "Number(" ++ Number.literal x ++ ")"
  | .string s => "String(" ++ Text.quoted s ++ ")"
  | .boolean true => "True"
  | .boolean false => "False"
  | .nil => "Nil"

end Value

end LoxLang
