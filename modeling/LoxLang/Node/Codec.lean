/-
# LoxLang.Node.Codec -- trees as JSON

A node is an object that names its kind and holds its parts; a missing part is null and
a list of nodes is a `Program`.  Values carry a tag.  Numbers that JSON has no form for
are written as strings, and reading takes any number, truth value or written number.

Decoding looks at the fields in a fixed order and reports the first fault.  What should be
a text is not looked at: a draft keeps what stands there, and encoding writes it again.
Only a real is written as every number is, so one that is not finite comes back as a word
where the token is no number.

Decoding runs on the nesting depth of the JSON value, which bounds the depth of the tree.
Saving has a limit: the number of nodes on the longest way down, checked before anything
is written.
-/
import LoxLang.Json.Reader
import LoxLang.Node.Draft

namespace LoxLang

set_option autoImplicit false

/-! ## Encoding -/

namespace Number

/-- A number, or the word for one that is not finite. -/
def toJson (x : Float) : Json :=
  if x.isNaN || x.isInf then .string (Number.literal x) else .real x

end Number

def DraftValue.toJson : DraftValue → Json
  | .number x => .object [("__value__", .string "Number"), ("value", x.elim .null Number.toJson)]
  | .string content => .object [("__value__", .string "String"), ("value", content)]
  | .boolean true => .object [("__value__", .string "True")]
  | .boolean false => .object [("__value__", .string "False")]
  | .nil => .object [("__value__", .string "Nil")]

/-- The literal of a token as JSON: a real as every number, all else as it stands. -/
def DraftToken.literalToJson : Json → Json
  | .real x => Number.toJson x
  | literal => literal

def DraftToken.toJson (t : DraftToken) : Json :=
  .object [("type", .string t.kind.name), ("lexeme", t.lexeme), ("literal", literalToJson t.literal),
    ("line", .integer t.line)]

namespace Draft

mutual

def toJson : Draft → Json
  | .missing => .null
  | .block statements => .object [("type", .string "Program"), ("body", .array (toJsonList statements))]
  | .binary left operator right =>
      .object [("type", .string "Binary"), ("left", toJson left), ("operator", operator.toJson),
        ("right", toJson right)]
  | .unary operator operand =>
      .object [("type", .string "Unary"), ("operator", operator.toJson), ("right", toJson operand)]
  | .grouping inner => .object [("type", .string "Grouping"), ("node", toJson inner)]
  | .literal value => .object [("type", .string "Literal"), ("value", value.toJson)]
  | .reference name line =>
      .object [("type", .string "VariableReference"), ("name", name), ("line", .integer line)]
  | .expression value =>
      .object [("type", .string "ExpressionStatement"), ("value", toJson value)]
  | .print value => .object [("type", .string "PrintStatement"), ("value", toJson value)]
  | .declaration name initializer line =>
      .object [("type", .string "VariableDeclaration"), ("name", name),
        ("initializer", toJson initializer), ("line", .integer line)]

def toJsonList : List Draft → List Json
  | [] => []
  | draft :: rest => toJson draft :: toJsonList rest

end

/-- The most nodes on a way down that are saved. -/
def saveLimit : Nat := 1000

/-- Why a tree is not saved. -/
inductive SaveError where
  | noNumber
  | tooDeep
  deriving DecidableEq, Repr

def SaveError.message : SaveError → String
  | .noNumber => Node.noNumberMessage
  | .tooDeep => "maximum recursion depth exceeded"

/-- A draft within the limit, every number of which has a value, as JSON. -/
def save (draft : Draft) : Except SaveError Json :=
  if saveLimit < draft.depth then .error .tooDeep
  else if draft.lacksNumber then .error .noNumber
  else .ok draft.toJson

end Draft

def Value.toJson (v : Value) : Json := v.toDraft.toJson

def Token.toJson (t : Token) : Json := t.toDraft.toJson

namespace Node

def toJson (node : Node) : Json := node.toDraft.toJson

/-- A program as JSON. -/
def programToJson (statements : List Node) : Json := toJson (.block statements)

def save (node : Node) : Except Draft.SaveError Json := node.toDraft.save

end Node

/-! ## Faults of decoding -/

/-- Why a JSON value is no tree. -/
inductive DecodeError where
  | notTree
  | notValue
  | unknownTree (kind : Json)
  | unknownValue (kind : Json)
  | noField (name : Text)
  | unknownToken (kind : Json)
  | structuredToken (typeName : String)
  | noFields (typeName : String)
  | fieldOfString
  | fieldOfList
  | noItems (typeName : String)
  | notFloat (typeName : String)
  | badFloat (text : Text)
  | hugeFloat
  | notInteger (typeName : String)
  | badInteger (text : Text)
  | infiniteInteger
  | undefinedInteger
  | tooManyDigits (count : Nat)
  | notProgram

namespace DecodeError

def message : DecodeError → Text
  | .notTree => "Invalid AST object"
  | .notValue => "Invalid value object"
  | .unknownTree kind => "Unknown AST node type: " ++ kind.display
  | .unknownValue kind => "Unknown value kind: " ++ kind.display
  | .noField name => Text.quoted name
  | .unknownToken kind => kind.describe
  | .structuredToken typeName => "unhashable type: '" ++ typeName ++ "'"
  | .noFields typeName => "'" ++ typeName ++ "' object is not subscriptable"
  | .fieldOfString => "string indices must be integers, not 'str'"
  | .fieldOfList => "list indices must be integers or slices, not str"
  | .noItems typeName => "'" ++ typeName ++ "' object is not iterable"
  | .notFloat typeName =>
      "float() argument must be a string or a real number, not '" ++ typeName ++ "'"
  | .badFloat text => "could not convert string to float: " ++ Text.quoted text
  | .hugeFloat => "int too large to convert to float"
  | .notInteger typeName =>
      "int() argument must be a string, a bytes-like object or a real number, not '" ++ typeName ++ "'"
  | .badInteger text =>
      "invalid literal for int() with base 10: " ++ (Text.quoted text).take 200
  | .infiniteInteger => "cannot convert float infinity to integer"
  | .undefinedInteger => "cannot convert float NaN to integer"
  | .tooManyDigits count => Numeral.tooManyDigitsMessage count
  | .notProgram => "AST JSON does not hold a Program"

/-- Whether a number was out of range, which no reader of programs takes for a faulty file. -/
def isOverflow : DecodeError → Bool
  | .hugeFloat | .infiniteInteger => true
  | _ => false

end DecodeError

/-! ## Decoding -/

/-- A decoded value, or the first fault. -/
abbrev Decoded (α : Type) := Except DecodeError α

namespace Json

/-- A field that has to be there. -/
def require (fields : List (Text × Json)) (name : Text) : Decoded Json :=
  match field? fields name with
  | some value => .ok value
  | none => .error (.noField name)

/-- A number from anything that denotes one. -/
def toFloat : Json → Decoded Float
  | .real x => .ok x
  | .boolean b => .ok (if b then 1 else 0)
  | .integer n =>
      let x := Decimal.toFloat ⟨n.natAbs, 0⟩
      if x.isInf then .error .hugeFloat else .ok (if n < 0 then -x else x)
  | .string s =>
      match Numeral.readFloat? s with
      | some x => .ok x
      | none => .error (.badFloat s)
  | value => .error (.notFloat value.typeName)

/-- The whole part of a finite float. -/
def truncate (x : Float) : Int :=
  let whole : Int := Number.wholePart x
  if floatSign x then -whole else whole

/-- An integer from anything that denotes one; a fraction is cut off. -/
def toInteger : Json → Decoded Int
  | .integer n => .ok n
  | .boolean b => .ok (if b then 1 else 0)
  | .real x =>
      if x.isNaN then .error .undefinedInteger
      else if x.isInf then .error .infiniteInteger
      else .ok (truncate x)
  | .string s =>
      match Numeral.readInteger s with
      | .ok n => .ok n
      | .error (.tooManyDigits count) => .error (.tooManyDigits count)
      | .error .malformed => .error (.badInteger s)
  | value => .error (.notInteger value.typeName)

/-- The line of an object; without one it is zero. -/
def lineOf (fields : List (Text × Json)) : Decoded Int :=
  match field? fields "line" with
  | some value => value.toInteger
  | none => .ok 0

/-- The fields of a value that a name is looked up in. -/
def toFields : Json → Decoded (List (Text × Json))
  | .object fields => .ok fields
  | .string _ => .error .fieldOfString
  | .array _ => .error .fieldOfList
  | value => .error (.noFields value.typeName)

/-- The kind that a value names. -/
def toTokenKind : Json → Decoded TokenKind
  | .string name =>
      match name.string?.bind TokenKind.ofName? with
      | some kind => .ok kind
      | none => .error (.unknownToken (.string name))
  | .array items => .error (.structuredToken (Json.array items).typeName)
  | .object fields => .error (.structuredToken (Json.object fields).typeName)
  | value => .error (.unknownToken value)

/-- The literal of a token of a kind: that of a number is read, the others are kept. -/
def toLiteral (kind : TokenKind) : Json → Decoded Json
  | .null => .ok .null
  | value => if kind = .number then do return .real (← value.toFloat) else .ok value

def toToken (value : Json) : Decoded DraftToken := do
  let fields ← value.toFields
  let kind ← toTokenKind (← require fields "type")
  let literal ← toLiteral kind ((field? fields "literal").getD .null)
  let lexeme ← require fields "lexeme"
  let line ← lineOf fields
  return ⟨kind, lexeme, literal, line⟩

def toValue : Json → Decoded DraftValue
  | .object fields =>
      let kind := (field? fields "__value__").getD .null
      match kind.word? with
      | some "Number" => do return .number (some (← (← require fields "value").toFloat))
      | some "String" => do return .string (← require fields "value")
      | some "True" => .ok (.boolean true)
      | some "False" => .ok (.boolean false)
      | some "Nil" => .ok .nil
      | _ => .error (.unknownValue kind)
  | _ => .error .notValue

/-- The items that a body goes through: those of an array, the characters of a string, or the names
of an object. -/
def toItems : Json → Decoded (List Json)
  | .array items => .ok items
  | .string s => .ok (s.map fun point => .string [point])
  | .object fields => .ok (fields.map fun field => .string field.1)
  | value => .error (.noItems value.typeName)

end Json

namespace Draft

open Json in
/-- Decode a value that nests less deep than the fuel. -/
def decode : (fuel : Nat) → Json → Decoded Draft
  | 0, _ => .error .notTree
  | _ + 1, .null => .ok .missing
  | fuel + 1, .object fields =>
      let kind := (field? fields "type").getD .null
      match kind.word? with
      | some "Program" => do
          let items ← (← require fields "body").toItems
          return .block (← items.mapM (decode fuel))
      | some "Binary" => do
          let left ← decode fuel (← require fields "left")
          let operator ← (← require fields "operator").toToken
          let right ← decode fuel (← require fields "right")
          return .binary left operator right
      | some "Unary" => do
          let operator ← (← require fields "operator").toToken
          let operand ← decode fuel (← require fields "right")
          return .unary operator operand
      | some "Grouping" => do return .grouping (← decode fuel (← require fields "node"))
      | some "Literal" => do return .literal (← (← require fields "value").toValue)
      | some "VariableReference" => do
          let name ← require fields "name"
          return .reference name (← lineOf fields)
      | some "ExpressionStatement" => do
          return .expression (← decode fuel (← require fields "value"))
      | some "PrintStatement" => do return .print (← decode fuel (← require fields "value"))
      | some "VariableDeclaration" => do
          let name ← require fields "name"
          let initializer ← decode fuel ((field? fields "initializer").getD .null)
          return .declaration name initializer (← lineOf fields)
      | _ => .error (.unknownTree kind)
  | _ + 1, _ => .error .notTree

/-- The draft of a JSON value. -/
def ofJson (value : Json) : Decoded Draft := decode (value.depth + 1) value

/-- The statements of a JSON value that holds a program. -/
def programOfJson (value : Json) : Decoded (List Draft) := do
  match ← ofJson value with
  | .block statements => return statements
  | _ => .error .notProgram

end Draft

end LoxLang
