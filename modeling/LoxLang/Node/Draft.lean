/-
# LoxLang.Node.Draft -- trees as they stand in JSON

Anyone can write a saved tree, and decoding asks little of it.  Kinds have to be known and
numbers have to be numbers, but where a text belongs (a name, a lexeme, the content of a
string, the literal of a token that is no number) any JSON value is taken as it stands.  A
draft is a tree that keeps these values.

Every tree has a draft (`Node.toDraft`).  The other way round, a draft stands for a tree if
each place for a text holds one (`Draft.node?`).  Every draft can be saved again, but only
one that stands for a tree can be run: what operators, bindings and messages do with other
values is not part of the language.
-/
import LoxLang.Json
import LoxLang.Node

namespace LoxLang

set_option autoImplicit false

/-- A token whose lexeme and literal are JSON values.  The literal of a number is null or real. -/
structure DraftToken where
  kind : TokenKind
  lexeme : Json
  literal : Json
  line : Int

/-- A value in which a JSON value stands for the content of a string.  A number read from a token
without literal has no value. -/
inductive DraftValue where
  | number (x : Option Float)
  | string (content : Json)
  | boolean (b : Bool)
  | nil

inductive Draft where
  | binary (left : Draft) (operator : DraftToken) (right : Draft)
  | unary (operator : DraftToken) (operand : Draft)
  | grouping (inner : Draft)
  | literal (value : DraftValue)
  | reference (name : Json) (line : Int)
  | expression (value : Draft)
  | print (value : Draft)
  | declaration (name : Json) (initializer : Draft) (line : Int)
  | missing
  | block (statements : List Draft)

/-! ## Drafts of trees -/

/-- What a token carries, as JSON. -/
def Literal.toDraft : Option Literal → Json
  | none => .null
  | some (.text s) => .string s
  | some (.number x) => .real x

def Token.toDraft (t : Token) : DraftToken :=
  ⟨t.kind, .string t.lexeme, Literal.toDraft t.literal, t.line⟩

def Value.toDraft : Value → DraftValue
  | .number x => .number (some x)
  | .string s => .string (.string s)
  | .boolean b => .boolean b
  | .nil => .nil

/-- A hollow literal: nothing in the place of its value. -/
def HollowKind.toDraft : HollowKind → DraftValue
  | .number => .number none
  | .string => .string .null

namespace Node

mutual

def toDraft : Node → Draft
  | .binary left operator right => .binary left.toDraft operator.toDraft right.toDraft
  | .unary operator operand => .unary operator.toDraft operand.toDraft
  | .grouping inner => .grouping inner.toDraft
  | .literal value => .literal value.toDraft
  | .hollow kind => .literal kind.toDraft
  | .reference name line => .reference (.string name) line
  | .expression value => .expression value.toDraft
  | .print value => .print value.toDraft
  | .declaration name initializer line => .declaration (.string name) initializer.toDraft line
  | .missing => .missing
  | .block statements => .block (toDrafts statements)

def toDrafts : List Node → List Draft
  | [] => []
  | node :: rest => node.toDraft :: toDrafts rest

end

end Node

/-! ## Trees of drafts -/

/-- The literal of a token: a real for a number, a text for the other kinds, or nothing. -/
def DraftToken.literal? (t : DraftToken) : Option (Option Literal) :=
  match t.literal with
  | .null => some none
  | .real x => if t.kind = .number then some (some (.number x)) else none
  | .string s => if t.kind = .number then none else some (some (.text s))
  | _ => none

/-- The token whose lexeme and literal are what they should be. -/
def DraftToken.token? (t : DraftToken) : Option Token := do
  return ⟨t.kind, ← t.lexeme.text?, ← t.literal?, t.line⟩

/-- The value whose string is a text. -/
def DraftValue.value? : DraftValue → Option Value
  | .number x => x.map .number
  | .string content => content.text?.map .string
  | .boolean b => some (.boolean b)
  | .nil => some .nil

namespace Draft

mutual

/-- The tree of a draft that holds a text in each place for one. -/
def node? : Draft → Option Node
  | .binary left operator right => do
      return .binary (← left.node?) (← operator.token?) (← right.node?)
  | .unary operator operand => do return .unary (← operator.token?) (← operand.node?)
  | .grouping inner => do return .grouping (← inner.node?)
  | .literal value => do return .literal (← value.value?)
  | .reference name line => do return .reference (← name.text?) line
  | .expression value => do return .expression (← value.node?)
  | .print value => do return .print (← value.node?)
  | .declaration name initializer line => do
      return .declaration (← name.text?) (← initializer.node?) line
  | .missing => some .missing
  | .block statements => do return .block (← nodes? statements)

def nodes? : List Draft → Option (List Node)
  | [] => some []
  | draft :: rest => do return (← draft.node?) :: (← nodes? rest)

end

/-! ## Nesting -/

mutual

/-- The number of nodes on the longest way down. -/
def depth : Draft → Nat
  | .binary left _ right => max left.depth right.depth + 1
  | .unary _ operand => operand.depth + 1
  | .grouping inner => inner.depth + 1
  | .expression value => value.depth + 1
  | .print value => value.depth + 1
  | .declaration _ initializer _ => initializer.depth + 1
  | .literal _ | .reference .. => 1
  | .missing => 0
  | .block statements => depthList statements + 1

def depthList : List Draft → Nat
  | [] => 0
  | draft :: rest => max draft.depth (depthList rest)

end

mutual

/-- Whether some number has no value. -/
def lacksNumber : Draft → Bool
  | .literal (.number none) => true
  | .binary left _ right => left.lacksNumber || right.lacksNumber
  | .unary _ operand => operand.lacksNumber
  | .grouping inner => inner.lacksNumber
  | .expression value => value.lacksNumber
  | .print value => value.lacksNumber
  | .declaration _ initializer _ => initializer.lacksNumber
  | .literal _ | .reference .. | .missing => false
  | .block statements => someLacksNumber statements

def someLacksNumber : List Draft → Bool
  | [] => false
  | draft :: rest => draft.lacksNumber || someLacksNumber rest

end

end Draft

end LoxLang
