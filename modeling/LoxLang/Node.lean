/-
# LoxLang.Node -- the tree of a program

Expressions and statements are nodes of one tree.  The front ends build statements whose
parts are expressions; a saved program may nest nodes in any way, leave a part out
(`missing`) or put a list of nodes in the place of one (`block`), and such trees are
carried as they are.  A declaration without an initializer has a missing one.

Tokens that no text was scanned for may lack what they stand for, and a number or a
string read from such a token is `hollow`.
-/
import LoxLang.Token
import LoxLang.Value

namespace LoxLang

set_option autoImplicit false

/-- The kinds of literal that are read from a token's own literal. -/
inductive HollowKind where
  | number | string
  deriving DecidableEq, Repr

inductive Node where
  | binary (left : Node) (operator : Token) (right : Node)
  | unary (operator : Token) (operand : Node)
  | grouping (inner : Node)
  | literal (value : Value)
  | hollow (kind : HollowKind)
  | reference (name : Text) (line : Int)
  | expression (value : Node)
  | print (value : Node)
  | declaration (name : Text) (initializer : Node) (line : Int)
  | missing
  | block (statements : List Node)

namespace Node

/-- The name of a node's kind in files and messages. -/
def kindName : Node → String
  | .binary .. => "Binary"
  | .unary .. => "Unary"
  | .grouping _ => "Grouping"
  | .literal _ | .hollow _ => "Literal"
  | .reference .. => "VariableReference"
  | .expression _ => "ExpressionStatement"
  | .print _ => "PrintStatement"
  | .declaration .. => "VariableDeclaration"
  | .missing => "NoneType"
  | .block _ => "list"

/-- The line of the outermost token that a node carries, zero when it has none. -/
def line : Node → Int
  | .binary _ operator _ => operator.line
  | .unary operator _ => operator.line
  | .reference _ line => line
  | .declaration _ _ line => line
  | .grouping inner => inner.line
  | .expression value => value.line
  | .print value => value.line
  | .literal _ | .hollow _ | .missing | .block _ => 0

/-! ## Nesting -/

mutual

/-- The number of nodes on the longest way down. -/
def depth : Node → Nat
  | .binary left _ right => max left.depth right.depth + 1
  | .unary _ operand => operand.depth + 1
  | .grouping inner => inner.depth + 1
  | .expression value => value.depth + 1
  | .print value => value.depth + 1
  | .declaration _ initializer _ => initializer.depth + 1
  | .literal _ | .hollow _ | .reference .. => 1
  | .missing => 0
  | .block statements => depthList statements + 1

def depthList : List Node → Nat
  | [] => 0
  | node :: rest => max node.depth (depthList rest)

end

/-- The words about a number without value. -/
def noNumberMessage : String := "must be real number, not NoneType"

/-! ## Equality -/

mutual

/-- Whether two trees agree in every field. -/
def same : Node → Node → Bool
  | .binary l o r, .binary l' o' r' => l.same l' && o == o' && r.same r'
  | .unary o x, .unary o' x' => o == o' && x.same x'
  | .grouping x, .grouping x' => x.same x'
  | .literal v, .literal v' => v == v'
  | .hollow k, .hollow k' => k == k'
  | .reference name line, .reference name' line' => name == name' && line == line'
  | .expression x, .expression x' => x.same x'
  | .print x, .print x' => x.same x'
  | .declaration name x line, .declaration name' x' line' =>
      name == name' && x.same x' && line == line'
  | .missing, .missing => true
  | .block xs, .block xs' => sameList xs xs'
  | _, _ => false

def sameList : List Node → List Node → Bool
  | [], [] => true
  | x :: xs, y :: ys => x.same y && sameList xs ys
  | _, _ => false

end

end Node

end LoxLang
