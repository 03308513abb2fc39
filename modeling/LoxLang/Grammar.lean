/-
# LoxLang.Grammar -- statements and expressions

    program     := declaration*
    declaration := "var" NAME ( "=" expression )? ";" | statement
    statement   := "print" expression ";" | expression ";"
    expression  := equality
    equality    := comparison ( ( "!=" | "==" ) comparison )*
    comparison  := term ( ( ">" | ">=" | "<" | "<=" ) term )*
    term        := factor ( ( "-" | "+" ) factor )*
    factor      := unary ( ( "/" | "*" ) unary )*
    unary       := ( "!" | "-" ) unary | primary
    primary     := "true" | "false" | "nil" | NUMBER | STRING | NAME | "(" expression ")"

Binary operators group to the left, unary ones to the right.  Two front ends read this
grammar.  What they share is here: the literals that tokens stand for, and the outcome of
reading.  Recursive descent also follows the rules one by one, so it takes their operators
from here.
-/
import LoxLang.Diagnostic
import LoxLang.Node

namespace LoxLang

set_option autoImplicit false

/-- The rules for expressions, from the loosest to the tightest. -/
inductive Rule where
  | expression | equality | comparison | term | factor | unary | primary
  deriving DecidableEq, Repr

/-- The operators that recursive descent looks for in a rule of binary or unary expressions. -/
def Rule.operators : Rule → List TokenKind
  | .equality => [.bangEqual, .equalEqual]
  | .comparison => [.greater, .greaterEqual, .less, .lessEqual]
  | .term => [.minus, .plus]
  | .factor => [.slash, .star]
  | .unary => [.bang, .minus]
  | .expression | .primary => []

namespace Token

/-- The literal of a number token; one that carries no number is hollow. -/
def numberLiteral (t : Token) : Node :=
  match t.literal with
  | some (.number x) => .literal (.number x)
  | _ => .hollow .number

/-- The literal of a string token; one that carries no text is hollow. -/
def stringLiteral (t : Token) : Node :=
  match t.literal with
  | some (.text s) => .literal (.string s)
  | _ => .hollow .string

/-- The expression that a token is by itself. -/
def atom? (t : Token) : Option Node :=
  match t.kind with
  | .wordFalse => some (.literal (.boolean false))
  | .wordTrue => some (.literal (.boolean true))
  | .wordNil => some (.literal .nil)
  | .number => some t.numberLiteral
  | .string => some t.stringLiteral
  | .identifier => some (.reference t.lexeme t.line)
  | _ => none

end Token

/-- The outcome of reading a program: its statements, and what was wrong with its text. -/
structure Reading where
  statements : List Node
  diagnostics : List Diagnostic

/-- The message for an expression that nests beyond a limit. -/
def tooDeepMessage : String := "Expression nesting too deep."

end LoxLang
