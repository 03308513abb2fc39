/-
# LoxLang.Token -- the words of the language

A token is a classified lexeme: its kind, the text it was read from, what the text
stands for, and a line.  Names carry themselves as literal, strings the text between
their quotes, numbers their value; keywords and punctuation carry nothing.
-/
import LoxLang.Number
import LoxLang.Text.Quoted

namespace LoxLang

set_option autoImplicit false

/-- The kinds of token; those that start with `word` are the keywords. -/
inductive TokenKind where
  | leftParen | rightParen | leftBrace | rightBrace | comma | dot | minus | plus | semicolon
  | slash | star | bang | bangEqual | equal | equalEqual | greater | greaterEqual | less
  | lessEqual | identifier | string | number | wordAnd | wordClass | wordElse | wordFalse
  | wordFun | wordFor | wordIf | wordNil | wordOr | wordPrint | wordReturn | wordSuper | wordThis
  | wordTrue | wordVar | wordWhile | endOfInput
  deriving DecidableEq, Repr

namespace TokenKind

/-- The name under which a kind is written in files and listings. -/
def name : TokenKind → String
  | .leftParen => "LEFT_PAREN"
  | .rightParen => "RIGHT_PAREN"
  | .leftBrace => "LEFT_BRACE"
  | .rightBrace => "RIGHT_BRACE"
  | .comma => "COMMA"
  | .dot => "DOT"
  | .minus => "MINUS"
  | .plus => "PLUS"
  | .semicolon => "SEMICOLON"
  | .slash => "SLASH"
  | .star => "STAR"
  | .bang => "BANG"
  | .bangEqual => "BANG_EQUAL"
  | .equal => "EQUAL"
  | .equalEqual => "EQUAL_EQUAL"
  | .greater => "GREATER"
  | .greaterEqual => "GREATER_EQUAL"
  | .less => "LESS"
  | .lessEqual => "LESS_EQUAL"
  | .identifier => "IDENTIFIER"
  | .string => "STRING"
  | .number => "NUMBER"
  | .wordAnd => "AND"
  | .wordClass => "CLASS"
  | .wordElse => "ELSE"
  | .wordFalse => "FALSE"
  | .wordFun => "FUN"
  | .wordFor => "FOR"
  | .wordIf => "IF"
  | .wordNil => "NIL"
  | .wordOr => "OR"
  | .wordPrint => "PRINT"
  | .wordReturn => "RETURN"
  | .wordSuper => "SUPER"
  | .wordThis => "THIS"
  | .wordTrue => "TRUE"
  | .wordVar => "VAR"
  | .wordWhile => "WHILE"
  | .endOfInput => "EOF"

/-- Every kind, in the order of their declaration. -/
def all : List TokenKind :=
  [.leftParen, .rightParen, .leftBrace, .rightBrace, .comma, .dot, .minus, .plus, .semicolon,
   .slash, .star, .bang, .bangEqual, .equal, .equalEqual, .greater, .greaterEqual, .less,
   .lessEqual, .identifier, .string, .number, .wordAnd, .wordClass, .wordElse, .wordFalse,
   .wordFun, .wordFor, .wordIf, .wordNil, .wordOr, .wordPrint, .wordReturn, .wordSuper,
   .wordThis, .wordTrue, .wordVar, .wordWhile, .endOfInput]

/-- The kind with a given name. -/
def ofName? (name : String) : Option TokenKind := all.find? fun kind => kind.name == name

/-- The keyword spelled by a word. -/
def keyword? : String → Option TokenKind
  | "and" => some .wordAnd
  | "class" => some .wordClass
  | "else" => some .wordElse
  | "false" => some .wordFalse
  | "for" => some .wordFor
  | "fun" => some .wordFun
  | "if" => some .wordIf
  | "nil" => some .wordNil
  | "or" => some .wordOr
  | "print" => some .wordPrint
  | "return" => some .wordReturn
  | "super" => some .wordSuper
  | "this" => some .wordThis
  | "true" => some .wordTrue
  | "var" => some .wordVar
  | "while" => some .wordWhile
  | _ => none

end TokenKind

/-- What a token stands for. -/
inductive Literal where
  | text (s : Text)
  | number (x : Float)
  deriving DecidableEq

/-- The text of a literal in listings. -/
def Literal.describe : Literal → Text
  | .text s => Text.quoted s
  | .number x => Number.literal x

structure Token where
  kind : TokenKind
  lexeme : Text
  literal : Option Literal
  line : Int
  deriving DecidableEq

namespace Token

/-- The token that ends every scanned text. -/
def ending : Token := ⟨.endOfInput, "", none, 0⟩

/-- A token in a listing: kind, literal if there is one, and line. -/
def describe (t : Token) : Text :=
  match t.literal with
  | none => t.kind.name ++ "@" ++ toString t.line
  | some literal => t.kind.name ++ "(" ++ literal.describe ++ ")@" ++ toString t.line

end Token

end LoxLang
