/-
# LoxLang.Grammar.Stream -- tokens up to the first bad character

The stream front end reads a text by terminals.  A terminal says how many characters it
takes at the head of a text, if any; of the terminals that take some, the first one in
the list wins, and the marks of two characters stand before those of one.  Blanks, the
form feed among them, and comments give no token.

A word that the language reserves but the grammar never uses is no name, unless a letter
of another script stands right behind it.  Where no terminal takes a character the stream
breaks off; that is so for braces, the comma, the point and the reserved words too.  A
token's line is the one on which it starts.
-/
import LoxLang.Text.Word
import LoxLang.Token.Scan

namespace LoxLang

set_option autoImplicit false

/-- The tokens of a text, and the fault at which they break off if there is one. -/
structure Stream where
  tokens : List Token
  fault : Option Diagnostic
  deriving DecidableEq

namespace Stream

open Lexeme

/-! ## Terminals -/

inductive Terminal where
  | name
  | comment
  | number
  | string
  | blanks
  | mark (kind : TokenKind) (text : List Char)
  deriving DecidableEq

/-- The punctuation of the grammar, the longer marks first. -/
def marks : List Terminal :=
  [.mark .bangEqual ['!', '='], .mark .equalEqual ['=', '='], .mark .greaterEqual ['>', '='],
   .mark .lessEqual ['<', '='], .mark .greater ['>'], .mark .less ['<'], .mark .minus ['-'],
   .mark .plus ['+'], .mark .slash ['/'], .mark .star ['*'], .mark .bang ['!'], .mark .equal ['='],
   .mark .semicolon [';'], .mark .leftParen ['('], .mark .rightParen [')']]

/-- The terminals, in the order in which they are tried. -/
def terminals : List Terminal := [.name, .comment, .number, .string, .blanks] ++ marks

/-- The words that are no names although the grammar never uses them. -/
def reservedWords : List String :=
  ["and", "class", "else", "for", "fun", "if", "or", "return", "super", "this", "while"]

/-- Whether a reserved word stands at the head of a text and ends there. -/
def reservedAhead (cs : List Char) : Bool :=
  reservedWords.any fun word =>
    word.toList.isPrefixOf cs && !(cs.drop word.toList.length).head?.any Text.isWordChar

def isBlank (c : Char) : Bool := c = ' ' || c = '\t' || c = '\x0c' || c = '\r' || c = '\n'

/-- A point and the digits behind it, if there are any. -/
def optionalFraction : List Char → List Char
  | '.' :: c :: cs => if isDigit c then '.' :: c :: cs.takeWhile isDigit else []
  | _ => []

/-- What a terminal takes behind `c`, if it takes `c`. -/
def Terminal.take? (c : Char) (cs : List Char) : Terminal → Option (List Char)
  | .name => if isNameStart c && !reservedAhead (c :: cs) then some (cs.takeWhile isNameChar) else none
  | .comment => if c = '/' && cs.head? = some '/' then some (cs.takeWhile (· != '\n')) else none
  | .number =>
      if isDigit c then some (cs.takeWhile isDigit ++ optionalFraction (cs.dropWhile isDigit)) else none
  | .string => if c = '"' && cs.contains '"' then some (cs.takeWhile (· != '"') ++ ['"']) else none
  | .blanks => if isBlank c then some (cs.takeWhile isBlank) else none
  | .mark _ text => if text.isPrefixOf (c :: cs) then some text.tail else none

/-- The first terminal that takes `c`, and what it takes behind it. -/
def first? (c : Char) (cs : List Char) : Option (Terminal × List Char) :=
  terminals.findSome? fun terminal => (terminal.take? c cs).map (terminal, ·)

/-- The words of the grammar. -/
def word? : String → Option TokenKind
  | "var" => some .wordVar
  | "print" => some .wordPrint
  | "true" => some .wordTrue
  | "false" => some .wordFalse
  | "nil" => some .wordNil
  | _ => none

/-- The token of a terminal whose characters start on a line. -/
def Terminal.token? (line : Nat) (text : List Char) : Terminal → Option Token
  | .name =>
      match word? (String.ofList text) with
      | some kind => some ⟨kind, Text.ofChars text, none, line⟩
      | none => some ⟨.identifier, Text.ofChars text, some (.text (Text.ofChars text)), line⟩
  | .number =>
      let value := numberValue (text.takeWhile isDigit) ((text.dropWhile isDigit).drop 1)
      some ⟨.number, Text.ofChars text, some (.number value), line⟩
  | .string => some ⟨.string, Text.ofChars text, some (.text (Text.ofChars text.tail.dropLast)), line⟩
  | .mark kind _ => some ⟨kind, Text.ofChars text, none, line⟩
  | .comment | .blanks => none

/-! ## Streams -/

def breakOff (line : Nat) (message : Text) : Stream := ⟨[], some (.atLine line message)⟩

/-- A stream with a token in front, if there is one. -/
def push (token : Option Token) (stream : Stream) : Stream :=
  { stream with tokens := token.toList ++ stream.tokens }

/-- The message about a character that no terminal takes. -/
def message (c : Char) : String := if c = '"' then "Unterminated string." else "Unexpected character."

/-- The stream of a text that starts on a line. -/
def lex (line : Nat) : List Char → Stream
  | [] => ⟨[], none⟩
  | c :: cs =>
      match first? c cs with
      | none => breakOff line (message c)
      | some (terminal, further) =>
          push (terminal.token? line (c :: further))
            (lex (line + (c :: further).count '\n') (cs.drop further.length))
termination_by cs => cs.length
decreasing_by
  simp only [List.length_drop, List.length_cons]
  omega

/-- The stream of a text. -/
def ofText (source : String) : Stream := lex 1 source.toList

end Stream

end LoxLang
