/-
# LoxLang.Token.Scan -- cutting a text into tokens

A text is cut into segments from left to right, each the longest one that can stand at
its place: a token, one blank, a comment up to the end of its line, one character that
starts nothing, or a string that never closes.  No character is lost, so the segments
concatenate to the text (`flatMap_text_cut`).

Lines are counted afterwards.  A token's line is the one on which it ends, which matters
for strings only; a fault's line is the one on which its segment starts.
-/
import LoxLang.Diagnostic
import LoxLang.Numeral

namespace LoxLang

set_option autoImplicit false

namespace Lexeme

def isDigit (c : Char) : Bool := '0' ≤ c && c ≤ '9'

def isNameStart (c : Char) : Bool := ('a' ≤ c && c ≤ 'z') || ('A' ≤ c && c ≤ 'Z') || c == '_'

def isNameChar (c : Char) : Bool := isNameStart c || isDigit c

/-- The kind of a character that is a token whatever follows it. -/
def single? : Char → Option TokenKind
  | '(' => some .leftParen
  | ')' => some .rightParen
  | '\x7b' => some .leftBrace
  | '\x7d' => some .rightBrace
  | ',' => some .comma
  | '.' => some .dot
  | '-' => some .minus
  | '+' => some .plus
  | ';' => some .semicolon
  | '*' => some .star
  | _ => none

/-- The kinds of a character with an equals sign behind it and without one. -/
def paired? : Char → Option (TokenKind × TokenKind)
  | '!' => some (.bangEqual, .bang)
  | '=' => some (.equalEqual, .equal)
  | '<' => some (.lessEqual, .less)
  | '>' => some (.greaterEqual, .greater)
  | _ => none

/-- The digits behind the point of a number whose further digits open the text `cs`; there are none
unless a digit follows the point. -/
def fraction (cs : List Char) : List Char :=
  match cs.dropWhile isDigit with
  | '.' :: rest => rest.takeWhile isDigit
  | _ => []

/-- The characters of a number. -/
def numberText (whole fraction : List Char) : List Char :=
  if fraction.isEmpty then whole else whole ++ '.' :: fraction

/-- The value of a number. -/
def numberValue (whole fraction : List Char) : Float :=
  Numeral.float (whole.map Numeral.digit) (fraction.map Numeral.digit) 0

end Lexeme

/-- What a segment of a text is. -/
inductive SegmentKind where
  | token (kind : TokenKind) (literal : Option Literal)
  | blank
  | comment
  | unexpected
  | unterminated
  deriving DecidableEq

structure Segment where
  kind : SegmentKind
  text : List Char
  deriving DecidableEq

namespace Segment

open Lexeme

/-- The segment of a word: a keyword or a name. -/
def word (text : List Char) : Segment :=
  match TokenKind.keyword? (String.ofList text) with
  | some kind => ⟨.token kind none, text⟩
  | none => ⟨.token .identifier (some (.text (Text.ofChars text))), text⟩

/-- The segment of a number that starts with the digit `c`. -/
def number (c : Char) (cs : List Char) : Segment :=
  let whole := c :: cs.takeWhile isDigit
  ⟨.token .number (some (.number (numberValue whole (fraction cs)))), numberText whole (fraction cs)⟩

/-- The segment that starts with a double quote. -/
def string (cs : List Char) : Segment :=
  let body := cs.takeWhile (· != '"')
  match cs.dropWhile (· != '"') with
  | [] => ⟨.unterminated, '"' :: body⟩
  | _ :: _ => ⟨.token .string (some (.text (Text.ofChars body))), '"' :: body ++ ['"']⟩

/-- The segment at the head of a text that starts with `c`. -/
def first (c : Char) (cs : List Char) : Segment :=
  match single? c, paired? c with
  | some kind, _ => ⟨.token kind none, [c]⟩
  | none, some (doubled, alone) =>
      if cs.head? = some '=' then ⟨.token doubled none, [c, '=']⟩ else ⟨.token alone none, [c]⟩
  | none, none =>
      if c = '/' then
        if cs.head? = some '/' then ⟨.comment, c :: cs.takeWhile (· != '\n')⟩
        else ⟨.token .slash none, [c]⟩
      else if c = ' ' || c = '\r' || c = '\t' || c = '\n' then ⟨.blank, [c]⟩
      else if c = '"' then string cs
      else if isDigit c then number c cs
      else if isNameStart c then word (c :: cs.takeWhile isNameChar)
      else ⟨.unexpected, [c]⟩

theorem numberText_prefix (c : Char) (cs : List Char) :
    numberText (c :: cs.takeWhile isDigit) (fraction cs) <+: c :: cs := by
  have whole : cs.takeWhile isDigit ++ cs.dropWhile isDigit = cs := List.takeWhile_append_dropWhile
  unfold numberText
  split
  · exact ⟨cs.dropWhile isDigit, by simp [whole]⟩
  · rename_i digits
    unfold fraction at digits ⊢
    split at digits
    · rename_i rest tail
      refine ⟨rest.dropWhile isDigit, ?_⟩
      simp only [List.cons_append, List.append_assoc, List.takeWhile_append_dropWhile]
      rw [← tail, whole]
    · simp at digits

theorem string_prefix (cs : List Char) : (string cs).text <+: '"' :: cs := by
  have body : cs.takeWhile (· != '"') ++ cs.dropWhile (· != '"') = cs :=
    List.takeWhile_append_dropWhile
  unfold string
  split
  · rename_i tail
    rw [tail] at body
    exact ⟨[], by simpa using body⟩
  · rename_i quote rest tail
    have closing : quote = '"' := by
      have := List.head?_dropWhile_not (· != '"') cs
      rw [tail] at this
      simpa using this
    refine ⟨rest, ?_⟩
    rw [tail, closing] at body
    simp [body]

theorem text_word (text : List Char) : (word text).text = text := by
  unfold word; split <;> rfl

/-- A segment is the head of the text it is cut from. -/
theorem text_first_prefix (c : Char) (cs : List Char) : (first c cs).text <+: c :: cs := by
  unfold first
  split
  · simp
  · split
    · rename_i next
      cases cs with
      | nil => simp at next
      | cons d rest => simp_all
    · simp
  · repeat' split
    · exact (List.prefix_cons_inj c).mpr (List.takeWhile_prefix _)
    · simp
    · simp
    · rename_i quote
      rw [quote]
      exact string_prefix cs
    · exact numberText_prefix c cs
    · rw [text_word]
      exact (List.prefix_cons_inj c).mpr (List.takeWhile_prefix _)
    · simp

/-- Every segment takes at least one character. -/
theorem text_first_ne_nil (c : Char) (cs : List Char) : (first c cs).text ≠ [] := by
  unfold first
  split
  · simp
  · split <;> simp
  · repeat' split
    · simp
    · simp
    · simp
    · unfold string; split <;> simp
    · unfold number numberText; simp only; split <;> simp
    · simp [text_word]
    · simp

/-- The segments of a text. -/
def cut : List Char → List Segment
  | [] => []
  | c :: cs =>
      let segment := first c cs
      segment :: cut ((c :: cs).drop segment.text.length)
termination_by cs => cs.length
decreasing_by
  have := List.length_pos_iff.mpr (text_first_ne_nil c cs)
  simp only [List.length_drop, List.length_cons]
  omega

/-- No character is lost: the segments of a text concatenate to it. -/
theorem flatMap_text_cut (cs : List Char) : (cut cs).flatMap text = cs := by
  fun_induction cut cs with
  | case1 => rfl
  | case2 c cs segment ih =>
      obtain ⟨rest, same⟩ := text_first_prefix c cs
      rw [List.flatMap_cons, ih]
      simp [segment, ← same]

def newlines (s : Segment) : Nat := s.text.count '\n'

/-- The token of a segment that ends on a line. -/
def token? (s : Segment) (line : Nat) : Option Token :=
  match s.kind with
  | .token kind literal => some ⟨kind, Text.ofChars s.text, literal, line⟩
  | _ => none

/-- The fault of a segment that starts on a line. -/
def fault? (s : Segment) (line : Nat) : Option Diagnostic :=
  match s.kind with
  | .unexpected => some (.atLine line "Unexpected character.")
  | .unterminated => some (.atLine line "Unterminated string.")
  | _ => none

/-- The tokens of segments, the first of which starts on `line`. -/
def tokens (line : Nat) : List Segment → List Token
  | [] => []
  | s :: rest => (s.token? (line + s.newlines)).toList ++ tokens (line + s.newlines) rest

/-- The faults of segments, the first of which starts on `line`. -/
def faults (line : Nat) : List Segment → List Diagnostic
  | [] => []
  | s :: rest => (s.fault? line).toList ++ faults (line + s.newlines) rest

end Segment

/-- The tokens of a text, closed by the one that ends it, and the faults met on the way. -/
structure Scan where
  tokens : List Token
  diagnostics : List Diagnostic
  deriving DecidableEq

/-- Scan a text. -/
def scan (source : String) : Scan :=
  let segments := Segment.cut source.toList
  ⟨Segment.tokens 1 segments ++ [Token.ending], Segment.faults 1 segments⟩

end LoxLang
