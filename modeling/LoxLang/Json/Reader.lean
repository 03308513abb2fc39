/-
# LoxLang.Json.Reader -- reading JSON text

The reader takes standard JSON and the words for infinite and undefined numbers.  A
fault is reported with its place: the line, the column and the count of characters in
front of it.  A reader returns what it leaves unread, so a place is known from the
length of the rest.

Arrays and objects may nest to a limit.  The recursion runs on that limit; the loops
over items, fields and characters run on a fuel that starts as the length of the text,
and every round of a loop takes at least one character.
-/
import LoxLang.Entries
import LoxLang.Json
import LoxLang.Numeral

namespace LoxLang.Json

set_option autoImplicit false

/-- Faults that have a place in the text. -/
inductive Flaw where
  | expectedValue | expectedName | expectedColon | expectedComma
  | unterminatedString | badEscape | badUnicodeEscape | controlCharacter
  | extraData | byteOrderMark
  deriving DecidableEq, Repr

def Flaw.message : Flaw → String
  | .expectedValue => "Expecting value"
  | .expectedName => "Expecting property name enclosed in double quotes"
  | .expectedColon => "Expecting ':' delimiter"
  | .expectedComma => "Expecting ',' delimiter"
  | .unterminatedString => "Unterminated string starting at"
  | .badEscape => "Invalid \\escape"
  | .badUnicodeEscape => "Invalid \\uXXXX escape"
  | .controlCharacter => "Invalid control character at"
  | .extraData => "Extra data"
  | .byteOrderMark => "Unexpected UTF-8 BOM (decode using utf-8-sig)"

/-- The two kinds of container. -/
inductive Container where
  | array | object
  deriving DecidableEq, Repr

def Container.name : Container → String
  | .array => "array"
  | .object => "object"

/-- Why reading stops: a flaw in front of a rest of known length, containers nested too deeply, or
an integer with too many digits. -/
inductive Stop where
  | flaw (cause : Flaw) (remaining : Nat)
  | tooDeep (container : Container)
  | tooManyDigits (count : Nat)
  deriving DecidableEq, Repr

namespace Reader

/-- A reader of the head of a text, which returns the rest. -/
abbrev Read (α : Type) := List Char → Except Stop (α × List Char)

def isGap (c : Char) : Bool := c = ' ' || c = '\t' || c = '\n' || c = '\r'

def skipGap (cs : List Char) : List Char := cs.dropWhile isGap

def stopAt {α : Type} (cause : Flaw) (rest : List Char) : Except Stop α :=
  .error (.flaw cause rest.length)

/-! ## Strings -/

def hexValue? (c : Char) : Option Nat :=
  if '0' ≤ c && c ≤ '9' then some (c.toNat - '0'.toNat)
  else if 'a' ≤ c && c ≤ 'f' then some (c.toNat - 'a'.toNat + 10)
  else if 'A' ≤ c && c ≤ 'F' then some (c.toNat - 'A'.toNat + 10)
  else none

/-- Four hexadecimal digits with at least one character behind them. -/
def unit? : List Char → Option (Nat × List Char)
  | a :: b :: c :: d :: next :: rest => do
      let n ← [a, b, c, d].foldlM (fun n c => (hexValue? c).map (16 * n + ·)) 0
      return (n, next :: rest)
  | _ => none

def isHighSurrogate (n : Nat) : Bool := 0xd800 ≤ n && n < 0xdc00

def isLowSurrogate (n : Nat) : Bool := 0xdc00 ≤ n && n < 0xe000

/-- The character of two surrogates. -/
def pairChar (high low : Nat) : Char := Char.ofNat (0x10000 + (high - 0xd800) * 0x400 + (low - 0xdc00))

/-- The rest of an escape by code unit, behind its `u`.  A high surrogate joins a low one that follows
it as another escape, if the text goes on behind that one. -/
def unicodeEscape (cs : List Char) : Except Stop (CodePoint × List Char) :=
  match unit? cs with
  | none => .error (.flaw .badUnicodeEscape (cs.length + 1))
  | some (n, rest) =>
      match isHighSurrogate n, rest with
      | true, '\\' :: 'u' :: second =>
          if second.length ≤ 4 then .ok (.ofUnit n, rest)
          else match unit? second with
            | none => .error (.flaw .badUnicodeEscape (second.length + 1))
            | some (m, rest') =>
                if isLowSurrogate m then .ok (.char (pairChar n m), rest') else .ok (.ofUnit n, rest)
      | _, _ => .ok (.ofUnit n, rest)

/-- The character of a one letter escape. -/
def escaped? : Char → Option Char
  | '"' => some '"'
  | '\\' => some '\\'
  | '/' => some '/'
  | 'b' => some '\x08'
  | 'f' => some '\x0c'
  | 'n' => some '\n'
  | 'r' => some '\r'
  | 't' => some '\t'
  | _ => none

/-- The rest of an escape, behind its backslash, in a string that starts at `opening`. -/
def escape (opening : List Char) : List Char → Except Stop (CodePoint × List Char)
  | [] => stopAt .unterminatedString opening
  | 'u' :: rest => unicodeEscape rest
  | c :: rest =>
      match escaped? c with
      | some d => .ok (.char d, rest)
      | none => .error (.flaw .badEscape (rest.length + 2))

/-- The rest of a string behind the quote at `opening`; `done` holds the code points read so far,
the last one first. -/
def stringBody (opening : List Char) : Nat → Text → Read Text
  | 0, _, _ => stopAt .unterminatedString opening
  | _ + 1, _, [] => stopAt .unterminatedString opening
  | fuel + 1, done, c :: rest =>
      if c = '"' then .ok (done.reverse, rest)
      else if c = '\\' then
        match escape opening rest with
        | .error stop => .error stop
        | .ok (d, rest) => stringBody opening fuel (d :: done) rest
      else if c.toNat ≤ 0x1f then stopAt .controlCharacter (c :: rest)
      else stringBody opening fuel (.char c :: done) rest

/-! ## Numbers -/

def isDigit (c : Char) : Bool := '0' ≤ c && c ≤ '9'

/-- The digits in front of the point: a zero alone, or digits that start with another one. -/
def wholeDigits : List Char → List Char × List Char
  | '0' :: rest => (['0'], rest)
  | cs => (cs.takeWhile isDigit, cs.dropWhile isDigit)

/-- The digits behind a point, if there are any. -/
def fractionDigits : List Char → List Char × List Char
  | '.' :: rest =>
      if (rest.takeWhile isDigit).isEmpty then ([], '.' :: rest)
      else (rest.takeWhile isDigit, rest.dropWhile isDigit)
  | cs => ([], cs)

/-- The exponent, if there is one with digits. -/
def exponent? : List Char → Option (Int × List Char)
  | [] => none
  | mark :: rest =>
      if mark = 'e' || mark = 'E' then
        let (negative, rest) := Numeral.sign rest
        let digits := rest.takeWhile isDigit
        if digits.isEmpty then none
        else some (Numeral.integer negative (digits.map Numeral.digit), rest.dropWhile isDigit)
      else none

/-- A number: an integer unless it has a fraction or an exponent. -/
def number (cs : List Char) : Except Stop (Json × List Char) :=
  let negative := cs.head? = some '-'
  let (whole, rest) := wholeDigits (if negative then cs.drop 1 else cs)
  if whole.isEmpty then stopAt .expectedValue cs
  else
    let (fraction, rest) := fractionDigits rest
    let wholeValues := whole.map Numeral.digit
    let real (exponent : Int) : Json :=
      let x := Numeral.float wholeValues (fraction.map Numeral.digit) exponent
      .real (if negative then -x else x)
    match exponent? rest with
    | some (exponent, rest) => .ok (real exponent, rest)
    | none =>
        if !fraction.isEmpty then .ok (real 0, rest)
        else if Numeral.maxDigits < whole.length then .error (.tooManyDigits whole.length)
        else .ok (.integer (Numeral.integer negative wholeValues), rest)

/-! ## Values -/

/-- The words that are values. -/
def words : List (List Char × Json) :=
  [("null".toList, .null), ("true".toList, .boolean true), ("false".toList, .boolean false),
   ("NaN".toList, .real (Float.ofBits 0x7ff8000000000000)),
   ("Infinity".toList, .real (Float.ofBits 0x7ff0000000000000)),
   ("-Infinity".toList, .real (Float.ofBits 0xfff0000000000000))]

/-- A word or a number. -/
def scalar (cs : List Char) : Except Stop (Json × List Char) :=
  match words.find? fun word => word.1.isPrefixOf cs with
  | some (word, value) => .ok (value, cs.drop word.length)
  | none => number cs

/-- The items of an array, from the first character of one; `done` holds the earlier ones, the last
one first. -/
def items (value : Read Json) : Nat → List Json → Read Json
  | 0, _, cs => stopAt .expectedValue cs
  | fuel + 1, done, cs =>
      match value cs with
      | .error stop => .error stop
      | .ok (item, rest) =>
          match skipGap rest with
          | ']' :: rest => .ok (.array (item :: done).reverse, rest)
          | ',' :: rest => items value fuel (item :: done) (skipGap rest)
          | rest => stopAt .expectedComma rest

/-- One field of an object: its name, a colon and its value. -/
def field (value : Read Json) (fuel : Nat) : Read (Text × Json)
  | '"' :: rest =>
      match stringBody ('"' :: rest) fuel [] rest with
      | .error stop => .error stop
      | .ok (name, rest) =>
          match skipGap rest with
          | ':' :: rest =>
              match value (skipGap rest) with
              | .error stop => .error stop
              | .ok (item, rest) => .ok ((name, item), rest)
          | rest => stopAt .expectedColon rest
  | rest => stopAt .expectedName rest

/-- The fields of an object, from the first character of one; a later field of the same name wins. -/
def fields (value : Read Json) : Nat → List (Text × Json) → Read Json
  | 0, _, cs => stopAt .expectedName cs
  | fuel + 1, done, cs =>
      match field value (fuel + 1) cs with
      | .error stop => .error stop
      | .ok ((name, item), rest) =>
          match skipGap rest with
          | '\x7d' :: rest => .ok (.object (Entries.put name item done), rest)
          | ',' :: rest => fields value fuel (Entries.put name item done) (skipGap rest)
          | rest => stopAt .expectedComma rest

/-- A value in which containers nest at most `limit` deep. -/
def value (fuel : Nat) : Nat → Read Json
  | _, [] => stopAt .expectedValue []
  | _, '"' :: rest =>
      match stringBody ('"' :: rest) fuel [] rest with
      | .error stop => .error stop
      | .ok (s, rest) => .ok (.string s, rest)
  | 0, '[' :: _ => .error (.tooDeep .array)
  | 0, '\x7b' :: _ => .error (.tooDeep .object)
  | limit + 1, '[' :: rest =>
      match skipGap rest with
      | ']' :: rest => .ok (.array [], rest)
      | rest => items (value fuel limit) fuel [] rest
  | limit + 1, '\x7b' :: rest =>
      match skipGap rest with
      | '\x7d' :: rest => .ok (.object [], rest)
      | rest => fields (value fuel limit) fuel [] rest
  | _, cs => scalar cs

end Reader

/-- Why a text is not read, with the place of a flaw worked out. -/
inductive ReadError where
  | flaw (cause : Flaw) (line column offset : Nat)
  | tooDeep (container : Container)
  | tooManyDigits (count : Nat)
  deriving DecidableEq, Repr

namespace ReadError

/-- The place in front of which `offset` characters stand. -/
def locate (cause : Flaw) (cs : List Char) (offset : Nat) : ReadError :=
  let front := cs.take offset
  .flaw cause (front.count '\n' + 1) ((front.reverse.takeWhile (· != '\n')).length + 1) offset

def ofStop (cs : List Char) : Stop → ReadError
  | .flaw cause remaining => locate cause cs (cs.length - remaining)
  | .tooDeep container => .tooDeep container
  | .tooManyDigits count => .tooManyDigits count

def message : ReadError → String
  | .flaw cause line column offset =>
      cause.message ++ ": line " ++ toString line ++ " column " ++ toString column ++
        " (char " ++ toString offset ++ ")"
  | .tooDeep container =>
      "maximum recursion depth exceeded while decoding a JSON " ++ container.name ++
        " from a unicode string"
  | .tooManyDigits count => Numeral.tooManyDigitsMessage count

end ReadError

/-- Read a text that holds one value, in which containers nest at most `limit` deep. -/
def read (limit : Nat) (text : String) : Except ReadError Json :=
  let cs := text.toList
  if cs.head? = some '\ufeff' then .error (ReadError.locate .byteOrderMark cs 0)
  else
    match Reader.value cs.length limit (Reader.skipGap cs) with
    | .error stop => .error (ReadError.ofStop cs stop)
    | .ok (value, rest) =>
        match Reader.skipGap rest with
        | [] => .ok value
        | rest => .error (ReadError.ofStop cs (.flaw .extraData rest.length))

end LoxLang.Json
