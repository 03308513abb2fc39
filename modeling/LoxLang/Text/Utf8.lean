/-
# LoxLang.Text.Utf8 -- texts in files

Bytes are read as UTF-8 in the strict form: no overlong sequences, no surrogates, nothing
beyond the last code point.  A fault covers the bytes that could have started a
character, and says whether the next byte does not fit or the data ends too early.  In
the other direction a text with surrogates has no bytes; the fault covers the first
unbroken run of them.

Text files end their lines in any of three ways; inside the program a line ends with a
line feed.
-/
import LoxLang.Text.Quoted

namespace LoxLang.Text

set_option autoImplicit false

inductive Utf8Cause where
  | invalidStart | invalidContinuation | unexpectedEnd
  deriving DecidableEq, Repr

def Utf8Cause.message : Utf8Cause → String
  | .invalidStart => "invalid start byte"
  | .invalidContinuation => "invalid continuation byte"
  | .unexpectedEnd => "unexpected end of data"

/-- A fault that covers bytes from a position on. -/
structure Utf8Error where
  cause : Utf8Cause
  position : Nat
  bytes : List UInt8
  deriving DecidableEq

def Utf8Error.message (e : Utf8Error) : String :=
  let covered := match e.bytes with
    | [byte] => "byte 0x" ++ hexCode 2 byte.toNat ++ " in position " ++ toString e.position
    | bytes => "bytes in position " ++ toString e.position ++ "-" ++
        toString (e.position + bytes.length - 1)
  "'utf-8' codec can't decode " ++ covered ++ ": " ++ e.cause.message

/-- The bits that a start byte contributes, and the range of each byte that has to follow it. -/
def continuations (byte : Nat) : Option (Nat × List (Nat × Nat)) :=
  let tail := (0x80, 0xbf)
  if byte < 0x80 then some (byte, [])
  else if byte < 0xc2 then none
  else if byte < 0xe0 then some (byte - 0xc0, [tail])
  else if byte = 0xe0 then some (0, [(0xa0, 0xbf), tail])
  else if byte = 0xed then some (0xd, [(0x80, 0x9f), tail])
  else if byte < 0xf0 then some (byte - 0xe0, [tail, tail])
  else if byte = 0xf0 then some (0, [(0x90, 0xbf), tail, tail])
  else if byte < 0xf4 then some (byte - 0xf0, [tail, tail, tail])
  else if byte = 0xf4 then some (4, [(0x80, 0x8f), tail, tail])
  else none

/-- Where a character is read: the bytes of it so far, the last one first, its bits so far, and the
ranges of the bytes it still needs. -/
structure Pending where
  bytes : List UInt8
  bits : Nat
  needed : List (Nat × Nat)

/-- Read bytes that stand at a position; `done` holds the characters so far, the last one first. -/
def decodeBytes : (position : Nat) → Option Pending → List Char → List UInt8 →
    Except Utf8Error (List Char)
  | _, none, done, [] => .ok done.reverse
  | position, some p, _, [] =>
      .error ⟨.unexpectedEnd, position - p.bytes.length, p.bytes.reverse⟩
  | position, none, done, byte :: rest =>
      match continuations byte.toNat with
      | none => .error ⟨.invalidStart, position, [byte]⟩
      | some (bits, []) => decodeBytes (position + 1) none (Char.ofNat bits :: done) rest
      | some (bits, needed) => decodeBytes (position + 1) (some ⟨[byte], bits, needed⟩) done rest
  | position, some p, done, byte :: rest =>
      let fault := .error ⟨.invalidContinuation, position - p.bytes.length, p.bytes.reverse⟩
      match p.needed with
      | [] => fault
      | (low, high) :: needed =>
          if low ≤ byte.toNat && byte.toNat ≤ high then
            let bits := p.bits * 64 + byte.toNat % 64
            if needed.isEmpty then decodeBytes (position + 1) none (Char.ofNat bits :: done) rest
            else decodeBytes (position + 1) (some ⟨byte :: p.bytes, bits, needed⟩) done rest
          else fault

/-- End every line with a line feed alone. -/
def unifyNewlines : List Char → List Char
  | [] => []
  | '\r' :: '\n' :: rest => '\n' :: unifyNewlines rest
  | c :: rest => (if c = '\r' then '\n' else c) :: unifyNewlines rest

/-- The text of a file. -/
def ofBytes (bytes : List UInt8) : Except Utf8Error String :=
  (decodeBytes 0 none [] bytes).map fun cs => String.ofList (unifyNewlines cs)

/-! ## Texts that no file can hold -/

/-- The first run of surrogates in a text: the number of its first one, its position and length. -/
structure SurrogateError where
  code : Nat
  position : Nat
  count : Nat
  deriving DecidableEq, Repr

def SurrogateError.message (e : SurrogateError) : String :=
  let covered :=
    if e.count = 1 then
      "character '" ++ numberEscape e.code ++ "' in position " ++ toString e.position
    else
      "characters in position " ++ toString e.position ++ "-" ++ toString (e.position + e.count - 1)
  "'utf-8' codec can't encode " ++ covered ++ ": surrogates not allowed"

/-- The fault of a text that no file can hold. -/
def surrogateError? (t : Text) : Option SurrogateError :=
  match t.dropWhile CodePoint.isChar with
  | [] => none
  | point :: rest =>
      some ⟨point.code, (t.takeWhile CodePoint.isChar).length,
        (rest.takeWhile fun next => !next.isChar).length + 1⟩

end LoxLang.Text
