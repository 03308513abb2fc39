/-
# LoxLang.Diagnostic -- messages about a program

A diagnostic names a line, optionally the place on it, and what is wrong; it says
whether the fault showed while running or while reading.  On the error stream each one
is a line of its own.
-/
import LoxLang.Token

namespace LoxLang

set_option autoImplicit false

structure Diagnostic where
  line : Int
  place : Text
  message : Text
  runtime : Bool
  deriving DecidableEq

namespace Diagnostic

/-- The line shown to the user. -/
def format (d : Diagnostic) : Text :=
  "[line " ++ toString d.line ++ "] Error" ++ d.place ++ ": " ++ d.message

/-- A fault of the text, with no place beyond its line. -/
def atLine (line : Int) (message : Text) : Diagnostic := ⟨line, "", message, false⟩

/-- The place of a token: the end of the text, or the token's own lexeme. -/
def placeOf (token : Token) : Text :=
  if token.kind = .endOfInput then " at end" else " at '" ++ token.lexeme ++ "'"

/-- A fault at a token; a line given beside it replaces the token's own. -/
def atToken (token : Token) (message : Text) (line : Option Int) : Diagnostic :=
  ⟨line.getD token.line, placeOf token, message, false⟩

/-- A fault of the running program. -/
def whileRunning (line : Int) (message : Text) : Diagnostic := ⟨line, "", message, true⟩

/-- The text of an error that is raised and not reported. -/
def raisedText (line : Int) (message : Text) : Text :=
  "[line " ++ toString line ++ "] " ++ message

/-- What the error stream shows for a list of diagnostics. -/
def text (ds : List Diagnostic) : Text := Text.lines (ds.map format)

/-- Whether some diagnostic is about the text of the program. -/
def anyStatic (ds : List Diagnostic) : Bool := ds.any fun d => !d.runtime

/-- Whether some diagnostic is about the running program. -/
def anyRuntime (ds : List Diagnostic) : Bool := ds.any fun d => d.runtime

end Diagnostic

/-- Diagnostics collected so far. -/
structure Reporter where
  diagnostics : List Diagnostic

namespace Reporter

def empty : Reporter := ⟨[]⟩

/-- Keep a diagnostic; the text is what the error stream shows for it. -/
def report (r : Reporter) (d : Diagnostic) : Reporter × Text :=
  (⟨r.diagnostics ++ [d]⟩, Diagnostic.text [d])

/-- Keep diagnostics one after another. -/
def reportAll : Reporter → List Diagnostic → Reporter × Text
  | r, [] => (r, [])
  | r, d :: ds =>
      let (r, line) := r.report d
      let (r, lines) := reportAll r ds
      (r, line ++ lines)

/-- Forget what was reported. -/
def reset (_ : Reporter) : Reporter := empty

end Reporter

end LoxLang
