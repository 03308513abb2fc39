/-
# LoxLang.Session -- programs run one after another

A session keeps its bindings from run to run, and nothing else: every run starts with no
diagnostics.  A program with a fault in its text is not run at all.

A run leaves events behind, and what it shows is made of them: its output, the error
stream and the debug log.  Once the log is closed, its messages go to the error stream
instead, in front of the diagnostics.
-/
import LoxLang.Eval
import LoxLang.FrontEnd

namespace LoxLang

set_option autoImplicit false

/-- The outcome of a run: the statements, what was wrong, and the kind of a node without meaning if
the run broke off at one. -/
structure RunResult where
  statements : List Node
  diagnostics : List Diagnostic
  brokeOffAt : Option String

namespace RunResult

def ok (r : RunResult) : Bool := r.diagnostics.isEmpty

/-- The exit status for programs with a fault. -/
def faultCode : Nat := 65

def exitCode (r : RunResult) : Nat := if r.ok then 0 else faultCode

end RunResult

structure Session where
  frontEnd : FrontEnd
  verbosity : Nat
  logOpen : Bool
  bindings : Bindings

/-- A run: its outcome, what it did, and the session after it. -/
structure Run where
  result : RunResult
  events : List Event
  session : Session

namespace Run

/-- What a run printed. -/
def output (r : Run) : Text := Text.lines (Event.outputs r.events)

/-- The debug messages of a run. -/
def messages (r : Run) : Text := Text.lines (Event.messages r.session.verbosity r.events)

/-- What a run added to the log. -/
def log (r : Run) : Text := if r.session.logOpen then r.messages else []

/-- What the error stream showed of a run. -/
def errors (r : Run) : Text :=
  (if r.session.logOpen then [] else r.messages) ++ Diagnostic.text r.result.diagnostics

end Run

namespace Session

def initial (frontEnd : FrontEnd) (verbosity : Nat) : Session :=
  ⟨frontEnd, verbosity, true, .empty⟩

/-- A session whose log is closed. -/
def close (s : Session) : Session := { s with logOpen := false }

def define (s : Session) (name : Text) (value : Value) : Session :=
  { s with bindings := s.bindings.insert name value }

/-- What a halt adds to the result of a run. -/
def result (statements : List Node) : Except Halt Unit → RunResult
  | .ok () => ⟨statements, [], none⟩
  | .error (.error error) => ⟨statements, [error.diagnostic], none⟩
  | .error (.meaningless kindName) => ⟨statements, [], some kindName⟩

/-- Run statements. -/
def runStatements (s : Session) (statements : List Node) : Run :=
  let (halt, store) := executeAll statements ⟨s.bindings, []⟩
  ⟨result statements halt, store.events, { s with bindings := store.bindings }⟩

/-- Read a program and run it unless its text is at fault. -/
def run (s : Session) (source : String) : Run :=
  let reading := s.frontEnd.read source
  if Diagnostic.anyStatic reading.diagnostics then
    ⟨⟨reading.statements, reading.diagnostics, none⟩, [], s⟩
  else s.runStatements reading.statements

end Session

/-! ## Single expressions -/

/-- Why a text has no value. -/
inductive ValueError where
  | faulty (diagnostics : List Diagnostic)
  | notExpression (source : String)
  | runtime (error : RuntimeError)
  | tooDeep
  | meaningless (kindName : String)
  deriving DecidableEq

def ValueError.message : ValueError → Text
  | .faulty diagnostics => Text.intercalate "; " (diagnostics.map Diagnostic.format)
  | .notExpression source => "not a single expression: " ++ Text.quoted source
  | .runtime error => error.message
  | .tooDeep => tooDeepMessage
  | .meaningless kindName => meaninglessMessage kindName

/-- What a failure means for the value of a text. -/
def ValueError.ofFailure : Failure → ValueError
  | .runtime error => .runtime error
  | .tooDeep => .tooDeep
  | .meaningless kindName => .meaningless kindName

/-- Evaluate an expression under bindings: its value, and the store after it. -/
def Bindings.evaluateIn (b : Bindings) (source : String) : Except ValueError Value × Store :=
  let reading := FrontEnd.descent.read (source ++ ";")
  match reading.diagnostics, reading.statements with
  | [], [.expression value] =>
      match value.eval evalLimit ⟨b, []⟩ with
      | .ok value store => (.ok value, store)
      | .error failure store => (.error (.ofFailure failure), store)
  | [], _ => (.error (.notExpression source), ⟨b, []⟩)
  | diagnostics, _ => (.error (.faulty diagnostics), ⟨b, []⟩)

/-- The value of an expression under bindings. -/
def Bindings.evaluate (b : Bindings) (source : String) : Except ValueError Value :=
  (b.evaluateIn source).1

end LoxLang
