/-
# LoxLang.Runner -- a session and its reporter

All runs of a session report to one reporter, which keeps what it is told until it is
reset.  A run resets it and reads the text; the faults of the text are reported as they
are met, and the program is run unless one was kept.  An error of the running program is
reported too.  The diagnostics in the result of a run are those the reporter has kept.

A session can be asked for more than runs: to bind a name, and to evaluate an expression
under its bindings.  That is done step by step, each step on what the last one left.
-/
import LoxLang.Session

namespace LoxLang

set_option autoImplicit false

structure Runner where
  session : Session
  reporter : Reporter

/-- A run, what its reporter wrote to the error stream, and the reporter after it. -/
structure ReportedRun where
  run : Run
  written : Text
  reporter : Reporter

namespace ReportedRun

/-- What the error stream showed of a run: the debug messages if the log is closed, and then what was
reported. -/
def errors (r : ReportedRun) : Text :=
  (if r.run.session.logOpen then [] else r.run.messages) ++ r.written

def runner (r : ReportedRun) : Runner := ⟨r.run.session, r.reporter⟩

end ReportedRun

namespace Runner

def fresh (frontEnd : FrontEnd) (verbosity : Nat) : Runner := ⟨.initial frontEnd verbosity, .empty⟩

def define (r : Runner) (name : Text) (value : Value) : Runner :=
  { r with session := r.session.define name value }

/-! ## Runs -/

/-- Execute statements and report the error at which they stop; `written` was reported before. -/
def execute (r : Runner) (written : Text) (statements : List Node) : ReportedRun :=
  let (halt, store) := executeAll statements ⟨r.session.bindings, []⟩
  let session := { r.session with bindings := store.bindings }
  let finish (reporter : Reporter) (line : Text) (brokeOffAt : Option String) : ReportedRun :=
    ⟨⟨⟨statements, reporter.diagnostics, brokeOffAt⟩, store.events, session⟩, written ++ line, reporter⟩
  match halt with
  | .ok () => finish r.reporter [] none
  | .error (.error error) =>
      let (reporter, line) := r.reporter.report error.diagnostic
      finish reporter line none
  | .error (.meaningless kindName) => finish r.reporter [] (some kindName)

/-- Run statements. -/
def runStatements (r : Runner) (statements : List Node) : ReportedRun :=
  execute ⟨r.session, r.reporter.reset⟩ [] statements

/-- Read a program and run it unless a fault of its text was kept. -/
def run (r : Runner) (source : String) : ReportedRun :=
  let reading := r.session.frontEnd.read source
  let (reporter, written) := r.reporter.reset.reportAll reading.diagnostics
  if Diagnostic.anyStatic reporter.diagnostics then
    ⟨⟨⟨reading.statements, reporter.diagnostics, none⟩, [], r.session⟩, written, reporter⟩
  else execute ⟨r.session, reporter⟩ written reading.statements

/-! ## Steps -/

/-- What a session can be asked for. -/
inductive Step where
  | run (source : String)
  | runStatements (statements : List Node)
  | define (name : Text) (value : Value)
  | evaluate (source : String)

/-- What a step comes to: the result of a run, a value or the reason why there is none, or nothing. -/
inductive Result where
  | ran (result : RunResult)
  | evaluated (value : Except ValueError Value)
  | nothing

/-- The result of a step and what it showed. -/
structure Answer where
  result : Result
  output : Text
  errors : Text
  log : Text

/-- The answer of a run, and the runner after it. -/
def ofRun (r : ReportedRun) : Answer × Runner :=
  (⟨.ran r.run.result, r.run.output, r.errors, r.run.log⟩, r.runner)

/-- Take a step.  Faults of a text that is only evaluated are part of the result and not reported. -/
def step (r : Runner) : Step → Answer × Runner
  | .run source => ofRun (r.run source)
  | .runStatements statements => ofRun (r.runStatements statements)
  | .define name value => (⟨.nothing, [], [], []⟩, r.define name value)
  | .evaluate source =>
      let (value, store) := r.session.bindings.evaluateIn source
      (⟨.evaluated value, Text.lines (Event.outputs store.events), [], []⟩,
        { r with session := { r.session with bindings := store.bindings } })

/-- The runner after steps. -/
def after (r : Runner) (steps : List Step) : Runner := steps.foldl (fun r next => (r.step next).2) r

end Runner

end LoxLang
