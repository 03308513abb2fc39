/-
# LoxLang.Command -- the command line program

The command runs a script, shows or saves its tree, runs a saved tree, or talks to the
user.  It ends with an exit status, or breaks off at a fault that it does not handle:
a name that is too long, a file that is a directory or not text, or a saved tree that
cannot be run.

With verbosity the log is a file in the working directory, made before anything is read.
A surrogate has no bytes.  So a message with one, or a printed line if the output is made
of bytes, breaks the run off at the step that it is about.  Only a saved tree can bring
surrogates in; the error stream takes them in another spelling.

A saved tree may hold something else where a text belongs.  How it runs is not described
(`Exit.undescribed`), except that it is read without a fault.
-/
import LoxLang.Command.Folder
import LoxLang.Command.Options
import LoxLang.Json.Writer
import LoxLang.Node.Codec
import LoxLang.Node.Printer
import LoxLang.Prompt
import LoxLang.Text.Utf8

namespace LoxLang

set_option autoImplicit false

/-- A fault that the command does not handle. -/
inductive Crash where
  | isDirectory (path : String)
  | nameTooLong (path : String)
  | notText (error : Text.Utf8Error)
  | outOfRange (error : DecodeError)
  | meaningless (kindName : String)
  | notWritable (error : Text.SurrogateError)
  | noFrontEnd

def Crash.message : Crash → Text
  | .isDirectory path => "[Errno 21] Is a directory: " ++ Text.quoted path
  | .nameTooLong path => "[Errno 36] File name too long: " ++ Text.quoted path
  | .notText error => error.message
  | .outOfRange error => error.message
  | .meaningless kindName => meaninglessMessage kindName
  | .notWritable error => error.message
  | .noFrontEnd => "unhashable type: 'list'"

/-- How the command ends: with a status, at a fault, or in a way that is not described, because a
saved tree holds something else where a text belongs. -/
inductive Exit where
  | status (code : Nat)
  | crash (crash : Crash)
  | undescribed

/-- What the output is made of: text of any kind, or the bytes of text that has them. -/
inductive Sink where
  | text
  | bytes
  deriving DecidableEq, Repr

/-- The command's end, what it showed, and the folder after it. -/
structure Completion where
  exit : Exit
  output : Text
  errors : Text
  folder : Folder

namespace Command

/-- The exit status of a faulty invocation of scripts. -/
def usageCode : Nat := 64

/-- The exit status for a file that does not exist. -/
def missingCode : Nat := 66

/-- The most containers inside one another in a saved tree. -/
def loadLimit : Nat := 1000

def logName : String := "debug.txt"

/-- End with a status, showing text. -/
def finish (folder : Folder) (code : Nat) (output errors : Text) : Completion :=
  ⟨.status code, output, errors, folder⟩

def crashed (folder : Folder) (crash : Crash) : Completion := ⟨.crash crash, "", "", folder⟩

/-- The bytes of a file, or the end that the command comes to without them. -/
def readBytes (folder : Folder) (path : Path) : Except Completion (List UInt8) :=
  match folder.find path with
  | .error .missing =>
      .error (finish folder missingCode "" ("Error: file " ++ path.text ++ " not found\n"))
  | .error .tooLong => .error (crashed folder (.nameTooLong path.text))
  | .ok .directory => .error (crashed folder (.isDirectory path.text))
  | .ok (.file bytes) => .ok bytes

/-- The text of a script, or the end that the command comes to without it. -/
def readScript (folder : Folder) (path : Path) : Except Completion String := do
  match Text.ofBytes (← readBytes folder path) with
  | .ok text => return text
  | .error error => .error (crashed folder (.notText error))

/-! ## Trees -/

/-- The end for a tree beyond a limit. -/
def tooDeep (folder : Folder) (path : Path) : Completion :=
  finish folder RunResult.faultCode "" ("Error: " ++ path.text ++ " nests too deeply\n")

/-- Show the tree of a script. -/
def printTree (folder : Folder) (path : Path) (statements : List Node) : Completion :=
  match Node.programText statements with
  | .ok text => finish folder 0 (if statements.isEmpty then [] else text ++ "\n") ""
  | .error _ => tooDeep folder path

/-- Where the tree of a script is saved: in a file beside it. -/
def savedPath (path : Path) : Path := path.extend ".ast.json"

/-- Save the tree of a script. -/
def saveTree (folder : Folder) (path : Path) (statements : List Node) : Completion :=
  let target := savedPath path
  match Node.save (.block statements), folder.placeOf target with
  | .error _, _ => tooDeep folder path
  | .ok _, .error _ => crashed folder (.nameTooLong target.text)
  | .ok tree, .ok place =>
      if folder.entryAt? place = some .directory then crashed folder (.isDirectory target.text)
      else finish (folder.write place tree.pretty) 0 (target.text ++ "\n") ""

/-- Read a script and hand its tree on, unless its text is at fault. -/
def withTree (folder : Folder) (frontEnd : FrontEnd) (path : Path)
    (use : Folder → Path → List Node → Completion) : Completion :=
  match readScript folder path with
  | .error completion => completion
  | .ok source =>
      let reading := frontEnd.read source
      let errors := Diagnostic.text reading.diagnostics
      if Diagnostic.anyStatic reading.diagnostics then finish folder RunResult.faultCode "" errors
      else use folder path reading.statements

/-! ## Runs -/

/-- What an event writes as bytes: its message in the log, and its line if the output is bytes. -/
def written? (sink : Sink) (verbosity : Nat) (event : Event) : Option Text :=
  match sink with
  | .text => event.message? verbosity
  | .bytes => event.output?.or (event.message? verbosity)

/-- The events in front of the first one that writes what has no bytes, and the fault of what it
writes. -/
def writable (sink : Sink) (verbosity : Nat) : List Event → List Event × Option Text.SurrogateError
  | [] => ([], none)
  | event :: rest =>
      match (written? sink verbosity event).bind Text.surrogateError? with
      | some error => ([], some error)
      | none =>
          let (events, error) := writable sink verbosity rest
          (event :: events, error)

/-- The end of a run, and what goes into the log. -/
def ofRun (sink : Sink) (folder : Folder) (run : Run) : Completion × Text :=
  match writable sink run.session.verbosity run.events with
  | (events, some error) =>
      let run := { run with events }
      (⟨.crash (.notWritable error), run.output, "", folder⟩, run.log)
  | (_, none) =>
      let exit := match run.result.brokeOffAt with
        | some kindName => .crash (.meaningless kindName)
        | none => .status run.result.exitCode
      (⟨exit, run.output, run.errors, folder⟩, run.log)

/-- The statements of a saved tree, or the message about it. -/
def loadTree (bytes : List UInt8) : Except (Text ⊕ Crash) (List Draft) :=
  match Text.ofBytes bytes with
  | .error error => .error (.inl error.message)
  | .ok text =>
      match Json.read loadLimit text with
      | .error error => .error (.inl error.message)
      | .ok value =>
          match Draft.programOfJson value with
          | .ok statements => .ok statements
          | .error error =>
              if error.isOverflow then .error (.inr (.outOfRange error))
              else .error (.inl error.message)

/-- Run a saved tree. -/
def runTree (sink : Sink) (folder : Folder) (session : Session) (path : Path) : Completion × Text :=
  match readBytes folder path with
  | .error completion => (completion, "")
  | .ok bytes =>
      match loadTree bytes with
      | .ok drafts =>
          match Draft.nodes? drafts with
          | some statements => ofRun sink folder (session.runStatements statements)
          | none => (⟨.undescribed, "", "", folder⟩, "")
      | .error (.inl message) =>
          (finish folder RunResult.faultCode ""
            ("Error: invalid AST file " ++ path.text ++ ": " ++ message ++ "\n"), "")
      | .error (.inr crash) => (crashed folder crash, "")

/-- Run a script. -/
def runScript (sink : Sink) (folder : Folder) (session : Session) (path : Path) : Completion × Text :=
  match readScript folder path with
  | .error completion => (completion, "")
  | .ok source => ofRun sink folder (session.run source)

/-- Talk to the user. -/
def talk (folder : Folder) (session : Session) (input : String) : Completion × Text :=
  let t := Prompt.talk .feedOnly session input
  (finish folder 0 t.output t.errors, t.log)

/-- Run what the options name, and say what goes into the log. -/
def runLogged (sink : Sink) (folder : Folder) (o : Options) (session : Session) (input : String) :
    Completion × Text :=
  if o.treeFile ≠ "" then runTree sink folder session (Path.ofText o.treeFile)
  else match o.scripts with
    | script :: _ => runScript sink folder session (Path.ofText script)
    | [] => talk folder session input

/-- Run what the options name, with the log in its file if there is one. -/
def runProgram (sink : Sink) (folder : Folder) (o : Options) (frontEnd : FrontEnd) (input : String) :
    Completion :=
  let session := Session.initial frontEnd o.verbosity
  if o.verbosity = 0 then (runLogged sink folder o session input).1
  else
    let place := folder.here ++ [logName]
    if folder.entryAt? place = some .directory then crashed folder (.isDirectory logName)
    else
      let (completion, log) := runLogged sink (folder.write place "") o session input
      { completion with folder := completion.folder.write place log }

/-- Do what the options ask for. -/
def runOptions (sink : Sink) (folder : Folder) (o : Options) (input : String) : Completion :=
  if 1 < o.scripts.length then finish folder usageCode "Usage: lox [script]\n" ""
  else match o.frontEnd with
    | none => crashed folder .noFrontEnd
    | some frontEnd =>
        match o.mode with
        | some .printTree => inspect frontEnd printTree
        | some .saveTree => inspect frontEnd saveTree
        | _ => runProgram sink folder o frontEnd input
where
  /-- Read the script, which has to be there, and hand its tree on. -/
  inspect (frontEnd : FrontEnd) (use : Folder → Path → List Node → Completion) : Completion :=
    match o.scripts with
    | script :: _ => withTree folder frontEnd (Path.ofText script) use
    | [] => finish folder 2 "" (Options.faultText "--print-ast/--emit-ast need a script")

/-- The whole command, with an output of some kind. -/
def runOn (sink : Sink) (folder : Folder) (arguments : List String) (input : String) : Completion :=
  match Options.ofArguments arguments with
  | .ok o => runOptions sink folder o input
  | .error .help => finish folder 0 Options.helpText ""
  | .error (.fault message) => finish folder 2 "" (Options.faultText message)

/-- The whole command, whose output is made of bytes. -/
def run (folder : Folder) (arguments : List String) (input : String) : Completion :=
  runOn .bytes folder arguments input

end Command

end LoxLang
