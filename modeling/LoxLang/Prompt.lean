/-
# LoxLang.Prompt -- the interactive session

Every line is run as a program in one session.  A line that starts with a dot is a
command if its first word names one; otherwise what follows the dot is run.  Errors are
shown and forgotten.  The word `EOF` alone on a line, which also stands for the end of
the input, and the command `exit` end the session.
-/
import LoxLang.Session
import LoxLang.Text.Blank

namespace LoxLang

set_option autoImplicit false

namespace Prompt

def intro : String :=
  "Lox interpreter :: Python backend\nType '.help' for more information, '.exit' or Ctrl-D to leave."

/-- What asks for a line. -/
def mark : String := "> "

def help : String :=
  "Type Lox statements, e.g. 'var x = 1 + 2;' then 'print x;'.\n" ++
  "Declarations persist for the whole session.\n\n" ++
  "Commands:\n" ++
  "  .env    list defined variables\n" ++
  "  .exit   leave the interpreter\n"

/-- The line that stands for the end of the input. -/
def endLine : String := "EOF"

/-! ## Lines -/

/-- A line taken apart: the word that may name a command, what follows it, and the text to run if it
names none. -/
structure Line where
  command : Option String
  argument : Option String
  text : String
  deriving DecidableEq, Repr

/-- A line without command. -/
def Line.plain (text : String) : Line := ⟨none, none, text⟩

/-- Take apart what follows a dot, blanks removed at the ends.  A question mark asks for help. -/
def splitCommand (cs : List Char) : Line :=
  let cut (cs : List Char) : Line :=
    ⟨some (String.ofList (cs.takeWhile Lexeme.isNameChar)),
     some (Text.strip (String.ofList (cs.dropWhile Lexeme.isNameChar))), String.ofList cs⟩
  match Text.trimEnds Text.isBlank cs with
  | [] => .plain ""
  | '?' :: rest => cut ("help ".toList ++ rest)
  | '!' :: rest => .plain (String.ofList ('!' :: rest))
  | cs => cut cs

/-- Take a line apart. -/
def split (line : String) : Line :=
  if Text.strip line = endLine then ⟨some endLine, some "", endLine⟩
  else match (Text.strip line).toList with
    | '.' :: rest => splitCommand rest
    | _ => .plain line

/-- What a line asks for. -/
inductive Action where
  | nothing
  | run (source : String)
  | listBindings
  | help
  | leave (closing : String)
  deriving DecidableEq, Repr

def Line.action (line : Line) : Action :=
  if line.text = "" then .nothing
  else match line.command with
    | some "env" => .listBindings
    | some "help" => .help
    | some "EOF" => .leave "\n"
    | some "exit" => .leave ""
    | _ => .run line.text

end Prompt

/-- An interactive session and the result of its last run. -/
structure Prompt where
  session : Session
  last : Option RunResult

namespace Prompt

/-- What one line led to. -/
structure Step where
  stop : Bool
  ran : Option RunResult
  output : Text
  errors : Text
  log : Text
  prompt : Prompt

def start (session : Session) : Prompt := ⟨session, none⟩

/-- The bindings as a list, a line each, in the order of their names. -/
def bindingsText (b : Bindings) : Text :=
  Text.lines (b.sorted.map fun entry => entry.1 ++ " = " ++ entry.2.text)

/-- Act on a line. -/
def step (p : Prompt) (line : String) : Step :=
  match (split line).action with
  | .nothing => ⟨false, none, "", "", "", p⟩
  | .listBindings => ⟨false, none, bindingsText p.session.bindings, "", "", p⟩
  | .help => ⟨false, none, help, "", "", p⟩
  | .leave closing => ⟨true, none, closing, "", "", p⟩
  | .run source =>
      let run := p.session.run source
      ⟨false, some run.result, run.output, run.errors, run.log, ⟨run.session, some run.result⟩⟩

/-! ## Whole inputs -/

/-- The lines of a text, each with the line feed that ends it. -/
def inputLines : List Char → List (List Char)
  | [] => []
  | c :: cs =>
      match inputLines cs with
      | [] => [[c]]
      | line :: rest => if c = '\n' then [c] :: line :: rest else (c :: line) :: rest

/-- How the end of a line is removed. -/
inductive LineEnding where
  | feedOnly
  | feedsAndReturns

/-- A line without its end. -/
def LineEnding.remove : LineEnding → List Char → String
  | .feedOnly, line => String.ofList (if line.getLast? = some '\n' then line.dropLast else line)
  | .feedsAndReturns, line =>
      String.ofList ((line.reverse.dropWhile fun c => c = '\n' || c = '\r').reverse)

/-- What a whole input led to, with what was left of it. -/
structure Transcript where
  output : Text
  errors : Text
  log : Text
  unread : List (List Char)
  prompt : Prompt

/-- Put what a step showed in front of a transcript. -/
def Transcript.after (step : Step) (t : Transcript) : Transcript :=
  { t with
    output := mark ++ step.output ++ t.output
    errors := step.errors ++ t.errors
    log := step.log ++ t.log }

/-- Act on lines until one ends the session; the end of the input ends it too. -/
def converse (ending : LineEnding) : Prompt → List (List Char) → Transcript
  | p, [] =>
      let step := p.step endLine
      Transcript.after step ⟨"", "", "", [], step.prompt⟩
  | p, line :: rest =>
      let step := p.step (ending.remove line)
      if step.stop then Transcript.after step ⟨"", "", "", rest, step.prompt⟩
      else Transcript.after step (converse ending step.prompt rest)

/-- The whole conversation over an input. -/
def talk (ending : LineEnding) (session : Session) (input : String) : Transcript :=
  let t := converse ending (start session) (inputLines input.toList)
  { t with output := intro ++ "\n" ++ t.output }

end Prompt

end LoxLang
