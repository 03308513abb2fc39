/-
# LoxLang.Command.Options -- what the command line asks for

Arguments are classified first: options, which may be written by any start of their name
that no other option shares, and scripts.  Two dashes end the options.  Options take
effect in order; the scripts are the first unbroken run of arguments that are not
options, and what else is left over is refused at the end.
-/
import LoxLang.FrontEnd
import LoxLang.Text.Digit

namespace LoxLang

set_option autoImplicit false

/-- The options there are. -/
inductive Flag where
  | help | verbose | frontEnd | printTree | saveTree | loadTree
  deriving DecidableEq, Repr

namespace Flag

/-- The names of the options, in the order in which they are listed. -/
def names : List (String × Flag) :=
  [("-h", .help), ("--help", .help), ("-v", .verbose), ("--parser", .frontEnd),
   ("--print-ast", .printTree), ("--emit-ast", .saveTree), ("--ast", .loadTree)]

/-- An option in messages: all its names. -/
def display (flag : Flag) : String :=
  "/".intercalate ((names.filter fun entry => entry.2 = flag).map Prod.fst)

/-- Whether an option takes an argument. -/
def takesArgument : Flag → Bool
  | .frontEnd | .loadTree => true
  | _ => false

end Flag

/-- What was asked for.  Without a front end the command has nothing to read programs with. -/
structure Options where
  verbosity : Nat
  frontEnd : Option FrontEnd
  mode : Option Flag
  treeFile : String
  scripts : List String
  deriving DecidableEq

namespace Options

/-- Why there are no options to act on: help is asked for, or the arguments are at fault. -/
inductive Refusal where
  | help
  | fault (message : Text)
  deriving DecidableEq, Repr

def usage : String :=
  "usage: lox [-h] [-v] [--parser \x7bdescent,lark\x7d]\n" ++
  "           [--print-ast | --emit-ast | --ast AST_JSON_FILE]\n" ++
  "           [script ...]\n"

def helpText : String :=
  usage ++ "\n" ++
  "Lox language interpreter\n\n" ++
  "positional arguments:\n" ++
  "  script                Lox script to run\n\n" ++
  "options:\n" ++
  "  -h, --help            show this help message and exit\n" ++
  "  -v                    increase debug verbosity (can be repeated)\n" ++
  "  --parser \x7bdescent,lark\x7d\n" ++
  "                        parser front-end\n" ++
  "  --print-ast           print the AST of the script instead of running it\n" ++
  "  --emit-ast            emit AST JSON for the script\n" ++
  "  --ast AST_JSON_FILE   execute AST from a JSON file\n"

/-- What the error stream shows for a faulty command line. -/
def faultText (message : Text) : Text := usage ++ "lox: error: " ++ message ++ "\n"

/-! ## Classes of arguments -/

/-- An argument that is written as an option: the option it names, the name it was matched with, and
the value written in the same argument. -/
structure Use where
  flag : Option Flag
  name : String
  value : Option String
  deriving DecidableEq, Repr

inductive Argument where
  | plain (text : String)
  | dashes
  | option (text : String) (use : Use)
  deriving DecidableEq, Repr

/-- The parts in front of and behind the first equals sign. -/
def cutAtEquals (cs : List Char) : Option (String × String) :=
  match cs.dropWhile (· ≠ '=') with
  | [] => none
  | _ :: value => some (String.ofList (cs.takeWhile (· ≠ '=')), String.ofList value)

def isDigits (cs : List Char) : Bool := cs.all fun c => (Text.digitValue? c).isSome

/-- Whether an argument is a negative number, a line feed at its end apart. -/
def isNegativeNumber (cs : List Char) : Bool :=
  match cs with
  | '-' :: rest =>
      let rest := if rest.getLast? = some '\n' then rest.dropLast else rest
      match rest.dropWhile fun c => (Text.digitValue? c).isSome with
      | [] => !rest.isEmpty
      | '.' :: fraction => !fraction.isEmpty && isDigits fraction
      | _ => false
  | _ => false

/-- The uses that an argument with two dashes may be short for. -/
def longUses (cs : List Char) : List Use :=
  let (start, value) := match cutAtEquals cs with
    | some (start, value) => (start, some value)
    | none => (String.ofList cs, none)
  (Flag.names.filter fun entry => start.toList.isPrefixOf entry.1.toList).map fun entry =>
    ⟨some entry.2, entry.1, value⟩

/-- The uses that an argument with one dash may stand for: an option of one letter with the rest of
the argument as its value. -/
def shortUses (cs : List Char) : List Use :=
  Flag.names.filterMap fun entry =>
    if entry.1.toList = cs.take 2 then some ⟨some entry.2, entry.1, some (String.ofList (cs.drop 2))⟩
    else if cs.isPrefixOf entry.1.toList then some ⟨some entry.2, entry.1, none⟩
    else none

/-- The use of an option whose name is written out, perhaps with a value behind an equals sign. -/
def exactUse? (text : String) : Option Use :=
  match Flag.names.lookup text with
  | some flag => some ⟨some flag, text, none⟩
  | none =>
      match cutAtEquals text.toList with
      | some (name, value) => (Flag.names.lookup name).map fun flag => ⟨some flag, name, some value⟩
      | none => none

/-- The class of an argument in front of two dashes. -/
def classify (text : String) : Except Refusal Argument :=
  match text.toList with
  | '-' :: second :: rest =>
      match exactUse? text with
      | some use => .ok (.option text use)
      | none =>
          let cs := '-' :: second :: rest
          match if second = '-' then longUses cs else shortUses cs with
          | [use] => .ok (.option text use)
          | [] =>
              if isNegativeNumber cs || cs.contains ' ' then .ok (.plain text)
              else .ok (.option text ⟨none, text, none⟩)
          | uses =>
              .error (.fault ("ambiguous option: " ++ text ++ " could match " ++
                ", ".intercalate (uses.map Use.name)))
  | _ => .ok (.plain text)

/-- The classes of arguments; behind two dashes there are no options. -/
def classifyAll : List String → Except Refusal (List Argument)
  | [] => .ok []
  | "--" :: rest => .ok (.dashes :: rest.map .plain)
  | text :: rest => do
      let argument ← classify text
      return argument :: (← classifyAll rest)

/-! ## Taking effect -/

/-- How far the scripts have been taken. -/
inductive Taken where
  | none | some | all
  deriving DecidableEq, Repr

/-- The options so far, and the arguments that nothing takes. -/
structure State where
  options : Options
  taken : Taken
  left : List String

def initial : State := ⟨⟨0, some .descent, none, "", []⟩, .none, []⟩

def faultAt {α : Type} (flag : Flag) (message : Text) : Except Refusal α :=
  .error (.fault ("argument " ++ flag.display ++ ": " ++ message))

/-- An option of which only one may be given takes effect. -/
def choose (o : Options) (flag : Flag) : Except Refusal Options :=
  match o.mode with
  | none => .ok { o with mode := some flag }
  | some other =>
      if other = flag then .ok o else faultAt flag ("not allowed with argument " ++ other.display)

/-- The front end of a name; two dashes alone name none. -/
def chooseFrontEnd (o : Options) (name : String) : Except Refusal Options :=
  if name = "--" then .ok { o with frontEnd := none }
  else match FrontEnd.ofName? name with
    | some frontEnd => .ok { o with frontEnd := some frontEnd }
    | none =>
        faultAt .frontEnd ("invalid choice: " ++ Text.quoted name ++ " (choose from " ++
          Text.intercalate ", " (FrontEnd.all.map fun frontEnd => Text.quoted frontEnd.name) ++ ")")

/-- An option takes effect, with its argument if it has one. -/
def apply (o : Options) (flag : Flag) (argument : String) : Except Refusal Options :=
  match flag with
  | .help => .error .help
  | .verbose => .ok { o with verbosity := o.verbosity + 1 }
  | .frontEnd => chooseFrontEnd o argument
  | .printTree | .saveTree => choose o flag
  | .loadTree => do
      let o ← choose o flag
      return { o with treeFile := if argument = "--" then "" else argument }

/-- The flags that letters written together stand for, behind the flag that they follow. -/
def letters (flag : Flag) : List Char → Except Refusal (List Flag)
  | [] => .ok []
  | c :: rest =>
      match Flag.names.lookup (String.ofList ['-', c]) with
      | some next => do return next :: (← letters next rest)
      | none => faultAt flag ("ignored explicit argument " ++ Text.quoted (String.ofList (c :: rest)))

/-- The flags of a use that has a value, none of which takes an argument. -/
def flagsOf (flag : Flag) (name value : String) : Except Refusal (List Flag) :=
  if name.toList[1]? = some '-' || value = "" then
    faultAt flag ("ignored explicit argument " ++ Text.quoted value)
  else do return flag :: (← letters flag value.toList)

def applyAll (o : Options) : List Flag → Except Refusal Options
  | [] => .ok o
  | flag :: rest => do applyAll (← apply o flag "") rest

namespace State

/-- Take an argument that is no option. -/
def takePlain (s : State) (text : String) : State :=
  match s.taken with
  | .all => { s with left := s.left ++ [text] }
  | _ => { s with taken := .some, options := { s.options with scripts := s.options.scripts ++ [text] } }

/-- Take two dashes, which count as an argument only when the scripts are complete. -/
def takeDashes (s : State) : State :=
  match s.taken with
  | .all => { s with left := s.left ++ ["--"] }
  | _ => { s with taken := .some }

/-- An option ends the run of scripts. -/
def endScripts (s : State) : State :=
  match s.taken with
  | .some => { s with taken := .all }
  | _ => s

end State

/-- Take arguments in order. -/
def take (s : State) : List Argument → Except Refusal State
  | [] => .ok s
  | .plain text :: rest => take (s.takePlain text) rest
  | .dashes :: rest => take s.takeDashes rest
  | .option text use :: rest =>
      let s := s.endScripts
      match use.flag, use.value with
      | none, _ => take { s with left := s.left ++ [text] } rest
      | some flag, some value =>
          if flag.takesArgument then do take { s with options := ← apply s.options flag value } rest
          else do
            let flags ← flagsOf flag use.name value
            take { s with options := ← applyAll s.options flags } rest
      | some flag, none =>
          if flag.takesArgument then
            match rest with
            | .plain value :: rest => do take { s with options := ← apply s.options flag value } rest
            | _ => faultAt flag "expected one argument"
          else do take { s with options := ← apply s.options flag "" } rest

/-- The options of a command line. -/
def ofArguments (arguments : List String) : Except Refusal Options := do
  let s ← take initial (← classifyAll arguments)
  if s.left.isEmpty then return s.options
  else .error (.fault ("unrecognized arguments: " ++ " ".intercalate s.left))

end Options

end LoxLang
