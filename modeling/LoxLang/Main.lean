/-
# LoxLang.Main -- the executable

Looks at what stands along the paths that the arguments name, runs the command on that
folder, shows what it showed and writes the files that it changed.  A conversation is held
line by line, so that every answer is seen before the next line is asked for.
-/
import LoxLang.Command

namespace LoxLang.Command

set_option autoImplicit false

/-- What stands at a path of the file system whose parent is a directory.  Reading a directory as a
file is refused because of its type. -/
def look (path : String) : IO (Option Entry) := do
  try
    return some (.file (← IO.FS.readBinFile path).toList)
  catch
    | .inappropriateType .. => return some .directory
    | _ => return none

/-- The names of the working directory, from the root down. -/
def workingPlace : IO (List String) := do
  return (Path.ofText (← IO.currentDir).toString).parts

/-- Add what stands along a path, the directories on the way included, to a folder. -/
def addPath (folder : Folder) (path : Path) : IO Folder := do
  let mut folder := folder
  for count in List.range (path.parts.length + 1) do
    let start := { path with parts := path.parts.take count }
    if let .ok place := folder.placeOf start then
      if let some entry ← look start.text then
        folder := { folder with entries := (place, entry) :: folder.entries }
  return folder

/-- The paths that options name, and those of the files that may be written for them. -/
def pathsOf (o : Options) : List Path :=
  let named := (o.scripts ++ [o.treeFile]).map Path.ofText
  Path.ofText logName :: named ++ named.map savedPath

/-- Write the files that a run changed. -/
def writeChanges (before after : Folder) : IO Unit := do
  for (place, entry) in after.entries do
    if before.entries.lookup place ≠ some entry then
      if let .file bytes := entry then
        IO.FS.writeBinFile ("/" ++ "/".intercalate place) ⟨bytes.toArray⟩

/-- Run the command without a conversation. -/
def perform (arguments : List String) : IO UInt32 := do
  let mut folder : Folder := ⟨← workingPlace, []⟩
  if let .ok o := Options.ofArguments arguments then
    for path in pathsOf o do
      folder ← addPath folder path
  let completion := run folder arguments ""
  IO.print completion.output.shown
  IO.eprint completion.errors.shown
  writeChanges folder completion.folder
  match completion.exit with
  | .status code => return code.toUInt32
  | .crash crash =>
      IO.eprintln crash.message.shown
      return 1
  | .undescribed =>
      IO.eprintln "the tree holds something else where a text belongs"
      return 1

/-- Talk to the user until a line ends the session, and return the log. -/
partial def converse (input : IO.FS.Stream) (prompt : Prompt) : IO String := do
  IO.print Prompt.mark
  (← IO.getStdout).flush
  let line ← input.getLine
  let step := prompt.step <|
    if line.isEmpty then Prompt.endLine else Prompt.LineEnding.feedOnly.remove line.toList
  IO.print step.output.shown
  IO.eprint step.errors.shown
  if step.stop then return step.log.shown
  return step.log.shown ++ (← converse input step.prompt)

/-- Hold a conversation, with the log in its file if there is one. -/
def hold (frontEnd : FrontEnd) (verbosity : Nat) : IO UInt32 := do
  if verbosity ≠ 0 then IO.FS.writeFile logName ""
  IO.println Prompt.intro
  let log ← converse (← IO.getStdin) (Prompt.start (Session.initial frontEnd verbosity))
  if verbosity ≠ 0 then IO.FS.writeFile logName log
  return 0

end LoxLang.Command

open LoxLang in
def main (arguments : List String) : IO UInt32 :=
  match Options.ofArguments arguments with
  | .ok ⟨verbosity, some frontEnd, none, "", []⟩ => Command.hold frontEnd verbosity
  | _ => Command.perform arguments
