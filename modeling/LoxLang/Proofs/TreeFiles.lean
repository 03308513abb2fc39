/-
# LoxLang.Proofs.TreeFiles -- how the command ends on a tree file

A file that holds any bytes at all may be given as a saved tree.  In order, the command then
runs the program and ends with the status of the run, or it reports that the file holds no
tree (`Command.Orderly`).

The statement here is about the files that hold texts where texts belong, or no tree at all
(`Command.Textual`).  What the run of another tree comes to is not described.  Three faults
that the command does not handle are left.  Decoding may come to a number that is out of
range.  The run may come to a node that has no meaning, since a tree may lack parts or hold a
program in the place of a node.  And it may come to a line with a surrogate, which the output
cannot take.

The command ends in order exactly if none of these happens (`tree_file_ends_in_order_iff`).
None can happen if the numbers in the file are in range, the statements are whole and the
strings have no surrogates.
-/
import LoxLang.Proofs.DecodingFaults
import LoxLang.Proofs.RunFaults
import LoxLang.Proofs.SavedPrograms

namespace LoxLang

set_option autoImplicit false

namespace Command

/-! ## What a tree file holds -/

/-- The JSON value that a file holds, if its bytes are text and the text is JSON within the limit. -/
def treeValue? (bytes : List UInt8) : Option Json :=
  match Text.ofBytes bytes with
  | .ok text => (Json.read loadLimit text).toOption
  | .error _ => none

/-- What the decoding of a file comes to, if it holds a value. -/
def decoded? (bytes : List UInt8) : Option (Decoded (List Draft)) :=
  (treeValue? bytes).map Draft.programOfJson

/-- Decoding a file comes to a number out of range. -/
def Overflows (bytes : List UInt8) (error : DecodeError) : Prop :=
  decoded? bytes = some (.error error) ∧ error.isOverflow

/-- A file holds a program with texts where they belong. -/
def Holds (bytes : List UInt8) (statements : List Node) : Prop :=
  ∃ drafts, decoded? bytes = some (.ok drafts) ∧ Draft.nodes? drafts = some statements

/-- If a file holds a program, it has a text as each name, each lexeme, each content of a string, and
each literal of a token that is no number, unless it is null. -/
def Textual (bytes : List UInt8) : Prop :=
  ∀ drafts, decoded? bytes = some (.ok drafts) → (Draft.nodes? drafts).isSome

/-- A file holds a program whose run comes to a node without meaning. -/
def Strays (bytes : List UInt8) (kindName : String) : Prop :=
  ∃ statements, Holds bytes statements ∧
    (executeAll statements ⟨.empty, []⟩).1 = .error (.meaningless kindName)

/-- The fault of the first line with a surrogate that a run prints. -/
def garbled? (statements : List Node) : Option Text.SurrogateError :=
  (Event.outputs (executeAll statements ⟨.empty, []⟩).2.events).findSome? Text.surrogateError?

/-- A file holds a program whose run prints a line with a surrogate. -/
def Garbles (bytes : List UInt8) (error : Text.SurrogateError) : Prop :=
  ∃ statements, Holds bytes statements ∧ garbled? statements = some error

theorem text_of_treeValue? {bytes : List UInt8} {value : Json} (read : treeValue? bytes = some value) :
    ∃ text, Text.ofBytes bytes = .ok text ∧ Json.read loadLimit text = .ok value := by
  unfold treeValue? at read
  split at read
  · rename_i text isText
    refine ⟨text, isText, ?_⟩
    cases isJson : Json.read loadLimit text with
    | ok value' =>
        rw [isJson] at read
        cases read
        rfl
    | error error =>
        rw [isJson] at read
        cases read
  · cases read

theorem text_of_decoded? {bytes : List UInt8} {result : Decoded (List Draft)}
    (decoded : decoded? bytes = some result) :
    ∃ text value, Text.ofBytes bytes = .ok text ∧ Json.read loadLimit text = .ok value ∧
      Draft.programOfJson value = result := by
  obtain ⟨value, read, result⟩ := Option.map_eq_some_iff.mp decoded
  obtain ⟨text, isText, isJson⟩ := text_of_treeValue? read
  exact ⟨text, value, isText, isJson, result⟩

theorem loadTree_of_none {bytes : List UInt8} (unread : treeValue? bytes = none) :
    ∃ message, loadTree bytes = .error (.inl message) := by
  unfold treeValue? at unread
  unfold loadTree
  split
  · exact ⟨_, rfl⟩
  · rename_i text isText
    rw [isText] at unread
    split
    · exact ⟨_, rfl⟩
    · rename_i value isJson
      simp [isJson, Except.toOption] at unread

theorem loadTree_of_ok {bytes : List UInt8} {drafts : List Draft}
    (decoded : decoded? bytes = some (.ok drafts)) : loadTree bytes = .ok drafts := by
  obtain ⟨text, value, isText, isJson, result⟩ := text_of_decoded? decoded
  rw [loadTree, isText]
  simp only [isJson, result]

theorem loadTree_of_overflows {bytes : List UInt8} {error : DecodeError} (overflows : Overflows bytes error) :
    loadTree bytes = .error (.inr (.outOfRange error)) := by
  obtain ⟨decoded, overflow⟩ := overflows
  obtain ⟨text, value, isText, isJson, result⟩ := text_of_decoded? decoded
  rw [loadTree, isText]
  simp only [isJson, result, if_pos overflow]

/-- Unless a number is out of range, a textual file holds a program or is refused. -/
theorem holds_or_refused {bytes : List UInt8} (textual : Textual bytes)
    (inside : ∀ error, ¬ Overflows bytes error) :
    (∃ statements, Holds bytes statements) ∨ ∃ message, loadTree bytes = .error (.inl message) := by
  cases decoded : decoded? bytes with
  | none => exact .inr (loadTree_of_none (Option.map_eq_none_iff.mp decoded))
  | some result =>
      cases result with
      | ok drafts =>
          obtain ⟨statements, stands⟩ := Option.isSome_iff_exists.mp (textual drafts decoded)
          exact .inl ⟨statements, drafts, decoded, stands⟩
      | error error =>
          have other : ¬ error.isOverflow := fun overflow => inside error ⟨decoded, overflow⟩
          obtain ⟨text, value, isText, isJson, result⟩ := text_of_decoded? decoded
          refine .inr ⟨error.message, ?_⟩
          rw [loadTree, isText]
          simp only [isJson, result, if_neg other]

/-- Numbers in range do not overflow. -/
theorem not_overflows {bytes : List UInt8} {value : Json} (read : treeValue? bytes = some value)
    (within : value.inRange) (error : DecodeError) : ¬ Overflows bytes error := by
  rintro ⟨decoded, overflow⟩
  rw [decoded?, read] at decoded
  rw [Draft.isOverflow_eq_false within (Option.some.inj decoded)] at overflow
  cases overflow

theorem Holds.unique {bytes : List UInt8} {statements statements' : List Node}
    (holds : Holds bytes statements) (holds' : Holds bytes statements') : statements = statements' := by
  obtain ⟨drafts, decoded, stands⟩ := holds
  obtain ⟨drafts', decoded', stands'⟩ := holds'
  cases decoded.symm.trans decoded'
  exact Option.some.inj (stands.symm.trans stands')

/-- Whole statements do not stray. -/
theorem not_strays {bytes : List UInt8} {statements : List Node} (holds : Holds bytes statements)
    (whole : ∀ s ∈ statements, s.whole) (kindName : String) : ¬ Strays bytes kindName := by
  rintro ⟨statements', holds', halts⟩
  cases holds.unique holds'
  exact executeAll_meaningful whole _ kindName halts

/-- Strings without surrogates do not garble the output. -/
theorem not_garbles {bytes : List UInt8} {statements : List Node} (holds : Holds bytes statements)
    (plain : ∀ s ∈ statements, s.plain) (error : Text.SurrogateError) : ¬ Garbles bytes error := by
  rintro ⟨statements', holds', prints⟩
  cases holds.unique holds'
  obtain ⟨text, printed, fault⟩ := List.exists_of_findSome?_eq_some prints
  rw [Text.surrogateError?_of_plain (plain_of_printed plain text printed)] at fault
  cases fault

theorem Holds.clean {bytes : List UInt8} {statements : List Node} (holds : Holds bytes statements)
    (clean : ∀ error, ¬ Garbles bytes error) : garbled? statements = none := by
  cases prints : garbled? statements with
  | none => rfl
  | some error => exact absurd ⟨statements, holds, prints⟩ (clean error)

/-! ## Runs -/

/-- Without verbosity what is written are the printed lines alone. -/
theorem writable_silent (events : List Event) :
    (writable .bytes 0 events).2 = (Event.outputs events).findSome? Text.surrogateError? := by
  induction events with
  | nil => rfl
  | cons event rest ih =>
      have written : written? .bytes 0 event = event.output? := by cases event <;> rfl
      rw [writable, written]
      cases line : event.output? with
      | none => rwa [Event.outputs, List.filterMap_cons_none line]
      | some text =>
          rw [Event.outputs, List.filterMap_cons_some line]
          cases fault : Text.surrogateError? text with
          | some error =>
              rw [List.findSome?_cons_of_isSome (by rw [fault]; rfl), fault]
              simp only [Option.bind_some, fault]
          | none =>
              rw [List.findSome?_cons_of_isNone (by rw [fault]; rfl)]
              simp only [Option.bind_some, fault]
              exact ih

/-- The run of statements that nothing was bound before. -/
abbrev firstRun (statements : List Node) : Run :=
  (Session.initial .descent 0).runStatements statements

theorem writable_firstRun (statements : List Node) :
    (writable .bytes (firstRun statements).session.verbosity (firstRun statements).events).2 =
      garbled? statements :=
  writable_silent _

section Ends

variable (folder : Folder) {statements : List Node}

theorem exit_ofRun_of_garbled {error : Text.SurrogateError} (prints : garbled? statements = some error) :
    (ofRun .bytes folder (firstRun statements)).1.exit = .crash (.notWritable error) := by
  have writes := (writable_firstRun statements).trans prints
  unfold ofRun
  split
  · rename_i split
    rw [split] at writes
    cases writes
    rfl
  · rename_i split
    rw [split] at writes
    cases writes

variable (clean : garbled? statements = none)

include clean

theorem ofRun_of_clean :
    (ofRun .bytes folder (firstRun statements)).1 =
      ⟨(firstRun statements).result.brokeOffAt.elim (.status (firstRun statements).result.exitCode)
          fun kindName => .crash (.meaningless kindName),
        (firstRun statements).output, (firstRun statements).errors, folder⟩ := by
  have writes := (writable_firstRun statements).trans clean
  unfold ofRun
  split
  · rename_i split
    rw [split] at writes
    cases writes
  · cases (firstRun statements).result.brokeOffAt <;> rfl

theorem ofRun_of_none (whole : (firstRun statements).result.brokeOffAt = none) :
    (ofRun .bytes folder (firstRun statements)).1 = finish folder (firstRun statements).result.exitCode
      (firstRun statements).output (firstRun statements).errors := by
  rw [ofRun_of_clean folder clean, whole]
  rfl

theorem exit_ofRun_of_some {kindName : String}
    (broke : (firstRun statements).result.brokeOffAt = some kindName) :
    (ofRun .bytes folder (firstRun statements)).1.exit = .crash (.meaningless kindName) := by
  rw [ofRun_of_clean folder clean, broke]
  rfl

end Ends

theorem brokeOffAt_eq_some {statements : List Node} {kindName : String} :
    (firstRun statements).result.brokeOffAt = some kindName ↔
      (executeAll statements ⟨.empty, []⟩).1 = .error (.meaningless kindName) := by
  show (Session.result statements (executeAll statements ⟨.empty, []⟩).1).brokeOffAt = _ ↔ _
  rcases (executeAll statements ⟨.empty, []⟩).1 with (error | kindName') | _ <;> simp [Session.result]

/-! ## The command -/

/-- A name that is not written as an option is taken for the tree file. -/
theorem ofArguments_tree {f : String} (plain : Options.classify f = .ok (.plain f)) :
    Options.ofArguments ["--ast", f] = .ok ⟨0, some .descent, some .loadTree, f, []⟩ := by
  have dashes : f ≠ "--" := by
    rintro rfl
    revert plain
    decide +kernel
  have flag : Options.classify "--ast" = .ok (.option "--ast" ⟨some .loadTree, "--ast", none⟩) := by
    decide +kernel
  have classes : Options.classifyAll ["--ast", f] =
      .ok [.option "--ast" ⟨some .loadTree, "--ast", none⟩, .plain f] := by
    rw [Options.classifyAll, flag, Options.classifyAll, plain]
    · rfl
    · exact dashes
    · decide
  have effect : Options.apply Options.initial.options .loadTree f =
      .ok ⟨0, some .descent, some .loadTree, f, []⟩ := by
    simp only [Options.apply, Options.choose, Options.initial, dashes, if_false]
    rfl
  rw [Options.ofArguments, classes]
  show (do
    let s ← (do Options.take { Options.initial with
      options := ← Options.apply Options.initial.options .loadTree f } [])
    if s.left.isEmpty then return s.options
    else .error (.fault ("unrecognized arguments: " ++ " ".intercalate s.left))) = _
  rw [effect]
  rfl

/-- The ends that a tree file should come to: those of a program that it holds, and the report that it
holds none. -/
inductive Orderly (folder : Folder) (path : Path) (bytes : List UInt8) : Completion → Prop where
  | executed {statements : List Node} (holds : Holds bytes statements) :
      Orderly folder path bytes (finish folder (if (firstRun statements).result.ok then 0 else 65)
        (firstRun statements).output (firstRun statements).errors)
  | refused (message : Text) :
      Orderly folder path bytes
        (finish folder 65 "" ("Error: invalid AST file " ++ path.text ++ ": " ++ message ++ "\n"))

theorem Orderly.exit_eq {folder : Folder} {path : Path} {bytes : List UInt8} {c : Completion}
    (orderly : Orderly folder path bytes c) : ∃ code, c.exit = .status code := by
  cases orderly with
  | executed => exact ⟨_, rfl⟩
  | refused => exact ⟨_, rfl⟩

section TreeFile

variable {folder : Folder} {f : String} {bytes : List UInt8}
  (plain : Options.classify f = .ok (.plain f)) (given : f ≠ "")
  (found : folder.find (Path.ofText f) = .ok (.file bytes)) (input : String)

include plain given in
theorem run_tree_file :
    run folder ["--ast", f] input =
      (runTree .bytes folder (Session.initial .descent 0) (Path.ofText f)).1 := by
  rw [run_tree folder input (ofArguments_tree plain)]
  show (runLogged .bytes folder ⟨0, some .descent, some .loadTree, f, []⟩ _ input).1 = _
  rw [runLogged_tree given]

include plain given found

theorem run_of_holds {statements : List Node} (holds : Holds bytes statements) :
    run folder ["--ast", f] input = (ofRun .bytes folder (firstRun statements)).1 := by
  obtain ⟨drafts, decoded, stands⟩ := holds
  rw [run_tree_file plain given, runTree_eq found (loadTree_of_ok decoded) stands]

theorem run_of_overflows {error : DecodeError} (overflows : Overflows bytes error) :
    run folder ["--ast", f] input = crashed folder (.outOfRange error) := by
  rw [run_tree_file plain given, runTree, readBytes_eq found]
  simp only [loadTree_of_overflows overflows]

theorem run_of_garbles {error : Text.SurrogateError} (garbles : Garbles bytes error) :
    (run folder ["--ast", f] input).exit = .crash (.notWritable error) := by
  obtain ⟨statements, holds, prints⟩ := garbles
  rw [run_of_holds plain given found input holds]
  exact exit_ofRun_of_garbled folder prints

/-- A run that comes to a node without meaning breaks off there, unless it broke off at a line
before. -/
theorem run_of_strays (clean : ∀ error, ¬ Garbles bytes error) {kindName : String}
    (strays : Strays bytes kindName) :
    (run folder ["--ast", f] input).exit = .crash (.meaningless kindName) := by
  obtain ⟨statements, holds, halts⟩ := strays
  rw [run_of_holds plain given found input holds]
  exact exit_ofRun_of_some folder (holds.clean clean) (brokeOffAt_eq_some.mpr halts)

/-- If no fault happens, the command ends in order. -/
theorem orderly_run (textual : Textual bytes) (inside : ∀ error, ¬ Overflows bytes error)
    (meaning : ∀ kindName, ¬ Strays bytes kindName) (clean : ∀ error, ¬ Garbles bytes error) :
    Orderly folder (Path.ofText f) bytes (run folder ["--ast", f] input) := by
  rcases holds_or_refused textual inside with ⟨statements, holds⟩ | ⟨message, refused⟩
  · have whole : (firstRun statements).result.brokeOffAt = none := by
      cases broke : (firstRun statements).result.brokeOffAt with
      | none => rfl
      | some kindName => exact absurd ⟨statements, holds, brokeOffAt_eq_some.mp broke⟩ (meaning kindName)
    rw [run_of_holds plain given found input holds, ofRun_of_none folder (holds.clean clean) whole]
    exact .executed holds
  · rw [run_tree_file plain given, runTree, readBytes_eq found]
    simp only [refused]
    exact .refused message

/-- **How the command ends on a tree file** whose name is not written as an option, and which holds
texts where texts belong, or no tree: in order, with the run of its program or the report that it holds
none, exactly if decoding comes to no number out of range, and the run to no node without meaning and no
line with a surrogate.  If one of these happens, the command breaks off, and of the last two the one
that comes first in the run counts.  They do not happen if all numbers in the file are in range, all
statements are whole, and no string has a surrogate. -/
theorem tree_file_ends_in_order_iff (textual : Textual bytes) :
    (Orderly folder (Path.ofText f) bytes (run folder ["--ast", f] input) ↔
      (∀ error, ¬ Overflows bytes error) ∧ (∀ kindName, ¬ Strays bytes kindName) ∧
        ∀ error, ¬ Garbles bytes error) ∧
    (∀ error, Overflows bytes error →
      run folder ["--ast", f] input = crashed folder (.outOfRange error)) ∧
    (∀ error, Garbles bytes error →
      (run folder ["--ast", f] input).exit = .crash (.notWritable error)) ∧
    (∀ kindName, Strays bytes kindName → (∀ error, ¬ Garbles bytes error) →
      (run folder ["--ast", f] input).exit = .crash (.meaningless kindName)) ∧
    (∀ value, treeValue? bytes = some value → value.inRange → ∀ error, ¬ Overflows bytes error) ∧
    (∀ statements, Holds bytes statements → (∀ s ∈ statements, s.whole) →
      ∀ kindName, ¬ Strays bytes kindName) ∧
    (∀ statements, Holds bytes statements → (∀ s ∈ statements, s.plain) →
      ∀ error, ¬ Garbles bytes error) := by
  refine ⟨⟨?_, ?_⟩, ?_, ?_, ?_, ?_, ?_, ?_⟩
  · intro orderly
    obtain ⟨code, exit⟩ := orderly.exit_eq
    have clean : ∀ error, ¬ Garbles bytes error := by
      intro error garbles
      rw [run_of_garbles plain given found input garbles] at exit
      cases exit
    refine ⟨?_, ?_, clean⟩
    · intro error overflows
      rw [run_of_overflows plain given found input overflows] at exit
      cases exit
    · intro kindName strays
      rw [run_of_strays plain given found input clean strays] at exit
      cases exit
  · rintro ⟨inside, meaning, clean⟩
    exact orderly_run plain given found input textual inside meaning clean
  · intro error
    exact run_of_overflows plain given found input
  · intro error
    exact run_of_garbles plain given found input
  · intro kindName strays clean
    exact run_of_strays plain given found input clean strays
  · intro value
    exact not_overflows
  · intro statements
    exact not_strays
  · intro statements
    exact not_garbles

end TreeFile

def bytesOf (text : String) : List UInt8 := text.toList.flatMap String.utf8EncodeChar

/-- A folder with one tree file. -/
def treeFolder (text : String) : Folder := ⟨["home"], [(["home", "a.json"], .file (bytesOf text))]⟩

/-- A declaration on an infinite line. -/
def farText : String :=
  "\x7b\"type\": \"Program\", \"body\": [\x7b\"type\": \"VariableDeclaration\", " ++
  "\"name\": \"x\", \"line\": 1e999\x7d]\x7d"

/-- A program whose only statement is missing. -/
def gapText : String := "\x7b\"type\": \"Program\", \"body\": [null]\x7d"

/-- A program that prints a surrogate. -/
def markText : String :=
  "\x7b\"type\": \"Program\", \"body\": [\x7b\"type\": \"PrintStatement\", \"value\": " ++
  "\x7b\"type\": \"Literal\", \"value\": \x7b\"__value__\": \"String\", " ++
  "\"value\": \"\\ud800\"\x7d\x7d\x7d]\x7d"

/-- Whether decoding came to an infinite line. -/
def isFar : Option (Decoded (List Draft)) → Bool
  | some (.error .infiniteInteger) => true
  | _ => false

/-- Whether decoding came to a missing statement alone. -/
def isGap : Option (Decoded (List Draft)) → Bool
  | some (.ok [.missing]) => true
  | _ => false

/-- Whether decoding came to the print of a surrogate alone. -/
def isMark : Option (Decoded (List Draft)) → Bool
  | some (.ok [.print (.literal (.string (.string [point])))]) => point = .surrogate 0
  | _ => false

theorem eq_of_isFar {result : Option (Decoded (List Draft))} (far : isFar result) :
    result = some (.error .infiniteInteger) := by
  unfold isFar at far
  split at far
  · rfl
  · cases far

theorem eq_of_isGap {result : Option (Decoded (List Draft))} (gap : isGap result) :
    result = some (.ok [.missing]) := by
  unfold isGap at gap
  split at gap
  · rfl
  · cases gap

theorem eq_of_isMark {result : Option (Decoded (List Draft))} (mark : isMark result) :
    result = some (.ok [.print (.literal (.string (.string [.surrogate 0])))]) := by
  unfold isMark at mark
  split at mark
  · rw [of_decide_eq_true mark]
  · cases mark

theorem Textual.of_ok {bytes : List UInt8} {drafts : List Draft}
    (decoded : decoded? bytes = some (.ok drafts)) (texts : (Draft.nodes? drafts).isSome) :
    Textual bytes := by
  intro drafts' decoded'
  cases decoded.symm.trans decoded'
  exact texts

/-- A file with an infinite line, one with a missing statement, and one that prints a surrogate. -/
theorem three_tree_files_break_off :
    let path := Path.ofText "a.json"
    let ending (text : String) := run (treeFolder text) ["--ast", "a.json"] ""
    let orderly (text : String) := Orderly (treeFolder text) path (bytesOf text) (ending text)
    Options.classify "a.json" = .ok (.plain "a.json") ∧ "a.json" ≠ "" ∧
      (∀ text ∈ [farText, gapText, markText],
        (treeFolder text).find path = .ok (.file (bytesOf text)) ∧ Textual (bytesOf text)) ∧
      ¬ orderly farText ∧ (ending farText).exit = .crash (.outOfRange .infiniteInteger) ∧
      ¬ orderly gapText ∧ (ending gapText).exit = .crash (.meaningless "NoneType") ∧
      ¬ orderly markText ∧ (ending markText).exit = .crash (.notWritable ⟨0xd800, 0, 1⟩) := by
  intro path ending orderly
  have plain : Options.classify "a.json" = .ok (.plain "a.json") := by decide +kernel
  have given : "a.json" ≠ "" := by decide
  have far : (treeFolder farText).find path = .ok (.file (bytesOf farText)) := by decide +kernel
  have gap : (treeFolder gapText).find path = .ok (.file (bytesOf gapText)) := by decide +kernel
  have mark : (treeFolder markText).find path = .ok (.file (bytesOf markText)) := by decide +kernel
  have decodedFar : decoded? (bytesOf farText) = _ := eq_of_isFar (by decide +kernel)
  have decodedGap : decoded? (bytesOf gapText) = _ := eq_of_isGap (by decide +kernel)
  have decodedMark : decoded? (bytesOf markText) = _ := eq_of_isMark (by decide +kernel)
  have textualFar : Textual (bytesOf farText) := by
    intro drafts decoded
    cases decodedFar.symm.trans decoded
  have textualGap : Textual (bytesOf gapText) := .of_ok decodedGap rfl
  have textualMark : Textual (bytesOf markText) := .of_ok decodedMark rfl
  have overflows : Overflows (bytesOf farText) .infiniteInteger := ⟨decodedFar, rfl⟩
  have strays : Strays (bytesOf gapText) "NoneType" := ⟨[.missing], ⟨_, decodedGap, rfl⟩, rfl⟩
  have garbles : Garbles (bytesOf markText) ⟨0xd800, 0, 1⟩ :=
    ⟨[.print (.literal (.string [.surrogate 0]))], ⟨_, decodedMark, rfl⟩, rfl⟩
  have quiet : ∀ error, ¬ Garbles (bytesOf gapText) error := by
    rintro error ⟨statements, ⟨drafts, decoded, stands⟩, prints⟩
    cases decodedGap.symm.trans decoded
    cases stands
    cases prints
  obtain ⟨exactly, breaks, -⟩ := tree_file_ends_in_order_iff plain given far "" textualFar
  obtain ⟨exactly', -, -, breaks', -⟩ := tree_file_ends_in_order_iff plain given gap "" textualGap
  obtain ⟨exactly'', -, breaks'', -⟩ := tree_file_ends_in_order_iff plain given mark "" textualMark
  refine ⟨plain, given, ?_, ?_, ?_, ?_, breaks' _ strays quiet, ?_, breaks'' _ garbles⟩
  · simp only [List.forall_mem_cons]
    exact ⟨⟨far, textualFar⟩, ⟨gap, textualGap⟩, ⟨mark, textualMark⟩, nofun⟩
  · intro ends
    exact (exactly.mp ends).1 _ overflows
  · exact congrArg Completion.exit (breaks _ overflows)
  · intro ends
    exact (exactly'.mp ends).2.1 _ strays
  · intro ends
    exact (exactly''.mp ends).2.2 _ garbles

end Command

end LoxLang
