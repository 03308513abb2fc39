/-
# LoxLang.Proofs.SavedPrograms -- a saved program runs as its script does

The command can save the tree of a script in a file beside it, and it can run that file.
Two things stand between the tree in memory and the tree that is run.  One is the text of
the file, from which the tree comes back as it was (`loadTree_saved`).  The other is the
folder: the file must be found where it was put, also with the log beside it.  Writing a
file in a directory that is there changes nothing at other places
(`Folder.entryAt?_write_of_ne`), and the log has another name.

What a run shows depends on its statements and the verbosity, and not on the folder or the
front end (`ofRun_alike`).  So the saved tree runs as the script does, up to the lines of
its errors (`saved_tree_runs_as_script`).
-/
import LoxLang.Command
import LoxLang.Proofs.TreeCodec

namespace LoxLang

set_option autoImplicit false

/-! ## Folders -/

namespace Folder

/-- Whether something lies at a place or below it. -/
def leads (f : Folder) (place : List String) : Bool :=
  place.isPrefixOf f.here || f.entries.any fun entry => place.isPrefixOf entry.1

theorem entryAt?_eq (f : Folder) (place : List String) :
    f.entryAt? place =
      (f.entries.lookup place).or (if f.leads place then some .directory else none) := by
  unfold entryAt? leads
  cases f.entries.lookup place <;> rfl

theorem leads_here (f : Folder) : f.leads f.here := by
  simp [leads, List.isPrefixOf_iff_prefix]

theorem leads_of_leads {f : Folder} {q place : List String} (above : q <+: place)
    (below : f.leads place) : f.leads q := by
  simp only [leads, Bool.or_eq_true, List.any_eq_true, List.isPrefixOf_iff_prefix] at below ⊢
  rcases below with here | ⟨entry, member, inside⟩
  · exact .inl (above.trans here)
  · exact .inr ⟨entry, member, above.trans inside⟩

theorem leads_of_directory {f : Folder} {place : List String}
    (directory : f.entryAt? place = some .directory) : f.leads place := by
  rw [entryAt?_eq] at directory
  cases found : f.entries.lookup place with
  | some entry =>
      have member : (place, entry) ∈ f.entries := by
        obtain ⟨first, rest, same, -⟩ := List.lookup_eq_some_iff.mp found
        rw [same]
        exact List.mem_append_right first List.mem_cons_self
      simp only [leads, Bool.or_eq_true, List.any_eq_true, List.isPrefixOf_iff_prefix]
      exact .inr ⟨_, member, List.prefix_refl place⟩
  | none =>
      rw [found] at directory
      by_contra nothing
      simp [nothing] at directory

section Write

variable {f : Folder} {front : List String} {name : String} (above : f.leads front) (t : Text)

theorem entryAt?_write_self (f : Folder) (place : List String) (t : Text) :
    (f.write place t).entryAt? place = some (.file t.shown.toUTF8.toList) := by
  rw [entryAt?_eq, write, Entries.lookup_put, if_pos rfl, Option.some_or]

include above

/-- Writing a file changes nothing at other places. -/
theorem entryAt?_write_of_ne {q : List String} (other : q ≠ front ++ [name]) :
    (f.write (front ++ [name]) t).entryAt? q = f.entryAt? q := by
  have same : (f.write (front ++ [name]) t).leads q = f.leads q := by
    have keys := Entries.any_put (fun place => q.isPrefixOf place) (front ++ [name])
      (.file t.shown.toUTF8.toList) f.entries
    show (q.isPrefixOf f.here || _) = _
    rw [write, keys, ← Bool.or_assoc]
    show (f.leads q || _) = _
    by_cases inside : q <+: front ++ [name]
    · rcases List.prefix_concat_iff.mp inside with whole | inner
      · exact absurd whole other
      · rw [leads_of_leads inner above, Bool.true_or]
    · have outside : q.isPrefixOf (front ++ [name]) = false :=
        Bool.eq_false_of_not_eq_true fun starts => inside (List.isPrefixOf_iff_prefix.mp starts)
      rw [outside, Bool.or_false]
  rw [entryAt?_eq, same, write, Entries.lookup_put, if_neg other, ← entryAt?_eq]

/-- Paths that lead somewhere still lead there after a file is written. -/
theorem follow_write (free : f.entryAt? (front ++ [name]) ≠ some .directory) {start parts r : List String}
    (found : f.follow start parts = .ok r) : (f.write (front ++ [name]) t).follow start parts = .ok r := by
  induction parts generalizing start with
  | nil => exact found
  | cons part rest ih =>
      unfold follow at found ⊢
      split at found
      · cases found
      · rename_i directory
        have directory : f.entryAt? start.reverse = some .directory := not_not.mp directory
        have other : start.reverse ≠ front ++ [name] := by
          rintro same
          rw [same] at directory
          exact free directory
        rw [entryAt?_write_of_ne above t other, if_neg (not_not.mpr directory)]
        split at found
        · rw [if_pos ‹_›]
          exact ih found
        · rw [if_neg ‹_›]
          split at found
          · cases found
          · rw [if_neg ‹_›]
            exact ih found

theorem placeOf_write (free : f.entryAt? (front ++ [name]) ≠ some .directory) {p : Path} {place : List String}
    (found : f.placeOf p = .ok place) : (f.write (front ++ [name]) t).placeOf p = .ok place := by
  unfold placeOf at found ⊢
  split at found
  · cases found
  · rw [if_neg ‹_›]
    split at found
    · cases found
    · rw [if_neg ‹_›]
      cases led : f.follow (if p.root = "" then f.here.reverse else []) p.parts with
      | error fault => rw [led] at found; cases found
      | ok r =>
          rw [led] at found
          have still := follow_write above t free led
          show Except.map List.reverse (follow _ (if p.root = "" then f.here.reverse else []) p.parts) = _
          rw [still]
          exact found

/-- A path to a written file finds what was written. -/
theorem find_write_self (free : f.entryAt? (front ++ [name]) ≠ some .directory) {p : Path}
    (placed : f.placeOf p = .ok (front ++ [name])) :
    (f.write (front ++ [name]) t).find p = .ok (.file t.shown.toUTF8.toList) := by
  rw [find, placeOf_write above t free placed]
  simp only [entryAt?_write_self]

/-- A path to another file finds what it found before. -/
theorem find_write_of_ne (free : f.entryAt? (front ++ [name]) ≠ some .directory) {p : Path} {entry : Entry}
    (found : f.find p = .ok entry) (other : f.placeOf p ≠ .ok (front ++ [name])) :
    (f.write (front ++ [name]) t).find p = .ok entry := by
  unfold find at found ⊢
  split at found
  · cases found
  · rename_i place placed
    rw [placeOf_write above t free placed]
    have apart : place ≠ front ++ [name] := by
      rintro rfl
      exact other placed
    simp only [entryAt?_write_of_ne above t apart]
    exact found

end Write

theorem follow_append (f : Folder) (start first rest : List String) :
    f.follow start (first ++ rest) = (f.follow start first).bind fun place => f.follow place rest := by
  induction first generalizing start with
  | nil => rfl
  | cons part first ih =>
      rw [List.cons_append, follow, follow]
      split
      · rfl
      · split
        · exact ih _
        · split
          · rfl
          · exact ih _

end Folder

namespace Command

theorem savedName_ne {base name : String} (other : name.toList.getLast? ≠ some 'n') :
    base ++ ".ast.json" ≠ name := by
  rintro rfl
  simp at other

/-- A tree is saved in a directory, under a name that the log does not have. -/
theorem place_of_savedPath {folder : Folder} {path : Path} {place : List String}
    (placed : folder.placeOf (savedPath path) = .ok place) :
    ∃ front base, place = front ++ [base ++ ".ast.json"] ∧ folder.leads front := by
  unfold Folder.placeOf at placed
  split at placed
  · cases placed
  split at placed
  · cases placed
  rw [savedPath, Path.extend, Folder.follow_append] at placed
  generalize path.parts.getLast?.getD "" = base at placed
  cases led : folder.follow (if path.root = "" then folder.here.reverse else []) path.parts.dropLast with
  | error fault => rw [led] at placed; cases placed
  | ok above =>
      rw [led] at placed
      have last : (folder.follow above [base ++ ".ast.json"]).map List.reverse = .ok place := placed
      unfold Folder.follow at last
      split at last
      · cases last
      · rename_i directory
        rw [if_neg (savedName_ne (by decide))] at last
        split at last
        · cases last
        · cases last
          exact ⟨above.reverse, base, List.reverse_cons, Folder.leads_of_directory (not_not.mp directory)⟩

/-! ## Trees in files -/

/-- **The tree of a text that was saved is loaded.** -/
theorem loadTree_saved (frontEnd : FrontEnd) {source : String}
    (lines : source.toList.count '\n' + 1 < 10 ^ Numeral.maxDigits)
    (shallow : (Node.programToJson (frontEnd.read source).statements).depth ≤ loadLimit) :
    loadTree (Node.programToJson (frontEnd.read source).statements).pretty.shown.toUTF8.toList =
      .ok (Node.toDrafts (frontEnd.read source).statements) := by
  obtain ⟨text, decoded, value⟩ := Json.read_written (frontEnd.writable_read lines) shallow
  rw [loadTree, decoded]
  simp only [value, frontEnd.programOfJson_read]

/-- The tree of a text within the limit of loading is saved. -/
theorem save_read (frontEnd : FrontEnd) {source : String}
    (shallow : (Node.programToJson (frontEnd.read source).statements).depth ≤ loadLimit) :
    Node.save (.block (frontEnd.read source).statements) =
      .ok (Node.programToJson (frontEnd.read source).statements) :=
  (frontEnd.sound_of_read source).save_eq shallow

/-! ## Runs that look alike -/

/-- Two ends that show the same, whatever they leave in the folder. -/
structure Alike (c d : Completion) : Prop where
  exit : c.exit = d.exit
  output : c.output = d.output
  errors : c.errors = d.errors

/-- Statements run alike in any folder, whatever front end the session has. -/
theorem ofRun_alike (sink : Sink) (folder folder' : Folder) (frontEnd frontEnd' : FrontEnd) (verbosity : Nat)
    (statements : List Node) :
    Alike (ofRun sink folder ((Session.initial frontEnd verbosity).runStatements statements)).1
      (ofRun sink folder' ((Session.initial frontEnd' verbosity).runStatements statements)).1 := by
  unfold ofRun Session.runStatements
  simp only [Session.initial]
  split
  · exact ⟨rfl, rfl, rfl⟩
  · exact ⟨rfl, rfl, rfl⟩

theorem readBytes_eq {folder : Folder} {path : Path} {bytes : List UInt8}
    (found : folder.find path = .ok (.file bytes)) : readBytes folder path = .ok bytes := by
  rw [readBytes, found]

theorem readScript_eq {folder : Folder} {path : Path} {bytes : List UInt8} {source : String}
    (found : folder.find path = .ok (.file bytes)) (text : Text.ofBytes bytes = .ok source) :
    readScript folder path = .ok source := by
  rw [readScript, readBytes_eq found]
  show Except.bind (.ok bytes) _ = _
  rw [Except.bind, text]
  rfl

theorem runScript_eq {folder : Folder} {path : Path} {bytes : List UInt8} {source : String}
    (found : folder.find path = .ok (.file bytes)) (text : Text.ofBytes bytes = .ok source)
    {session : Session} (clean : (session.frontEnd.read source).diagnostics = []) (sink : Sink) :
    runScript sink folder session path =
      ofRun sink folder (session.runStatements (session.frontEnd.read source).statements) := by
  rw [runScript, readScript_eq found text]
  simp only
  rw [Session.run, clean]
  rfl

theorem runTree_eq {folder : Folder} {path : Path} {bytes : List UInt8} {drafts : List Draft}
    {statements : List Node} (found : folder.find path = .ok (.file bytes))
    (loaded : loadTree bytes = .ok drafts) (stands : Draft.nodes? drafts = some statements) (sink : Sink)
    (session : Session) :
    runTree sink folder session path = ofRun sink folder (session.runStatements statements) := by
  rw [runTree, readBytes_eq found]
  simp only [loaded, stands]

/-- The folder in which a program runs: with verbosity there is an empty log. -/
def logged (folder : Folder) (verbosity : Nat) : Folder :=
  if verbosity = 0 then folder else folder.write (folder.here ++ [logName]) ""

theorem runLogged_tree {treeFile : String} (given : treeFile ≠ "") (sink : Sink) (folder : Folder)
    (verbosity : Nat) (frontEnd : Option FrontEnd) (session : Session) (input : String) :
    runLogged sink folder ⟨verbosity, frontEnd, some .loadTree, treeFile, []⟩ session input =
      runTree sink folder session (Path.ofText treeFile) :=
  if_pos given

theorem runLogged_script (sink : Sink) (folder : Folder) (verbosity : Nat) (frontEnd : Option FrontEnd)
    (script : String) (session : Session) (input : String) :
    runLogged sink folder ⟨verbosity, frontEnd, none, "", [script]⟩ session input =
      runScript sink folder session (Path.ofText script) :=
  if_neg (by simp)

/-- Programs look alike if they do so with the log in its place. -/
theorem runProgram_alike {sink : Sink} {folder folder' : Folder} {o o' : Options}
    {frontEnd frontEnd' : FrontEnd} {input input' : String} (verbosity : o.verbosity = o'.verbosity)
    (logs : folder.entryAt? (folder.here ++ [logName]) = folder'.entryAt? (folder'.here ++ [logName]))
    (alike : (o.verbosity ≠ 0 → folder.entryAt? (folder.here ++ [logName]) ≠ some .directory) →
      Alike (runLogged sink (logged folder o.verbosity) o (Session.initial frontEnd o.verbosity) input).1
        (runLogged sink (logged folder' o'.verbosity) o' (Session.initial frontEnd' o'.verbosity) input').1) :
    Alike (runProgram sink folder o frontEnd input) (runProgram sink folder' o' frontEnd' input') := by
  unfold runProgram
  by_cases silent : o.verbosity = 0
  · have alike := alike fun speaks => absurd silent speaks
    have silent' : o'.verbosity = 0 := verbosity ▸ silent
    rw [logged, logged, if_pos silent, if_pos silent'] at alike
    simp only [if_pos silent, if_pos silent']
    exact alike
  · have speaks' : o'.verbosity ≠ 0 := verbosity ▸ silent
    simp only [if_neg silent, if_neg speaks']
    by_cases directory : folder.entryAt? (folder.here ++ [logName]) = some .directory
    · rw [if_pos directory, if_pos (logs ▸ directory)]
      exact ⟨rfl, rfl, rfl⟩
    · have alike := alike fun _ => directory
      rw [logged, logged, if_neg silent, if_neg speaks'] at alike
      rw [if_neg directory, if_neg (logs ▸ directory)]
      exact ⟨alike.exit, alike.output, alike.errors⟩

/-- A file that is not the log is found as before once the log is there. -/
theorem find_logged {folder : Folder} {verbosity : Nat} {path : Path} {entry : Entry}
    (found : folder.find path = .ok entry)
    (free : verbosity ≠ 0 → folder.entryAt? (folder.here ++ [logName]) ≠ some .directory)
    (apart : verbosity = 0 ∨ folder.placeOf path ≠ .ok (folder.here ++ [logName])) :
    (logged folder verbosity).find path = .ok entry := by
  unfold logged
  by_cases silent : verbosity = 0
  · rwa [if_pos silent]
  · rw [if_neg silent]
    exact Folder.find_write_of_ne folder.leads_here "" (free silent) found (apart.resolve_left silent)

/-- A script that its front end accepts is saved in the file beside it. -/
theorem withTree_saveTree {folder : Folder} {frontEnd : FrontEnd} {path : Path} {bytes : List UInt8}
    {source : String} {place : List String} {tree : Json}
    (found : folder.find path = .ok (.file bytes)) (text : Text.ofBytes bytes = .ok source)
    (clean : (frontEnd.read source).diagnostics = [])
    (saved : Node.save (.block (frontEnd.read source).statements) = .ok tree)
    (placed : folder.placeOf (savedPath path) = .ok place)
    (free : folder.entryAt? place ≠ some .directory) :
    withTree folder frontEnd path saveTree =
      finish (folder.write place tree.pretty) 0 ((savedPath path).text ++ "\n") "" := by
  rw [withTree, readScript_eq found text]
  simp only [clean, Diagnostic.anyStatic, List.any_nil, Bool.false_eq_true, ↓reduceIte]
  rw [saveTree, saved, placed]
  simp only [if_neg free]

/-- The log is never the file of a saved tree. -/
theorem logPlace_ne (here front : List String) (base : String) :
    here ++ [logName] ≠ front ++ [base ++ ".ast.json"] := by
  intro same
  have last := (List.append_inj' same rfl).2
  exact savedName_ne (by decide) (List.cons.inj last).1.symm

/-- A file that loads as the statements of a script runs as the script does. -/
theorem runProgram_tree_alike {folder folder' : Folder} {frontEnd loader : FrontEnd} {verbosity : Nat}
    {script treeFile source : String} {bytes treeBytes : List UInt8} {drafts : List Draft}
    (found : folder.find (Path.ofText script) = .ok (.file bytes)) (text : Text.ofBytes bytes = .ok source)
    (clean : (frontEnd.read source).diagnostics = [])
    (apart : verbosity = 0 ∨ folder.placeOf (Path.ofText script) ≠ .ok (folder.here ++ [logName]))
    (given : treeFile ≠ "") (treeFound : folder'.find (Path.ofText treeFile) = .ok (.file treeBytes))
    (loaded : loadTree treeBytes = .ok drafts)
    (stands : Draft.nodes? drafts = some (frontEnd.read source).statements)
    (treeApart : folder'.placeOf (Path.ofText treeFile) ≠ .ok (folder'.here ++ [logName]))
    (logs : folder'.entryAt? (folder'.here ++ [logName]) = folder.entryAt? (folder.here ++ [logName]))
    (sink : Sink) (input input' : String) :
    Alike (runProgram sink folder' ⟨verbosity, some loader, some .loadTree, treeFile, []⟩ loader input)
      (runProgram sink folder ⟨verbosity, some frontEnd, none, "", [script]⟩ frontEnd input') := by
  refine runProgram_alike rfl logs fun free => ?_
  have free : verbosity ≠ 0 → folder'.entryAt? (folder'.here ++ [logName]) ≠ some .directory := free
  rw [runLogged_tree given, runLogged_script]
  rw [runTree_eq (find_logged treeFound free (.inr treeApart)) loaded stands,
    runScript_eq (find_logged found (fun speaks => logs ▸ free speaks) apart) text
      (show ((Session.initial frontEnd verbosity).frontEnd.read source).diagnostics = [] from clean)]
  exact ofRun_alike _ _ _ _ _ _ _

section Arguments

variable {arguments : List String} {verbosity : Nat} {frontEnd : FrontEnd} {script treeFile : String}
  (folder : Folder) (input : String)

theorem run_script
    (asks : Options.ofArguments arguments = .ok ⟨verbosity, some frontEnd, none, "", [script]⟩) :
    run folder arguments input =
      runProgram .bytes folder ⟨verbosity, some frontEnd, none, "", [script]⟩ frontEnd input := by
  rw [run, runOn, asks]
  exact if_neg (by simp)

theorem run_save
    (asks : Options.ofArguments arguments = .ok ⟨verbosity, some frontEnd, some .saveTree, "", [script]⟩) :
    run folder arguments input = withTree folder frontEnd (Path.ofText script) saveTree := by
  rw [run, runOn, asks]
  exact if_neg (by simp)

theorem run_tree
    (asks : Options.ofArguments arguments = .ok ⟨verbosity, some frontEnd, some .loadTree, treeFile, []⟩) :
    run folder arguments input =
      runProgram .bytes folder ⟨verbosity, some frontEnd, some .loadTree, treeFile, []⟩ frontEnd input := by
  rw [run, runOn, asks]
  exact if_neg (by simp)

end Arguments

/-- **Saving a tree and running it is the same as running its script.**  The command saves the tree of
a script that its front end accepts, if the tree is within the limits, the numbers of its lines are
not too long to be read back, and the file beside the script can be written.  Then it runs the file
as it runs the script: with the same end, the same output and the same errors.  With verbosity the
script must not be the log, which is emptied before the script is read. -/
theorem saved_tree_runs_as_script {folder : Folder} {script treeFile : String} {bytes : List UInt8}
    {source : String} {place : List String} {frontEnd loader : FrontEnd} {verbosity saver : Nat}
    {direct save load : List String}
    (runs : Options.ofArguments direct = .ok ⟨verbosity, some frontEnd, none, "", [script]⟩)
    (saves : Options.ofArguments save = .ok ⟨saver, some frontEnd, some .saveTree, "", [script]⟩)
    (loads : Options.ofArguments load = .ok ⟨verbosity, some loader, some .loadTree, treeFile, []⟩)
    (named : Path.ofText treeFile = savedPath (Path.ofText script))
    (found : folder.find (Path.ofText script) = .ok (.file bytes))
    (text : Text.ofBytes bytes = .ok source)
    (placed : folder.placeOf (savedPath (Path.ofText script)) = .ok place)
    (free : folder.entryAt? place ≠ some .directory)
    (apart : verbosity = 0 ∨ folder.placeOf (Path.ofText script) ≠ .ok (folder.here ++ [logName]))
    (clean : (frontEnd.read source).diagnostics = [])
    (shallow : (Node.programToJson (frontEnd.read source).statements).depth ≤ loadLimit)
    (lines : source.toList.count '\n' + 1 < 10 ^ Numeral.maxDigits) (input : String) :
    (run folder save input).exit = .status 0 ∧
      (run folder save input).output = (savedPath (Path.ofText script)).text ++ "\n" ∧
      (run folder save input).errors = "" ∧
      (run (run folder save input).folder load input).exit = (run folder direct input).exit ∧
      (run (run folder save input).folder load input).output = (run folder direct input).output ∧
      (run (run folder save input).folder load input).errors = (run folder direct input).errors := by
  obtain ⟨front, base, rfl, above⟩ := place_of_savedPath placed
  have saved : run folder save input = finish
      (folder.write (front ++ [base ++ ".ast.json"])
        (Node.programToJson (frontEnd.read source).statements).pretty) 0
      ((savedPath (Path.ofText script)).text ++ "\n") "" := by
    rw [run_save folder input saves]
    exact withTree_saveTree found text clean (save_read frontEnd shallow) placed free
  have alike : Alike (run (run folder save input).folder load input) (run folder direct input) := by
    rw [saved, run_tree _ input loads, run_script folder input runs]
    have treeFound := Folder.find_write_self above
      (Node.programToJson (frontEnd.read source).statements).pretty free placed
    have treePlaced := Folder.placeOf_write above
      (Node.programToJson (frontEnd.read source).statements).pretty free placed
    rw [← named] at treeFound treePlaced
    have given : treeFile ≠ "" := by
      rintro rfl
      have parts := congrArg Path.parts named
      simp [savedPath, Path.extend, Path.ofText, Path.pieces] at parts
    have other := logPlace_ne folder.here front base
    exact runProgram_tree_alike found text clean apart given treeFound (loadTree_saved frontEnd lines shallow)
      (frontEnd.nodes?_read source) (fun same => other (Except.ok.inj (same.symm.trans treePlaced)))
      (Folder.entryAt?_write_of_ne above _ other) .bytes input input
  rw [saved] at alike ⊢
  exact ⟨rfl, rfl, rfl, alike.exit, alike.output, alike.errors⟩

/-- A script that prints a string and then fails on its third line. -/
def failingSource : String := "var s = \"x\ty\";\nprint s;\nprint -s;"

def failingFolder : Folder :=
  ⟨["home"], [(["home", "a.lox"], .file (failingSource.toList.flatMap String.utf8EncodeChar))]⟩

theorem saved_tree_fails_as_script :
    (run failingFolder ["a.lox"] "").output = "x\ty\n" ∧
      (run failingFolder ["a.lox"] "").errors = "[line 3] Error: Operand must be a number.\n" ∧
      (run failingFolder ["--emit-ast", "a.lox"] "").output = "a.lox.ast.json\n" ∧
      (run (run failingFolder ["--emit-ast", "a.lox"] "").folder ["--ast", "a.lox.ast.json"] "").output =
        (run failingFolder ["a.lox"] "").output ∧
      (run (run failingFolder ["--emit-ast", "a.lox"] "").folder ["--ast", "a.lox.ast.json"] "").errors =
        (run failingFolder ["a.lox"] "").errors := by
  have runs : Options.ofArguments ["a.lox"] = .ok ⟨0, some .descent, none, "", ["a.lox"]⟩ := by
    decide +kernel
  have saves : Options.ofArguments ["--emit-ast", "a.lox"] =
      .ok ⟨0, some .descent, some .saveTree, "", ["a.lox"]⟩ := by decide +kernel
  have loads : Options.ofArguments ["--ast", "a.lox.ast.json"] =
      .ok ⟨0, some .descent, some .loadTree, "a.lox.ast.json", []⟩ := by decide +kernel
  have found : failingFolder.find (Path.ofText "a.lox") =
      .ok (.file (failingSource.toList.flatMap String.utf8EncodeChar)) := by decide +kernel
  have text : Text.ofBytes (failingSource.toList.flatMap String.utf8EncodeChar) = .ok failingSource := by
    decide +kernel
  have placed : failingFolder.placeOf (savedPath (Path.ofText "a.lox")) =
      .ok ["home", "a.lox.ast.json"] := by decide +kernel
  obtain ⟨-, target, -, -, output, errors⟩ :=
    saved_tree_runs_as_script runs saves loads (by decide +kernel) found text placed
      (by decide +kernel) (.inl rfl) (by decide +kernel) (by decide +kernel) (by decide +kernel) ""
  have shown : ((savedPath (Path.ofText "a.lox")).text ++ "\n" : Text) = "a.lox.ast.json\n" := by
    decide +kernel
  exact ⟨by decide +kernel, by decide +kernel, target.trans shown, output, errors⟩

end Command

end LoxLang
