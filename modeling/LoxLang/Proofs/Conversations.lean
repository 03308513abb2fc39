/-
# LoxLang.Proofs.Conversations -- a conversation is the runs of its lines

What a line asks for shows in its text.  Behind a dot stands a command if the first word
names one; a line that is neither empty nor such a command is a program, and so is what
stands behind the dot of any other line (`Asks`).  Whether a line ends the
conversation is decided there, and not by what its program does.

A step acts on the session by running that program or not at all (`step_of_closes`,
`step_of_idle`, `step_of_program`).  By induction over the lines, a conversation leaves
behind what the same programs leave that are run one after another on one runner.
-/
import LoxLang.Prompt
import LoxLang.Proofs.Sessions

namespace LoxLang

set_option autoImplicit false

namespace Prompt

/-! ## Lines of an input -/

/-- Lines as they are read one by one: each goes up to its line feed, and only the last may have
none. -/
inductive ReadAs : List Char → List (List Char) → Prop where
  | nothing : ReadAs [] []
  | last {cs : List Char} (some : cs ≠ []) (unended : '\n' ∉ cs) : ReadAs cs [cs]
  | line {cs rest : List Char} {lines : List (List Char)} (inside : '\n' ∉ cs)
      (later : ReadAs rest lines) : ReadAs (cs ++ '\n' :: rest) ((cs ++ ['\n']) :: lines)

/-- An input is taken apart into its lines. -/
theorem inputLines_readAs (cs : List Char) : ReadAs cs (inputLines cs) := by
  induction cs with
  | nil => exact .nothing
  | cons c cs ih =>
      unfold inputLines
      generalize inputLines cs = lines at ih ⊢
      by_cases feed : c = '\n'
      · subst feed
        have first : ReadAs ([] ++ '\n' :: cs) (([] ++ ['\n']) :: lines) := .line List.not_mem_nil ih
        cases ih <;> exact first
      · cases ih with
        | nothing =>
            show ReadAs [c] [[c]]
            exact .last (List.cons_ne_nil _ _) (by simpa using Ne.symm feed)
        | last some unended =>
            simp only [if_neg feed]
            exact .last (List.cons_ne_nil _ _) (by simp [Ne.symm feed, unended])
        | @line first rest lines inside later =>
            have longer : '\n' ∉ c :: first := by simp [Ne.symm feed, inside]
            simp only [if_neg feed]
            exact .line longer later

/-- What is typed on a line: all of it but the line feed and perhaps returns at its end. -/
def Typed (line : List Char) (typed : String) : Prop :=
  '\n' ∉ typed.toList ∧ ∃ feeds, line = typed.toList ++ feeds ∧ ∀ c ∈ feeds, c = '\n' ∨ c = '\r'

/-- Removing the end of a line leaves what is typed on it. -/
theorem typed_remove (ending : LineEnding) {line body : List Char} (inside : '\n' ∉ body)
    (shape : line = body ∨ line = body ++ ['\n']) : Typed line (ending.remove line) := by
  cases ending with
  | feedOnly =>
      have unended : body.getLast? ≠ some '\n' := fun last => inside (List.mem_of_getLast? last)
      rcases shape with rfl | rfl
      · rw [LineEnding.remove, if_neg unended]
        exact ⟨by simpa using inside, [], by simp, by simp⟩
      · rw [LineEnding.remove, if_pos (by simp)]
        exact ⟨by simpa using inside, ['\n'], by simp, by simp⟩
  | feedsAndReturns =>
      let feeds := line.reverse.takeWhile fun c => c = '\n' || c = '\r'
      let kept := line.reverse.dropWhile fun c => c = '\n' || c = '\r'
      have whole : feeds ++ kept = line.reverse := List.takeWhile_append_dropWhile
      have clean : '\n' ∉ kept := by
        have fewer : kept = body.reverse.dropWhile fun c => c = '\n' || c = '\r' := by
          rcases shape with rfl | rfl
          · rfl
          · simp [kept]
        intro member
        rw [fewer] at member
        exact inside (List.mem_reverse.mp ((List.dropWhile_suffix _).subset member))
      have removed : (LineEnding.feedsAndReturns.remove line).toList = kept.reverse :=
        String.toList_ofList
      rw [Typed, removed]
      refine ⟨fun member => clean (List.mem_reverse.mp member), feeds.reverse, ?_, fun c member => ?_⟩
      · rw [← List.reverse_append, whole, List.reverse_reverse]
      · have feed := List.all_eq_true.mp List.all_takeWhile c (List.mem_reverse.mp member)
        simpa using feed

theorem typed_of_readAs (ending : LineEnding) {cs : List Char} {lines : List (List Char)}
    (read : ReadAs cs lines) : ∀ line ∈ lines, Typed line (ending.remove line) := by
  induction read with
  | nothing => simp
  | last _ unended => simpa using typed_remove ending unended (.inl rfl)
  | line inside _ later =>
      exact List.forall_mem_cons.mpr ⟨typed_remove ending inside (.inr rfl), later⟩

/-! ## What a line asks for -/

/-- What stands behind the dot of a line that starts with one, without the blanks at its ends. -/
def behindDot? (line : String) : Option String :=
  if (Text.strip line).toList.head? = some '.' then
    some (Text.strip (String.ofList (Text.strip line).toList.tail))
  else none

/-- The word at the head of a text. -/
def word (text : String) : String := String.ofList (text.toList.takeWhile Lexeme.isNameChar)

/-- The lines that end a conversation. -/
def closes (line : String) : Bool :=
  Text.strip line = "EOF" || (behindDot? line).any fun text => word text ∈ ["exit", "EOF"]

/-- The lines that run nothing: the empty line, the dot alone, and the commands that show something. -/
def idle (line : String) : Bool :=
  line = "" || (behindDot? line).any fun text =>
    text = "" || text.toList.head? = some '?' || word text ∈ ["env", "help"]

/-- The program of a line: what stands behind the dot, or the whole line. -/
def program (line : String) : String := (behindDot? line).getD line

/-- What a line asks for, as its text shows. -/
inductive Asks (line : String) : Action → Prop where
  | leave (closing : String) (ends : closes line) : Asks line (.leave closing)
  | nothing (stays : closes line = false) (rests : idle line) : Asks line .nothing
  | listBindings (stays : closes line = false) (rests : idle line) : Asks line .listBindings
  | help (stays : closes line = false) (rests : idle line) : Asks line .help
  | run (stays : closes line = false) (acts : idle line = false) : Asks line (.run (program line))

theorem action_plain {text : String} (nonempty : text ≠ "") : (Line.plain text).action = .run text :=
  if_neg nonempty

/-- A text with the name of a command in front asks for that command, and any other is to be run. -/
theorem asks_command {line text : String} (argument : Option String) (nonempty : text ≠ "")
    (ends : closes line = decide (word text ∈ ["exit", "EOF"]))
    (rests : idle line = decide (word text ∈ ["env", "help"])) (same : program line = text) :
    Asks line (Line.action ⟨some (word text), argument, text⟩) := by
  generalize word text = name at ends rests
  unfold Line.action
  rw [if_neg nonempty]
  split
  · rename_i named
    cases named
    exact .listBindings ends rests
  · rename_i named
    cases named
    exact .help ends rests
  · rename_i named
    cases named
    exact .leave _ ends
  · rename_i named
    cases named
    exact .leave _ ends
  · rename_i noEnv noHelp noEnd noExit
    have stays : closes line = false := by
      simp only [ends, List.mem_cons, List.not_mem_nil, or_false, decide_eq_false_iff_not, not_or]
      exact ⟨fun is => noExit (congrArg some is), fun is => noEnd (congrArg some is)⟩
    have acts : idle line = false := by
      simp only [rests, List.mem_cons, List.not_mem_nil, or_false, decide_eq_false_iff_not, not_or]
      exact ⟨fun is => noEnv (congrArg some is), fun is => noHelp (congrArg some is)⟩
    have asks := Asks.run stays acts
    rwa [same] at asks

theorem asks_undotted {line : String} (other : Text.strip line ≠ "EOF") (undotted : behindDot? line = none) :
    Asks line (split line).action := by
  have stays : closes line = false := by simp [closes, other, undotted]
  have whole : split line = .plain line := by
    unfold behindDot? at undotted
    unfold split
    rw [if_neg (show Text.strip line ≠ endLine from other)]
    split at undotted
    · cases undotted
    · rename_i no
      split
      · rename_i rest same
        exact absurd (congrArg List.head? same) no
      · rfl
  have same : program line = line := by simp [program, undotted]
  rw [whole]
  by_cases empty : line = ""
  · rw [empty]
    exact .nothing (empty ▸ stays) (by simp [idle])
  · have acts : idle line = false := by simp [idle, empty, undotted]
    have asks := Asks.run stays acts
    rwa [same, ← action_plain empty] at asks

section Dotted

variable {line text : String} (dotted : behindDot? line = some text)

include dotted

/-- Behind the dot of a line stands what is taken apart for a command. -/
theorem split_dotted : Text.strip line ≠ "EOF" ∧ line ≠ "" ∧
    ∃ rest, split line = splitCommand rest ∧ text = String.ofList (Text.trimEnds Text.isBlank rest) := by
  obtain ⟨rest, starts, rfl⟩ : ∃ rest, (Text.strip line).toList = '.' :: rest ∧
      Text.strip (String.ofList rest) = text := by
    unfold behindDot? at dotted
    split at dotted
    · rename_i dot
      obtain ⟨rest, starts⟩ := List.head?_eq_some_iff.mp dot
      rw [starts] at dotted
      exact ⟨rest, starts, Option.some.inj dotted⟩
    · cases dotted
  have other : Text.strip line ≠ "EOF" := by
    intro same
    rw [same] at starts
    cases starts
  refine ⟨other, ?_, rest, ?_, ?_⟩
  · rintro rfl
    cases starts
  · unfold split
    rw [if_neg (show Text.strip line ≠ endLine from other), starts]
    rfl
  · rw [Text.strip, String.toList_ofList]

theorem closes_dotted : closes line = decide (word text ∈ ["exit", "EOF"]) := by
  have other := (split_dotted dotted).1
  simp [closes, other, dotted]

theorem idle_dotted :
    idle line = (text = "" || text.toList.head? = some '?' || word text ∈ ["env", "help"]) := by
  have nonempty := (split_dotted dotted).2.1
  simp [idle, nonempty, dotted]

theorem asks_dotted : Asks line (split line).action := by
  have same : program line = text := by simp [program, dotted]
  have ends := closes_dotted dotted
  have rests := idle_dotted dotted
  obtain ⟨-, -, rest, whole, chars⟩ := split_dotted dotted
  rw [whole]
  unfold splitCommand
  generalize Text.trimEnds Text.isBlank rest = cs at chars
  simp only
  split
  · exact .nothing (by rw [ends, chars]; rfl) (by rw [rests, chars]; rfl)
  · rename_i behind
    have named : ("help ".toList ++ behind).takeWhile Lexeme.isNameChar = "help".toList := rfl
    have nonempty : String.ofList ("help ".toList ++ behind) ≠ "" := by simp
    have wordless : word text = "" := by rw [chars, word, String.toList_ofList]; rfl
    rw [named, Line.action, if_neg nonempty]
    exact .help (by simp [ends, wordless]) (by simp [rests, chars])
  · rename_i behind
    have wordless : word text = "" := by rw [chars, word, String.toList_ofList]; rfl
    rw [action_plain (by simp), ← chars, ← same]
    exact .run (by simp [ends, wordless]) (by rw [rests, wordless, chars]; simp)
  · rename_i noEmpty noHelp noBang
    have nonempty : text ≠ "" := by simpa [chars] using noEmpty
    have unasked : text.toList.head? ≠ some '?' := by
      intro asks
      obtain ⟨behind, same⟩ := List.head?_eq_some_iff.mp asks
      rw [chars, String.toList_ofList] at same
      exact noHelp behind same
    have named : String.ofList (cs.takeWhile Lexeme.isNameChar) = word text := by
      rw [chars, word, String.toList_ofList]
    rw [named, ← chars]
    exact asks_command _ nonempty ends (by simpa [nonempty, unasked] using rests) same

end Dotted

/-- **What a line asks for shows in its text.** -/
theorem asks_action (line : String) : Asks line (split line).action := by
  by_cases ends : Text.strip line = "EOF"
  · have named : (split line).action = .leave "\n" := by
      unfold split
      rw [if_pos (show Text.strip line = endLine from ends)]
      rfl
    rw [named]
    exact .leave _ (by simp [closes, ends])
  · cases dotted : behindDot? line with
    | none => exact asks_undotted ends dotted
    | some text => exact asks_dotted dotted

/-! ## Steps -/

section Steps

variable (p : Prompt) {line : String}

theorem step_of_closes (ends : closes line) :
    (p.step line).stop = true ∧ (p.step line).prompt = p ∧ (p.step line).errors = [] := by
  have asks := asks_action line
  unfold step
  generalize (split line).action = action at asks
  cases asks with
  | leave closing => exact ⟨rfl, rfl, rfl⟩
  | nothing stays | listBindings stays | help stays | run stays => simp [ends] at stays

theorem step_of_idle (stays : closes line = false) (rests : idle line) :
    (p.step line).stop = false ∧ (p.step line).prompt = p ∧ (p.step line).errors = [] := by
  have asks := asks_action line
  unfold step
  generalize (split line).action = action at asks
  cases asks with
  | leave closing ends => simp [stays] at ends
  | nothing | listBindings | help => exact ⟨rfl, rfl, rfl⟩
  | run _ acts => simp [rests] at acts

theorem step_of_program (stays : closes line = false) (acts : idle line = false) :
    (p.step line).stop = false ∧
      (p.step line).prompt = ⟨(p.session.run (program line)).session,
        some (p.session.run (program line)).result⟩ ∧
      (p.step line).errors = (p.session.run (program line)).errors := by
  have asks := asks_action line
  unfold step
  generalize (split line).action = action at asks
  cases asks with
  | leave closing ends => simp [stays] at ends
  | nothing _ rests | listBindings _ rests | help _ rests => simp [acts] at rests
  | run => exact ⟨rfl, rfl, rfl⟩

end Steps

end Prompt

/-! ## Runs one after another -/

namespace Runner

/-- Programs run one after another on one runner. -/
def runs (r : Runner) : List String → List ReportedRun
  | [] => []
  | source :: rest => r.run source :: (r.run source).runner.runs rest

/-- A program is run on what the programs before it left. -/
theorem runs_getElem? (r : Runner) (before after : List String) (source : String) :
    (r.runs (before ++ source :: after))[before.length]? =
      some ((r.after (before.map .run)).run source) := by
  induction before generalizing r with
  | nil => rfl
  | cons first before ih => exact ih (r.run first).runner

/-- Of what was run before, the bindings are all that a run depends on. -/
theorem run_after (r : Runner) (steps : List Step) (source : String) :
    (r.after steps).run source =
      run ⟨{ r.session with bindings := (r.after steps).session.bindings }, .empty⟩ source := by
  rw [run_eq, run_eq, ← (r.after_continues steps).configuration]

end Runner

/-- The run of a text breaks off at no node. -/
theorem Session.run_brokeOffAt (s : Session) (source : String) :
    (s.run source).result.brokeOffAt = none := by
  by_cases clean : (s.frontEnd.read source).diagnostics = []
  · have built := s.frontEnd.isStatement_written source
    rw [s.run_of_clean clean]
    show (Session.result _ _).brokeOffAt = none
    rcases executeAll_halts built ⟨s.bindings, []⟩ with ended | ⟨_, _, error, _, halts⟩
    · rw [ended]
      rfl
    · rw [halts]
      rfl
  · rw [s.run_of_faulty clean]

theorem Runner.brokeOffAt_of_mem_runs (r : Runner) (sources : List String) :
    ∀ run ∈ r.runs sources, run.run.result.brokeOffAt = none := by
  induction sources generalizing r with
  | nil => simp [runs]
  | cons source rest ih =>
      refine List.forall_mem_cons.mpr ⟨?_, ih (r.run source).runner⟩
      rw [r.run_eq]
      exact r.session.run_brokeOffAt source

namespace Prompt

/-- The programs of the lines in front of the one that ends the conversation. -/
def programs (lines : List String) : List String :=
  ((lines.takeWhile fun line => !closes line).filter fun line => !idle line).map program

/-- A conversation from a runner on, against the runs of its programs on that runner. -/
structure Tells (r : Runner) (last : Option RunResult) (lines : List (List Char)) (typed : List String)
    (t : Transcript) : Prop where
  unread : t.unread = lines.drop ((typed.takeWhile fun line => !closes line).length + 1)
  session : t.prompt.session = (r.after ((programs typed).map .run)).session
  errors : t.errors = (r.runs (programs typed)).flatMap ReportedRun.errors
  last : t.prompt.last = ((r.runs (programs typed)).getLast?.map fun run => run.run.result).or last

theorem programs_of_closes {line : String} (ends : closes line) (rest : List String) :
    programs (line :: rest) = [] := by
  simp [programs, ends]

theorem programs_of_idle {line : String} (stays : closes line = false) (rests : idle line)
    (rest : List String) : programs (line :: rest) = programs rest := by
  simp [programs, stays, rests]

theorem programs_of_program {line : String} (stays : closes line = false) (acts : idle line = false)
    (rest : List String) : programs (line :: rest) = program line :: programs rest := by
  simp [programs, stays, acts]

section Tells

variable {r : Runner} {last : Option RunResult} {lines : List (List Char)} {typed : List String}
  {line : String} {t : Transcript} {step : Step}

theorem Tells.of_idle (told : Tells r last lines typed t) (cs : List Char) (stays : closes line = false)
    (rests : idle line) (silent : step.errors = []) :
    Tells r last (cs :: lines) (line :: typed) (t.after step) := by
  have same := programs_of_idle stays rests typed
  refine ⟨?_, ?_, ?_, ?_⟩
  · show t.unread = _
    rw [List.takeWhile_cons_of_pos (by simp [stays]), told.unread, List.length_cons, List.drop_succ_cons]
  · rw [same]
    exact told.session
  · show step.errors ++ t.errors = _
    rw [same, silent, told.errors, List.nil_append]
  · rw [same]
    exact told.last

theorem Tells.of_program (told : Tells (r.run (program line)).runner
      (some (r.session.run (program line)).result) lines typed t) (cs : List Char)
    (stays : closes line = false) (acts : idle line = false)
    (shown : step.errors = (r.session.run (program line)).errors) :
    Tells r last (cs :: lines) (line :: typed) (t.after step) := by
  have same := programs_of_program stays acts typed
  have run := r.run_eq (program line)
  refine ⟨?_, ?_, ?_, ?_⟩
  · show t.unread = _
    rw [List.takeWhile_cons_of_pos (by simp [stays]), told.unread, List.length_cons, List.drop_succ_cons]
  · rw [same]
    exact told.session
  · show step.errors ++ t.errors = _
    rw [same, shown, told.errors, Runner.runs, List.flatMap_cons, run]
    rfl
  · show t.prompt.last = _
    rw [same, told.last, Runner.runs, run, List.getLast?_cons]
    cases ((r.session.run (program line)).reported.runner.runs (programs typed)).getLast? <;> rfl

/-- Where a conversation ends nothing more is run. -/
theorem Tells.of_end {rest : List (List Char)} (unchanged : step.prompt = ⟨r.session, last⟩)
    (silent : step.errors = []) (none : programs typed = [])
    (unread : rest = lines.drop ((typed.takeWhile fun line => !closes line).length + 1)) :
    Tells r last lines typed (Transcript.after step ⟨"", "", "", rest, step.prompt⟩) := by
  refine ⟨unread, ?_, ?_, ?_⟩
  · show step.prompt.session = _
    rw [unchanged, none]
    rfl
  · show step.errors ++ [] = _
    rw [silent, none]
    rfl
  · show step.prompt.last = _
    rw [unchanged, none]
    rfl

end Tells

/-- A conversation leaves behind what its programs leave that are run one after another. -/
theorem converse_tells (ending : LineEnding) (r : Runner) (last : Option RunResult)
    (lines : List (List Char)) :
    Tells r last lines (lines.map ending.remove) (converse ending ⟨r.session, last⟩ lines) := by
  induction lines generalizing r last with
  | nil =>
      obtain ⟨-, unchanged, silent⟩ := step_of_closes ⟨r.session, last⟩ (show closes endLine from rfl)
      exact .of_end unchanged silent rfl rfl
  | cons line rest ih =>
      unfold converse
      rw [List.map_cons]
      cases ends : closes (ending.remove line) with
      | true =>
          obtain ⟨stops, unchanged, silent⟩ := step_of_closes ⟨r.session, last⟩ ends
          simp only [if_pos stops]
          exact .of_end unchanged silent (programs_of_closes ends _) (by simp [ends])
      | false =>
          cases rests : idle (ending.remove line) with
          | true =>
              obtain ⟨goes, unchanged, silent⟩ := step_of_idle ⟨r.session, last⟩ ends rests
              simp only [goes, Bool.false_eq_true, if_false, unchanged]
              exact (ih r last).of_idle line ends rests silent
          | false =>
              obtain ⟨goes, changed, shown⟩ := step_of_program ⟨r.session, last⟩ ends rests
              simp only [goes, Bool.false_eq_true, if_false, changed]
              have told := ih (r.run (program (ending.remove line))).runner
                (some (r.session.run (program (ending.remove line))).result)
              have session : (r.run (program (ending.remove line))).runner.session =
                  (r.session.run (program (ending.remove line))).session := by
                rw [r.run_eq]
                rfl
              rw [session] at told
              exact told.of_program line ends rests shown

/-- **A conversation is the runs of its lines, one after another on one runner.**  The input is read line by
line, up to the first that closes the conversation or to its end, and what follows stays unread.
The bindings, the error stream and the last result are those of running the programs of the lines
before it: what is typed on a line, or what stands behind its dot, unless the line is idle.  Every
run comes to an end, and it is the run of a runner to which nothing was reported and which knows
nothing of the earlier lines but the bindings. -/
theorem conversation_is_runs (ending : LineEnding) (r : Runner) (input : String) :
    let lines := inputLines input.toList
    let typed := lines.map ending.remove
    let t := talk ending r.session input
    ReadAs input.toList lines ∧ (∀ line ∈ lines, Typed line (ending.remove line)) ∧
    t.unread = lines.drop ((typed.takeWhile fun line => !closes line).length + 1) ∧
    t.prompt.session = (r.after ((programs typed).map .run)).session ∧
    t.errors = (r.runs (programs typed)).flatMap ReportedRun.errors ∧
    t.prompt.last = (r.runs (programs typed)).getLast?.map (fun run => run.run.result) ∧
    (∀ run ∈ r.runs (programs typed), run.run.result.brokeOffAt = none) ∧
    ∀ before source after, programs typed = before ++ source :: after →
      (r.runs (programs typed))[before.length]? = some (Runner.run
        ⟨{ r.session with bindings := (r.after (before.map .run)).session.bindings }, .empty⟩ source) := by
  intro lines typed t
  have read := inputLines_readAs input.toList
  have told := converse_tells ending r none lines
  refine ⟨read, typed_of_readAs ending read, told.unread, told.session, told.errors, ?_,
    r.brokeOffAt_of_mem_runs _, fun before source after split => ?_⟩
  · exact told.last.trans (Option.or_none ..)
  · rw [split, r.runs_getElem?, r.run_after]

end Prompt

end LoxLang
