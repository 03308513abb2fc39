/-
# LoxLang.Proofs.Debugging -- debugging changes nothing but the log

A run that is debugged writes messages as it goes.  Each has a level, and it is written if
the verbosity reaches that level at the moment when it is due: `Node.evalWriting` does so
at every node, and whatever was written before a failure stays.

The events that evaluation leaves behind are enough to tell what is written.  At every
node, writing as one goes comes to the same outcome and writes what the events say
(`Node.eval_renders`), and so it is for statements and for runs.  Therefore two runs that
differ in verbosity differ in the log alone, and there by the messages of the levels
between them.
-/
import LoxLang.Proofs.Sessions

namespace LoxLang

set_option autoImplicit false

/-! ## Writing as one goes -/

/-- What a run has written so far: the printed text and the messages of the log with their levels, beside
its bindings. -/
structure Sheet where
  bindings : Bindings
  printed : Text
  log : List (Nat × Text)

/-- A computation that may fail and writes as it goes. -/
abbrev Writing (ε α : Type) := EStateM ε Sheet α

namespace Writing

variable {ε : Type}

/-- Write a debug message if the verbosity reaches its level. -/
def debug (verbosity level : Nat) (message : Text) : Writing ε Unit :=
  if level ≤ verbosity then modify fun s => { s with log := s.log ++ [(level, message)] } else pure ()

def printLine (line : Text) : Writing ε Unit :=
  modify fun s => { s with printed := s.printed ++ (line ++ Text.ofString "\n") }

/-- Bind a name, which is a step on the level of names. -/
def define (verbosity : Nat) (name : Text) (value : Value) : Writing ε Unit := do
  modify fun s => { s with bindings := s.bindings.insert name value }
  debug verbosity 2 ("define " ++ name ++ ": " ++ value.typeName ++ " = " ++ value.describe)

def lookUp (name : Text) (line : Int) : Writing Failure Value := do
  ((← get).bindings.get? name).elim (throw (.runtime ⟨line, .undefined name⟩)) pure

/-- The value of an operator, or its error. -/
def operate (result : Except RuntimeError Value) : Writing Failure Value :=
  MonadExcept.ofExcept (result.mapError .runtime)

end Writing

open Writing in
/-- Evaluate a node and write as one goes: names are on the second level, operators on the third. -/
def Node.evalWriting (verbosity : Nat) : (limit : Nat) → Node → Writing Failure Value
  | 0, _ => throw .tooDeep
  | limit + 1, .binary left operator right => do
      let a ← evalWriting verbosity limit left
      let b ← evalWriting verbosity limit right
      let result ← operate (applyBinary operator a b)
      debug verbosity 3 (a.describe ++ " " ++ operator.lexeme ++ " " ++ b.describe ++ " -> " ++
        result.describe)
      return result
  | limit + 1, .unary operator operand => do
      let value ← evalWriting verbosity limit operand
      let result ← operate (applyUnary operator value)
      debug verbosity 3 (operator.lexeme ++ " " ++ value.describe ++ " -> " ++ result.describe)
      return result
  | limit + 1, .grouping inner => evalWriting verbosity limit inner
  | _ + 1, .literal value => return value
  | _ + 1, .reference name line => do
      let value ← lookUp name line
      debug verbosity 2 ("lookup " ++ name ++ " = " ++ value.describe)
      return value
  | limit + 1, .expression value => do
      let _ ← evalWriting verbosity limit value
      return .nil
  | limit + 1, .print value => do
      let value ← evalWriting verbosity limit value
      printLine value.text
      return .nil
  | _ + 1, .declaration name .missing _ => do
      define verbosity name .nil
      return .nil
  | limit + 1, .declaration name initializer _ => do
      let value ← evalWriting verbosity limit initializer
      define verbosity name value
      return .nil
  | _ + 1, node => throw (.meaningless node.kindName)

theorem Node.evalWriting_declaration (verbosity limit : Nat) (name : Text) {initializer : Node} (line : Int)
    (present : initializer ≠ .missing) :
    (Node.declaration name initializer line).evalWriting verbosity (limit + 1) =
      initializer.evalWriting verbosity limit >>= fun value => do
        Writing.define verbosity name value
        return .nil := by
  cases initializer <;> first | rfl | exact absurd rfl present

/-- Execute a statement and write as one goes. -/
def Node.executeWriting (verbosity : Nat) (statement : Node) (sheet : Sheet) : Except Halt Unit × Sheet :=
  let announced : Writing Failure Value := do
    Writing.debug verbosity 1 ("execute " ++ statement.kindName)
    statement.evalWriting verbosity evalLimit
  match announced sheet with
  | .ok _ sheet => (.ok (), sheet)
  | .error failure sheet => (.error (failure.halt statement.line), sheet)

/-- Execute statements in order, up to the first that fails, and write as one goes. -/
def executeAllWriting (verbosity : Nat) : List Node → Sheet → Except Halt Unit × Sheet
  | [], sheet => (.ok (), sheet)
  | statement :: rest, sheet =>
      match statement.executeWriting verbosity sheet with
      | (.ok (), sheet) => executeAllWriting verbosity rest sheet
      | (.error halt, sheet) => (.error halt, sheet)

/-- Run a text and write as one goes. -/
def Session.runWriting (s : Session) (source : String) : RunResult × Sheet :=
  let reading := s.frontEnd.read source
  let blank : Sheet := ⟨s.bindings, [], []⟩
  if Diagnostic.anyStatic reading.diagnostics then
    (⟨reading.statements, reading.diagnostics, none⟩, blank)
  else
    let (halt, sheet) := executeAllWriting s.verbosity reading.statements blank
    (result reading.statements halt, sheet)

/-! ## Events tell what is written -/

namespace Store

/-- What is written of the events of a store at a verbosity. -/
def sheet (verbosity : Nat) (s : Store) : Sheet :=
  ⟨s.bindings, Text.lines (Event.outputs s.events),
    (s.events.filterMap Event.debug?).filter fun m => m.1 ≤ verbosity⟩

variable (verbosity : Nat) (s : Store)

theorem sheet_printed (line : Text) :
    (s.note (.printed line)).sheet verbosity =
      { s.sheet verbosity with
        printed := (s.sheet verbosity).printed ++ (line ++ Text.ofString "\n") } := by
  simp [sheet, note, events, Event.outputs, Event.output?, Event.debug?, Text.lines]

theorem sheet_message {event : Event} {level : Nat} {message : Text}
    (shown : event.debug? = some (level, message)) (silent : event.output? = none) :
    (s.note event).sheet verbosity =
      if level ≤ verbosity then
        { s.sheet verbosity with log := (s.sheet verbosity).log ++ [(level, message)] }
      else s.sheet verbosity := by
  split <;> rename_i reached <;>
    simp [sheet, note, events, Event.outputs, List.filterMap_append, shown, silent, reached]

end Store

namespace Writing

variable {ε α β : Type} {w : Writing ε α} {k : α → Writing ε β} {s t : Sheet}

theorem bind_of_ok {a : α} (ran : w s = .ok a t) : (w >>= k) s = k a t := by
  show EStateM.bind w k s = _
  rw [EStateM.bind, ran]

theorem bind_of_error {failure : ε} (ran : w s = .error failure t) :
    (w >>= k) s = .error failure t := by
  show EStateM.bind w k s = _
  rw [EStateM.bind, ran]

/-- One computation writes as it goes what the other leaves behind as events, and both come to the same. -/
def Renders (verbosity : Nat) (m : Eval α) (w : Writing Failure α) : Prop :=
  ∀ s : Store,
    (∀ a t, m s = .ok a t → w (s.sheet verbosity) = .ok a (t.sheet verbosity)) ∧
    ∀ failure t, m s = .error failure t → w (s.sheet verbosity) = .error failure (t.sheet verbosity)

namespace Renders

variable {verbosity : Nat}

theorem pure (a : α) : Renders verbosity (pure a) (pure a) := by
  refine fun s => ⟨fun a t ran => ?_, fun failure t ran => ?_⟩
  · cases ran
    rfl
  · cases ran

theorem throw (failure : Failure) : Renders verbosity (throw failure : Eval α) (throw failure) := by
  refine fun s => ⟨fun a t ran => ?_, fun failure t ran => ?_⟩
  · cases ran
  · cases ran
    rfl

theorem bind {m : Eval α} {w : Writing Failure α} {k : α → Eval β} {k' : α → Writing Failure β}
    (first : Renders verbosity m w) (second : ∀ a, Renders verbosity (k a) (k' a)) :
    Renders verbosity (m >>= k) (w >>= k') := by
  intro s
  cases ran : m s with
  | ok a t =>
      rw [Eval.bind_of_ok ran, bind_of_ok ((first s).1 a t ran)]
      exact second a t
  | error failure t =>
      rw [Eval.bind_of_error ran, bind_of_error ((first s).2 failure t ran)]
      exact throw failure t

/-- A change of the store that is seen on the sheet. -/
theorem modify {f : Store → Store} {g : Sheet → Sheet}
    (seen : ∀ s, g (s.sheet verbosity) = (f s).sheet verbosity) :
    Renders verbosity (modify f) (modify g) := by
  refine fun s => ⟨fun a t ran => ?_, fun failure t ran => ?_⟩
  · cases ran
    exact congrArg (EStateM.Result.ok ()) (seen s)
  · cases ran

theorem printed (line : Text) : Renders verbosity (Eval.note (.printed line)) (printLine line) :=
  modify fun s => (s.sheet_printed verbosity line).symm

/-- An event with a message is left behind where the message is written. -/
theorem message {event : Event} {level : Nat} {message : Text}
    (shown : event.debug? = some (level, message)) (silent : event.output? = none) :
    Renders verbosity (Eval.note event) (debug verbosity level message) := by
  have sheet := fun s : Store => s.sheet_message verbosity shown silent
  unfold debug
  split
  · rename_i reached
    exact modify fun s => by rw [sheet, if_pos reached]
  · rename_i short
    refine fun s => ⟨fun a t ran => ?_, fun failure t ran => ?_⟩
    · cases ran
      have same : (s.note event).sheet verbosity = s.sheet verbosity := by rw [sheet, if_neg short]
      exact congrArg (EStateM.Result.ok ()) same.symm
    · cases ran

theorem define (name : Text) (value : Value) :
    Renders verbosity (do Eval.define name value; Eval.note (.defined name value))
      (define verbosity name value) :=
  (modify fun _ => rfl).bind fun _ => message rfl rfl

theorem operate (result : Except RuntimeError Value) :
    Renders verbosity (Eval.ofExcept result) (operate result) := by
  cases result with
  | ok value => exact pure value
  | error error => exact throw (.runtime error)

theorem lookUp (name : Text) (line : Int) :
    Renders verbosity (Eval.lookUp name line) (lookUp name line) := by
  intro s
  let absent : Writing Failure Value := MonadExcept.throw (.runtime ⟨line, .undefined name⟩)
  have looked : Writing.lookUp name line (s.sheet verbosity) =
      (s.bindings.get? name).elim absent Pure.pure (s.sheet verbosity) := rfl
  rw [looked]
  cases found : s.bindings.get? name with
  | some value =>
      rw [Eval.lookUp_of_some found]
      exact pure value s
  | none =>
      rw [Eval.lookUp_of_none found]
      exact throw (.runtime ⟨line, .undefined name⟩) s

end Renders

end Writing

open Writing in
/-- **Evaluation that writes as it goes writes what the events tell**, at whatever node, and comes to the same
value or failure. -/
theorem Node.eval_renders (verbosity limit : Nat) (node : Node) :
    Renders verbosity (node.eval limit) (node.evalWriting verbosity limit) := by
  induction limit generalizing node with
  | zero => exact .throw .tooDeep
  | succ limit ih =>
      cases node with
      | literal value => exact .pure value
      | hollow kind => exact .throw _
      | missing => exact .throw _
      | block statements => exact .throw _
      | grouping inner => exact ih inner
      | unary operator operand =>
          refine (ih operand).bind fun value => ?_
          refine (Renders.operate (applyUnary operator value)).bind fun result => ?_
          exact (Renders.message rfl rfl).bind fun _ => .pure result
      | binary left operator right =>
          refine (ih left).bind fun a => (ih right).bind fun b => ?_
          refine (Renders.operate (applyBinary operator a b)).bind fun result => ?_
          exact (Renders.message rfl rfl).bind fun _ => .pure result
      | reference name line =>
          refine (Renders.lookUp name line).bind fun value => ?_
          exact (Renders.message rfl rfl).bind fun _ => .pure value
      | expression value => exact (ih value).bind fun _ => .pure Value.nil
      | print value =>
          exact (ih value).bind fun value => (Renders.printed value.text).bind fun _ => .pure Value.nil
      | declaration name initializer line =>
          by_cases bare : initializer = .missing
          · subst bare
            exact (Renders.define name .nil).bind fun _ => .pure Value.nil
          · rw [eval_declaration limit name line bare, evalWriting_declaration verbosity limit name line bare]
            refine (ih initializer).bind fun value => ?_
            exact (Renders.define name value).bind fun _ => .pure Value.nil

theorem Node.execute_renders (verbosity : Nat) (statement : Node) (s : Store) :
    statement.executeWriting verbosity (s.sheet verbosity) =
      (statement.execute s).map id (Store.sheet verbosity) := by
  have announced : Writing.Renders verbosity
      (do Eval.note (.executed statement.kindName); statement.eval evalLimit)
      (do Writing.debug verbosity 1 ("execute " ++ statement.kindName)
          statement.evalWriting verbosity evalLimit) :=
    (Writing.Renders.message rfl rfl).bind fun _ => statement.eval_renders verbosity evalLimit
  have note : (do Eval.note (.executed statement.kindName); statement.eval evalLimit : Eval Value) s =
      statement.eval evalLimit (s.note (.executed statement.kindName)) := rfl
  have renders := announced s
  rw [note] at renders
  unfold execute executeWriting
  cases ran : statement.eval evalLimit (s.note (.executed statement.kindName)) with
  | ok value t =>
      simp only [renders.1 value t ran]
      rfl
  | error failure t =>
      simp only [renders.2 failure t ran]
      rfl

theorem executeAll_renders (verbosity : Nat) (statements : List Node) (s : Store) :
    executeAllWriting verbosity statements (s.sheet verbosity) =
      (executeAll statements s).map id (Store.sheet verbosity) := by
  induction statements generalizing s with
  | nil => rfl
  | cons statement rest ih =>
      have first := statement.execute_renders verbosity s
      unfold executeAll executeAllWriting
      rw [first]
      cases statement.execute s with
      | mk halt t =>
          cases halt with
          | ok => exact ih t
          | error halt => rfl

/-- The messages of a run with their levels, up to the verbosity of its session. -/
def Run.levelled (r : Run) : List (Nat × Text) :=
  (r.events.filterMap Event.debug?).filter fun m => m.1 ≤ r.session.verbosity

/-- **A run shows what is written as it goes.** -/
theorem Session.runWriting_eq (s : Session) (source : String) :
    s.runWriting source =
      ((s.run source).result, ⟨(s.run source).session.bindings, (s.run source).output,
        (s.run source).levelled⟩) := by
  unfold runWriting run
  simp only
  split
  · rfl
  · have renders := executeAll_renders s.verbosity (s.frontEnd.read source).statements ⟨s.bindings, []⟩
    rw [show (⟨s.bindings, [], []⟩ : Sheet) = Store.sheet s.verbosity ⟨s.bindings, []⟩ from rfl, renders]
    rfl

theorem Event.messages_eq (verbosity : Nat) (events : List Event) :
    messages verbosity events =
      ((events.filterMap debug?).filter fun m => m.1 ≤ verbosity).map Prod.snd := by
  induction events with
  | nil => rfl
  | cons event rest ih =>
      unfold messages at ih ⊢
      cases shown : event.debug? with
      | none => simp [message?, shown, ih]
      | some m =>
          obtain ⟨level, text⟩ := m
          by_cases reached : level ≤ verbosity <;> simp [message?, shown, reached, ih]

/-! ## Announced statements -/

/-- The statements that a run under bindings comes to: those that succeed one after another, and the first that
fails. -/
inductive Attempts : Bindings → List Node → List Node → Prop where
  | done (b : Bindings) : Attempts b [] []
  | fails {b : Bindings} {statement : Node} {rest : List Node} {error : RuntimeError}
      (here : statement.Fails b error) : Attempts b (statement :: rest) [statement]
  | steps {b c : Bindings} {statement : Node} {rest attempted : List Node} {lines : List Text}
      (first : statement.Steps b lines c) (later : Attempts c rest attempted) :
      Attempts b (statement :: rest) (statement :: attempted)

/-- The message that a statement is executed. -/
def Node.announcement (statement : Node) : Nat × Text := (1, "execute " ++ statement.kindName)

namespace Store

/-- The messages on the level of statements. -/
def announced (s : Store) : List (Nat × Text) :=
  (s.events.filterMap Event.debug?).filter fun m => m.1 = 1

theorem announced_note (s : Store) (event : Event) :
    (s.note event).announced = s.announced ++ (event.debug?.filter fun m => m.1 = 1).toList := by
  unfold announced note events
  rw [List.reverse_cons, List.filterMap_append, List.filter_append]
  congr 1
  cases event <;> rfl

theorem announced_executed (s : Store) (statement : Node) :
    (s.note (.executed statement.kindName)).announced = s.announced ++ [statement.announcement] :=
  s.announced_note _

end Store

/-- Evaluation announces no statement. -/
theorem Eval.stepwise_announced : Stepwise fun s t => t.announced = s.announced := by
  refine ⟨fun _ => rfl, fun first second => second.trans first, fun s event inner => ?_, fun _ _ _ => rfl⟩
  rw [s.announced_note]
  cases event with
  | executed kindName => cases inner
  | _ => simp [Event.debug?]

/-- A statement that is executed is announced, and no other is. -/
theorem Node.execute_announced (statement : Node) (s : Store) :
    (statement.execute s).2.announced = s.announced ++ [statement.announcement] := by
  have kept := statement.eval_keeps Eval.stepwise_announced evalLimit
    (s.note (.executed statement.kindName))
  rw [s.announced_executed] at kept
  unfold execute
  cases ran : statement.eval evalLimit (s.note (.executed statement.kindName)) <;> rw [ran] at kept <;>
    exact kept

/-- Each statement that a run comes to is announced once, in order. -/
theorem executeAll_announced {statements : List Node}
    (built : ∀ statement ∈ statements, statement.IsStatement Token.Written) (s : Store) :
    ∃ attempted, Attempts s.bindings statements attempted ∧
      (executeAll statements s).2.announced = s.announced ++ attempted.map Node.announcement := by
  induction statements generalizing s with
  | nil => exact ⟨[], .done s.bindings, (List.append_nil _).symm⟩
  | cons statement rest ih =>
      have did := Node.execute_did (built statement List.mem_cons_self) s
      have announced := statement.execute_announced s
      unfold executeAll
      cases ran : statement.execute s with
      | mk halt t =>
          rw [ran] at did announced
          cases did with
          | stepped steps output =>
              obtain ⟨attempted, later, rest⟩ :=
                ih (fun other member => built other (List.mem_cons_of_mem _ member)) t
              refine ⟨statement :: attempted, .steps steps later, ?_⟩
              show (executeAll _ t).2.announced = _
              rw [rest, announced, List.append_assoc]
              rfl
          | failed fails still => exact ⟨[statement], .fails fails, announced⟩

/-- A run shows what was written as it went. -/
structure Run.Shows (run : Run) (written : RunResult × Sheet) : Prop where
  result : run.result = written.1
  bindings : run.session.bindings = written.2.bindings
  output : run.output = written.2.printed
  log : run.log = Text.lines (written.2.log.map Prod.snd)

namespace Session

/-- A session at another verbosity. -/
def debugged (s : Session) (verbosity : Nat) : Session := { s with verbosity := verbosity }

/-- What a run does has nothing to do with the verbosity. -/
theorem run_debugged (s : Session) (verbosity : Nat) (source : String) :
    (s.debugged verbosity).run source =
      { s.run source with session := (s.run source).session.debugged verbosity } := by
  by_cases clean : (s.frontEnd.read source).diagnostics = []
  · rw [s.run_of_clean clean, (s.debugged verbosity).run_of_clean clean]
    rfl
  · rw [s.run_of_faulty clean, (s.debugged verbosity).run_of_faulty clean]
    rfl

theorem run_shows {s : Session} (isOpen : s.logOpen) (source : String) :
    (s.run source).Shows (s.runWriting source) := by
  have kept := (s.run_continues source).configuration
  rw [s.runWriting_eq]
  refine ⟨rfl, rfl, rfl, ?_⟩
  have logOpen : (s.run source).session.logOpen := by
    rw [kept]
    exact isOpen
  rw [Run.log, if_pos logOpen, Run.messages, Event.messages_eq]
  rfl

/-- Messages of some levels up to the verbosity are found among those that are shown. -/
theorem filter_within {verbosity : Nat} {P : Nat × Text → Prop} [DecidablePred P] (messages : List (Nat × Text))
    (within : ∀ m, P m → m.1 ≤ verbosity) :
    (messages.filter fun m => m.1 ≤ verbosity).filter (fun m => P m) = messages.filter fun m => P m := by
  rw [List.filter_filter]
  refine List.filter_congr fun m _ => ?_
  have reached := within m
  by_cases holds : P m <;> simp_all

/-- From the first level on, the messages on it announce the statements that the run comes to. -/
theorem announced_runWriting (s : Session) (first : 1 ≤ s.verbosity) (source : String) :
    ∃ attempted : List Node,
      (s.runWriting source).2.log.filter (fun m => m.1 = 1) = attempted.map Node.announcement ∧
      ((s.frontEnd.read source).diagnostics ≠ [] → attempted = []) ∧
      ((s.frontEnd.read source).diagnostics = [] →
        Attempts s.bindings (s.frontEnd.read source).statements attempted) := by
  by_cases clean : (s.frontEnd.read source).diagnostics = []
  · have built := s.frontEnd.isStatement_written source
    obtain ⟨attempted, attempts, announced⟩ := executeAll_announced built ⟨s.bindings, []⟩
    refine ⟨attempted, ?_, fun faulty => absurd clean faulty, fun _ => attempts⟩
    rw [s.runWriting_eq, s.run_of_clean clean]
    exact (filter_within _ fun m level => by rw [level]; exact first).trans announced
  · refine ⟨[], ?_, fun _ => rfl, fun none => absurd none clean⟩
    rw [s.runWriting_eq, s.run_of_faulty clean]
    rfl

/-- **Debugging changes nothing but the log, and the log by levels.**  Two sessions with an open log that differ
in verbosity come to the same result, print and report the same and have the same bindings.  What
each shows is what is written as the run goes, where every message is written if the verbosity
reaches its level: statements are on the first, names on the second and operators on the third.
The messages at the lower verbosity are those at the higher one up to its level, in the same order.
From the first level on, the statements that the run comes to are announced one by one. -/
theorem debugging_changes_log (s : Session) (isOpen : s.logOpen) (source : String) {low high : Nat}
    (within : low ≤ high) :
    let quiet := (s.debugged low).run source
    let loud := (s.debugged high).run source
    let quietly := (s.debugged low).runWriting source
    let loudly := (s.debugged high).runWriting source
    (quiet.result = loud.result ∧ quiet.output = loud.output ∧ quiet.errors = loud.errors ∧
      quiet.session.bindings = loud.session.bindings) ∧
    quiet.Shows quietly ∧ loud.Shows loudly ∧
    quietly.2.log = loudly.2.log.filter (fun m => m.1 ≤ low) ∧
    (1 ≤ high → ∃ attempted : List Node,
      loudly.2.log.filter (fun m => m.1 = 1) = attempted.map Node.announcement ∧
      ((s.frontEnd.read source).diagnostics ≠ [] → attempted = []) ∧
      ((s.frontEnd.read source).diagnostics = [] →
        Attempts s.bindings (s.frontEnd.read source).statements attempted)) := by
  intro quiet loud quietly loudly
  have quiet_eq : quiet = _ := s.run_debugged low source
  have loud_eq : loud = _ := s.run_debugged high source
  have stillOpen : (s.run source).session.logOpen := by
    rw [(s.run_continues source).configuration]
    exact isOpen
  have shows (verbosity : Nat) := run_shows (s := s.debugged verbosity) isOpen source
  refine ⟨⟨?_, ?_, ?_, ?_⟩, shows low, shows high, ?_, fun first => ?_⟩
  · rw [quiet_eq, loud_eq]
  · rw [quiet_eq, loud_eq]
    rfl
  · rw [quiet_eq, loud_eq]
    simp [Run.errors, debugged, stillOpen]
  · rw [quiet_eq, loud_eq]
    rfl
  · show quietly.2.log = loudly.2.log.filter _
    have quietly_eq : quietly = _ := (s.debugged low).runWriting_eq source
    have loudly_eq : loudly = _ := (s.debugged high).runWriting_eq source
    rw [quietly_eq, loudly_eq, s.run_debugged, s.run_debugged]
    exact (filter_within _ fun m level => level.trans within).symm
  · exact (s.debugged high).announced_runWriting first source

/-- A run that fails in its third statement, behind a look-up, at the first level and at the third. -/
theorem debugging_changes_log_of_failing_run :
    let s : Session := .initial .descent 0
    let source := "var a = 1;\nprint -a;\nprint a + b;\nprint 2;"
    s.logOpen ∧ 1 ≤ 3 ∧
      ((s.debugged 3).runWriting source).2.log =
        [(1, "execute VariableDeclaration"), (2, "define a: number = Number(1.0)"),
         (1, "execute PrintStatement"), (2, "lookup a = Number(1.0)"),
         (3, "- Number(1.0) -> Number(-1.0)"), (1, "execute PrintStatement"),
         (2, "lookup a = Number(1.0)")].map (Prod.map id Text.ofString) ∧
      ((s.debugged 1).runWriting source).2.log =
        ((s.debugged 3).runWriting source).2.log.filter (fun m => m.1 ≤ 1) ∧
      ((s.debugged 1).run source).result = ((s.debugged 3).run source).result ∧
      ((s.debugged 1).run source).errors = ((s.debugged 3).run source).errors := by
  intro s source
  obtain ⟨⟨result, -, errors, -⟩, -, -, levels, -⟩ :=
    s.debugging_changes_log rfl source (show 1 ≤ 3 by decide)
  exact ⟨rfl, by decide, by decide +kernel, levels, result, errors⟩

end Session

end LoxLang
