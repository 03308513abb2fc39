/-
# LoxLang.Proofs.Execution -- a run is its longest prefix that succeeds

Expressions have no effects, so what a statement does can be said without a store: under
some bindings an expression comes to a value or to a failure (`Node.Yields`), and a
statement either prints lines and gives new bindings (`Node.Steps`) or fails with an error
(`Node.Fails`).  Statements perform one after another (`Performs`).

A run of the statements of a text is measured against that.  Evaluation leaves bindings and
output alone and comes to what the expression yields (`Node.eval_yields`); a statement that
is executed steps or fails (`Node.execute_cases`); and by induction the run is that of the
statements in front of the first one that fails.
-/
import LoxLang.Session
import LoxLang.Proofs.Statements

namespace LoxLang

set_option autoImplicit false

/-! ## What statements do -/

namespace Node

/-- Under bindings an expression comes to a value or to a failure, its parts from left to right and
nested at most `limit` deep. -/
inductive Yields (b : Bindings) : (limit : Nat) → Node → Except Failure Value → Prop where
  | tooDeep (node : Node) : Yields b 0 node (.error .tooDeep)
  | literal (limit : Nat) (value : Value) : Yields b (limit + 1) (.literal value) (.ok value)
  | bound {limit : Nat} {name : Text} {line : Int} {value : Value} (found : b.get? name = some value) :
      Yields b (limit + 1) (.reference name line) (.ok value)
  | unbound {limit : Nat} {name : Text} {line : Int} (absent : b.get? name = none) :
      Yields b (limit + 1) (.reference name line) (.error (.runtime ⟨line, .undefined name⟩))
  | grouping {limit : Nat} {inner : Node} {outcome : Except Failure Value}
      (value : Yields b limit inner outcome) : Yields b (limit + 1) (.grouping inner) outcome
  | operand {limit : Nat} {operator : Token} {operand : Node} {failure : Failure}
      (fails : Yields b limit operand (.error failure)) :
      Yields b (limit + 1) (.unary operator operand) (.error failure)
  | unary {limit : Nat} {operator : Token} {operand : Node} {value : Value}
      (inner : Yields b limit operand (.ok value)) :
      Yields b (limit + 1) (.unary operator operand)
        ((applyUnary operator value).mapError .runtime)
  | left {limit : Nat} {left right : Node} {operator : Token} {failure : Failure}
      (fails : Yields b limit left (.error failure)) :
      Yields b (limit + 1) (.binary left operator right) (.error failure)
  | right {limit : Nat} {left right : Node} {operator : Token} {value : Value} {failure : Failure}
      (first : Yields b limit left (.ok value)) (fails : Yields b limit right (.error failure)) :
      Yields b (limit + 1) (.binary left operator right) (.error failure)
  | binary {limit : Nat} {left right : Node} {operator : Token} {value value' : Value}
      (first : Yields b limit left (.ok value)) (second : Yields b limit right (.ok value')) :
      Yields b (limit + 1) (.binary left operator right)
        ((applyBinary operator value value').mapError .runtime)

/-- The most nodes on a way down in the expression of a statement. -/
def partLimit : Nat := evalLimit - 1

/-- A statement that succeeds under bindings: the lines it prints and the bindings after it. -/
inductive Steps (b : Bindings) : Node → List Text → Bindings → Prop where
  | expression {part : Node} {value : Value} (yields : part.Yields b partLimit (.ok value)) :
      Steps b (.expression part) [] b
  | print {part : Node} {value : Value} (yields : part.Yields b partLimit (.ok value)) :
      Steps b (.print part) [value.text] b
  | bare {name : Text} {line : Int} :
      Steps b (.declaration name .missing line) [] (b.insert name .nil)
  | initialized {name : Text} {line : Int} {part : Node} {value : Value}
      (yields : part.Yields b partLimit (.ok value)) :
      Steps b (.declaration name part line) [] (b.insert name value)

/-- The expression of a statement. -/
def part? : Node → Option Node
  | .expression part => some part
  | .print part => some part
  | .declaration _ part _ => some part
  | _ => none

/-- A statement that fails under bindings with an error; nesting beyond the limit is an error on the
line of the statement. -/
def Fails (b : Bindings) (statement : Node) (error : RuntimeError) : Prop :=
  ∃ part failure, statement.part? = some part ∧ part.Yields b partLimit (.error failure) ∧
    failure.halt statement.line = .error error

end Node

/-- Statements that succeed one after another: the lines they print and the bindings after them. -/
inductive Performs : Bindings → List Node → List Text → Bindings → Prop where
  | nil (b : Bindings) : Performs b [] [] b
  | cons {b c d : Bindings} {statement : Node} {rest : List Node} {lines more : List Text}
      (first : statement.Steps b lines c) (later : Performs c rest more d) :
      Performs b (statement :: rest) (lines ++ more) d

/-! ## One outcome -/

namespace Node

variable {b c c' : Bindings}

/-- An expression comes to one outcome. -/
theorem Yields.unique {limit : Nat} {node : Node} {o o' : Except Failure Value}
    (yields : node.Yields b limit o) (yields' : node.Yields b limit o') : o = o' := by
  induction yields generalizing o' with
  | tooDeep => cases yields'; rfl
  | literal => cases yields'; rfl
  | bound found =>
      cases yields' with
      | bound found' =>
          rw [found] at found'
          cases found'
          rfl
      | unbound absent =>
          rw [found] at absent
          cases absent
  | unbound absent =>
      cases yields' with
      | bound found =>
          rw [absent] at found
          cases found
      | unbound => rfl
  | grouping _ ih =>
      cases yields' with
      | grouping inner => exact ih inner
  | operand _ ih =>
      cases yields' with
      | operand fails => exact ih fails
      | unary inner => cases ih inner
  | unary _ ih =>
      cases yields' with
      | operand fails => cases ih fails
      | unary inner =>
          cases ih inner
          rfl
  | left _ ih =>
      cases yields' with
      | left fails => exact ih fails
      | right first _ => cases ih first
      | binary first _ => cases ih first
  | right _ _ ih ih' =>
      cases yields' with
      | left fails => cases ih fails
      | right _ fails => exact ih' fails
      | binary _ second => cases ih' second
  | binary _ _ ih ih' =>
      cases yields' with
      | left fails => cases ih fails
      | right _ fails => cases ih' fails
      | binary first second =>
          cases ih first
          cases ih' second
          rfl

/-- An expression has a meaning: it may fail, but only with an error of the program. -/
theorem Yields.exists_error {limit : Nat} {node : Node} {failure : Failure}
    (yields : node.Yields b limit (.error failure)) (line : Int) :
    ∃ error, failure.halt line = .error error := by
  have meaningful : ∀ kindName, failure ≠ .meaningless kindName := by
    generalize same : Except.error failure = outcome at yields
    induction yields with
    | tooDeep => cases same; exact nofun
    | literal => cases same
    | bound => cases same
    | unbound => cases same; exact nofun
    | grouping _ ih => exact ih same
    | operand _ ih => exact ih same
    | @unary _ operator _ value _ _ =>
        cases applied : applyUnary operator value <;> rw [applied] at same <;> cases same
        exact nofun
    | left _ ih => exact ih same
    | right _ _ _ ih => exact ih same
    | @binary _ _ _ operator value value' _ _ _ _ =>
        cases applied : applyBinary operator value value' <;> rw [applied] at same <;> cases same
        exact nofun
  cases failure with
  | runtime error => exact ⟨error, rfl⟩
  | tooDeep => exact ⟨⟨line, .tooDeep⟩, rfl⟩
  | meaningless kindName => exact absurd rfl (meaningful kindName)

/-- A missing expression comes to nothing while the limit is not reached. -/
theorem not_yields_missing {limit : Nat} {outcome : Except Failure Value} :
    ¬ Node.missing.Yields b (limit + 1) outcome := nofun

/-- A statement steps in one way. -/
theorem Steps.unique {statement : Node} {lines lines' : List Text} (steps : statement.Steps b lines c)
    (steps' : statement.Steps b lines' c') : lines = lines' ∧ c = c' := by
  cases steps with
  | expression => cases steps'; exact ⟨rfl, rfl⟩
  | print yields =>
      cases steps' with
      | print yields' =>
          cases yields.unique yields'
          exact ⟨rfl, rfl⟩
  | bare =>
      cases steps' with
      | bare => exact ⟨rfl, rfl⟩
      | initialized yields => exact absurd yields not_yields_missing
  | initialized yields =>
      cases steps' with
      | bare => exact absurd yields not_yields_missing
      | initialized yields' =>
          cases yields.unique yields'
          exact ⟨rfl, rfl⟩

/-- A statement that fails does not step. -/
theorem Fails.not_steps {statement : Node} {error : RuntimeError} (fails : statement.Fails b error)
    (lines : List Text) : ¬ statement.Steps b lines c := by
  obtain ⟨part, failure, isPart, yields, -⟩ := fails
  intro steps
  cases steps with
  | expression yields' =>
      cases isPart
      cases yields.unique yields'
  | print yields' =>
      cases isPart
      cases yields.unique yields'
  | bare =>
      cases isPart
      exact not_yields_missing yields
  | initialized yields' =>
      cases isPart
      cases yields.unique yields'

end Node

/-- No list of statements performs beyond the first statement that fails. -/
theorem Performs.stops {b c d : Bindings} {done rest more : List Node} {next : Node}
    {lines lines' : List Text} {error : RuntimeError} (performs : Performs b done lines c)
    (fails : next.Fails c error) (performs' : Performs b more lines' d)
    (ahead : more <+: done ++ next :: rest) : more <+: done := by
  induction performs generalizing more lines' with
  | nil b =>
      cases performs' with
      | nil => exact List.prefix_rfl
      | cons first _ =>
          obtain ⟨rfl, -⟩ := List.cons_prefix_cons.mp ahead
          exact absurd first (fails.not_steps _)
  | cons first _ ih =>
      cases performs' with
      | nil => exact List.nil_prefix
      | cons first' later' =>
          obtain ⟨rfl, behind⟩ := List.cons_prefix_cons.mp ahead
          obtain ⟨-, rfl⟩ := first.unique first'
          exact List.cons_prefix_cons.mpr ⟨rfl, ih fails later' behind⟩

/-! ## Evaluation -/

namespace Store

/-- The lines printed so far. -/
def output (s : Store) : List Text := Event.outputs s.events

theorem output_note (s : Store) (event : Event) :
    (s.note event).output = s.output ++ event.output?.toList := by
  unfold output note events Event.outputs
  rw [List.reverse_cons, List.filterMap_append]
  cases event <;> rfl

/-- Nothing was bound and nothing printed from one store to the other. -/
structure Still (s t : Store) : Prop where
  bindings : t.bindings = s.bindings
  output : t.output = s.output

theorem Still.refl (s : Store) : s.Still s := ⟨rfl, rfl⟩

theorem Still.trans {s t u : Store} (first : s.Still t) (second : t.Still u) : s.Still u :=
  ⟨second.bindings.trans first.bindings, second.output.trans first.output⟩

theorem Still.note (s : Store) {event : Event} (silent : event.output? = none) :
    s.Still (s.note event) := by
  refine ⟨rfl, ?_⟩
  rw [output_note, silent]
  exact List.append_nil _

end Store

namespace Eval

/-- A computation came to an outcome from `s` on, and left bindings and output alone. -/
def Comes {α : Type} (s : Store) (outcome : Except Failure α) : EStateM.Result Failure Store α → Prop
  | .ok value t => outcome = .ok value ∧ s.Still t
  | .error failure t => outcome = .error failure ∧ s.Still t

theorem Comes.bind {α β : Type} {s : Store} {m : Eval α} {k : α → Eval β} {outcome : Except Failure α}
    {further : α → Except Failure β} (first : Comes s outcome (m s))
    (next : ∀ value t, t.bindings = s.bindings → Comes t (further value) (k value t)) :
    Comes s (outcome >>= further) ((m >>= k) s) := by
  cases ran : m s with
  | ok value t =>
      rw [ran] at first
      obtain ⟨rfl, still⟩ := first
      have later := next value t still.bindings
      rw [bind_of_ok ran]
      show Comes s (further value) (k value t)
      cases ran' : k value t with
      | ok value' u =>
          rw [ran'] at later
          exact ⟨later.1, still.trans later.2⟩
      | error failure u =>
          rw [ran'] at later
          exact ⟨later.1, still.trans later.2⟩
  | error failure t =>
      rw [ran] at first
      obtain ⟨rfl, still⟩ := first
      rw [bind_of_error ran]
      exact ⟨rfl, still⟩

/-- An event that prints nothing may be left behind before an answer. -/
theorem Comes.noted {s : Store} {m : Eval Value} {outcome : Except Failure Value}
    (comes : Comes s outcome (m s)) {event : Value → Event} (silent : ∀ v, (event v).output? = none) :
    Comes s outcome ((do let value ← m; note (event value); return value : Eval Value) s) := by
  rw [← show outcome >>= Except.ok = outcome from bind_pure outcome]
  exact comes.bind fun value t _ => ⟨rfl, .note t (silent value)⟩

theorem comes_ofExcept {α : Type} (s : Store) (x : Except RuntimeError α) :
    Comes s (x.mapError .runtime) (ofExcept x s) := by
  cases x with
  | ok value => exact ⟨rfl, .refl s⟩
  | error error => exact ⟨rfl, .refl s⟩

theorem comes_lookUp {s : Store} {name : Text} {outcome : Except Failure Value} {line : Int}
    (found : outcome = match s.bindings.get? name with
      | some value => .ok value
      | none => .error (.runtime ⟨line, .undefined name⟩)) :
    Comes s outcome (lookUp name line s) := by
  subst found
  cases found : s.bindings.get? name with
  | some value =>
      rw [lookUp_of_some found]
      exact ⟨rfl, .refl s⟩
  | none =>
      rw [lookUp_of_none found]
      exact ⟨rfl, .refl s⟩

end Eval

open Eval in
/-- An expression is evaluated to what it yields, and nothing is bound or printed. -/
theorem Node.eval_yields {node : Node} (built : node.IsExpression Token.Written) (b : Bindings)
    (limit : Nat) :
    ∃ outcome, node.Yields b limit outcome ∧
      ∀ s : Store, s.bindings = b → Comes s outcome (node.eval limit s) := by
  induction built generalizing limit with
  | @atom t _ written stands =>
      cases limit with
      | zero => exact ⟨_, .tooDeep _, fun s _ => ⟨rfl, .refl s⟩⟩
      | succ limit =>
          rcases written.atom stands with ⟨value, rfl, -⟩ | ⟨-, rfl⟩
          · exact ⟨_, .literal limit value, fun s _ => ⟨rfl, .refl s⟩⟩
          · cases found : b.get? t.lexeme with
            | some value =>
                refine ⟨_, .bound found, fun s same => ?_⟩
                exact (comes_lookUp (by rw [same, found])).noted fun _ => rfl
            | none =>
                refine ⟨_, .unbound found, fun s same => ?_⟩
                exact (comes_lookUp (by rw [same, found])).noted fun _ => rfl
  | @unary operator operand written member inner ih =>
      cases limit with
      | zero => exact ⟨_, .tooDeep _, fun s _ => ⟨rfl, .refl s⟩⟩
      | succ limit =>
          obtain ⟨outcome, yields, comes⟩ := ih limit
          refine ⟨outcome >>= fun value => (applyUnary operator value).mapError .runtime, ?_,
            fun s same => ?_⟩
          · cases outcome with
            | ok value => exact .unary yields
            | error failure => exact .operand yields
          · refine (comes s same).bind fun value t _ => ?_
            exact (comes_ofExcept t (applyUnary operator value)).noted fun _ => rfl
  | @binary left right operator level tighter written takes member first second ih ih' =>
      cases limit with
      | zero => exact ⟨_, .tooDeep _, fun s _ => ⟨rfl, .refl s⟩⟩
      | succ limit =>
          obtain ⟨outcome, yields, comes⟩ := ih limit
          obtain ⟨outcome', yields', comes'⟩ := ih' limit
          refine ⟨outcome >>= fun value => outcome' >>= fun value' =>
            (applyBinary operator value value').mapError .runtime, ?_, fun s same => ?_⟩
          · cases outcome with
            | error failure => exact .left yields
            | ok value =>
                cases outcome' with
                | error failure => exact .right yields yields'
                | ok value' => exact .binary yields yields'
          · refine (comes s same).bind fun value t kept => ?_
            refine (comes' t (kept.trans same)).bind fun value' u _ => ?_
            exact (comes_ofExcept u (applyBinary operator value value')).noted fun _ => rfl
  | grouping value ih =>
      cases limit with
      | zero => exact ⟨_, .tooDeep _, fun s _ => ⟨rfl, .refl s⟩⟩
      | succ limit =>
          obtain ⟨outcome, yields, comes⟩ := ih limit
          exact ⟨outcome, .grouping yields, comes⟩

/-! ## Runs -/

/-- What a statement under `s` comes to: a step, or an error before anything is bound or printed. -/
inductive Node.Did (statement : Node) (s : Store) : Except Halt Unit × Store → Prop where
  | stepped {t : Store} {lines : List Text} (steps : statement.Steps s.bindings lines t.bindings)
      (output : t.output = s.output ++ lines) : Did statement s (.ok (), t)
  | failed {t : Store} {error : RuntimeError} (fails : statement.Fails s.bindings error)
      (still : s.Still t) : Did statement s (.error (.error error), t)

/-- A statement that evaluates its expression and has an effect if there is a value. -/
theorem Node.did_of_part {statement part : Node} (isPart : statement.part? = some part)
    (inner : part.IsExpression Token.Written) (lines : Value → List Text)
    (effect : Value → Store → Store) {next : Value → Eval Value}
    (evaluates : statement.eval evalLimit = part.eval partLimit >>= next)
    (ends : ∀ value u, next value u = .ok .nil (effect value u))
    (prints : ∀ value u, (effect value u).output = u.output ++ lines value)
    (steps : ∀ value u, part.Yields u.bindings partLimit (.ok value) →
      statement.Steps u.bindings (lines value) (effect value u).bindings) (s : Store) :
    statement.Did s (statement.execute s) := by
  obtain ⟨outcome, yields, comes⟩ := Node.eval_yields inner s.bindings partLimit
  have started : s.Still (s.note (.executed statement.kindName)) := .note s rfl
  have ended := comes (s.note (.executed statement.kindName)) rfl
  unfold execute
  rw [evaluates]
  cases ran : part.eval partLimit (s.note (.executed statement.kindName)) with
  | ok value u =>
      rw [ran] at ended
      obtain ⟨rfl, still⟩ := ended
      have kept := started.trans still
      have stepped := steps value u (kept.bindings ▸ yields)
      rw [kept.bindings] at stepped
      rw [Eval.bind_of_ok ran, ends]
      exact .stepped stepped (by rw [prints, kept.output])
  | error failure u =>
      rw [ran] at ended
      obtain ⟨rfl, still⟩ := ended
      obtain ⟨error, halts⟩ := yields.exists_error statement.line
      rw [Eval.bind_of_error ran]
      show statement.Did s (.error (failure.halt statement.line), u)
      rw [halts]
      exact .failed ⟨part, failure, isPart, yields, halts⟩ (started.trans still)

/-- A statement that is executed steps, or fails and leaves everything as it was. -/
theorem Node.execute_did {statement : Node} (built : statement.IsStatement Token.Written) (s : Store) :
    statement.Did s (statement.execute s) := by
  cases built with
  | expression inner =>
      exact did_of_part rfl inner (fun _ => []) (fun _ u => u) rfl (fun _ _ => rfl)
        (fun _ u => (List.append_nil u.output).symm) (fun _ _ yields => .expression yields) s
  | print inner =>
      exact did_of_part rfl inner (fun v => [v.text]) (fun v u => u.note (.printed v.text)) rfl
        (fun _ _ => rfl) (fun _ u => u.output_note _) (fun _ _ yields => .print yields) s
  | @bare name written kind =>
      have started : s.Still (s.note (.executed "VariableDeclaration")) := .note s rfl
      refine .stepped .bare (Eq.trans (Store.output_note _ _) ?_)
      exact congrArg (· ++ []) started.output
  | @initialized name part written kind inner =>
      let defined (v : Value) (u : Store) : Store :=
        Store.note { u with bindings := u.bindings.insert name.lexeme v } (.defined name.lexeme v)
      exact did_of_part rfl inner (fun _ => []) defined
        (Node.eval_declaration partLimit name.lexeme name.line inner.ne_missing) (fun _ _ => rfl)
        (fun v u => Store.output_note _ _) (fun _ _ yields => .initialized yields) s

/-- Statements are executed up to the first that fails. -/
theorem executeAll_performs {statements : List Node}
    (built : ∀ statement ∈ statements, statement.IsStatement Token.Written) (s : Store) :
    ∃ done rest lines, statements = done ++ rest ∧
      Performs s.bindings done lines (executeAll statements s).2.bindings ∧
      (executeAll statements s).2.output = s.output ++ lines ∧
      match rest with
      | [] => (executeAll statements s).1 = .ok ()
      | next :: _ => ∃ error, next.Fails (executeAll statements s).2.bindings error ∧
          (executeAll statements s).1 = .error (.error error) := by
  induction statements generalizing s with
  | nil => exact ⟨[], [], [], rfl, .nil s.bindings, (List.append_nil _).symm, rfl⟩
  | cons statement rest ih =>
      have did := Node.execute_did (built statement List.mem_cons_self) s
      unfold executeAll
      cases did' : statement.execute s with
      | mk halt t =>
          rw [did'] at did
          cases did with
          | @stepped _ lines steps output =>
              obtain ⟨done, left, more, rfl, performs, output', ends⟩ :=
                ih (fun other member => built other (List.mem_cons_of_mem _ member)) t
              refine ⟨statement :: done, left, lines ++ more, rfl, .cons steps performs, ?_, ends⟩
              show (executeAll _ t).2.output = _
              rw [output', output, List.append_assoc]
          | @failed _ error fails still =>
              refine ⟨[], statement :: rest, [], rfl, ?_, ?_, error, ?_, rfl⟩
              · show Performs s.bindings [] [] t.bindings
                rw [still.bindings]
                exact .nil s.bindings
              · rw [List.append_nil]
                exact still.output
              · show statement.Fails t.bindings error
                rw [still.bindings]
                exact fails

/-- **A run is the run of its longest prefix that succeeds.**  The statements that a front end makes
of a text are executed in order.  Those of `done` succeed one after another, and no longer part
from the start does; what was printed is their lines, and the bindings are theirs.  If a statement
follows, it fails under these bindings, and its error is the only diagnostic; otherwise there is
none. -/
theorem Session.run_is_longest_prefix (s : Session) (frontEnd : FrontEnd) (source : String) :
    let statements := (frontEnd.read source).statements
    let run := s.runStatements statements
    ∃ (done rest : List Node) (lines : List Text) (b : Bindings),
      statements = done ++ rest ∧ Performs s.bindings done lines b ∧
      (∀ more lines' c, more <+: statements → Performs s.bindings more lines' c → more <+: done) ∧
      run.output = Text.lines lines ∧ run.session = { s with bindings := b } ∧
      run.result.brokeOffAt = none ∧
      match rest with
      | [] => run.result.diagnostics = []
      | next :: _ => ∃ error : RuntimeError, next.Fails b error ∧
          run.result.diagnostics = [.whileRunning error.line error.cause.message] := by
  intro statements run
  have built : ∀ statement ∈ statements, statement.IsStatement Token.Written :=
    fun statement member => (frontEnd.written_of_read source statement member).mono fun _ => And.left
  obtain ⟨done, rest, lines, whole, performs, output, ends⟩ :=
    executeAll_performs built ⟨s.bindings, []⟩
  refine ⟨done, rest, lines, _, whole, performs, ?_, congrArg Text.lines output, rfl, ?_⟩
  · intro more lines' c ahead performs'
    cases rest with
    | nil =>
        rw [whole, List.append_nil] at ahead
        exact ahead
    | cons next rest =>
        obtain ⟨error, fails, -⟩ := ends
        rw [whole] at ahead
        exact performs.stops fails performs' ahead
  · cases rest with
    | nil =>
        show (result statements _).brokeOffAt = none ∧ (result statements _).diagnostics = []
        rw [ends]
        exact ⟨rfl, rfl⟩
    | cons next rest =>
        obtain ⟨error, fails, halts⟩ := ends
        show (result statements _).brokeOffAt = none ∧ ∃ error : RuntimeError, _ ∧
          (result statements _).diagnostics = _
        rw [halts]
        exact ⟨rfl, error, fails, rfl⟩

end LoxLang
