/-
# LoxLang.Proofs.Layout -- lines decide nothing

Lines are carried from the tokens into the statements and from there into diagnostics, and
no decision on the way looks at one.  So reading commutes with a change of the lines
(`Descent.read_mapLine`), and so does running what was read: the same is printed, the same
bindings are left, and errors differ in their lines only (`executeAll_mapLine`).

The second part is about two runs at once, of a tree and of the same tree on other lines.
Their stores have the same bindings, and the events of the one are those of the other on
the changed lines, perhaps behind some that were there before (`Store.Redrawn`).

Texts whose tokens differ in lines only become the same tokens once all lines are erased,
and therefore have the same statements and the same runs up to lines.
-/
import LoxLang.Proofs.Kinds
import LoxLang.Proofs.Lines

namespace LoxLang

set_option autoImplicit false

/-! ## Reading -/

/-- A diagnostic on another line. -/
def Diagnostic.mapLine (f : Int → Int) (d : Diagnostic) : Diagnostic := { d with line := f d.line }

/-- A reading on other lines. -/
def Reading.mapLine (f : Int → Int) (r : Reading) : Reading :=
  ⟨r.statements.map (Node.mapLine f), r.diagnostics.map (Diagnostic.mapLine f)⟩

theorem Token.atom?_mapLine (f : Int → Int) (t : Token) :
    (t.mapLine f).atom? = t.atom?.map (Node.mapLine f) := by
  have number : (t.mapLine f).numberLiteral = t.numberLiteral.mapLine f := by
    simp only [numberLiteral, literal_mapLine]
    split <;> simp [Node.mapLine]
  have string : (t.mapLine f).stringLiteral = t.stringLiteral.mapLine f := by
    simp only [stringLiteral, literal_mapLine]
    split <;> simp [Node.mapLine]
  simp only [atom?, kind_mapLine, number, string, lexeme_mapLine, line_mapLine]
  split <;> simp [Node.mapLine]

namespace Descent

/-- A fault on other lines. -/
def Fault.mapLine (f : Int → Int) (fault : Fault) : Fault :=
  ⟨fault.cause, fault.rest.map (Token.mapLine f)⟩

/-- What a rule answers, on other lines. -/
def relined (f : Int → Int) : Parsed → Parsed
  | .ok (node, rest) => .ok (node.mapLine f, rest.map (Token.mapLine f))
  | .error fault => .error (fault.mapLine f)

section Rules

variable (f : Int → Int)

theorem chain_mapLine (operators : List TokenKind) {operand : List Token → Parsed}
    (natural : ∀ ts, operand (ts.map (Token.mapLine f)) = relined f (operand ts))
    (fuel : List Token) (left : Node) (ts : List Token) :
    chain operators operand (fuel.map (Token.mapLine f)) (left.mapLine f) (ts.map (Token.mapLine f)) =
      relined f (chain operators operand fuel left ts) := by
  induction fuel generalizing left ts with
  | nil => simp [chain, relined]
  | cons _ fuel ih =>
      cases ts with
      | nil => simp [chain, relined]
      | cons operator ts =>
          by_cases member : operator.kind ∈ operators
          · simp only [List.map_cons, chain, Token.kind_mapLine, member, if_true, natural]
            cases operand ts with
            | error fault => rfl
            | ok result => exact ih (.binary left operator result.1) result.2
          · simp [chain, member, relined]

theorem leftGrouped_mapLine (operators : List TokenKind) {operand : List Token → Parsed}
    (natural : ∀ ts, operand (ts.map (Token.mapLine f)) = relined f (operand ts)) (ts : List Token) :
    leftGrouped operators operand (ts.map (Token.mapLine f)) =
      relined f (leftGrouped operators operand ts) := by
  simp only [leftGrouped, natural]
  cases operand ts with
  | error fault => rfl
  | ok result => exact chain_mapLine f operators natural result.2 result.1 result.2

/-- A token of one kind is found or missed on whatever line, and what is built then is too. -/
theorem expect_mapLine (kind : TokenKind) (cause : Cause) (node : Node) (ts : List Token) :
    (match expect kind cause (ts.map (Token.mapLine f)) with
      | .error fault => .error fault
      | .ok rest => .ok (node.mapLine f, rest)) =
    relined f (match expect kind cause ts with
      | .error fault => .error fault
      | .ok rest => .ok (node, rest)) := by
  cases ts with
  | nil => rfl
  | cons t ts =>
      by_cases same : t.kind = kind
      · simp [expect, same, relined]
      · simp [expect, same, relined, Fault.mapLine]

/-- Reading a rule commutes with a change of the lines. -/
theorem parse_mapLine (limit : Nat) (rule : Rule) (ts : List Token) :
    parse limit rule (ts.map (Token.mapLine f)) = relined f (parse limit rule ts) := by
  induction limit generalizing rule ts with
  | zero => rfl
  | succ limit ih =>
      cases rule with
      | expression => exact ih .equality ts
      | equality => exact leftGrouped_mapLine f _ (ih .comparison) ts
      | comparison => exact leftGrouped_mapLine f _ (ih .term) ts
      | term => exact leftGrouped_mapLine f _ (ih .factor) ts
      | factor => exact leftGrouped_mapLine f _ (ih .unary) ts
      | unary =>
          cases ts with
          | nil => exact ih .primary []
          | cons operator ts =>
              by_cases member : operator.kind ∈ Rule.unary.operators
              · simp only [List.map_cons, parse, Token.kind_mapLine, member, if_true, ih .unary]
                cases parse limit .unary ts <;> rfl
              · simp only [List.map_cons, parse, Token.kind_mapLine, member, if_false]
                exact ih .primary (operator :: ts)
      | primary =>
          cases ts with
          | nil => rfl
          | cons t ts =>
              simp only [List.map_cons, parse, Token.kind_mapLine, Token.atom?_mapLine, ih .expression]
              cases t.atom? with
              | some atom => rfl
              | none =>
                  by_cases opens : t.kind = .leftParen
                  · simp only [Option.map_none, if_pos opens]
                    cases parse limit .expression ts with
                    | error fault => rfl
                    | ok result => exact expect_mapLine f _ _ (.grouping result.1) result.2
                  · simp [opens, relined, Fault.mapLine]

theorem closed_mapLine (limit : Nat) (cause : Cause) {build build' : Node → Node}
    (natural : ∀ value, build' (value.mapLine f) = (build value).mapLine f) (ts : List Token) :
    closed limit cause build' (ts.map (Token.mapLine f)) = relined f (closed limit cause build ts) := by
  simp only [closed, parse_mapLine]
  cases parse limit .expression ts with
  | error fault => rfl
  | ok result =>
      simp only [relined, natural]
      exact expect_mapLine f _ _ (build result.1) result.2

theorem initializer_mapLine (limit : Nat) (name : Token) (ts : List Token) :
    initializer limit (name.mapLine f) (ts.map (Token.mapLine f)) =
      relined f (initializer limit name ts) := by
  cases ts with
  | nil => rfl
  | cons t ts =>
      by_cases equal : t.kind = .equal
      · simp only [List.map_cons, initializer, Token.kind_mapLine, equal, if_true]
        exact closed_mapLine f limit _ (fun value => by simp [Node.mapLine]) ts
      · by_cases semicolon : t.kind = .semicolon
        · simp [initializer, semicolon, relined, Node.mapLine]
        · simp [initializer, equal, semicolon, relined, Fault.mapLine]

theorem declaration_mapLine (limit : Nat) (ts : List Token) :
    declaration limit (ts.map (Token.mapLine f)) = relined f (declaration limit ts) := by
  cases ts with
  | nil => rfl
  | cons name ts =>
      by_cases isName : name.kind = .identifier
      · simp only [List.map_cons, declaration, Token.kind_mapLine, isName, if_true]
        exact initializer_mapLine f limit name ts
      · simp [declaration, isName, relined, Fault.mapLine]

/-- Reading a statement commutes with a change of the lines. -/
theorem statement_mapLine (limit : Nat) (ts : List Token) :
    statement limit (ts.map (Token.mapLine f)) = relined f (statement limit ts) := by
  cases ts with
  | nil => rfl
  | cons t ts =>
      by_cases var : t.kind = .wordVar
      · simp only [List.map_cons, statement, Token.kind_mapLine, var, if_true]
        exact declaration_mapLine f limit ts
      · by_cases print : t.kind = .wordPrint
        · simp only [List.map_cons, statement, Token.kind_mapLine, print, if_true]
          exact closed_mapLine f limit _ (fun value => by simp [Node.mapLine]) ts
        · simp only [List.map_cons, statement, Token.kind_mapLine, var, print, if_false]
          exact closed_mapLine f limit _ (fun value => by simp [Node.mapLine]) (t :: ts)

theorem recover_mapLine (ts : List Token) :
    recover (ts.map (Token.mapLine f)) = (recover ts).map (Token.mapLine f) := by
  induction ts with
  | nil => rfl
  | cons t ts ih =>
      cases ts with
      | nil => by_cases semicolon : t.kind = .semicolon <;> simp [recover, semicolon]
      | cons next ts =>
          simp only [List.map_cons, recover_cons_cons, Token.kind_mapLine] at ih ⊢
          by_cases semicolon : t.kind = .semicolon
          · simp [semicolon]
          · by_cases start : next.kind ∈ statementStarts
            · simp [semicolon, start]
            · simpa [semicolon, start] using ih

/-- The outcome of a pass on other lines. -/
def relinedPass : Except Fault Node → Except Fault Node
  | .ok node => .ok (node.mapLine f)
  | .error fault => .error (fault.mapLine f)

theorem passes_mapLine (limit : Nat) (ts : List Token) :
    passes limit (ts.map (Token.mapLine f)) = (passes limit ts).map (relinedPass f) := by
  fun_induction passes limit ts with
  | case1 => simp
  | case2 t ts node rest read ih =>
      have step : statement limit ((t :: ts).map (Token.mapLine f)) =
          .ok (node.mapLine f, rest.map (Token.mapLine f)) := by
        rw [statement_mapLine, read]
        rfl
      rw [passes_of_ok step, ih]
      rfl
  | case3 t ts fault failed ih =>
      have step : statement limit (t.mapLine f :: ts.map (Token.mapLine f)) = .error (fault.mapLine f) := by
        rw [← List.map_cons, statement_mapLine, failed]
        rfl
      rw [List.map_cons, passes_of_error step, Fault.mapLine, recover_mapLine, ih]
      rfl

theorem lastLine_mapLine {ts : List Token} (nonempty : ts ≠ []) :
    lastLine (ts.map (Token.mapLine f)) = f (lastLine ts) := by
  rw [lastLine, lastLine, List.getLast?_map, List.getLast?_eq_getLast_of_ne_nil nonempty]
  rfl

theorem diagnostic_mapLine (line : Int) (fault : Fault) :
    (fault.mapLine f).diagnostic (f line) = (fault.diagnostic line).mapLine f := by
  obtain ⟨cause, rest⟩ := fault
  cases rest <;> cases cause <;> rfl

/-- **Reading commutes with a change of the lines.** -/
theorem read_mapLine (ts : List Token) : read (ts.map (Token.mapLine f)) = (read ts).mapLine f := by
  cases ts with
  | nil => simp [read, Reading.mapLine]
  | cons t ts =>
      have last : lastLine ((t :: ts).map (Token.mapLine f)) = f (lastLine (t :: ts)) :=
        lastLine_mapLine f (List.cons_ne_nil t ts)
      have statements (passed : List (Except Fault Node)) :
          (passed.map (relinedPass f)).filterMap statementOf? =
            (passed.filterMap statementOf?).map (Node.mapLine f) := by
        rw [List.filterMap_map, List.map_filterMap]
        congr 1
        funext outcome
        cases outcome <;> rfl
      have faults (passed : List (Except Fault Node)) :
          (passed.map (relinedPass f)).filterMap faultOf? =
            (passed.filterMap faultOf?).map (Fault.mapLine f) := by
        rw [List.filterMap_map, List.map_filterMap]
        congr 1
        funext outcome
        cases outcome <;> rfl
      simp only [read, Reading.mapLine, passes_mapLine, last, statements, faults, List.map_map,
        Function.comp_def, diagnostic_mapLine]

end Rules

end Descent

/-! ## Running -/

/-- An error on another line. -/
def RuntimeError.mapLine (f : Int → Int) (e : RuntimeError) : RuntimeError := { e with line := f e.line }

/-- A failure on another line; only an error has one. -/
def Failure.mapLine (f : Int → Int) : Failure → Failure
  | .runtime e => .runtime (e.mapLine f)
  | .tooDeep => .tooDeep
  | .meaningless kindName => .meaningless kindName

/-- A halt on another line. -/
def Halt.mapLine (f : Int → Int) : Halt → Halt
  | .error e => .error (e.mapLine f)
  | .meaningless kindName => .meaningless kindName

/-- An event on other lines; only operators have them. -/
def Event.mapLine (f : Int → Int) : Event → Event
  | .appliedUnary operator operand result => .appliedUnary (operator.mapLine f) operand result
  | .appliedBinary operator left right result =>
      .appliedBinary (operator.mapLine f) left right result
  | event => event

namespace Event

variable (f : Int → Int) (events : List Event)

theorem outputs_mapLine : outputs (events.map (mapLine f)) = outputs events := by
  rw [outputs, outputs, List.filterMap_map]
  congr 1
  funext event
  cases event <;> rfl

/-- No debug message shows a line. -/
theorem messages_mapLine (verbosity : Nat) :
    messages verbosity (events.map (mapLine f)) = messages verbosity events := by
  rw [messages, messages, List.filterMap_map]
  congr 1
  funext event
  cases event <;> rfl

end Event

theorem applyUnary_mapLine (f : Int → Int) (operator : Token) (operand : Value) :
    applyUnary (operator.mapLine f) operand =
      (applyUnary operator operand).mapError (RuntimeError.mapLine f) := by
  simp only [applyUnary_eq, Token.kind_mapLine, Token.lexeme_mapLine, Token.line_mapLine]
  by_cases bang : operator.kind = .bang
  · simp [bang, Except.mapError]
  · by_cases minus : operator.kind = .minus
    · simp only [minus, if_true]
      cases operand <;> rfl
    · simp [bang, minus, Except.mapError, RuntimeError.mapLine]

theorem applyBinary_mapLine (f : Int → Int) (operator : Token) (left right : Value) :
    applyBinary (operator.mapLine f) left right =
      (applyBinary operator left right).mapError (RuntimeError.mapLine f) := by
  simp only [applyBinary, Token.kind_mapLine, Token.lexeme_mapLine, Token.line_mapLine]
  split
  · rfl
  · rfl
  · split <;> rfl
  · split <;> rfl

/-- A store on other lines, its events behind those of `base`. -/
structure Store.Redrawn (f : Int → Int) (base : List Event) (s t : Store) : Prop where
  bindings : t.bindings = s.bindings
  trail : t.trail = s.trail.map (Event.mapLine f) ++ base

theorem Store.Redrawn.note {f : Int → Int} {base : List Event} {s t : Store} (redrawn : s.Redrawn f base t)
    (event : Event) : (s.note event).Redrawn f base (t.note (event.mapLine f)) :=
  ⟨redrawn.bindings, by simp [Store.note, redrawn.trail]⟩

namespace Eval

variable {f : Int → Int} {base : List Event}

/-- Computations that agree in all but lines. -/
abbrev Redrawn (f : Int → Int) (base : List Event) (m n : Eval Value) : Prop :=
  Twin (Store.Redrawn f base) (fun failure other => other = failure.mapLine f) Eq m n

/-- An event may be left behind before the answer. -/
theorem noted_redrawn (event : Event) (value : Value) :
    Redrawn f base (do note event; return value) (do note (event.mapLine f); return value) := by
  have noted : Twin (Store.Redrawn f base) (fun failure other => other = Failure.mapLine f failure) Eq
      (note event) (note (event.mapLine f)) := Twin.modify fun _ _ redrawn => redrawn.note event
  exact noted.bind fun _ _ _ => Twin.pure rfl

theorem ofExcept_redrawn (x : Except RuntimeError Value) :
    Redrawn f base (ofExcept x) (ofExcept (x.mapError (RuntimeError.mapLine f))) := by
  cases x with
  | ok value => exact Twin.pure rfl
  | error error => exact Twin.throw rfl

theorem lookUp_redrawn (name : Text) (line : Int) :
    Redrawn f base (lookUp name line) (lookUp name (f line)) := by
  intro s t redrawn
  cases found : s.bindings.get? name with
  | some value =>
      rw [lookUp_of_some found, lookUp_of_some (redrawn.bindings ▸ found)]
      exact ⟨rfl, redrawn⟩
  | none =>
      rw [lookUp_of_none found, lookUp_of_none (redrawn.bindings ▸ found)]
      exact ⟨rfl, redrawn⟩

theorem define_redrawn (name : Text) (value : Value) :
    Redrawn f base (do define name value; note (.defined name value); return .nil)
      (do define name value; note (.defined name value); return .nil) := by
  have defined : Twin (Store.Redrawn f base) (fun failure other => other = Failure.mapLine f failure) Eq
      (define name value) (define name value) :=
    Twin.modify fun _ _ redrawn => ⟨by simp [redrawn.bindings], redrawn.trail⟩
  exact defined.bind fun _ _ _ => noted_redrawn (.defined name value) .nil

end Eval

open Eval in
/-- Evaluation commutes with a change of the lines. -/
theorem Node.eval_mapLine (f : Int → Int) (base : List Event) (limit : Nat) (node : Node) :
    Redrawn f base (node.eval limit) ((node.mapLine f).eval limit) := by
  induction limit generalizing node with
  | zero => exact Twin.throw rfl
  | succ limit ih =>
      cases node with
      | literal value => exact Twin.pure rfl
      | hollow kind => exact Twin.throw rfl
      | missing => exact Twin.throw rfl
      | block statements => exact Twin.throw rfl
      | grouping inner => exact ih inner
      | unary operator operand =>
          refine (ih operand).bind ?_
          rintro value _ rfl
          rw [applyUnary_mapLine]
          refine (ofExcept_redrawn (applyUnary operator value)).bind ?_
          rintro result _ rfl
          exact noted_redrawn (.appliedUnary operator value result) result
      | binary left operator right =>
          refine (ih left).bind ?_
          rintro a _ rfl
          refine (ih right).bind ?_
          rintro b _ rfl
          rw [applyBinary_mapLine]
          refine (ofExcept_redrawn (applyBinary operator a b)).bind ?_
          rintro result _ rfl
          exact noted_redrawn (.appliedBinary operator a b result) result
      | reference name line =>
          refine (lookUp_redrawn name line).bind ?_
          rintro value _ rfl
          exact noted_redrawn (.lookedUp name value) value
      | expression value => exact (ih value).bind fun _ _ _ => Twin.pure rfl
      | print value =>
          refine (ih value).bind ?_
          rintro value _ rfl
          exact noted_redrawn (.printed value.text) .nil
      | declaration name initializer line =>
          by_cases bare : initializer = .missing
          · subst bare
            exact define_redrawn name .nil
          · have present := mapLine_ne_missing f bare
            rw [mapLine, eval_declaration limit name line bare,
              eval_declaration limit name (f line) present]
            refine (ih initializer).bind ?_
            rintro value _ rfl
            exact define_redrawn name value

/-- If a statement can fail, then its line changes with the lines of its parts. -/
def Node.Reported (f : Int → Int) (statement : Node) : Prop :=
  ∀ (s : Store) (halt : Halt), (statement.execute s).1 = .error halt →
    (statement.mapLine f).line = f statement.line

section Execute

variable {f : Int → Int} {base : List Event} {s t : Store}

theorem Node.execute_mapLine {statement : Node} (reported : statement.Reported f)
    (redrawn : s.Redrawn f base t) :
    ((statement.mapLine f).execute t).1 = (statement.execute s).1.mapError (Halt.mapLine f) ∧
      (statement.execute s).2.Redrawn f base ((statement.mapLine f).execute t).2 := by
  have met := statement.eval_mapLine f base evalLimit (redrawn.note (.executed statement.kindName))
  have halts := reported s
  unfold Node.execute at halts ⊢
  rw [Node.kindName_mapLine]
  -- the event of a statement that is executed carries no line
  change Eval.Meet _ _ _ _ ((statement.mapLine f).eval evalLimit (t.note (.executed statement.kindName)))
    at met
  cases left : statement.eval evalLimit (s.note (.executed statement.kindName)) <;>
    cases right : (statement.mapLine f).eval evalLimit (t.note (.executed statement.kindName)) <;>
    rw [left, right] at met
  case ok.ok => exact ⟨rfl, met.2⟩
  case ok.error => exact met.elim
  case error.ok => exact met.elim
  case error.error failure s' other t' =>
    obtain ⟨rfl, after⟩ := met
    rw [left] at halts
    refine ⟨?_, after⟩
    cases failure with
    | runtime error => rfl
    | tooDeep =>
        -- the one error whose line does not come from a token of the tree that failed
        show Except.error (Halt.error ⟨(statement.mapLine f).line, .tooDeep⟩) = _
        rw [halts _ rfl]
        rfl
    | meaningless kindName => rfl

/-- Running statements commutes with a change of the lines. -/
theorem executeAll_mapLine {statements : List Node}
    (reported : ∀ statement ∈ statements, statement.Reported f) (redrawn : s.Redrawn f base t) :
    (executeAll (statements.map (Node.mapLine f)) t).1 =
        (executeAll statements s).1.mapError (Halt.mapLine f) ∧
      (executeAll statements s).2.Redrawn f base
        (executeAll (statements.map (Node.mapLine f)) t).2 := by
  induction statements generalizing s t with
  | nil => exact ⟨rfl, redrawn⟩
  | cons statement rest ih =>
      rw [List.forall_mem_cons] at reported
      obtain ⟨halts, after⟩ := Node.execute_mapLine reported.1 redrawn
      rw [List.map_cons]
      unfold executeAll
      cases left : statement.execute s with
      | mk halt s' =>
          cases right : (statement.mapLine f).execute t with
          | mk halt' t' =>
              rw [left, right] at halts after
              cases halt with
              | ok =>
                  cases halts
                  exact ih reported.2 after
              | error halt =>
                  cases halts
                  exact ⟨rfl, after⟩

end Execute

/-! ## Sessions -/

/-- The outcome of a run on other lines. -/
def RunResult.mapLine (f : Int → Int) (r : RunResult) : RunResult :=
  ⟨r.statements.map (Node.mapLine f), r.diagnostics.map (Diagnostic.mapLine f), r.brokeOffAt⟩

/-- A run on other lines. -/
def Run.mapLine (f : Int → Int) (r : Run) : Run :=
  ⟨r.result.mapLine f, r.events.map (Event.mapLine f), r.session⟩

theorem Run.output_mapLine (f : Int → Int) (r : Run) : (r.mapLine f).output = r.output := by
  simp only [output, mapLine, Event.outputs_mapLine]

theorem Run.log_mapLine (f : Int → Int) (r : Run) : (r.mapLine f).log = r.log := by
  simp only [log, messages, mapLine, Event.messages_mapLine]

theorem Diagnostic.anyStatic_mapLine (f : Int → Int) (ds : List Diagnostic) :
    anyStatic (ds.map (mapLine f)) = anyStatic ds := by
  rw [anyStatic, anyStatic, List.any_map]
  rfl

/-- If the lines that are missing stay missing, every statement is reported on its changed line. -/
theorem Node.reported_of_fixed {f : Int → Int} (fixed : f 0 = 0) (statement : Node) :
    statement.Reported f :=
  fun _ _ _ => line_mapLine statement (.inr fixed)

namespace Session

variable {f : Int → Int} (s : Session)

theorem result_mapLine (statements : List Node) (halt : Except Halt Unit) :
    result (statements.map (Node.mapLine f)) (halt.mapError (Halt.mapLine f)) =
      (result statements halt).mapLine f := by
  cases halt with
  | ok => rfl
  | error halt => cases halt <;> rfl

theorem runStatements_mapLine {statements : List Node}
    (reported : ∀ statement ∈ statements, statement.Reported f) :
    s.runStatements (statements.map (Node.mapLine f)) = (s.runStatements statements).mapLine f := by
  have start : Store.Redrawn f [] ⟨s.bindings, []⟩ ⟨s.bindings, []⟩ := ⟨rfl, rfl⟩
  obtain ⟨halts, after⟩ := executeAll_mapLine reported start
  have events := congrArg List.reverse after.trail
  rw [List.append_nil, ← List.map_reverse] at events
  simp only [runStatements, Run.mapLine, halts, result_mapLine, after.bindings, Store.events, events]

/-- What a session does with a program once it is read. -/
def perform (reading : Reading) : Run :=
  if Diagnostic.anyStatic reading.diagnostics then
    ⟨⟨reading.statements, reading.diagnostics, none⟩, [], s⟩
  else s.runStatements reading.statements

theorem run_eq_perform (source : String) : s.run source = s.perform (s.frontEnd.read source) := rfl

theorem perform_mapLine (fixed : f 0 = 0) (reading : Reading) :
    s.perform (reading.mapLine f) = (s.perform reading).mapLine f := by
  unfold perform
  simp only [Reading.mapLine, Diagnostic.anyStatic_mapLine]
  split
  · rfl
  · exact s.runStatements_mapLine fun statement _ => statement.reported_of_fixed fixed

end Session

/-! ## Layout -/

/-- What a token is, apart from where it stands. -/
def Token.content (t : Token) : TokenKind × Text × Option Literal := (t.kind, t.lexeme, t.literal)

/-- The change of lines that erases them. -/
def noLine (_ : Int) : Int := 0

/-- Tokens of the same content are the same once their lines are erased. -/
theorem Token.map_noLine {ts us : List Token} (same : ts.map content = us.map content) :
    ts.map (mapLine noLine) = us.map (mapLine noLine) := by
  have erased : mapLine noLine = (fun c => ⟨c.1, c.2.1, c.2.2, 0⟩) ∘ content := rfl
  rw [erased, ← List.map_map, ← List.map_map, same]

theorem Descent.body_mapLine (f : Int → Int) (ts : List Token) :
    body (ts.map (Token.mapLine f)) = (body ts).map (Token.mapLine f) := by
  rw [body, body, List.takeWhile_map]
  rfl

/-- Texts without faulty characters and with the same tokens up to lines are read alike. -/
theorem FrontEnd.read_noLine {p q : String} (cleanP : (scan p).diagnostics = [])
    (cleanQ : (scan q).diagnostics = [])
    (same : (scan p).tokens.map Token.content = (scan q).tokens.map Token.content) :
    (descent.read p).mapLine noLine = (descent.read q).mapLine noLine := by
  have reading {source : String} (clean : (scan source).diagnostics = []) :
      (descent.read source).mapLine noLine =
        Descent.read (Descent.body ((scan source).tokens.map (Token.mapLine noLine))) := by
    rw [Descent.body_mapLine, Descent.read_mapLine, read, clean, List.nil_append]
  rw [reading cleanP, reading cleanQ, Token.map_noLine same]

/-- **Layout does not matter.**  Two texts that differ in the lines of their tokens only are read as the
same statements with the same diagnostics up to lines.  A session prints the same for both, and is the
same after both; what it has to report differs in lines only. -/
theorem Session.run_ignores_layout (s : Session) (p q : String) (descent : s.frontEnd = .descent)
    (cleanP : (scan p).diagnostics = []) (cleanQ : (scan q).diagnostics = [])
    (same : (scan p).tokens.map Token.content = (scan q).tokens.map Token.content) :
    (FrontEnd.descent.read p).mapLine noLine = (FrontEnd.descent.read q).mapLine noLine ∧
      (s.run p).output = (s.run q).output ∧ (s.run p).log = (s.run q).log ∧
      (s.run p).session = (s.run q).session ∧
      (s.run p).result.mapLine noLine = (s.run q).result.mapLine noLine := by
  have reads := FrontEnd.read_noLine cleanP cleanQ same
  have runs : (s.run p).mapLine noLine = (s.run q).mapLine noLine := by
    rw [run_eq_perform, run_eq_perform, descent, ← perform_mapLine s rfl, ← perform_mapLine s rfl, reads]
  refine ⟨reads, ?_, ?_, ?_, ?_⟩
  · simpa only [Run.output_mapLine] using congrArg Run.output runs
  · simpa only [Run.log_mapLine] using congrArg Run.log runs
  · simpa only [Run.mapLine] using congrArg Run.session runs
  · simpa only [Run.mapLine] using congrArg Run.result runs

/-- A text on one line and the same text on four: the error of the second statement is on line 1 of the
one and on line 4 of the other. -/
theorem Session.run_ignores_layout_comments :
    let s := Session.initial .descent 2
    let p := "print \"a\"; print -\"b\";"
    let q := "print \"a\"\n; // said\nprint\n  -\"b\";"
    (scan p).diagnostics = [] ∧ (scan q).diagnostics = [] ∧
      (scan p).tokens.map Token.content = (scan q).tokens.map Token.content ∧
      (s.run p).result.diagnostics = [.whileRunning 1 "Operand must be a number."] ∧
      (s.run q).result.diagnostics = [.whileRunning 4 "Operand must be a number."] ∧
      (s.run p).output = (s.run q).output ∧
      (s.run p).result.mapLine noLine = (s.run q).result.mapLine noLine := by
  intro s p q
  have cleanP : (scan p).diagnostics = [] := by decide +kernel
  have cleanQ : (scan q).diagnostics = [] := by decide +kernel
  have same : (scan p).tokens.map Token.content = (scan q).tokens.map Token.content := by decide +kernel
  obtain ⟨-, output, -, -, result⟩ := s.run_ignores_layout p q rfl cleanP cleanQ same
  exact ⟨cleanP, cleanQ, same, by decide +kernel, by decide +kernel, output, result⟩

end LoxLang
