/-
# LoxLang.Proofs.Failures -- the ways in which a program of a text fails

What the front ends build has a meaning throughout: each operator stands where the
evaluator knows it, no number or string is hollow, and a part is missing only where a
declaration may lack its initializer.  So few failures are left (`Node.causes`): operands
of the wrong types, names of the statement that are not bound, and nesting beyond the
limit.

That is shown operator by operator, then for expressions by induction on what they yield,
and so for the statements of a text under all bindings and for a whole run.
-/
import LoxLang.Proofs.Execution

namespace LoxLang

set_option autoImplicit false

/-! ## Causes that a statement may have -/

namespace Node

mutual

/-- The names that a tree refers to.  The name that a declaration binds is none of them. -/
def references : Node → List Text
  | .binary left _ right => left.references ++ right.references
  | .unary _ operand => operand.references
  | .grouping inner => inner.references
  | .reference name _ => [name]
  | .expression value => value.references
  | .print value => value.references
  | .declaration _ initializer _ => initializer.references
  | .literal _ | .hollow _ | .missing => []
  | .block statements => referencesList statements

def referencesList : List Node → List Text
  | [] => []
  | node :: rest => node.references ++ referencesList rest

end

/-- The names that a tree refers to and that are not bound. -/
def unbound (b : Bindings) (node : Node) : List Text :=
  node.references.filter fun name => (b.get? name).isNone

/-- The causes for which a tree may fail under bindings. -/
def causes (b : Bindings) (node : Node) : List RuntimeCause :=
  [.operandsNotAddable, .operandsNotNumbers, .operandNotNumber, .tooDeep] ++
    (node.unbound b).map .undefined

theorem mem_unbound {b : Bindings} {node : Node} {name : Text} :
    name ∈ node.unbound b ↔ name ∈ node.references ∧ b.get? name = none := by
  simp [unbound]

theorem mem_causes {b : Bindings} {node : Node} {cause : RuntimeCause} :
    cause ∈ node.causes b ↔
      cause ∈ [.operandsNotAddable, .operandsNotNumbers, .operandNotNumber, .tooDeep] ∨
        ∃ name ∈ node.references, b.get? name = none ∧ cause = .undefined name := by
  unfold causes
  rw [List.mem_append, List.mem_map]
  refine or_congr_right ⟨?_, ?_⟩
  · rintro ⟨name, free, rfl⟩
    obtain ⟨referred, absent⟩ := mem_unbound.mp free
    exact ⟨name, referred, absent, rfl⟩
  · rintro ⟨name, referred, absent, rfl⟩
    exact ⟨name, mem_unbound.mpr ⟨referred, absent⟩, rfl⟩

/-- A tree has the causes of its parts. -/
theorem causes_subset {b : Bindings} {part whole : Node} (below : part.references ⊆ whole.references) :
    part.causes b ⊆ whole.causes b := by
  intro cause member
  rw [mem_causes] at member ⊢
  refine member.imp_right ?_
  rintro ⟨name, referred, absent⟩
  exact ⟨name, below referred, absent⟩

end Node

/-- A failure for one of the causes; a node without meaning is none. -/
def Failure.For (causes : List RuntimeCause) : Failure → Prop
  | .runtime error => error.cause ∈ causes
  | .tooDeep => True
  | .meaningless _ => False

theorem Failure.For.mono {causes causes' : List RuntimeCause} {failure : Failure}
    (sub : causes ⊆ causes') (isFor : failure.For causes) : failure.For causes' := by
  cases failure with
  | runtime error => exact sub isFor
  | tooDeep => trivial
  | meaningless => exact isFor

/-! ## Operators -/

/-- The operators of unary expressions are known, so only a wrong operand is left. -/
theorem cause_of_applyUnary {operator : Token} {operand : Value} {error : RuntimeError}
    (member : operator.kind ∈ Rule.unary.operators)
    (fails : applyUnary operator operand = .error error) : error.cause = .operandNotNumber := by
  rw [applyUnary_eq] at fails
  simp only [Rule.operators, List.mem_cons, List.not_mem_nil, or_false] at member
  rcases member with bang | minus
  · rw [if_pos bang] at fails
    cases fails
  · rw [if_neg (by rw [minus]; decide), if_pos minus] at fails
    cases operand <;> cases fails <;> rfl

/-- An operator of a binary level is an equality, a plus, or takes numbers only. -/
theorem known_of_mem_operators {level tighter : Rule} (takes : level.operand? = some tighter)
    {kind : TokenKind} (member : kind ∈ level.operators) :
    kind = .equalEqual ∨ kind = .bangEqual ∨ kind = .plus ∨ ∃ f, numeric? kind = some f := by
  cases level with
  | expression => cases takes
  | unary => cases takes
  | primary => cases takes
  | equality | comparison | term | factor =>
      simp only [Rule.operators, List.mem_cons, List.not_mem_nil, or_false] at member
      rcases member with rfl | rfl | rfl | rfl <;> simp [numeric?, arithmetic?, comparison?]

theorem cause_of_applyBinary {level tighter : Rule} (takes : level.operand? = some tighter)
    {operator : Token} (member : operator.kind ∈ level.operators) {left right : Value}
    {error : RuntimeError} (fails : applyBinary operator left right = .error error) :
    error.cause ∈ [RuntimeCause.operandsNotAddable, .operandsNotNumbers] := by
  have known := known_of_mem_operators takes member
  unfold applyBinary at fails
  split at fails
  · cases fails
  · cases fails
  · split at fails <;> cases fails
    exact List.mem_cons_self
  · rename_i kind notEqual notUnequal notPlus
    obtain ⟨f, operation⟩ := ((known.resolve_left notEqual).resolve_left notUnequal).resolve_left notPlus
    rw [operation] at fails
    split at fails
    · cases fails
    · cases fails
      exact List.mem_cons_of_mem _ List.mem_cons_self
    · rename_i unknown
      cases unknown

/-! ## Expressions and statements -/

namespace Node

/-- What an expression fails for: an operator adds the types of its operands, a name that it is not
bound, and every other failure is that of a part. -/
theorem IsExpression.failure_for {b : Bindings} {limit : Nat} {node : Node} {failure : Failure}
    (built : node.IsExpression Token.Written) (yields : node.Yields b limit (.error failure)) :
    failure.For (node.causes b) := by
  induction built generalizing limit with
  | @atom t _ written stands =>
      rcases written.atom stands with ⟨value, rfl, -⟩ | ⟨-, rfl⟩
      · cases yields
        trivial
      · cases yields with
        | tooDeep => trivial
        | unbound absent => exact mem_causes.mpr (.inr ⟨_, List.mem_cons_self, absent, rfl⟩)
  | @unary operator operand _ member _ ih =>
      -- the outcome of an operator is not an error by its form, so it is split off as an equation
      generalize same : Except.error failure = outcome at yields
      cases yields with
      | tooDeep => cases same; trivial
      | operand fails => cases same; exact ih fails
      | @unary _ _ _ value inner =>
          cases applied : applyUnary operator value <;> rw [applied] at same <;> cases same
          refine mem_causes.mpr (.inl ?_)
          rw [cause_of_applyUnary member applied]
          decide
  | @binary left right operator level tighter _ takes member _ _ ih ih' =>
      generalize same : Except.error failure = outcome at yields
      cases yields with
      | tooDeep => cases same; trivial
      | left fails =>
          cases same
          exact (ih fails).mono (causes_subset (List.subset_append_left _ _))
      | right _ fails =>
          cases same
          exact (ih' fails).mono (causes_subset (List.subset_append_right _ _))
      | @binary _ _ _ _ value value' first second =>
          cases applied : applyBinary operator value value' <;> rw [applied] at same <;> cases same
          have cause := cause_of_applyBinary takes member applied
          exact mem_causes.mpr (.inl (List.mem_append_left [_, _] cause))
  | grouping _ ih =>
      cases yields with
      | tooDeep => trivial
      | grouping value => exact ih value

end Node

/-- Where nothing that follows can fail, the failure is that of the first computation. -/
theorem Eval.error_of_bind {α β : Type} {m : Eval α} {k : α → Eval β} {s t : Store} {failure : Failure}
    (fails : (m >>= k) s = .error failure t) (ends : ∀ value u, ∃ result v, k value u = .ok result v) :
    m s = .error failure t := by
  rcases Eval.bind_eq_error.mp fails with first | ⟨value, u, -, second⟩
  · exact first
  · obtain ⟨result, v, ended⟩ := ends value u
    rw [ended] at second
    cases second

namespace Node

theorem IsExpression.eval_failure_for {part : Node} (built : part.IsExpression Token.Written)
    {limit : Nat} {s t : Store} {failure : Failure} (fails : part.eval limit s = .error failure t) :
    failure.For (part.causes s.bindings) := by
  obtain ⟨outcome, yields, comes⟩ := eval_yields built s.bindings limit
  have came := comes s rfl
  rw [fails] at came
  obtain ⟨rfl, -⟩ := came
  exact built.failure_for yields

/-- A statement of a text has no failure of its own, whatever the limit and the store. -/
theorem IsStatement.eval_failure_for {statement : Node} (built : statement.IsStatement Token.Written)
    {limit : Nat} {s t : Store} {failure : Failure}
    (fails : statement.eval limit s = .error failure t) :
    failure.For (statement.causes s.bindings) := by
  cases limit with
  | zero =>
      cases fails
      trivial
  | succ limit =>
      cases built with
      | @expression part inner =>
          change (part.eval limit >>= fun _ => pure Value.nil) s = _ at fails
          exact inner.eval_failure_for (Eval.error_of_bind fails fun _ _ => ⟨_, _, rfl⟩)
      | @print part inner =>
          change (part.eval limit >>= fun v => Eval.note (.printed v.text) >>= fun _ => pure Value.nil)
            s = _ at fails
          exact inner.eval_failure_for (Eval.error_of_bind fails fun _ _ => ⟨_, _, rfl⟩)
      | bare => cases fails
      | initialized _ _ inner =>
          rw [eval_declaration limit _ _ inner.ne_missing] at fails
          exact inner.eval_failure_for (Eval.error_of_bind fails fun _ _ => ⟨_, _, rfl⟩)

/-- The error that a statement of a text fails with. -/
theorem IsStatement.cause_of_fails {statement : Node} (built : statement.IsStatement Token.Written)
    {b : Bindings} {error : RuntimeError} (fails : statement.Fails b error) :
    error.cause ∈ statement.causes b := by
  obtain ⟨part, failure, isPart, yields, halts⟩ := fails
  have isFor : failure.For (statement.causes b) := by
    cases built with
    | expression inner => cases isPart; exact inner.failure_for yields
    | print inner => cases isPart; exact inner.failure_for yields
    | bare =>
        cases isPart
        exact absurd yields not_yields_missing
    | initialized _ _ inner => cases isPart; exact inner.failure_for yields
  cases failure with
  | runtime error' => cases halts; exact isFor
  | tooDeep => cases halts; exact mem_causes.mpr (.inl (by simp))
  | meaningless => exact isFor.elim

end Node

/-! ## Runs -/

/-- The words about the causes of a tree. -/
theorem Node.message_of_mem_causes {b : Bindings} {node : Node} {cause : RuntimeCause}
    (member : cause ∈ node.causes b) :
    cause.message ∈ (["Operands must be two numbers or two strings.", "Operands must be numbers.",
      "Operand must be a number.", "Expression nesting too deep."] : List Text) ∨
    ∃ name ∈ node.references, b.get? name = none ∧
      cause.message = "Undefined variable '" ++ name ++ "'." := by
  refine (mem_causes.mp member).imp (fun known => ?_) ?_
  · exact List.mem_map_of_mem (f := RuntimeCause.message) known
  · rintro ⟨name, referred, absent, rfl⟩
    exact ⟨name, referred, absent, rfl⟩

/-- **The program of a text fails in known ways only.**  Under whatever bindings, a statement that a
front end makes of a text fails for nesting too deeply, or at an operand of the wrong type or a
name that it refers to and that is not bound: never at an operator that is not known, and never at
a node without meaning.  So a run always ends with a result.  Its diagnostics are those of the text,
and then nothing was run, or there is none, or the one of the statement that failed. -/
theorem Session.run_fails_in_known_ways (s : Session) (source : String) :
    let reading := s.frontEnd.read source
    let run := s.run source
    (∀ statement ∈ reading.statements, ∀ (limit : Nat) (t u : Store) (failure : Failure),
      statement.eval limit t = .error failure u → failure.For (statement.causes t.bindings)) ∧
    run.result.statements = reading.statements ∧ run.result.brokeOffAt = none ∧
    if Diagnostic.anyStatic reading.diagnostics then
      run.result.diagnostics = reading.diagnostics ∧ run.events = [] ∧ run.session = s
    else run.result.diagnostics = [] ∨
      ∃ statement ∈ reading.statements, ∃ error : RuntimeError,
        statement.Fails run.session.bindings error ∧
        run.result.diagnostics = [.whileRunning error.line error.cause.message] ∧
        (error.cause.message ∈ (["Operands must be two numbers or two strings.",
            "Operands must be numbers.", "Operand must be a number.",
            "Expression nesting too deep."] : List Text) ∨
          ∃ name ∈ statement.references, run.session.bindings.get? name = none ∧
            error.cause.message = "Undefined variable '" ++ name ++ "'.") := by
  intro reading run
  have built : ∀ statement ∈ reading.statements, statement.IsStatement Token.Written :=
    fun statement member => (s.frontEnd.written_of_read source statement member).mono fun _ => And.left
  refine ⟨fun statement member limit t u failure => (built statement member).eval_failure_for, ?_⟩
  by_cases faulty : Diagnostic.anyStatic reading.diagnostics
  · have ran : run = ⟨⟨reading.statements, reading.diagnostics, none⟩, [], s⟩ := if_pos faulty
    rw [if_pos faulty, ran]
    exact ⟨rfl, rfl, rfl, rfl, rfl⟩
  · have ran : run = s.runStatements reading.statements := if_neg faulty
    rw [if_neg faulty, ran]
    obtain ⟨done, rest, lines, whole, -, -, ends⟩ := executeAll_performs built ⟨s.bindings, []⟩
    have result : (s.runStatements reading.statements).result =
        result reading.statements (executeAll reading.statements ⟨s.bindings, []⟩).1 := rfl
    cases rest with
    | nil =>
        rw [result, ends]
        exact ⟨rfl, rfl, .inl rfl⟩
    | cons next rest =>
        obtain ⟨error, fails, halts⟩ := ends
        have member : next ∈ reading.statements := by simp [whole]
        rw [result, halts]
        refine ⟨rfl, rfl, .inr ⟨next, member, error, fails, rfl, ?_⟩⟩
        exact Node.message_of_mem_causes ((built next member).cause_of_fails fails)

end LoxLang
