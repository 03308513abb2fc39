/-
# LoxLang.Proofs.Printing -- the value of a text and the statement that prints it

A text can be evaluated, with a semicolon behind it, or printed by a run, with the word
`print` in front as well.  Both scan the same tokens on the same lines, and behind the word
a print statement has the grammar of an expression statement.  So the run reads a program
without fault exactly if the other reads one that starts with an expression
(`FrontEnd.read_print_iff`), and the statements behind the first are the same.

The text may hold semicolons of its own, and a comment in it may hide the one put behind it,
so it can make several statements or none.  If the expression stands alone, both evaluate it.
A run spends one level of nesting on the statement, so what it comes to within the limit is
what evaluation comes to (`Node.Yields.succ`).
-/
import LoxLang.Proofs.PrintedLiterals
import LoxLang.Proofs.Sessions

namespace LoxLang

set_option autoImplicit false

/-! ## Reading behind the word -/

namespace Segment

/-- The word and the blank behind it are cut off a text. -/
theorem cut_print (cs : List Char) :
    cut ("print ".toList ++ cs) =
      ⟨.token .wordPrint none, "print".toList⟩ :: ⟨.blank, [' ']⟩ :: cut cs := by
  have letters : ∀ d ∈ ['r', 'i', 'n', 't'], Lexeme.isNameChar d := by
    simp [Lexeme.isNameChar, Lexeme.isNameStart]
  have letter : Lexeme.isNameStart 'p' := rfl
  have blank : cut (' ' :: cs) = ⟨.blank, [' ']⟩ :: cut cs :=
    cut_of_first (first_blank (by decide) cs) rfl
  rw [← blank]
  exact cut_word letter letters (by simp; decide)

theorem tokens_print (cs : List Char) :
    tokens 1 (cut ("print ".toList ++ cs)) = ⟨.wordPrint, "print", none, 1⟩ :: tokens 1 (cut cs) := by
  rw [cut_print]
  rfl

theorem faults_print (cs : List Char) :
    faults 1 (cut ("print ".toList ++ cs)) = faults 1 (cut cs) := by
  rw [cut_print]
  rfl

end Segment

namespace Descent

open LoxLang.Derivation

variable {word : Token} {ts : List Token} {value : Node} {rest : List Node}

/-- An expression statement with the word in front is a print statement. -/
theorem read_print (isPrint : word.kind = .wordPrint) (reads : read ts = ⟨.expression value :: rest, []⟩) :
    read (word :: ts) = ⟨.print value :: rest, []⟩ := by
  obtain ⟨p, rfl, bound⟩ := (diagnostics_eq_nil_iff ts).mp (by rw [reads])
  rw [read_yield bound] at reads
  obtain ⟨statements, -⟩ := Reading.mk.inj reads
  obtain ⟨d, q, rfl, first, others⟩ := List.map_eq_cons_iff.mp statements
  cases d with
  | expression tree semicolon =>
      cases first
      subst others
      exact read_yield (p := .print ⟨word, isPrint⟩ tree semicolon :: q) bound
  | bare => cases first
  | initialized => cases first
  | print => cases first

/-- If the tokens behind the word make a print statement and others, they start with an expression. -/
theorem exists_expression (isPrint : word.kind = .wordPrint) (clean : (read (word :: ts)).diagnostics = []) :
    ∃ value rest, read ts = ⟨.expression value :: rest, []⟩ := by
  obtain ⟨p, yields, bound⟩ := (diagnostics_eq_nil_iff _).mp clean
  cases p with
  | nil => cases yields
  | cons d q =>
      cases d with
      | print word' tree semicolon =>
          obtain ⟨-, behind⟩ := List.cons.inj yields
          refine ⟨tree.ast, Program.ast q, ?_⟩
          rw [← behind]
          exact read_yield (p := .expression tree semicolon :: q) bound
      | bare word' =>
          obtain ⟨rfl, -⟩ := List.cons.inj yields
          exact absurd (word'.2.symm.trans isPrint) (by decide)
      | initialized word' =>
          obtain ⟨rfl, -⟩ := List.cons.inj yields
          exact absurd (word'.2.symm.trans isPrint) (by decide)
      | expression tree semicolon =>
          -- no expression starts with the word
          obtain ⟨t, us, head, -, noPrint⟩ := tree.yield_head
          rw [Program.yield_cons, Declaration.yield, head] at yields
          obtain ⟨rfl, -⟩ := List.cons.inj yields
          exact absurd isPrint noPrint

end Descent

namespace FrontEnd

variable {q : String} {value : Node} {rest : List Node}

/-- A text without fault is scanned without fault, and its tokens are read without fault. -/
theorem read_eq_iff {source : String} {statements : List Node} :
    descent.read source = ⟨statements, []⟩ ↔ Segment.faults 1 (Segment.cut source.toList) = [] ∧
      Descent.read (Segment.tokens 1 (Segment.cut source.toList)) = ⟨statements, []⟩ := by
  rw [read_descent]
  generalize Descent.read _ = reading
  obtain ⟨nodes, diagnostics⟩ := reading
  simp only [Reading.mk.injEq, List.append_eq_nil_iff]
  exact and_left_comm

/-- A text that starts with an expression is a program that prints it if the word stands in front. -/
theorem read_print (reads : descent.read q = ⟨.expression value :: rest, []⟩) :
    descent.read ("print " ++ q) = ⟨.print value :: rest, []⟩ := by
  obtain ⟨scanned, parsed⟩ := read_eq_iff.mp reads
  apply read_eq_iff.mpr
  rw [String.toList_append, Segment.faults_print, Segment.tokens_print]
  exact ⟨scanned, Descent.read_print rfl parsed⟩

/-- A text with the word in front is read without fault exactly if the text is and starts with an
expression. -/
theorem read_print_iff (q : String) :
    (descent.read ("print " ++ q)).diagnostics = [] ↔
      ∃ value rest, descent.read q = ⟨.expression value :: rest, []⟩ := by
  constructor
  · intro clean
    rw [read_descent, String.toList_append, Segment.faults_print, Segment.tokens_print] at clean
    obtain ⟨scanned, parsed⟩ := List.append_eq_nil_iff.mp clean
    obtain ⟨value, rest, starts⟩ := Descent.exists_expression rfl parsed
    exact ⟨value, rest, read_eq_iff.mpr ⟨scanned, starts⟩⟩
  · rintro ⟨value, rest, reads⟩
    rw [read_print reads]

end FrontEnd

/-! ## Evaluating and printing -/

/-- What an expression comes to within a limit it comes to within a higher one. -/
theorem Node.Yields.succ {b : Bindings} {limit : Nat} {node : Node} {outcome : Except Failure Value}
    (yields : node.Yields b limit outcome) (shallow : outcome ≠ .error .tooDeep) :
    node.Yields b (limit + 1) outcome := by
  induction yields with
  | tooDeep => exact absurd rfl shallow
  | literal limit value => exact .literal _ value
  | bound found => exact .bound found
  | unbound absent => exact .unbound absent
  | grouping _ ih => exact .grouping (ih shallow)
  | operand _ ih => exact .operand (ih shallow)
  | unary _ ih => exact .unary (ih (by simp))
  | left _ ih => exact .left (ih shallow)
  | right _ _ ih ih' => exact .right (ih (by simp)) (ih' shallow)
  | binary _ _ ih ih' => exact .binary (ih (by simp)) (ih' (by simp))

theorem Node.Steps.of_print {b c : Bindings} {part : Node} {lines : List Text}
    (steps : (Node.print part).Steps b lines c) :
    ∃ v, part.Yields b partLimit (.ok v) ∧ lines = [v.text] ∧ c = b := by
  cases steps with
  | print yields => exact ⟨_, yields, rfl, rfl⟩

namespace Bindings

variable (b : Bindings) {e : String}

/-- A single expression evaluates to what it yields. -/
theorem evaluate_of_read {value : Node} (reads : FrontEnd.descent.read (e ++ ";") = ⟨[.expression value], []⟩)
    {outcome : Except Failure Value} (yields : value.Yields b evalLimit outcome) :
    b.evaluate e = outcome.mapError .ofFailure := by
  have inner : value.IsExpression Token.Written := FrontEnd.isExpression_written (by rw [reads]; simp)
  obtain ⟨outcome', yields', comes⟩ := Node.eval_yields inner b evalLimit
  cases yields.unique yields'
  have ended := comes ⟨b, []⟩ rfl
  simp only [evaluate, evaluateIn, reads]
  cases ran : value.eval evalLimit ⟨b, []⟩ with
  | ok value store =>
      rw [ran] at ended
      rw [ended.1]
      rfl
  | error failure store =>
      rw [ran] at ended
      rw [ended.1]
      rfl

/-- A text that is no single expression is refused. -/
theorem evaluate_of_other (other : ∀ value, FrontEnd.descent.read (e ++ ";") ≠ ⟨[.expression value], []⟩) :
    (∃ ds, b.evaluate e = .error (.faulty ds)) ∨ b.evaluate e = .error (.notExpression e) := by
  unfold evaluate evaluateIn
  generalize FrontEnd.descent.read (e ++ ";") = reading at other
  obtain ⟨statements, diagnostics⟩ := reading
  simp only
  split
  · rename_i value
    exact absurd rfl (other value)
  · exact .inr rfl
  · exact .inl ⟨_, rfl⟩

end Bindings

namespace Session

variable (s : Session)

/-- A run of one print statement prints what its expression yields, or reports why it fails. -/
theorem runStatements_print {value : Node} (inner : value.IsExpression Token.Written) :
    let run := s.runStatements [.print value]
    (∃ v, value.Yields s.bindings Node.partLimit (.ok v) ∧ run.result.diagnostics = [] ∧
      run.output = v.text ++ "\n" ∧ run.session = s) ∨
    ∃ failure error, value.Yields s.bindings Node.partLimit (.error failure) ∧
      failure.halt value.line = .error error ∧ run.result.diagnostics = [error.diagnostic] := by
  intro run
  have did := Node.execute_did (.print inner) ⟨s.bindings, []⟩
  cases ran : (Node.print value).execute ⟨s.bindings, []⟩ with
  | mk halt t =>
      have whole : run = ⟨result [.print value] halt, t.events, { s with bindings := t.bindings }⟩ := by
        simp only [run, runStatements, executeAll, ran]
        cases halt <;> rfl
      rw [ran] at did
      cases did with
      | stepped steps output =>
          obtain ⟨v, yields, rfl, same⟩ := steps.of_print
          refine .inl ⟨v, yields, ?_, ?_, ?_⟩
          · rw [whole]
            rfl
          · rw [whole]
            show Text.lines t.output = _
            rw [output]
            exact List.append_nil _
          · rw [whole, same]
      | failed fails still =>
          obtain ⟨part, failure, isPart, yields, halts⟩ := fails
          cases isPart
          exact .inr ⟨failure, _, yields, halts, by rw [whole]; rfl⟩

theorem statements_runStatements (statements : List Node) :
    (s.runStatements statements).result.statements = statements := by
  unfold runStatements
  simp only [result]
  split <;> rfl

/-- A single expression evaluates to what its print statement prints, or fails as the statement does. -/
theorem evaluate_of_print {e : String} {value : Node}
    (reads : FrontEnd.descent.read (e ++ ";") = ⟨[.expression value], []⟩)
    (shallow : ∀ line,
      .whileRunning line tooDeepMessage ∉ (s.runStatements [.print value]).result.diagnostics) :
    let run := s.runStatements [.print value]
    (∃ v, s.bindings.evaluate e = .ok v ∧ run.result.diagnostics = [] ∧
      run.output = v.text ++ "\n" ∧ run.session = s) ∨
    ∃ error : RuntimeError, s.bindings.evaluate e = .error (.runtime error) ∧
      run.result.diagnostics = [error.diagnostic] := by
  intro run
  have inner : value.IsExpression Token.Written := FrontEnd.isExpression_written (by rw [reads]; simp)
  rcases s.runStatements_print inner with
    ⟨v, yields, quiet, output, kept⟩ | ⟨failure, error, yields, halts, reported⟩
  · have evaluated := s.bindings.evaluate_of_read reads (yields.succ (by simp))
    exact .inl ⟨v, evaluated, quiet, output, kept⟩
  · cases failure with
    | runtime error' =>
        cases halts
        have evaluated := s.bindings.evaluate_of_read reads (yields.succ (by simp))
        exact .inr ⟨error, evaluated, reported⟩
    | tooDeep =>
        cases halts
        refine absurd ?_ (shallow value.line)
        rw [reported]
        exact List.mem_singleton_self _
    | meaningless kindName => cases halts

/-- A text that evaluates is printed, an error of its evaluation is reported, and a text that is refused is
no program of one print statement without fault. -/
theorem evaluate_cases (descent : s.frontEnd = .descent) (e : String)
    (shallow : ∀ line,
      .whileRunning line tooDeepMessage ∉ (s.run ("print " ++ e ++ ";")).result.diagnostics) :
    let run := s.run ("print " ++ e ++ ";")
    let value := s.bindings.evaluate e
    (∃ v, value = .ok v ∧ run.result.statements.length = 1 ∧ run.result.diagnostics = [] ∧
      run.output = v.text ++ "\n" ∧ run.session = s) ∨
    (∃ error : RuntimeError, value = .error (.runtime error) ∧ run.result.statements.length = 1 ∧
      run.result.diagnostics = [error.diagnostic]) ∨
    ((∃ ds, value = .error (.faulty ds)) ∨ value = .error (.notExpression e)) ∧
      (run.result.statements.length = 1 → ∃ d ∈ run.result.diagnostics, d.runtime = false) := by
  intro run value
  have source : "print " ++ e ++ ";" = "print " ++ (e ++ ";") := String.append_assoc
  by_cases clean : (FrontEnd.descent.read ("print " ++ (e ++ ";"))).diagnostics = []
  · obtain ⟨part, rest, reads⟩ := (FrontEnd.read_print_iff _).mp clean
    have printed : s.frontEnd.read ("print " ++ e ++ ";") = ⟨.print part :: rest, []⟩ := by
      rw [descent, source, FrontEnd.read_print reads]
    have ran : run = s.runStatements (.print part :: rest) := by
      rw [show run = _ from s.run_of_clean (by rw [printed]), printed]
    have statements : run.result.statements = .print part :: rest := by
      rw [ran, s.statements_runStatements]
    cases rest with
    | nil =>
        have single : run.result.statements.length = 1 := congrArg List.length statements
        rw [show s.run _ = run from rfl, ran] at shallow
        rcases s.evaluate_of_print reads shallow with ⟨v, evaluated, printed⟩ | ⟨error, evaluated, reported⟩
        · rw [← ran] at printed
          exact .inl ⟨v, evaluated, single, printed⟩
        · rw [← ran] at reported
          exact .inr (.inl ⟨error, evaluated, single, reported⟩)
    | cons next rest =>
        -- the expression does not stand alone
        refine .inr (.inr ⟨s.bindings.evaluate_of_other fun other => ?_, fun single => ?_⟩)
        · simp [reads]
        · simp [statements] at single
  · have faulty : (s.frontEnd.read ("print " ++ e ++ ";")).diagnostics ≠ [] := by
      rw [descent, source]
      exact clean
    have ran : run.result.diagnostics = (s.frontEnd.read ("print " ++ e ++ ";")).diagnostics := by
      rw [show run = _ from s.run_of_faulty faulty]
    -- a run that reports faults of its text has not started
    refine .inr (.inr ⟨s.bindings.evaluate_of_other fun other reads => ?_, fun _ => ?_⟩)
    · exact clean ((FrontEnd.read_print_iff _).mpr ⟨other, [], reads⟩)
    · rw [ran]
      obtain ⟨d, member⟩ := List.exists_mem_of_ne_nil _ faulty
      exact ⟨d, member, s.frontEnd.static_of_read _ d member⟩

/-- **The value of a text is what printing it prints.**  Let the run of the text between `print` and a
semicolon not nest too deeply.  The text has a value exactly if the run reads one statement and
reports nothing, and then the run prints that value on a line and leaves the bindings as they were.
Evaluating the text fails with an error exactly if the run reads one statement and reports that error
alone.  In every other case, and only then, the text is refused, for its faults or because it is no
single expression. -/
theorem evaluation_agrees_with_printing (descent : s.frontEnd = .descent) (e : String)
    (shallow : ∀ line,
      .whileRunning line tooDeepMessage ∉ (s.run ("print " ++ e ++ ";")).result.diagnostics) :
    let run := s.run ("print " ++ e ++ ";")
    let value := s.bindings.evaluate e
    let single := run.result.statements.length = 1
    ((∃ v, value = .ok v) ↔ single ∧ run.result.diagnostics = []) ∧
    (∀ v, value = .ok v → run.output = v.text ++ "\n" ∧ run.session = s) ∧
    (∀ line message, (∃ cause, value = .error (.runtime ⟨line, cause⟩) ∧ cause.message = message) ↔
      single ∧ run.result.diagnostics = [.whileRunning line message]) ∧
    ((∃ ds, value = .error (.faulty ds)) ∨ value = .error (.notExpression e) ↔
      ¬ (single ∧ run.result.diagnostics = []) ∧
      ∀ line message, ¬ (single ∧ run.result.diagnostics = [.whileRunning line message])) := by
  intro run value single
  rcases s.evaluate_cases descent e shallow with
    ⟨v, evaluated, one, quiet, output, kept⟩ | ⟨error, evaluated, one, reported⟩ | ⟨refused, faulty⟩
  · refine ⟨⟨fun _ => ⟨one, quiet⟩, fun _ => ⟨v, evaluated⟩⟩, ?_, ?_, ?_⟩
    · intro w same
      cases evaluated.symm.trans same
      exact ⟨output, kept⟩
    · intro line message
      simp [value, run, evaluated, quiet]
    · simp [value, run, single, evaluated, one, quiet]
  · refine ⟨?_, ?_, ?_, ?_⟩
    · simp [value, run, evaluated, reported]
    · simp [value, evaluated]
    · intro line message
      constructor
      · rintro ⟨cause, same, rfl⟩
        cases evaluated.symm.trans same
        exact ⟨one, reported⟩
      · rintro ⟨-, same⟩
        cases reported.symm.trans same
        exact ⟨error.cause, evaluated, rfl⟩
    · refine iff_of_false (by simp [value, evaluated]) ?_
      rintro ⟨-, none⟩
      exact none error.line error.cause.message ⟨one, reported⟩
  · have noisy : ¬ (single ∧ run.result.diagnostics = []) := by
      rintro ⟨one, quiet⟩
      obtain ⟨d, member, -⟩ := faulty one
      rw [show (s.run _).result.diagnostics = [] from quiet] at member
      cases member
    have static : ∀ line message, ¬ (single ∧ run.result.diagnostics = [.whileRunning line message]) := by
      rintro line message ⟨one, reported⟩
      obtain ⟨d, member, static⟩ := faulty one
      rw [show (s.run _).result.diagnostics = [_] from reported] at member
      cases List.mem_singleton.mp member
      cases static
    have value_ne : (∀ v, value ≠ .ok v) ∧ ∀ error, value ≠ .error (.runtime error) := by
      rcases refused with ⟨ds, same⟩ | same <;> simp [value, same]
    refine ⟨iff_of_false ?_ noisy, ?_, fun line message => iff_of_false ?_ (static line message), ?_⟩
    · rintro ⟨v, same⟩
      exact value_ne.1 v same
    · intro v same
      exact absurd same (value_ne.1 v)
    · rintro ⟨cause, same, -⟩
      exact value_ne.2 _ same
    · exact iff_of_true refused ⟨noisy, static⟩

/-- The text closes its own statement, and the semicolon behind it ends up in a comment.  The negation on
its second line fails, which evaluation and the run report alike. -/
theorem evaluation_agrees_with_printing_behind_comment :
    let s := Session.initial .descent 0
    let e := "1 +\n-nil; //"
    let run := s.run ("print " ++ e ++ ";")
    s.frontEnd = .descent ∧ (∀ line, .whileRunning line tooDeepMessage ∉ run.result.diagnostics) ∧
      run.result.statements.length = 1 ∧
      run.result.diagnostics = [.whileRunning 2 "Operand must be a number."] ∧
      ∃ cause, s.bindings.evaluate e = .error (.runtime ⟨2, cause⟩) ∧
        cause.message = ("Operand must be a number." : Text) := by
  intro s e run
  have one : run.result.statements.length = 1 := by decide +kernel
  have reported : run.result.diagnostics = [.whileRunning 2 "Operand must be a number."] := by
    decide +kernel
  have shallow : ∀ line, .whileRunning line tooDeepMessage ∉ run.result.diagnostics := by
    intro line member
    rw [reported] at member
    have same : (tooDeepMessage : Text) = "Operand must be a number." :=
      congrArg Diagnostic.message (List.mem_singleton.mp member)
    exact absurd same (by decide +kernel)
  obtain ⟨-, -, fails, -⟩ := s.evaluation_agrees_with_printing rfl e shallow
  exact ⟨rfl, shallow, one, reported, (fails 2 "Operand must be a number.").mpr ⟨one, reported⟩⟩

end Session

end LoxLang
