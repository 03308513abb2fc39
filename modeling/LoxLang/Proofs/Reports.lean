/-
# LoxLang.Proofs.Reports -- a run reports in order and on lines of its text

The diagnostics of a run come from three places.  Scanning reports segments, each on the
line on which it starts.  Reading reports tokens that it cannot take, and the end of the
text on the line of the last token; each fault is met further on than the one before
(`Descent.faults_descend`), and the lines of tokens never decrease.  A running program
reports one error at most, on the line of an operator or of a name, or on the line that
the failing statement carries, which a statement that fails always does.

So every diagnostic is on a line of the text, and faults of one kind come in the order of
their lines.  The reporter writes each diagnostic as it is told of it.
-/
import LoxLang.Proofs.Lines
import LoxLang.Proofs.Passes
import LoxLang.Proofs.Sessions

namespace LoxLang

set_option autoImplicit false

/-- A line of a text; the first is 1, and every newline starts another. -/
def LineOf (source : String) (line : Int) : Prop := 1 ≤ line ∧ line ≤ 1 + source.toList.count '\n'

/-! ## Scanning -/

namespace Segment

theorem line_of_fault? {s : Segment} {line : Nat} {d : Diagnostic} (fault : s.fault? line = some d) :
    d.line = line := by
  unfold fault? at fault
  split at fault <;> cases fault <;> rfl

/-- Faults are on lines that the segments cover. -/
theorem faults_bounds (line : Nat) (segments : List Segment) :
    ∀ d ∈ faults line segments,
      (line : Int) ≤ d.line ∧ d.line ≤ line + (segments.flatMap text).count '\n' := by
  induction segments generalizing line with
  | nil => simp [faults]
  | cons s rest ih =>
      intro d member
      rw [List.flatMap_cons, List.count_append]
      rcases List.mem_append.mp member with first | later
      · have here := line_of_fault? (Option.mem_toList.mp first)
        omega
      · have bounds := ih (line + s.newlines) d later
        unfold newlines at bounds
        push_cast at bounds ⊢
        omega

theorem faults_sorted (line : Nat) (segments : List Segment) :
    (faults line segments).Pairwise fun d e => d.line ≤ e.line := by
  induction segments generalizing line with
  | nil => exact .nil
  | cons s rest ih =>
      refine List.pairwise_append.mpr ⟨?_, ih (line + s.newlines), ?_⟩
      · cases s.fault? line <;> simp
      · intro d first e later
        have here := line_of_fault? (Option.mem_toList.mp first)
        have behind := (faults_bounds (line + s.newlines) rest e later).1
        push_cast at behind
        omega

theorem tokens_sorted (line : Nat) {segments : List Segment} (cuts : Cuts segments) :
    (tokens line segments).Pairwise fun t u => t.line ≤ u.line := by
  induction segments generalizing line with
  | nil => exact .nil
  | cons s rest ih =>
      have further := (cuts_cons.mp cuts).2
      refine List.pairwise_append.mpr ⟨?_, ih (line + s.newlines) further, ?_⟩
      · cases s.token? (line + s.newlines) <;> simp
      · intro t first u later
        have behind := (tokens_written (line + s.newlines) further u later).2.1
        have here : t.line = ((line + s.newlines : Nat) : Int) := by
          have token := Option.mem_toList.mp first
          unfold token? at token
          split at token <;> cases token
          rfl
        rw [here]
        exact behind

end Segment

/-! ## Reading -/

namespace Descent

/-- The line of the first of some tokens, or `last` if there is none. -/
def lineAt (last : Int) (ts : List Token) : Int := (ts.head?.map Token.line).getD last

theorem line_diagnostic (last : Int) (fault : Fault) :
    (fault.diagnostic last).line = lineAt last fault.rest := by
  obtain ⟨cause, rest⟩ := fault
  cases rest <;> cases cause <;> rfl

/-- A fault that is collected belongs to a pass. -/
theorem mem_passes_of_mem_faults {limit : Nat} {ts : List Token} {fault : Fault}
    (member : fault ∈ (passes limit ts).filterMap faultOf?) : .error fault ∈ passes limit ts := by
  obtain ⟨outcome, inside, found⟩ := List.mem_filterMap.mp member
  cases outcome with
  | ok node => cases found
  | error fault' =>
      cases found
      exact inside

/-- Each fault is met further on than the one before. -/
theorem faults_descend (limit : Nat) (ts : List Token) :
    ((passes limit ts).filterMap faultOf?).Pairwise fun fault later => later.rest <:+ fault.rest := by
  fun_induction passes limit ts with
  | case1 => exact .nil
  | case2 t ts node rest read ih => exact ih
  | case3 t ts fault failed ih =>
      refine List.pairwise_cons.mpr ⟨?_, ih⟩
      intro later member
      exact (rest_suffix (mem_passes_of_mem_faults member)).trans (recover_suffix _)

section Lines

variable {ts : List Token} (sorted : ts.Pairwise fun t u => t.line ≤ u.line)

include sorted

theorem line_le_lastLine {t : Token} (member : t ∈ ts) : t.line ≤ lastLine ts := by
  rcases List.eq_nil_or_concat ts with rfl | ⟨init, last, rfl⟩
  · cases member
  · have ends : lastLine (init.concat last) = last.line := by simp [lastLine]
    rw [List.concat_eq_append] at sorted member
    rw [ends]
    rcases List.mem_append.mp member with inside | same
    · exact (List.pairwise_append.mp sorted).2.2 t inside last List.mem_cons_self
    · rw [List.mem_singleton.mp same]

/-- Tokens that are left later start on no earlier line. -/
theorem lineAt_mono {us vs : List Token} (suffix : us <:+ ts) (suffix' : vs <:+ us) :
    lineAt (lastLine ts) us ≤ lineAt (lastLine ts) vs := by
  cases us with
  | nil => rw [List.suffix_nil.mp suffix']
  | cons t us =>
      cases vs with
      | nil =>
          -- the end of the text takes the line of the last token
          exact line_le_lastLine sorted (suffix.mem List.mem_cons_self)
      | cons u vs =>
          show t.line ≤ u.line
          rcases List.mem_cons.mp (suffix'.mem List.mem_cons_self) with rfl | later
          · exact le_refl _
          · have inside := sorted.sublist suffix.sublist
            exact (List.pairwise_cons.mp inside).1 u later

theorem read_sorted : (read ts).diagnostics.Pairwise fun d e => d.line ≤ e.line := by
  refine List.pairwise_map.mpr ((faults_descend ruleLimit ts).imp_of_mem ?_)
  intro fault later member _ behind
  rw [line_diagnostic, line_diagnostic]
  exact lineAt_mono sorted (rest_suffix (mem_passes_of_mem_faults member)) behind

end Lines

/-- Faults are reported on lines of tokens. -/
theorem read_lines {Q : Int → Prop} {ts : List Token} (holds : ∀ t ∈ ts, Q t.line) :
    ∀ d ∈ (read ts).diagnostics, Q d.line := by
  intro d member
  obtain ⟨fault, faulty, rfl⟩ := List.mem_map.mp member
  have inside := mem_passes_of_mem_faults faulty
  have suffix := rest_suffix inside
  rw [line_diagnostic]
  cases rest : fault.rest with
  | cons t rest =>
      rw [rest] at suffix
      exact holds t (suffix.mem List.mem_cons_self)
  | nil =>
      -- there are tokens, or else there were no fault
      have nonempty : ts ≠ [] := by
        rintro rfl
        simp at inside
      show Q (lastLine ts)
      rw [lastLine, List.getLast?_eq_some_getLast nonempty]
      exact holds _ (List.getLast_mem nonempty)

end Descent

/-! ## Running -/

theorem line_of_applyUnary {operator : Token} {operand : Value} {error : RuntimeError}
    (applied : applyUnary operator operand = .error error) : error.line = operator.line := by
  unfold applyUnary at applied
  split at applied <;> cases applied <;> rfl

theorem line_of_applyBinary {operator : Token} {left right : Value} {error : RuntimeError}
    (applied : applyBinary operator left right = .error error) : error.line = operator.line := by
  unfold applyBinary at applied
  split at applied
  · cases applied
  · cases applied
  · split at applied <;> cases applied
    rfl
  · split at applied <;> cases applied <;> rfl

namespace Node

variable {Q : Int → Prop} {node : Node}

/-- An error of an expression is on the line of an operator or of a name. -/
theorem IsExpression.line_of_yields {b : Bindings} {limit : Nat} {error : RuntimeError}
    (built : node.IsExpression fun t => t.Written ∧ Q t.line)
    (yields : node.Yields b limit (.error (.runtime error))) : Q error.line := by
  induction built generalizing limit with
  | @atom t _ holds stands =>
      rcases holds.1.atom stands with ⟨value, rfl, -⟩ | ⟨-, rfl⟩
      · cases yields
      · cases yields with
        | unbound => exact holds.2
  | @unary operator operand holds _ _ ih =>
      generalize same : Except.error (Failure.runtime error) = outcome at yields
      cases yields with
      | tooDeep => cases same
      | operand fails =>
          cases same
          exact ih fails
      | @unary _ _ _ value =>
          cases applied : applyUnary operator value <;> rw [applied] at same <;> cases same
          rw [line_of_applyUnary applied]
          exact holds.2
  | @binary left right operator _ _ holds _ _ _ _ ih ih' =>
      generalize same : Except.error (Failure.runtime error) = outcome at yields
      cases yields with
      | tooDeep => cases same
      | left fails =>
          cases same
          exact ih fails
      | right _ fails =>
          cases same
          exact ih' fails
      | @binary _ _ _ _ value value' =>
          cases applied : applyBinary operator value value' <;> rw [applied] at same <;> cases same
          rw [line_of_applyBinary applied]
          exact holds.2
  | grouping _ ih =>
      cases yields with
      | grouping value => exact ih value

/-- The line that an expression carries is that of an operator or of a name. -/
theorem IsExpression.line_of_lined (built : node.IsExpression fun t => t.Written ∧ Q t.line)
    (lined : node.lined) : Q node.line := by
  induction built with
  | @atom t _ holds stands =>
      rcases holds.1.atom stands with ⟨value, rfl, -⟩ | ⟨-, rfl⟩
      · cases lined
      · exact holds.2
  | unary holds => exact holds.2
  | binary holds => exact holds.2
  | grouping _ ih => exact ih lined

theorem IsStatement.line_of_lined (built : node.IsStatement fun t => t.Written ∧ Q t.line)
    (lined : node.lined) : Q node.line := by
  cases built with
  | expression inner => exact inner.line_of_lined lined
  | print inner => exact inner.line_of_lined lined
  | bare holds => exact holds.2
  | initialized holds => exact holds.2

end Node

/-- A statement of a text fails on a line of the text. -/
theorem FrontEnd.line_of_fails {source : String} {statement : Node}
    (member : statement ∈ (descent.read source).statements) {b : Bindings} {error : RuntimeError}
    (fails : statement.Fails b error) : LineOf source error.line := by
  have built : statement.IsStatement fun t => t.Written ∧ LineOf source t.line :=
    descent.written_of_read source statement member
  have lined := lined_of_fails member fails
  obtain ⟨part, failure, isPart, yields, halts⟩ := fails
  cases failure with
  | meaningless kindName => cases halts
  | tooDeep =>
      cases halts
      exact built.line_of_lined lined
  | runtime error =>
      cases halts
      cases built with
      | expression inner =>
          cases isPart
          exact inner.line_of_yields yields
      | print inner =>
          cases isPart
          exact inner.line_of_yields yields
      | bare =>
          cases isPart
          exact absurd yields Node.not_yields_missing
      | initialized _ _ inner =>
          cases isPart
          exact inner.line_of_yields yields

/-- Running a text without fault reports nothing, or one error on a line of the text. -/
theorem Session.runStatements_reports (s : Session) (source : String) :
    let ran := s.runStatements (FrontEnd.descent.read source).statements
    ran.result.diagnostics = [] ∨
      ∃ d, ran.result.diagnostics = [d] ∧ d.runtime = true ∧ LineOf source d.line := by
  intro ran
  have built := FrontEnd.descent.isStatement_written source
  have result : ran.result = Session.result (FrontEnd.descent.read source).statements
      (executeAll (FrontEnd.descent.read source).statements ⟨s.bindings, []⟩).1 := rfl
  rcases executeAll_halts built ⟨s.bindings, []⟩ with ended | ⟨statement, member, error, fails, halts⟩
  · left
    rw [result, ended]
    rfl
  · right
    rw [result, halts]
    exact ⟨error.diagnostic, rfl, rfl, FrontEnd.line_of_fails member fails⟩

/-- A run reports the faults of the text, or there are none, and it reports an error. -/
theorem Session.run_reports (s : Session) (source : String) (descent : s.frontEnd = .descent) :
    let faults := (FrontEnd.descent.read source).diagnostics
    let diagnostics := (s.run source).result.diagnostics
    diagnostics = faults ∨
      faults = [] ∧ ∃ d, diagnostics = [d] ∧ d.runtime = true ∧ LineOf source d.line := by
  intro faults diagnostics
  by_cases clean : faults = []
  · have ran : s.run source = s.runStatements (FrontEnd.descent.read source).statements := by
      rw [s.run_of_clean (by rw [descent]; exact clean), descent]
    show (s.run source).result.diagnostics = faults ∨ _ ∧ ∃ d, (s.run source).result.diagnostics = _ ∧ _
    rw [ran, clean]
    rcases s.runStatements_reports source with quiet | fails
    · exact .inl quiet
    · exact .inr ⟨rfl, fails⟩
  · left
    show (s.run source).result.diagnostics = faults
    rw [s.run_of_faulty (by rw [descent]; exact clean), descent]

/-! ## Reports -/

theorem Event.messages_zero (events : List Event) : messages 0 events = [] := by
  apply List.filterMap_eq_nil_iff.mpr
  intro event _
  cases event <;> rfl

/-- The faults of a text, those of its characters and then those of its tokens, are in the order of their
lines and on lines of the text. -/
theorem FrontEnd.faults_in_order (source : String) :
    let lexical := (scan source).diagnostics
    let syntactic := (Descent.read (Descent.body (scan source).tokens)).diagnostics
    lexical.Pairwise (fun d e => d.line ≤ e.line) ∧ syntactic.Pairwise (fun d e => d.line ≤ e.line) ∧
      ∀ d ∈ lexical ++ syntactic, LineOf source d.line := by
  intro lexical syntactic
  have tokens : Descent.body (scan source).tokens = descent.tokens source :=
    Descent.body_append (kind_scanned_ne_ending 1 source.toList) rfl
  have sorted : (descent.tokens source).Pairwise fun t u => t.line ≤ u.line :=
    Segment.tokens_sorted 1 (Segment.cuts_cut source.toList)
  refine ⟨Segment.faults_sorted 1 _, ?_, ?_⟩
  · show (Descent.read (Descent.body (scan source).tokens)).diagnostics.Pairwise _
    rw [tokens]
    exact Descent.read_sorted sorted
  · intro d member
    rcases List.mem_append.mp member with first | second
    · have bounds := Segment.faults_bounds 1 (Segment.cut source.toList) d first
      rw [Segment.flatMap_text_cut] at bounds
      exact bounds
    · change d ∈ (Descent.read (Descent.body (scan source).tokens)).diagnostics at second
      rw [tokens] at second
      exact Descent.read_lines (fun t inside => (descent.tokens_written source t inside).2) d second

/-- **A run reports in order and on lines of its text.**  Whatever was reported before, the diagnostics are
the faults of the characters of the text and then those of its tokens; or there are no such faults,
and the diagnostic is one error of the running program.  Each is on a line of the text, and faults
of one kind come in the order of their lines.  What is written to the error stream is the
diagnostics, each as a line of its own, and no debug message is among them unless the log is closed. -/
theorem Runner.run_reports_in_order (r : Runner) (source : String)
    (descent : r.session.frontEnd = .descent) :
    let reported := r.run source
    let diagnostics := reported.run.result.diagnostics
    let lexical := (scan source).diagnostics
    let syntactic := (Descent.read (Descent.body (scan source).tokens)).diagnostics
    ((diagnostics = lexical ++ syntactic ∧ ∀ d ∈ diagnostics, d.runtime = false) ∨
      lexical = [] ∧ syntactic = [] ∧ ∃ d, diagnostics = [d] ∧ d.runtime = true) ∧
    (∀ d ∈ diagnostics, 1 ≤ d.line ∧ d.line ≤ 1 + source.toList.count '\n') ∧
    lexical.Pairwise (fun d e => d.line ≤ e.line) ∧ syntactic.Pairwise (fun d e => d.line ≤ e.line) ∧
    reported.written = Text.lines (diagnostics.map Diagnostic.format) ∧
    (r.session.logOpen ∨ r.session.verbosity = 0 → reported.errors = reported.written) := by
  intro reported diagnostics lexical syntactic
  have ran : reported = (r.session.run source).reported := r.run_eq source
  have same : (r.session.run source).result.diagnostics = diagnostics := by
    show _ = reported.run.result.diagnostics
    rw [ran]
    rfl
  have faults : (FrontEnd.descent.read source).diagnostics = lexical ++ syntactic := rfl
  obtain ⟨first, second, lines⟩ := FrontEnd.faults_in_order source
  have reports := r.session.run_reports source descent
  simp only [same, faults, List.append_eq_nil_iff] at reports
  refine ⟨?_, ?_, first, second, ?_, ?_⟩
  · rcases reports with faulty | ⟨⟨noLexical, noSyntactic⟩, d, one, running, -⟩
    · left
      refine ⟨faulty, fun d member => ?_⟩
      rw [faulty] at member
      exact FrontEnd.descent.static_of_read source d member
    · exact .inr ⟨noLexical, noSyntactic, d, one, running⟩
  · intro d member
    rcases reports with faulty | ⟨-, error, one, -, line⟩
    · rw [faulty] at member
      exact lines d member
    · rw [one] at member
      rw [List.mem_singleton.mp member]
      exact line
  · rw [← same, ran]
    rfl
  · intro quiet
    have kept := (r.session.run_continues source).configuration
    have logOpen : (r.session.run source).session.logOpen = r.session.logOpen := by rw [kept]
    have verbosity : (r.session.run source).session.verbosity = r.session.verbosity := by rw [kept]
    rw [ran]
    rcases quiet with isOpen | silent
    · simp [ReportedRun.errors, Run.reported, logOpen, isOpen]
    · simp [ReportedRun.errors, Run.reported, Run.messages, verbosity, silent, Event.messages_zero,
        Text.lines]

/-- After an error was reported: a text with a fault of each kind, on lines 1 and 3, and a text whose second
statement fails. -/
theorem Runner.run_reports_in_order_of_two_texts :
    let r : Runner := ⟨.initial .descent 0, ⟨[.whileRunning 7 "Operand must be a number."]⟩⟩
    let faulty := "print 1 ?;\n\nprint ;"
    let failing := "print \"a\";\nprint -(\"b\");"
    r.session.frontEnd = .descent ∧
      (r.run faulty).run.result.diagnostics =
        [.atLine 1 "Unexpected character.",
         .atToken ⟨.semicolon, ";", none, 3⟩ "Expect expression." none] ∧
      (r.run failing).run.result.diagnostics = [.whileRunning 2 "Operand must be a number."] ∧
      (r.run faulty).written = Text.lines ((r.run faulty).run.result.diagnostics.map Diagnostic.format) ∧
      (r.run failing).errors = (r.run failing).written := by
  intro r faulty failing
  obtain ⟨-, -, -, -, written, -⟩ := r.run_reports_in_order faulty rfl
  obtain ⟨-, -, -, -, -, errors⟩ := r.run_reports_in_order failing rfl
  exact ⟨rfl, by decide +kernel, by decide +kernel, written, errors (.inl rfl)⟩

end LoxLang
