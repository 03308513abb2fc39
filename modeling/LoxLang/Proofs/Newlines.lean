/-
# LoxLang.Proofs.Newlines -- a program in two parts

A newline ends every lexeme but a string.  So a text whose strings are closed can be scanned
apart from what stands below it, which is scanned as if it stood alone, on later lines
(`scan_splits_at_newline`).  If the upper text is read without fault, it ends with a whole
statement, and then the statements below it are read as if they stood alone too
(`FrontEnd.read_newline`).

Running the statements of both texts is running those of the first and then, from the
bindings and behind the events that are there by now, those of the second.  The line of a
statement does not matter to a run, except that errors name it.
-/
import LoxLang.Proofs.Layout
import LoxLang.Proofs.Recovery
import LoxLang.Proofs.Sessions

namespace LoxLang

set_option autoImplicit false

/-! ## Scanning -/

namespace Lexeme

theorem takeWhile_newline {p : Char → Bool} (stops : p '\n' = false) (cs rest : List Char) :
    (cs ++ '\n' :: rest).takeWhile p = cs.takeWhile p := by
  induction cs with
  | nil => simp [stops]
  | cons c cs ih => simp [List.takeWhile_cons, ih]

theorem dropWhile_newline {p : Char → Bool} (stops : p '\n' = false) (cs rest : List Char) :
    (cs ++ '\n' :: rest).dropWhile p = cs.dropWhile p ++ '\n' :: rest := by
  induction cs with
  | nil => simp [stops]
  | cons c cs ih =>
      cases taken : p c
      · simp [taken]
      · simp [taken, ih]

theorem fraction_newline (cs rest : List Char) : fraction (cs ++ '\n' :: rest) = fraction cs := by
  unfold fraction
  rw [dropWhile_newline (by decide)]
  cases cs.dropWhile isDigit with
  | nil => rfl
  | cons d ds =>
      by_cases point : d = '.'
      · subst point
        exact takeWhile_newline (by decide) ds rest
      · simp [point]

end Lexeme

namespace Segment

open Lexeme

/-- A segment that is closed does not depend on what stands below its line. -/
theorem first_newline {c : Char} {cs : List Char} (closed : (first c cs).kind ≠ .unterminated)
    (rest : List Char) : first c (cs ++ '\n' :: rest) = first c cs := by
  have next (d : Char) (other : '\n' ≠ d) :
      (cs ++ '\n' :: rest).head? = some d ↔ cs.head? = some d := by
    cases cs <;> simp [other]
  -- only a string may go on below its line
  by_cases quote : c = '"'
  · subst quote
    rw [first_quote] at closed
    rw [first_quote, first_quote]
    by_cases closes : '"' ∈ cs
    · obtain ⟨body, behind, rfl, inside⟩ := List.eq_append_cons_of_mem closes
      rw [List.append_assoc, List.cons_append, string_of_closing inside, string_of_closing inside]
    · rw [string_of_open closes] at closed
      exact absurd rfl closed
  · unfold first
    simp only [quote, if_false, next '=' (by decide), next '/' (by decide), number, fraction_newline,
      takeWhile_newline (p := (· != '\n')) (by decide), takeWhile_newline (p := isDigit) (by decide),
      takeWhile_newline (p := isNameChar) (by decide)]

/-- A text in which every string is closed. -/
def Closed (cs : List Char) : Prop := ∀ s ∈ cut cs, s.kind ≠ .unterminated

/-- Behind a text in which every string is closed, a newline is a blank, and what follows it is cut as if
it stood alone. -/
theorem cut_newline {cs : List Char} (closed : Closed cs) (rest : List Char) :
    cut (cs ++ '\n' :: rest) = cut cs ++ ⟨.blank, ['\n']⟩ :: cut rest := by
  unfold Closed at closed
  fun_induction cut cs with
  | case1 =>
      rw [List.nil_append, cut, first_blank (by decide)]
      rfl
  | case2 c cs segment ih =>
      rw [List.forall_mem_cons] at closed
      have ahead : segment.text <+: c :: cs := text_first_prefix c cs
      rw [List.cons_append, cut, first_newline closed.1, ← List.cons_append,
        List.drop_append_of_le_length ahead.length_le, ih closed.2]
      rfl

/-- A string that is not closed is a fault that says so. -/
theorem closed_of_faults (line : Nat) {segments : List Segment}
    (other : ∀ d ∈ faults line segments, d.message ≠ ("Unterminated string." : Text)) :
    ∀ s ∈ segments, s.kind ≠ .unterminated := by
  induction segments generalizing line with
  | nil => simp
  | cons s rest ih =>
      obtain ⟨here, later⟩ := List.forall_mem_append.mp other
      refine List.forall_mem_cons.mpr ⟨fun unterminated => ?_, ih _ later⟩
      exact here (.atLine line "Unterminated string.") (by simp [fault?, unterminated]) rfl

/-! ### Lines -/

/-- The line of a text that line `n` of another becomes if the other stands below `cs`. -/
def below (cs : List Char) (n : Int) : Int := n + (1 + cs.count '\n')

theorem placed_append (before : List Char) (segments others : List Segment) :
    placed before (segments ++ others) =
      placed before segments ++ placed (before ++ segments.flatMap text) others := by
  induction segments generalizing before with
  | nil => simp [placed]
  | cons s rest ih => simp [placed, ih]

/-- A place with more text in front. -/
def Placed.behind (front : List Char) (p : Placed) : Placed := ⟨front ++ p.before, p.segment⟩

theorem placed_behind (front before : List Char) (segments : List Segment) :
    placed (front ++ before) segments = (placed before segments).map (.behind front) := by
  induction segments generalizing before with
  | nil => rfl
  | cons s rest ih => simp [placed, Placed.behind, ← ih]

/-- Whatever is read off the places of a text in two parts, where the newline between them gives nothing. -/
theorem filterMap_newline {α : Type} {cs : List Char} (closed : Closed cs) (rest : List Char)
    {read : Placed → Option α} {move : α → α} (silent : read ⟨cs, ⟨.blank, ['\n']⟩⟩ = none)
    (moves : ∀ p, read (p.behind (cs ++ ['\n'])) = (read p).map move) :
    (placed [] (cut (cs ++ '\n' :: rest))).filterMap read =
      (placed [] (cut cs)).filterMap read ++ ((placed [] (cut rest)).filterMap read).map move := by
  have places : placed [] (cut (cs ++ '\n' :: rest)) = placed [] (cut cs) ++
      ⟨cs, ⟨.blank, ['\n']⟩⟩ :: (placed [] (cut rest)).map (.behind (cs ++ ['\n'])) := by
    rw [cut_newline closed, placed_append, flatMap_text_cut, ← placed_behind]
    simp [placed]
  have moved : read ∘ Placed.behind (cs ++ ['\n']) = fun p => (read p).map move := funext moves
  rw [places, List.filterMap_append, List.filterMap_cons_none silent, List.filterMap_map, moved,
    List.map_filterMap]

theorem line_below (cs before : List Char) :
    ((1 + (cs ++ ['\n'] ++ before).count '\n' : Nat) : Int) =
      below cs ((1 + before.count '\n' : Nat) : Int) := by
  simp only [below, List.count_append, List.count_singleton_self]
  push_cast
  omega

/-- The tokens of two texts, the second below the first. -/
theorem tokens_newline {cs : List Char} (closed : Closed cs) (rest : List Char) :
    tokens 1 (cut (cs ++ '\n' :: rest)) =
      tokens 1 (cut cs) ++ (tokens 1 (cut rest)).map (Token.mapLine (below cs)) := by
  have placed (cs : List Char) := tokens_eq_placed [] (cut cs)
  simp only [List.count_nil, Nat.add_zero] at placed
  rw [placed, placed, placed]
  refine filterMap_newline closed rest rfl fun p => ?_
  simp only [Placed.behind, List.append_assoc _ p.before, token?]
  split
  · simp only [line_below, Option.map_some, Token.mapLine]
  · rfl

/-- The faults of two texts, the second below the first. -/
theorem faults_newline {cs : List Char} (closed : Closed cs) (rest : List Char) :
    faults 1 (cut (cs ++ '\n' :: rest)) =
      faults 1 (cut cs) ++ (faults 1 (cut rest)).map (Diagnostic.mapLine (below cs)) := by
  have placed (cs : List Char) := faults_eq_placed [] (cut cs)
  simp only [List.count_nil, Nat.add_zero] at placed
  rw [placed, placed, placed]
  refine filterMap_newline closed rest rfl fun p => ?_
  simp only [Placed.behind, fault?]
  split <;> simp only [line_below, Option.map_some, Option.map_none, Diagnostic.mapLine, Diagnostic.atLine]

end Segment

/-- **Scanning is compositional at newlines.**  Let every string of the text `p` be closed.  The tokens of
`p` and of `q` end with the one that ends a text.  With `q` below `p`, the tokens are those of `p` in
front of it, then those of `q` on lines that are later by the lines of `p`, and the ending; and the
faults are those of `p` and then those of `q`, on lines later by as much. -/
theorem scan_splits_at_newline (p q : String)
    (closed : ∀ d ∈ (scan p).diagnostics, d.message ≠ ("Unterminated string." : Text)) :
    ∃ upper lower : List Token,
      (scan p).tokens = upper ++ [Token.ending] ∧ (scan q).tokens = lower ++ [Token.ending] ∧
      (scan (p ++ "\n" ++ q)).tokens =
        upper ++ lower.map (fun t => { t with line := t.line + (1 + p.toList.count '\n') }) ++
          [Token.ending] ∧
      (scan (p ++ "\n" ++ q)).diagnostics = (scan p).diagnostics ++
        (scan q).diagnostics.map fun d => { d with line := d.line + (1 + p.toList.count '\n') } := by
  have chars : (p ++ "\n" ++ q).toList = p.toList ++ '\n' :: q.toList := by simp
  have strings : Segment.Closed p.toList := Segment.closed_of_faults 1 closed
  refine ⟨Segment.tokens 1 (Segment.cut p.toList), Segment.tokens 1 (Segment.cut q.toList), rfl, rfl, ?_, ?_⟩
  · simp only [scan]
    rw [chars, Segment.tokens_newline strings]
    rfl
  · simp only [scan]
    rw [chars, Segment.faults_newline strings]
    rfl

/-- A string over two lines and a sign that an equals sign could follow end the upper text; the lower one
starts with that sign, and its second line, the fourth of both, has a fault. -/
theorem scan_splits_at_newline_behind_less :
    let p := "\"x\ny\" <"
    let q := "= 1.\n@"
    (∀ d ∈ (scan p).diagnostics, d.message ≠ ("Unterminated string." : Text)) ∧
      (scan (p ++ "\n" ++ q)).tokens.map (fun t => (t.kind, t.line)) =
        [(.string, 2), (.less, 2), (.equal, 3), (.number, 3), (.dot, 3), (.endOfInput, 0)] ∧
      (scan (p ++ "\n" ++ q)).diagnostics = [.atLine 4 "Unexpected character."] := by
  intro p q
  have closed : ∀ d ∈ (scan p).diagnostics, d.message ≠ ("Unterminated string." : Text) := by
    decide +kernel
  obtain ⟨upper, lower, endsP, endsQ, tokens, diagnostics⟩ := scan_splits_at_newline p q closed
  have inFront : upper = (scan p).tokens.dropLast := by rw [endsP, List.dropLast_concat]
  have below : lower = (scan q).tokens.dropLast := by rw [endsQ, List.dropLast_concat]
  refine ⟨closed, ?_, ?_⟩
  · rw [tokens, inFront, below]
    decide +kernel
  · rw [diagnostics]
    decide +kernel

/-! ## Reading -/

/-- Tokens that are read without fault end with a semicolon. -/
theorem Descent.whole_of_clean {ts : List Token} (clean : (read ts).diagnostics = []) : Whole ts := by
  obtain ⟨p, rfl, -⟩ := (diagnostics_eq_nil_iff ts).mp clean
  intro t last
  rcases List.eq_nil_or_concat p with rfl | ⟨init, d, rfl⟩
  · cases last
  · obtain ⟨us, semicolon, yields, -⟩ := d.yield_eq
    have closing : (Derivation.Program.yield (init.concat d)).getLast? = some semicolon.1 := by
      simp [Derivation.Program.yield, yields]
    rw [closing] at last
    cases last
    exact semicolon.2

/-- Below a text without fault, another is read as if it stood alone, on later lines. -/
theorem FrontEnd.read_newline {p : String} (clean : (descent.read p).diagnostics = []) (q : String) :
    descent.read (p ++ "\n" ++ q) =
      ⟨(descent.read p).statements ++ (descent.read q).statements.map (Node.mapLine (Segment.below p.toList)),
        (descent.read q).diagnostics.map (Diagnostic.mapLine (Segment.below p.toList))⟩ := by
  have chars : (p ++ "\n" ++ q).toList = p.toList ++ '\n' :: q.toList := by simp
  rw [read_descent] at clean
  obtain ⟨lexical, syntactic⟩ := List.append_eq_nil_iff.mp clean
  have closed : Segment.Closed p.toList := Segment.closed_of_faults 1 (by simp [lexical])
  rw [read_descent, read_descent, read_descent, chars, Segment.tokens_newline closed,
    Segment.faults_newline closed, Descent.read_append _ _ (Descent.whole_of_clean syntactic),
    Descent.read_mapLine, lexical, syntactic]
  simp [Reading.mapLine]

/-! ## Running -/

theorem executeAll_append {first : List Node} {s t : Store} (ran : executeAll first s = (.ok (), t))
    (rest : List Node) : executeAll (first ++ rest) s = executeAll rest t := by
  induction first generalizing s with
  | nil =>
      cases ran
      rfl
  | cons statement first ih =>
      rw [executeAll] at ran
      rw [List.cons_append, executeAll]
      cases did : statement.execute s with
      | mk halt u =>
          rw [did] at ran
          cases halt with
          | ok => exact ih ran
          | error halt => cases ran

/-- Statements made of tokens as written run to their end if nothing is reported. -/
theorem executeAll_of_quiet {statements : List Node}
    (built : ∀ statement ∈ statements, statement.IsStatement Token.Written) {s : Store}
    (quiet : (Session.result statements (executeAll statements s).1).diagnostics = []) :
    (executeAll statements s).1 = .ok () := by
  rcases executeAll_halts built s with ended | ⟨next, -, error, -, halts⟩
  · exact ended
  · rw [halts] at quiet
    cases quiet

/-- A statement of a text that fails carries a line, and so is reported on the changed one. -/
theorem FrontEnd.reported_of_read (f : Int → Int) (source : String) :
    ∀ statement ∈ (descent.read source).statements, statement.Reported f := by
  intro statement member s halt halts
  have built := descent.isStatement_written source statement member
  have did := Node.execute_did built s
  cases ended : statement.execute s with
  | mk outcome t =>
      rw [ended] at did halts
      cases did with
      | stepped => cases halts
      | failed fails => exact statement.line_mapLine (.inl (lined_of_fails member fails))

/-- Two runs as one: the second goes on where the first stopped. -/
def Run.andThen (first second : Run) : Run :=
  ⟨⟨first.result.statements ++ second.result.statements, second.result.diagnostics,
    second.result.brokeOffAt⟩, first.events ++ second.events, second.session⟩

theorem Run.output_andThen (first second : Run) :
    (first.andThen second).output = first.output ++ second.output := by
  simp [output, andThen, Event.outputs, Text.lines]

namespace Session

variable (s : Session)

theorem result_append (first rest : List Node) (halt : Except Halt Unit) :
    result (first ++ rest) halt = ⟨first ++ (result rest halt).statements, (result rest halt).diagnostics,
      (result rest halt).brokeOffAt⟩ := by
  cases halt with
  | ok => rfl
  | error halt => cases halt <;> rfl

/-- Running statements that succeed and then others on later lines. -/
theorem runStatements_append {first rest : List Node} {f : Int → Int}
    (ended : (executeAll first ⟨s.bindings, []⟩).1 = .ok ())
    (reported : ∀ statement ∈ rest, statement.Reported f) :
    s.runStatements (first ++ rest.map (Node.mapLine f)) =
      (s.runStatements first).andThen (((s.runStatements first).session.runStatements rest).mapLine f) := by
  cases ran : executeAll first ⟨s.bindings, []⟩ with
  | mk halt t =>
      rw [ran] at ended
      cases ended
      have start : Store.Redrawn f t.trail ⟨t.bindings, []⟩ t := ⟨rfl, rfl⟩
      obtain ⟨halts, after⟩ := executeAll_mapLine reported start
      have events := congrArg List.reverse after.trail
      rw [List.reverse_append, ← List.map_reverse] at events
      simp only [runStatements, Run.andThen, Run.mapLine, ran, executeAll_append ran, Store.events, events,
        after.bindings, halts, result_append, result_mapLine]
      rfl

/-- A text that is read without fault, below one that runs without anything to report, is run as if the
upper one had been run before. -/
theorem run_newline {p q : String} (descent : s.frontEnd = .descent)
    (quiet : (s.run p).result.diagnostics = []) (clean : (FrontEnd.descent.read q).diagnostics = []) :
    s.run (p ++ "\n" ++ q) =
      (s.run p).andThen (((s.run p).session.run q).mapLine (Segment.below p.toList)) := by
  have upper : (s.frontEnd.read p).diagnostics = [] := by
    by_contra faulty
    rw [s.run_of_faulty faulty] at quiet
    exact faulty quiet
  rw [s.run_of_clean upper] at quiet ⊢
  have ended := executeAll_of_quiet (s.frontEnd.isStatement_written p) quiet
  have after : (s.runStatements (s.frontEnd.read p).statements).session.frontEnd = .descent := descent
  have whole : s.frontEnd.read (p ++ "\n" ++ q) = ⟨(s.frontEnd.read p).statements ++
      (FrontEnd.descent.read q).statements.map (Node.mapLine (Segment.below p.toList)), []⟩ := by
    rw [descent] at upper ⊢
    rw [FrontEnd.read_newline upper, clean, List.map_nil]
  rw [run_of_clean _ (by rw [whole]), whole, run_of_clean _ (by rw [after, clean]), after]
  exact s.runStatements_append ended (FrontEnd.reported_of_read _ q)

/-- **A program may be split over two runs.**  Let the text `p` run without anything to report, and let the
text `q` be without fault.  Then running `p` and after it `q` prints together what one run of both
prints, with a newline between the texts, and it leaves the same bindings; the one run reports what
the run of `q` does, on lines that are later by the lines of `p`. -/
theorem split_run_shifts_lines (p q : String) (descent : s.frontEnd = .descent)
    (quiet : (s.run p).result.diagnostics = []) (clean : (FrontEnd.descent.read q).diagnostics = []) :
    let first := s.run p
    let second := first.session.run q
    let whole := s.run (p ++ "\n" ++ q)
    whole.output = first.output ++ second.output ∧ whole.session = second.session ∧
      whole.result.diagnostics =
        second.result.diagnostics.map fun d => { d with line := d.line + (1 + p.toList.count '\n') } := by
  intro first second whole
  have ran : whole = first.andThen (second.mapLine (Segment.below p.toList)) :=
    s.run_newline descent quiet clean
  refine ⟨?_, ?_, ?_⟩
  · rw [ran, Run.output_andThen, Run.output_mapLine]
  · rw [ran]
    rfl
  · rw [ran]
    rfl

/-- A comment ends the first text, and a string over two lines stands in it; the second fails on its own
line 2, which is line 5 of both. -/
theorem split_run_shifts_lines_behind_comment :
    let s := Session.initial .descent 0
    let p := "var a = \"x\ny\";\nprint a; // said"
    let q := "print a;\nprint -a;"
    let first := s.run p
    let second := first.session.run q
    let whole := s.run (p ++ "\n" ++ q)
    s.frontEnd = .descent ∧ first.result.diagnostics = [] ∧ (FrontEnd.descent.read q).diagnostics = [] ∧
      second.result.diagnostics = [.whileRunning 2 "Operand must be a number."] ∧
      whole.output = first.output ++ second.output ∧
      whole.result.diagnostics = [.whileRunning 5 "Operand must be a number."] := by
  intro s p q first second whole
  have quiet : first.result.diagnostics = [] := by decide +kernel
  have clean : (FrontEnd.descent.read q).diagnostics = [] := by decide +kernel
  have fails : second.result.diagnostics = [.whileRunning 2 "Operand must be a number."] := by decide +kernel
  obtain ⟨output, -, diagnostics⟩ := s.split_run_shifts_lines p q rfl quiet clean
  refine ⟨rfl, quiet, clean, fails, output, ?_⟩
  rw [diagnostics, fails]
  decide +kernel

end Session

end LoxLang
