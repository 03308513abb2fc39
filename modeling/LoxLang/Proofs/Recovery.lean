/-
# LoxLang.Proofs.Recovery -- faults stay between semicolons

A semicolon is a wall.  No rule for expressions takes one, so whatever goes wrong inside
a statement goes wrong in front of the statement's semicolon (`parse_passed`), and
skipping never goes beyond it.  A list of tokens that ends with a semicolon is therefore
read in the same way whatever follows it: the rules see no further (`parse_extend`), and
neither does `recover`.

From this the passes over two such lists are the passes over the first and then those over
the second (`passes_append`), faults and statements alike.
-/
import LoxLang.Proofs.DescentGrammar

namespace LoxLang.Descent

set_option autoImplicit false

/-! ## In front of the semicolon -/

/-- `rest` is what is left of `ts` behind tokens none of which is a semicolon. -/
def Passed (ts rest : List Token) : Prop :=
  ∃ read, ts = read ++ rest ∧ ∀ t ∈ read, t.kind ≠ .semicolon

namespace Passed

variable {ts us vs : List Token}

theorem refl (ts : List Token) : Passed ts ts := ⟨[], rfl, nofun⟩

theorem trans (first : Passed ts us) (second : Passed us vs) : Passed ts vs := by
  obtain ⟨read, rfl, free⟩ := first
  obtain ⟨read', rfl, free'⟩ := second
  exact ⟨read ++ read', (List.append_assoc ..).symm, List.forall_mem_append.mpr ⟨free, free'⟩⟩

theorem cons {t : Token} (other : t.kind ≠ .semicolon) (passed : Passed ts us) :
    Passed (t :: ts) us := by
  obtain ⟨read, rfl, free⟩ := passed
  exact ⟨t :: read, rfl, List.forall_mem_cons.mpr ⟨other, free⟩⟩

theorem of_yield {rule : Rule} (d : Derivation.Tree rule) (rest : List Token) :
    Passed (d.yield ++ rest) rest :=
  ⟨d.yield, rfl, d.no_semicolon⟩

end Passed

theorem rest_of_expect {kind : TokenKind} {cause : Cause} {ts : List Token} {fault : Fault}
    (failed : expect kind cause ts = .error fault) : fault.rest = ts := by
  cases ts with
  | nil => cases failed; rfl
  | cons t ts =>
      simp only [expect] at failed
      split at failed
      · cases failed
      · cases failed; rfl

theorem chain_passed {level operand : Rule} {limit : Nat}
    (passed : ∀ ts fault, parse limit operand ts = .error fault → Passed ts fault.rest)
    (fuel : List Token) (left : Node) (ts : List Token) {fault : Fault}
    (failed : chain level.operators (parse limit operand) fuel left ts = .error fault) :
    Passed ts fault.rest := by
  induction fuel generalizing left ts with
  | nil => cases failed
  | cons _ fuel ih =>
      cases ts with
      | nil => cases failed
      | cons operator ts =>
          simp only [chain] at failed
          split at failed
          · rename_i member
            refine Passed.cons (Rule.ne_semicolon_of_mem member) ?_
            split at failed
            · rename_i failure
              cases failed
              exact passed _ _ failure
            · rename_i right rest read
              obtain ⟨d, rfl, -, -⟩ := parse_sound read
              exact (Passed.of_yield d rest).trans (ih _ _ failed)
          · cases failed

/-- A fault inside an expression lies in front of the next semicolon. -/
theorem parse_passed {limit : Nat} {rule : Rule} {ts : List Token} {fault : Fault}
    (failed : parse limit rule ts = .error fault) : Passed ts fault.rest := by
  induction limit generalizing rule ts fault with
  | zero =>
      cases failed
      exact .refl ts
  | succ limit ih =>
      cases takes : rule.operand? with
      | some operand =>
          rw [parse_level takes, leftGrouped] at failed
          split at failed
          · rename_i failure
            cases failed
            exact ih failure
          · rename_i left rest read
            obtain ⟨d, rfl, -, -⟩ := parse_sound read
            exact (Passed.of_yield d rest).trans (chain_passed (fun _ _ => ih) _ _ _ failed)
      | none =>
          cases rule with
          | expression => exact ih failed
          | unary =>
              cases ts with
              | nil => exact ih failed
              | cons operator ts =>
                  simp only [parse] at failed
                  split at failed
                  · rename_i member
                    split at failed
                    · rename_i failure
                      cases failed
                      exact (ih failure).cons (Rule.ne_semicolon_of_mem member)
                    · cases failed
                  · exact ih failed
          | primary =>
              cases ts with
              | nil =>
                  cases failed
                  exact .refl _
              | cons t ts =>
                  simp only [parse] at failed
                  split at failed
                  · cases failed
                  · split at failed
                    · rename_i opens
                      have other : t.kind ≠ .semicolon := by simp [opens]
                      split at failed
                      · rename_i failure
                        cases failed
                        exact (ih failure).cons other
                      · rename_i inner rest read
                        obtain ⟨d, rfl, -, -⟩ := parse_sound read
                        split at failed
                        · rename_i failure
                          cases failed
                          rw [rest_of_expect failure]
                          exact (Passed.of_yield d rest).cons other
                        · cases failed
                    · cases failed
                      exact .refl _
          | _ => cases takes

theorem closed_passed {limit : Nat} {cause : Cause} {build : Node → Node} {ts : List Token}
    {fault : Fault} (failed : closed limit cause build ts = .error fault) :
    Passed ts fault.rest := by
  unfold closed at failed
  split at failed
  · rename_i failure
    cases failed
    exact parse_passed failure
  · rename_i value rest read
    obtain ⟨d, rfl, -, -⟩ := parse_sound read
    split at failed
    · rename_i failure
      cases failed
      rw [rest_of_expect failure]
      exact .of_yield d rest
    · cases failed

/-- A statement that fails leaves its semicolon unread. -/
theorem statement_passed {limit : Nat} {ts : List Token} {fault : Fault}
    (failed : statement limit ts = .error fault) : Passed ts fault.rest := by
  cases ts with
  | nil =>
      cases failed
      exact .refl _
  | cons t ts =>
      simp only [statement] at failed
      split at failed
      · rename_i word
        refine Passed.cons (by simp [word]) ?_
        cases ts with
        | nil =>
            cases failed
            exact .refl _
        | cons name ts =>
            simp only [declaration] at failed
            split at failed
            · rename_i isName
              refine Passed.cons (by simp [isName]) ?_
              cases ts with
              | nil =>
                  cases failed
                  exact .refl _
              | cons u ts =>
                  simp only [initializer] at failed
                  split at failed
                  · rename_i equal
                    exact (closed_passed failed).cons (by simp [equal])
                  · split at failed
                    · cases failed
                    · cases failed
                      exact .refl _
            · cases failed
              exact .refl _
      · split at failed
        · rename_i word
          exact (closed_passed failed).cons (by simp [word])
        · exact closed_passed failed

/-! ## Behind the semicolon -/

/-- The list is empty, or a semicolon is its last token. -/
def Whole (ts : List Token) : Prop := ∀ t ∈ ts.getLast?, t.kind = .semicolon

theorem Whole.of_suffix {ts rest : List Token} (whole : Whole ts) (suffix : rest <:+ ts) :
    Whole rest := by
  obtain ⟨read, rfl⟩ := suffix
  intro t last
  exact whole t (List.mem_getLast?_append_of_mem_getLast? last)

/-- Behind tokens that are no semicolons the last one is still to come. -/
theorem Passed.whole {ts rest : List Token} (passed : Passed ts rest) (whole : Whole ts)
    (nonempty : ts ≠ []) : Whole rest ∧ rest ≠ [] := by
  obtain ⟨read, rfl, free⟩ := passed
  refine ⟨whole.of_suffix (List.suffix_append _ _), ?_⟩
  rintro rfl
  rw [List.append_nil] at whole nonempty
  exact free _ (List.getLast_mem nonempty) (whole _ (List.getLast?_eq_getLast_of_ne_nil nonempty))

/-- The same answer with more tokens behind those that are left. -/
def extend (q : List Token) : Parsed → Parsed
  | .ok (node, rest) => .ok (node, rest ++ q)
  | .error fault => .error ⟨fault.cause, fault.rest ++ q⟩

section Extend

variable {limit : Nat} {q : List Token}

theorem chain_extend {level operand : Rule}
    (extends' : ∀ ts, Whole ts → ts ≠ [] →
      parse limit operand (ts ++ q) = extend q (parse limit operand ts))
    (fuel fuel' : List Token) (left : Node) (ts : List Token) (whole : Whole ts) (nonempty : ts ≠ [])
    (enough : ts.length ≤ fuel.length) (enough' : (ts ++ q).length ≤ fuel'.length) :
    chain level.operators (parse limit operand) fuel' left (ts ++ q) =
      extend q (chain level.operators (parse limit operand) fuel left ts) := by
  induction fuel generalizing fuel' left ts with
  | nil => exact absurd (List.eq_nil_of_length_eq_zero (Nat.le_zero.mp enough)) nonempty
  | cons _ fuel ih =>
      cases ts with
      | nil => exact absurd rfl nonempty
      | cons operator ts =>
          cases fuel' with
          | nil => simp at enough'
          | cons _ fuel' =>
              simp only [List.cons_append, chain]
              split
              · rename_i member
                have passed : Passed (operator :: ts) ts :=
                  (Passed.refl ts).cons (Rule.ne_semicolon_of_mem member)
                obtain ⟨wholeTail, nonemptyTail⟩ := passed.whole whole nonempty
                rw [extends' ts wholeTail nonemptyTail]
                cases read : parse limit operand ts with
                | error fault => rfl
                | ok result =>
                    obtain ⟨right, rest⟩ := result
                    obtain ⟨d, rfl, -, -⟩ := parse_sound read
                    obtain ⟨wholeRest, nonemptyRest⟩ := (Passed.of_yield d rest).whole wholeTail nonemptyTail
                    simp only [extend, List.length_cons, List.length_append] at enough enough' ⊢
                    refine ih fuel' _ rest wholeRest nonemptyRest (by omega) ?_
                    rw [List.length_append]
                    omega
              · rfl

theorem expect_extend {kind : TokenKind} {cause : Cause} {ts : List Token} (nonempty : ts ≠ [])
    (build : Node) :
    (match expect kind cause (ts ++ q) with
      | .error fault => .error fault
      | .ok rest => .ok (build, rest)) =
    extend q (match expect kind cause ts with
      | .error fault => .error fault
      | .ok rest => .ok (build, rest)) := by
  cases ts with
  | nil => exact absurd rfl nonempty
  | cons t ts =>
      by_cases same : t.kind = kind
      · simp only [List.cons_append, expect, if_pos same, extend]
      · simp only [List.cons_append, expect, if_neg same, extend]

/-- A rule sees nothing behind a semicolon. -/
theorem parse_extend (rule : Rule) (ts : List Token) (whole : Whole ts) (nonempty : ts ≠ []) :
    parse limit rule (ts ++ q) = extend q (parse limit rule ts) := by
  induction limit generalizing rule ts with
  | zero => rfl
  | succ limit ih =>
      cases takes : rule.operand? with
      | some operand =>
          simp only [parse_level takes, leftGrouped, ih operand ts whole nonempty]
          cases read : parse limit operand ts with
          | error fault => rfl
          | ok result =>
              obtain ⟨left, rest⟩ := result
              obtain ⟨d, rfl, -, -⟩ := parse_sound read
              obtain ⟨wholeRest, nonemptyRest⟩ := (Passed.of_yield d rest).whole whole nonempty
              exact chain_extend (ih operand) rest _ left rest wholeRest nonemptyRest (Nat.le_refl _)
                (Nat.le_refl _)
      | none =>
          cases ts with
          | nil => exact absurd rfl nonempty
          | cons t ts =>
              cases rule with
              | expression => exact ih .equality (t :: ts) whole nonempty
              | unary =>
                  simp only [List.cons_append, parse]
                  split
                  · rename_i member
                    have passed : Passed (t :: ts) ts :=
                      (Passed.refl ts).cons (Rule.ne_semicolon_of_mem member)
                    obtain ⟨wholeTail, nonemptyTail⟩ := passed.whole whole nonempty
                    rw [ih .unary ts wholeTail nonemptyTail]
                    cases parse limit .unary ts <;> rfl
                  · exact ih .primary (t :: ts) whole nonempty
              | primary =>
                  simp only [List.cons_append, parse]
                  split
                  · rfl
                  · split
                    · rename_i opens
                      have passed : Passed (t :: ts) ts := (Passed.refl ts).cons (by simp [opens])
                      obtain ⟨wholeTail, nonemptyTail⟩ := passed.whole whole nonempty
                      rw [ih .expression ts wholeTail nonemptyTail]
                      cases read : parse limit .expression ts with
                      | error fault => rfl
                      | ok result =>
                          obtain ⟨inner, rest⟩ := result
                          obtain ⟨d, rfl, -, -⟩ := parse_sound read
                          exact expect_extend
                            ((Passed.of_yield d rest).whole wholeTail nonemptyTail).2 _
                    · rfl
              | _ => cases takes

theorem closed_extend (cause : Cause) (build : Node → Node) (ts : List Token) (whole : Whole ts)
    (nonempty : ts ≠ []) :
    closed limit cause build (ts ++ q) = extend q (closed limit cause build ts) := by
  simp only [closed, parse_extend .expression ts whole nonempty]
  cases read : parse limit .expression ts with
  | error fault => rfl
  | ok result =>
      obtain ⟨value, rest⟩ := result
      obtain ⟨d, rfl, -, -⟩ := parse_sound read
      exact expect_extend ((Passed.of_yield d rest).whole whole nonempty).2 _

/-- A statement sees nothing behind a semicolon. -/
theorem statement_extend (ts : List Token) (whole : Whole ts) (nonempty : ts ≠ []) :
    statement limit (ts ++ q) = extend q (statement limit ts) := by
  cases ts with
  | nil => exact absurd rfl nonempty
  | cons t ts =>
      have behind (other : t.kind ≠ .semicolon) : Whole ts ∧ ts ≠ [] :=
        ((Passed.refl ts).cons other).whole whole nonempty
      simp only [List.cons_append, statement]
      split
      · rename_i word
        obtain ⟨whole, nonempty⟩ := behind (by simp [word])
        cases ts with
        | nil => exact absurd rfl nonempty
        | cons name ts =>
            simp only [List.cons_append, declaration]
            split
            · rename_i isName
              obtain ⟨whole, nonempty⟩ :=
                ((Passed.refl ts).cons (t := name) (by simp [isName])).whole whole nonempty
              cases ts with
              | nil => exact absurd rfl nonempty
              | cons u ts =>
                  simp only [List.cons_append, initializer]
                  split
                  · rename_i equal
                    obtain ⟨whole, nonempty⟩ :=
                      ((Passed.refl ts).cons (t := u) (by simp [equal])).whole whole nonempty
                    exact closed_extend _ _ ts whole nonempty
                  · split <;> rfl
            · rfl
      · split
        · rename_i word
          obtain ⟨whole, nonempty⟩ := behind (by simp [word])
          exact closed_extend _ _ ts whole nonempty
        · exact closed_extend _ _ (t :: ts) whole nonempty

theorem recover_cons_cons (t next : Token) (ts : List Token) :
    recover (t :: next :: ts) = if t.kind = .semicolon then next :: ts
      else if next.kind ∈ statementStarts then next :: ts else recover (next :: ts) := by
  rw [recover]

/-- Skipping goes no further than the first semicolon. -/
theorem recover_append (ts : List Token) (whole : Whole ts) (nonempty : ts ≠ []) :
    recover (ts ++ q) = recover ts ++ q := by
  induction ts with
  | nil => exact absurd rfl nonempty
  | cons t ts ih =>
      by_cases semicolon : t.kind = .semicolon
      · simp only [List.cons_append, recover, if_pos semicolon]
      · obtain ⟨whole, nonempty⟩ := ((Passed.refl ts).cons semicolon).whole whole nonempty
        have onward := ih whole nonempty
        cases ts with
        | nil => exact absurd rfl nonempty
        | cons next ts =>
            simp only [List.cons_append, recover_cons_cons, if_neg semicolon]
            split
            · rfl
            · exact onward

end Extend

theorem recover_suffix (ts : List Token) : recover ts <:+ ts := by
  induction ts with
  | nil => exact List.suffix_rfl
  | cons t ts ih =>
      unfold recover
      split
      · exact List.suffix_cons t ts
      · split
        · exact List.nil_suffix
        · split
          · exact List.suffix_cons t _
          · exact ih.trans (List.suffix_cons t _)

/-! ## Two lists one after the other -/

/-- The same outcome with more tokens behind those that were unread. -/
def extendPass (q : List Token) : Except Fault Node → Except Fault Node
  | .ok node => .ok node
  | .error fault => .error ⟨fault.cause, fault.rest ++ q⟩

theorem passes_append (limit : Nat) (p q : List Token) (whole : Whole p) :
    passes limit (p ++ q) = (passes limit p).map (extendPass q) ++ passes limit q := by
  fun_induction passes limit p with
  | case1 => rfl
  | case2 t ts node rest read ih =>
      have step : statement limit (t :: ts ++ q) = .ok (node, rest ++ q) := by
        rw [statement_extend _ whole (List.cons_ne_nil t ts), read]
        rfl
      have leaves := statement_leaves limit t ts
      rw [read] at leaves
      rw [passes_of_ok step, ih (whole.of_suffix leaves.1)]
      rfl
  | case3 t ts fault failed ih =>
      have step : statement limit (t :: (ts ++ q)) = .error ⟨fault.cause, fault.rest ++ q⟩ := by
        rw [← List.cons_append, statement_extend _ whole (List.cons_ne_nil t ts), failed]
        rfl
      obtain ⟨wholeRest, nonempty⟩ := (statement_passed failed).whole whole (List.cons_ne_nil t ts)
      rw [List.cons_append, passes_of_error step, recover_append _ wholeRest nonempty,
        ih (wholeRest.of_suffix (recover_suffix _))]
      rfl

/-- In a list that a semicolon ends, every fault is about a token of the list. -/
theorem rest_ne_nil {limit : Nat} {p : List Token} (whole : Whole p) {fault : Fault}
    (member : .error fault ∈ passes limit p) : fault.rest ≠ [] := by
  fun_induction passes limit p with
  | case1 => cases member
  | case2 t ts node rest read ih =>
      have leaves := statement_leaves limit t ts
      rw [read] at leaves
      cases member with
      | tail _ member => exact ih (whole.of_suffix leaves.1) member
  | case3 t ts fault' failed ih =>
      obtain ⟨wholeRest, nonempty⟩ := (statement_passed failed).whole whole (List.cons_ne_nil t ts)
      cases member with
      | head => exact nonempty
      | tail _ member => exact ih (wholeRest.of_suffix (recover_suffix _)) member

/-- A fault at a token is reported without regard to what follows. -/
theorem diagnostic_extend {fault : Fault} (nonempty : fault.rest ≠ []) (q : List Token)
    (line line' : Int) :
    Fault.diagnostic line ⟨fault.cause, fault.rest ++ q⟩ = fault.diagnostic line' := by
  obtain ⟨cause, rest⟩ := fault
  cases rest with
  | nil => exact absurd rfl nonempty
  | cons t rest => cases cause <;> rfl

theorem lastLine_append (p : List Token) {q : List Token} (nonempty : q ≠ []) :
    lastLine (p ++ q) = lastLine q := by
  rw [lastLine, lastLine, List.getLast?_append_of_ne_nil _ nonempty]

theorem read_append (p q : List Token) (whole : Whole p) :
    read (p ++ q) = ⟨(read p).statements ++ (read q).statements,
      (read p).diagnostics ++ (read q).diagnostics⟩ := by
  have statements (passed : List (Except Fault Node)) :
      (passed.map (extendPass q)).filterMap statementOf? = passed.filterMap statementOf? := by
    rw [List.filterMap_map]
    congr 1
    funext outcome
    cases outcome <;> rfl
  have faults (passed : List (Except Fault Node)) :
      (passed.map (extendPass q)).filterMap faultOf? =
        (passed.filterMap faultOf?).map fun fault => ⟨fault.cause, fault.rest ++ q⟩ := by
    rw [List.filterMap_map, List.map_filterMap]
    congr 1
    funext outcome
    cases outcome <;> rfl
  have first : ∀ fault ∈ (passes ruleLimit p).filterMap faultOf?,
      Fault.diagnostic (lastLine (p ++ q)) ⟨fault.cause, fault.rest ++ q⟩ =
        fault.diagnostic (lastLine p) := by
    intro fault member
    obtain ⟨outcome, inside, same⟩ := List.mem_filterMap.mp member
    cases outcome with
    | ok node => cases same
    | error fault' =>
        cases same
        exact diagnostic_extend (rest_ne_nil whole inside) q _ _
  have second : ∀ fault ∈ (passes ruleLimit q).filterMap faultOf?,
      fault.diagnostic (lastLine (p ++ q)) = fault.diagnostic (lastLine q) := by
    intro fault member
    cases q with
    | nil => simp at member
    | cons t q => rw [lastLine_append p (List.cons_ne_nil t q)]
  simp only [read, passes_append ruleLimit p q whole, List.filterMap_append, statements, faults,
    List.map_append, List.map_map, List.map_congr_left second]
  congr 2
  exact List.map_congr_left first

/-- **Faults stay between semicolons.**  Behind a list of tokens that is empty or ends with a
semicolon, other tokens are read as if they stood alone: the statements of the two lists come one
after the other, and so do their diagnostics, whatever is wrong in either. -/
theorem faults_stay_between_semicolons {p q : List Token} {eof : Token}
    (ends : eof.kind = .endOfInput) (inside : ∀ t ∈ p, t.kind ≠ .endOfInput)
    (inside' : ∀ t ∈ q, t.kind ≠ .endOfInput)
    (whole : p = [] ∨ p.getLast?.map Token.kind = some .semicolon) :
    ∃ first second, readTokens? (p ++ [eof]) = some first ∧ readTokens? (q ++ [eof]) = some second ∧
      readTokens? (p ++ q ++ [eof]) = some ⟨first.statements ++ second.statements,
        first.diagnostics ++ second.diagnostics⟩ := by
  have wall : Whole p := by
    intro t last
    rcases whole with rfl | semicolon
    · cases last
    · rw [Option.mem_def.mp last] at semicolon
      exact Option.some.inj semicolon
  refine ⟨read p, read q, readTokens?_append inside ends, readTokens?_append inside' ends, ?_⟩
  rw [readTokens?_append (List.forall_mem_append.mpr ⟨inside, inside'⟩) ends, read_append p q wall]

/-- `1 + ; ) ;` and `print x`: the fault of the second list, at its end, takes the line of that
list alone. -/
theorem faults_stay_between_two_faulty_lists :
    let p : List Token :=
      [⟨.number, "1", some (.number 1), 1⟩, ⟨.plus, "+", none, 1⟩, ⟨.semicolon, ";", none, 1⟩,
       ⟨.rightParen, ")", none, 2⟩, ⟨.semicolon, ";", none, 2⟩]
    let q : List Token := [⟨.wordPrint, "print", none, 3⟩, ⟨.identifier, "x", some (.text "x"), 4⟩]
    Token.ending.kind = .endOfInput ∧ (∀ t ∈ p, t.kind ≠ .endOfInput) ∧
      (∀ t ∈ q, t.kind ≠ .endOfInput) ∧ p.getLast?.map Token.kind = some .semicolon ∧
      ∃ first second, readTokens? (p ++ [Token.ending]) = some first ∧
        readTokens? (q ++ [Token.ending]) = some second ∧
        readTokens? (p ++ q ++ [Token.ending]) = some ⟨first.statements ++ second.statements,
          first.diagnostics ++ second.diagnostics⟩ := by
  intro p q
  have inside : ∀ t ∈ p, t.kind ≠ .endOfInput := by decide
  have inside' : ∀ t ∈ q, t.kind ≠ .endOfInput := by decide
  have semicolon : p.getLast?.map Token.kind = some .semicolon := rfl
  exact ⟨rfl, inside, inside', semicolon,
    faults_stay_between_semicolons rfl inside inside' (.inr semicolon)⟩

end LoxLang.Descent
