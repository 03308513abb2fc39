/-
# LoxLang.Proofs.FirstFault -- both front ends stop at the same token

Recursive descent and the stack machine read the same tokens side by side.  What a rule
has read when it faults the machine has taken, and the token in front of which the rule
faults the machine refuses (`Stops`).

There are two places at which a rule faults.  One is in front of an operand, where the
machine looks at the token alone.  The other is behind an operand: the rule expected the
token that closes a group or a statement.  It has read as far as it can, so no operator
follows (`halts_of_parse`), and what is open on the machine's stack is not what the token
closes (`expect_stops`).

The end of the tokens is refused in the same way.  It takes the line of the last token, by
either front end, unless that token is a string over several lines.
-/
import LoxLang.Proofs.FrontEndAgreement
import LoxLang.Proofs.Recovery

namespace LoxLang

open LoxLang.Derivation

set_option autoImplicit false

/-! ## A rule reads as far as it can -/

namespace Descent

theorem rank_level_pos {level operand : Rule} (takes : level.operand? = some operand) :
    Rule.equality.rank ≤ level.rank := by
  cases level <;> cases takes <;> decide

/-- Behind a chain no operator of its rule follows, nor one of a tighter rule. -/
theorem halts_of_chain {level operand : Rule} {limit : Nat} (takes : level.operand? = some operand)
    (halts : ∀ ts node rest, parse limit operand ts = .ok (node, rest) → Halts operand rest)
    (fuel : List Token) (left : Node) (ts : List Token) (enough : ts.length ≤ fuel.length)
    (stopped : Halts operand ts) {node : Node} {rest : List Token}
    (read : chain level.operators (parse limit operand) fuel left ts = .ok (node, rest)) :
    Halts level rest := by
  induction fuel generalizing left ts with
  | nil =>
      obtain rfl : ts = [] := List.eq_nil_of_length_eq_zero (by simpa using enough)
      cases read
      intro t head
      cases head
  | cons _ fuel ih =>
      cases ts with
      | nil =>
          cases read
          intro t head
          cases head
      | cons operator ts =>
          simp only [chain] at read
          split at read
          · split at read
            · cases read
            · rename_i right behind parsed
              have leaves : Leaves ts (.ok (right, behind)) := parsed ▸ parse_leaves limit operand ts
              apply ih _ behind ?_ (halts _ _ _ parsed) read
              have shorter := leaves.2
              simp only [List.length_cons] at enough
              omega
          · rename_i other
            cases read
            intro t head level' operand' takes' bound member
            cases head
            by_cases same : level.rank = level'.rank
            · exact other (Rule.rank_injective same ▸ member)
            · have tighter := Rule.rank_operand takes
              exact stopped _ rfl level' operand' takes' (by omega) member

/-- Unary and primary expressions take no binary operators. -/
theorem halts_of_tight {rule : Rule} (tight : Rule.unary.rank ≤ rule.rank) (rest : List Token) :
    Halts rule rest := by
  intro t head level operand takes looser
  have below := ShiftReduce.rank_level_lt takes
  omega

/-- Behind what a rule reads no operator follows that it, or a rule for its operands, takes. -/
theorem halts_of_parse {limit : Nat} {rule : Rule} {ts : List Token} {node : Node} {rest : List Token}
    (read : parse limit rule ts = .ok (node, rest)) : Halts rule rest := by
  induction limit generalizing rule ts node rest with
  | zero => cases read
  | succ limit ih =>
      cases takes : rule.operand? with
      | some operand =>
          rw [parse_level takes, leftGrouped] at read
          split at read
          · cases read
          · rename_i left behind parsed
            exact halts_of_chain takes (fun _ _ _ => ih) _ _ _ (Nat.le_refl _) (ih parsed) read
      | none =>
          cases rule with
          | expression =>
              have halts : Halts .equality rest := ih read
              intro t head level operand takes' _
              exact halts t head level operand takes' (rank_level_pos takes')
          | unary => exact halts_of_tight (by decide) rest
          | primary => exact halts_of_tight (by decide) rest
          | _ => cases takes

theorem kind_ne_of_expect {kind : TokenKind} {cause : Cause} {ts : List Token} {fault : Fault}
    (failed : expect kind cause ts = .error fault) : ∀ t ∈ ts.head?, t.kind ≠ kind := by
  intro t head same
  cases ts with
  | nil => cases head
  | cons u ts =>
      cases head
      simp [expect, same] at failed

theorem message_of_tooDeep {fault : Fault} (deep : fault.cause = .tooDeep) (lastLine : Int) :
    (fault.diagnostic lastLine).message = (tooDeepMessage : Text) := by
  obtain ⟨cause, rest⟩ := fault
  obtain rfl : cause = .tooDeep := deep
  cases rest <;> rfl

end Descent

namespace ShiftReduce

/-! ## Where the machine stops -/

/-- The machine takes tokens up to `rest` and refuses to go on there, be it to the next token or, inside
a statement, to the end. -/
def Stops (m : Machine) (ts rest : List Token) : Prop :=
  ∃ front stopped, ts = front ++ rest ∧ m.run front = .ok stopped ∧
    (∀ t ∈ rest.head?, stopped.step t = none) ∧ (rest = [] → stopped.current ≠ none)

namespace Stops

variable {m m' : Machine} {ts us rest : List Token} {t : Token}

theorem here (refuses : ∀ t ∈ ts.head?, m.step t = none) (busy : ts = [] → m.current ≠ none) :
    Stops m ts ts :=
  ⟨[], m, rfl, rfl, refuses, busy⟩

/-- Inside a statement the machine does not go on at the end. -/
theorem inside {line : Int} {phase : Phase}
    (refuses : ∀ t ∈ ts.head?, (m.inside line phase).step t = none) :
    Stops (m.inside line phase) ts ts := by
  refine .here refuses fun _ idle => ?_
  cases idle

theorem of_step (steps : m.step t = some m') (stops : Stops m' ts rest) : Stops m (t :: ts) rest := by
  obtain ⟨front, stopped, rfl, runs, refuses, busy⟩ := stops
  refine ⟨t :: front, stopped, rfl, ?_, refuses, busy⟩
  rw [run_of_step steps]
  exact runs

theorem of_run (runs : m.run us = .ok m') (stops : Stops m' ts rest) : Stops m (us ++ ts) rest := by
  obtain ⟨front, stopped, rfl, further, refuses, busy⟩ := stops
  refine ⟨us ++ front, stopped, (List.append_assoc ..).symm, ?_, refuses, busy⟩
  rw [run_append runs]
  exact further

/-- A machine that does with the first token what another does stops where that one does. -/
theorem of_same_step (same : m.step t = m'.step t) (stops : Stops m' (t :: ts) rest) :
    Stops m (t :: ts) rest := by
  obtain ⟨front, stopped, split, runs, refuses, busy⟩ := stops
  cases front with
  | nil =>
      cases runs
      obtain rfl : t :: ts = rest := split
      refine .here (fun u head => ?_) fun empty => by cases empty
      cases head
      exact same.trans (refuses t rfl)
  | cons u front =>
      obtain ⟨rfl, -⟩ := List.cons.inj split
      refine ⟨t :: front, stopped, split, ?_, refuses, busy⟩
      rw [Machine.run] at runs ⊢
      rw [same]
      exact runs

end Stops

/-! ## Expressions -/

theorem precedence?_eq_none {t : Token} {ts : List Token} (halts : Descent.Halts .expression (t :: ts)) :
    precedence? t.kind = none := by
  cases binds : precedence? t.kind with
  | none => rfl
  | some strength =>
      obtain ⟨level, operand, takes, listed, -⟩ := precedence?_eq_some_iff.mp binds
      exact absurd (listed_iff.mp listed) (halts t rfl level operand takes (Nat.zero_le _))

/-- A token that no expression starts with is refused at the place of an operand. -/
theorem stops_at_operand {t : Token} (ts : List Token) (noAtom : t.atom? = none)
    (noGroup : t.kind ≠ .leftParen) (noOperator : t.kind ∉ Rule.unary.operators) (purpose : Purpose)
    (stack : List Frame) (m : Machine) (line : Int) :
    Stops (m.inside line (.operand purpose stack)) (t :: ts) (t :: ts) := by
  have noUnary : t.kind ∉ unaryOperators := fun member =>
    noOperator (listed_iff.mp (mem_unaryOperators_iff.mp member))
  refine .inside fun u head => ?_
  cases head
  simp [Machine.step, Machine.inside, takeOperand, noAtom, noGroup, noUnary]

/-- The token that closes what is open below an expression: a statement or a group. -/
inductive Closes : TokenKind → List Frame → Prop where
  | statement : Closes .semicolon []
  | group (stack : List Frame) : Closes .rightParen (.group :: stack)

theorem Closes.firm {kind : TokenKind} {stack : List Frame} (closes : Closes kind stack) (level : Nat) :
    Firm level stack := by
  cases closes <;> trivial

/-- Behind an expression that is not closed the machine stops. -/
theorem expect_stops {limit : Nat} {ts rest : List Token} {value : Node}
    (read : Descent.parse limit .expression ts = .ok (value, rest)) {kind : TokenKind}
    {cause : Descent.Cause} {fault : Descent.Fault}
    (failed : Descent.expect kind cause rest = .error fault) {stack : List Frame}
    (closes : Closes kind stack) (purpose : Purpose) (m : Machine) (line : Int) :
    Stops (m.inside line (.operand purpose stack)) ts fault.rest := by
  have halts := Descent.halts_of_parse read
  have other := Descent.kind_ne_of_expect failed
  obtain ⟨d, rfl, rfl, -⟩ := Descent.parse_sound read
  obtain ⟨stack', node', runs, same⟩ :=
    run_operand (d.produces rfl) purpose stack (fun _ => closes.firm _) m line
  have closed : close 0 stack' node' = (stack, d.ast) := by
    rw [same 0 (Nat.le_refl _), close_of_firm (closes.firm 0)]
  rw [Descent.rest_of_expect failed]
  refine .of_run runs (.inside fun t head => ?_)
  cases rest with
  | nil => cases head
  | cons u rest =>
      cases head
      have noOperator := precedence?_eq_none halts
      have unexpected := other t rfl
      cases closes <;>
        simp [Machine.step, Machine.inside, takeOperator, complete?, noOperator, unexpected, closed]

/-- Where a rule of binary expressions faults behind its first operand, the machine stops. -/
theorem chain_stops {level operand : Rule} {limit : Nat} (takes : level.operand? = some operand)
    {purpose : Purpose} {m : Machine} {line : Int}
    (each : ∀ ts fault stack, Descent.parse limit operand ts = .error fault → fault.cause ≠ .tooDeep →
      Firm operand.rank stack → Stops (m.inside line (.operand purpose stack)) ts fault.rest)
    {stack : List Frame} (firm : Firm level.rank stack) (fuel : List Token) {left : Node} (ts : List Token)
    {stack' : List Frame} {node' : Node}
    (same : ∀ strength ≤ level.rank, close strength stack' node' = close strength stack left)
    {fault : Descent.Fault} (shallow : fault.cause ≠ .tooDeep)
    (failed : Descent.chain level.operators (Descent.parse limit operand) fuel left ts = .error fault) :
    Stops (m.inside line (.operator purpose stack' node')) ts fault.rest := by
  induction fuel generalizing left ts stack' node' with
  | nil => cases failed
  | cons _ fuel ih =>
      cases ts with
      | nil => cases failed
      | cons operator ts =>
          simp only [Descent.chain] at failed
          split at failed
          · rename_i member
            split at failed
            · rename_i failure
              cases failed
              -- the operator is taken, and the fault is that of the operand behind it
              have closes : close level.rank stack' node' = (stack, left) := by
                rw [same _ (Nat.le_refl _), close_of_firm firm]
              have taken := takeOperator_binary purpose stack' takes ⟨operator, listed_iff.mpr member⟩ closes
              have steps := step_operator taken (Rule.ne_semicolon_of_mem member) m line
              exact .of_step steps (each _ _ _ failure shallow (strength_lt_operand takes ⟨operator, _⟩))
            · rename_i right rest read
              -- the operand is read, and operator and operand join what stands on the left
              obtain ⟨d, rfl, rfl, -⟩ := Descent.parse_sound read
              obtain ⟨stack₁, node₁, runs, same₁⟩ :=
                run_binary takes ⟨operator, listed_iff.mpr member⟩ firm same
                  (fun firm' => run_operand (d.produces rfl) purpose _ fun _ => firm') m line
              exact .of_run runs (ih rest same₁ failed)
          · cases failed

/-- **Where a rule faults, the machine stops.**  A primary expression is only looked for where no unary
operator stands. -/
theorem parse_stops {limit : Nat} {rule : Rule} {ts : List Token} {fault : Descent.Fault}
    (failed : Descent.parse limit rule ts = .error fault) (shallow : fault.cause ≠ .tooDeep)
    (starts : rule = .primary → ∀ t ∈ ts.head?, t.kind ∉ Rule.unary.operators)
    (purpose : Purpose) (stack : List Frame) (firm : rule.rank < Rule.unary.rank → Firm rule.rank stack)
    (m : Machine) (line : Int) : Stops (m.inside line (.operand purpose stack)) ts fault.rest := by
  induction limit generalizing rule ts fault stack with
  | zero =>
      cases failed
      exact absurd rfl shallow
  | succ limit ih =>
      cases takes : rule.operand? with
      | some operand =>
          have steady := firm (rank_level_lt takes)
          have tighter := Rule.rank_operand takes
          have notPrimary : operand ≠ .primary := by
            rintro rfl
            cases rule <;> cases takes
          have each (ts : List Token) (fault : Descent.Fault) (stack : List Frame)
              (failed : Descent.parse limit operand ts = .error fault) (shallow : fault.cause ≠ .tooDeep)
              (firm : Firm operand.rank stack) :
              Stops (m.inside line (.operand purpose stack)) ts fault.rest :=
            ih failed shallow (fun is => absurd is notPrimary) stack fun _ => firm
          rw [Descent.parse_level takes, Descent.leftGrouped] at failed
          split at failed
          · rename_i failure
            cases failed
            exact each _ _ stack failure shallow (steady.mono (by omega))
          · rename_i left behind read
            obtain ⟨d, rfl, rfl, -⟩ := Descent.parse_sound read
            obtain ⟨stack', node', runs, same⟩ :=
              run_operand (d.produces rfl) purpose stack (fun _ => steady.mono (by omega)) m line
            refine .of_run runs (chain_stops takes each steady _ _ (fun level below => ?_) shallow failed)
            exact same level (by omega)
      | none =>
          cases rule with
          | expression =>
              refine ih failed shallow (fun is => absurd is (by decide)) stack fun _ => ?_
              exact (firm (by decide)).mono (Nat.zero_le _)
          | unary =>
              cases ts with
              | nil =>
                  refine ih failed shallow (fun _ t head => ?_) stack fun tight => absurd tight (by decide)
                  cases head
              | cons operator ts =>
                  simp only [Descent.parse] at failed
                  split at failed
                  · rename_i member
                    split at failed
                    · rename_i failure
                      cases failed
                      have taken := takeOperand_unary purpose stack ⟨operator, listed_iff.mpr member⟩
                      refine .of_step (step_operand taken m line) ?_
                      exact ih failure shallow (fun is => absurd is (by decide)) _
                        fun tight => absurd tight (by decide)
                    · cases failed
                  · rename_i other
                    refine ih failed shallow (fun _ t head => ?_) stack fun tight => absurd tight (by decide)
                    cases head
                    exact other
          | primary =>
              cases ts with
              | nil =>
                  cases failed
                  exact .inside fun _ head => by cases head
              | cons t ts =>
                  simp only [Descent.parse] at failed
                  split at failed
                  · cases failed
                  · rename_i noAtom
                    split at failed
                    · rename_i opens
                      have taken := takeOperand_group purpose stack ⟨t, opens⟩
                      refine .of_step (step_operand taken m line) ?_
                      split at failed
                      · rename_i failure
                        cases failed
                        exact ih failure shallow (fun is => absurd is (by decide)) _ fun _ => trivial
                      · rename_i inner rest read
                        split at failed
                        · rename_i failure
                          cases failed
                          exact expect_stops read failure (.group stack) purpose m line
                        · cases failed
                    · rename_i noGroup
                      cases failed
                      exact stops_at_operand ts noAtom noGroup (starts rfl t rfl) purpose stack m line
          | _ => cases takes

/-! ## Statements and programs -/

/-- Where an expression and its semicolon cannot be read, the machine stops. -/
theorem closed_stops {limit : Nat} {cause : Descent.Cause} {build : Node → Node} {ts : List Token}
    {fault : Descent.Fault} (failed : Descent.closed limit cause build ts = .error fault)
    (shallow : fault.cause ≠ .tooDeep) (purpose : Purpose) (m : Machine) (line : Int) :
    Stops (m.inside line (.operand purpose [])) ts fault.rest := by
  unfold Descent.closed at failed
  split at failed
  · rename_i failure
    cases failed
    exact parse_stops failure shallow (fun is => absurd is (by decide)) purpose [] (fun _ => trivial) m line
  · rename_i value rest read
    split at failed
    · rename_i failure
      cases failed
      exact expect_stops read failure .statement purpose m line
    · cases failed

/-- Where a statement cannot be read, the idle machine stops. -/
theorem statement_stops {limit : Nat} {t : Token} {ts : List Token} {fault : Descent.Fault}
    (failed : Descent.statement limit (t :: ts) = .error fault) (shallow : fault.cause ≠ .tooDeep)
    {m : Machine} (idle : m.current = none) : Stops m (t :: ts) fault.rest := by
  have starts : m.step t = (begin t).map (m.inside t.line) := by rw [Machine.step, idle]
  simp only [Descent.statement] at failed
  split at failed
  · rename_i word
    have steps : m.step t = some (m.inside t.line .name) := by simp [starts, begin, word]
    refine .of_step steps ?_
    cases ts with
    | nil =>
        cases failed
        exact .inside fun _ head => by cases head
    | cons name ts =>
        simp only [Descent.declaration] at failed
        split at failed
        · rename_i isName
          have named : (m.inside t.line .name).step name = some (m.inside t.line (.named name)) := by
            simp [Machine.step, Machine.inside, isName]
          refine .of_step named ?_
          cases ts with
          | nil =>
              cases failed
              exact .inside fun _ head => by cases head
          | cons u ts =>
              simp only [Descent.initializer] at failed
              split at failed
              · rename_i equal
                have assigns : (m.inside t.line (.named name)).step u =
                    some (m.inside t.line (.operand (.declaration name) [])) := by
                  simp [Machine.step, Machine.inside, equal]
                exact .of_step assigns (closed_stops failed shallow _ m t.line)
              · rename_i noEqual
                split at failed
                · cases failed
                · rename_i noSemicolon
                  cases failed
                  refine .inside fun v head => ?_
                  cases head
                  simp [Machine.step, Machine.inside, noEqual, noSemicolon]
        · rename_i noName
          cases failed
          refine .inside fun u head => ?_
          cases head
          simp [Machine.step, Machine.inside, noName]
  · rename_i noVar
    split at failed
    · rename_i word
      have prints : m.step t = some (m.inside t.line (.operand .print [])) := by
        simp [starts, begin, word]
      exact .of_step prints (closed_stops failed shallow _ m t.line)
    · rename_i noPrint
      have enters : m.step t = (m.inside t.line (.operand .expression [])).step t := by
        rw [starts, begin, if_neg noVar, if_neg noPrint]
        rfl
      exact .of_same_step enters (closed_stops failed shallow _ m t.line)

/-- The machine stops where recursive descent faults first. -/
theorem passes_stops {limit : Nat} {ts : List Token} {fault : Descent.Fault}
    (first : ((Descent.passes limit ts).filterMap Descent.faultOf?).head? = some fault)
    (shallow : fault.cause ≠ .tooDeep) {m : Machine} (idle : m.current = none) :
    Stops m ts fault.rest := by
  fun_induction Descent.passes limit ts generalizing m with
  | case1 => cases first
  | case2 t ts node rest read ih =>
      obtain ⟨d, same, -, -⟩ := Descent.statement_sound read
      obtain ⟨u, us, yields⟩ := d.yield_cons
      have runs := run_statement (yields ▸ d.produces) m idle
      rw [same, yields]
      exact .of_run runs (ih first rfl)
  | case3 t ts fault' failed ih =>
      cases first
      exact statement_stops failed shallow idle

/-! ## Diagnostics -/

/-- The diagnostic that the machine makes of the place where it stops. -/
def refusal (lastLine : Int) : List Token → Diagnostic
  | [] => .atToken Token.ending refusedMessage (some lastLine)
  | t :: _ => .atToken t refusedMessage none

/-- A stream that stops the machine is read as one diagnostic and no statements. -/
theorem read_of_stops {stream : Stream} (whole : stream.fault = none) {rest : List Token}
    (stops : Stops Machine.initial stream.tokens rest) :
    read stream = ⟨[], [refusal (Descent.lastLine stream.tokens) rest]⟩ := by
  obtain ⟨front, stopped, split, runs, refuses, busy⟩ := stops
  have found : located stream = .error (refusal (Descent.lastLine stream.tokens) rest) := by
    rw [located]
    cases rest with
    | nil =>
        rw [List.append_nil] at split
        obtain ⟨line, inside⟩ := Option.ne_none_iff_exists'.mp (busy rfl)
        rw [split, runs]
        simp only [whole, inside]
        rfl
    | cons t rest =>
        have refused : Machine.initial.run stream.tokens = .error t := by
          rw [split, run_append runs, Machine.run, refuses t rfl]
        rw [refused]
        rfl
  rw [read, found]

/-- A fault and the refusal at the same place name the same line and the same lexeme. -/
theorem refusal_diagnostic {fault : Descent.Fault} (shallow : fault.cause ≠ .tooDeep) (lastLine : Int) :
    (refusal lastLine fault.rest).line = (fault.diagnostic lastLine).line ∧
      (refusal lastLine fault.rest).place = (fault.diagnostic lastLine).place := by
  obtain ⟨cause, rest⟩ := fault
  cases rest <;> cases cause <;>
    first
    | exact absurd rfl shallow
    | simp [refusal, Descent.Fault.diagnostic, Diagnostic.atToken]

end ShiftReduce

namespace FrontEnd

/-- If no string goes over the end of a line, both front ends read the same tokens. -/
theorem stream_tokens_eq {source : String} (noFormFeed : '\x0c' ∉ source.toList)
    (whole : (Stream.ofText source).fault = none)
    (oneLine : ∀ t ∈ (scan source).tokens, t.kind = .string → .char '\n' ∉ t.lexeme) :
    (Stream.ofText source).tokens = Segment.tokens 1 (Segment.cut source.toList) := by
  have tokens : Segment.tokens 1 (Segment.cut source.toList) =
      (Stream.ofText source).tokens.map Stream.atEnd :=
    (Stream.lex_sound source.toList noFormFeed 1 whole).2
  have atEnd_eq : ∀ t ∈ (Stream.ofText source).tokens, Stream.atEnd t = t := by
    intro t member
    by_cases string : t.kind = .string
    · have scanned : Stream.atEnd t ∈ (scan source).tokens := by
        apply List.mem_append_left
        rw [tokens]
        exact List.mem_map_of_mem member
      have absent : .char '\n' ∉ t.lexeme := oneLine (Stream.atEnd t) scanned string
      simp [Stream.atEnd, List.count_eq_zero.mpr absent]
    · exact Stream.atEnd_eq_self 1 source.toList t member string
  rw [tokens, List.map_congr_left atEnd_eq, List.map_id']

/-- **The front ends find the same first fault.**  Take a text without form feeds that is scanned without
a fault, whose tokens the grammar uses, in which no string goes over the end of a line, and which
neither front end finds too deep.  If the descent front end reports a diagnostic at all, the stream
front end returns no statements and reports one diagnostic, and its line and place are those of the
first diagnostic of the descent front end. -/
theorem first_faults_agree (source : String) (noFormFeed : '\x0c' ∉ source.toList)
    (scanned : (scan source).diagnostics = [])
    (used : ∀ t ∈ (scan source).tokens, t.kind ∉ Stream.unusedKinds)
    (oneLine : ∀ t ∈ (scan source).tokens, t.kind = .string → .char '\n' ∉ t.lexeme)
    (shallow : ∀ frontEnd : FrontEnd, ∀ d ∈ (frontEnd.read source).diagnostics,
      d.message ≠ (tooDeepMessage : Text))
    {first : Diagnostic} (faulty : (FrontEnd.descent.read source).diagnostics.head? = some first) :
    ∃ d, (FrontEnd.stream.read source).statements = [] ∧
      (FrontEnd.stream.read source).diagnostics = [d] ∧ d.line = first.line ∧ d.place = first.place := by
  have clean : Segment.faults 1 (Segment.cut source.toList) = [] := scanned
  have whole : (Stream.ofText source).fault = none :=
    Stream.lex_complete source.toList noFormFeed 1 clean fun t member =>
      used t (List.mem_append_left _ member)
  have tokens := stream_tokens_eq noFormFeed whole oneLine
  have notDeep := shallow .descent first (List.mem_of_mem_head? faulty)
  have descent := read_descent source
  rw [clean, List.nil_append] at descent
  rw [descent, Descent.read, List.head?_map, Option.map_eq_some_iff] at faulty
  obtain ⟨fault, found, rfl⟩ := faulty
  have notDeep : fault.cause ≠ .tooDeep := fun deep => notDeep (Descent.message_of_tooDeep deep _)
  have stops := ShiftReduce.passes_stops found notDeep (m := .initial) rfl
  rw [← tokens] at stops
  have read : FrontEnd.stream.read source = _ := ShiftReduce.read_of_stops whole stops
  rw [read, tokens]
  obtain ⟨line, place⟩ := ShiftReduce.refusal_diagnostic notDeep
    (Descent.lastLine (Segment.tokens 1 (Segment.cut source.toList)))
  exact ⟨_, rfl, rfl, line, place⟩

/-- A group that a semicolon breaks off on the third line, with two more faulty statements behind it. -/
theorem first_faults_agree_in_group :
    let source := "var x = 1; // fine\nprint (x +\n  \"a\"; print ); var 3;"
    '\x0c' ∉ source.toList ∧ (scan source).diagnostics = [] ∧
      (∀ t ∈ (scan source).tokens, t.kind ∉ Stream.unusedKinds) ∧
      (∀ t ∈ (scan source).tokens, t.kind = .string → .char '\n' ∉ t.lexeme) ∧
      (∀ frontEnd : FrontEnd, ∀ d ∈ (frontEnd.read source).diagnostics,
        d.message ≠ (tooDeepMessage : Text)) ∧
      (FrontEnd.descent.read source).diagnostics.length = 3 ∧
      ∃ d, (FrontEnd.stream.read source).statements = [] ∧
        (FrontEnd.stream.read source).diagnostics = [d] ∧ d.line = 3 ∧ d.place = " at ';'" := by
  intro source
  have noFormFeed : '\x0c' ∉ source.toList := by decide
  have scanned : (scan source).diagnostics = [] := by decide +kernel
  have used : ∀ t ∈ (scan source).tokens, t.kind ∉ Stream.unusedKinds := by decide +kernel
  have oneLine : ∀ t ∈ (scan source).tokens, t.kind = .string → .char '\n' ∉ t.lexeme := by
    decide +kernel
  have shallow : ∀ frontEnd : FrontEnd, ∀ d ∈ (frontEnd.read source).diagnostics,
      d.message ≠ (tooDeepMessage : Text) := by
    intro frontEnd
    cases frontEnd <;> decide +kernel
  have faulty : (FrontEnd.descent.read source).diagnostics.head? =
      some ⟨3, " at ';'", "Expect ')' after expression.", false⟩ := by decide +kernel
  exact ⟨noFormFeed, scanned, used, oneLine, shallow, by decide +kernel,
    first_faults_agree source noFormFeed scanned used oneLine shallow faulty⟩

end FrontEnd

end LoxLang
