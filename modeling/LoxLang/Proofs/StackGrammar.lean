/-
# LoxLang.Proofs.StackGrammar -- reading with a stack decides the grammar

The machine of `LoxLang.Grammar.ShiftReduce` puts together what it has read from left to
right.  It has no rules, only groups of operators that bind alike.  These are the operators
of the rules, and they bind as tightly as the rules say (`precedence?_eq_some_iff`).

The stack stands for the tokens behind which an operand is still open.  `Opens` says which
ones, frame by frame; closing frames applies productions and loses no token (`close_sound`).
This carries the invariant of the machine, that what it has read is a program and the front
part of a statement, from step to step (`step_consistent`) and through a run.

In the other direction a run over tokens that are produced takes every token.  It may leave
frames open that the node has closed, but to whatever closes them next they look the same
(`run_operand`).

So the machine decides the productions: it comes to statements exactly if the tokens make a
program of these statements (`located_eq_ok_iff`).
-/
import LoxLang.Grammar.ShiftReduce
import LoxLang.Proofs.Productions

namespace LoxLang

set_option autoImplicit false

namespace ShiftReduce

open LoxLang.Derivation

/-! ## Binding strength -/

/-- The machine takes the binary operators that the grammar lists, and each binds as tightly as its
rule says. -/
theorem precedence?_eq_some_iff {kind : TokenKind} {strength : Nat} :
    precedence? kind = some strength ↔
      ∃ level operand : Rule, level.operand? = some operand ∧ Listed level kind ∧ level.rank = strength := by
  constructor
  · intro binds
    cases kind with
    | bangEqual => exact ⟨_, _, rfl, .unequal, Option.some.inj binds⟩
    | equalEqual => exact ⟨_, _, rfl, .equal, Option.some.inj binds⟩
    | greater => exact ⟨_, _, rfl, .greater, Option.some.inj binds⟩
    | greaterEqual => exact ⟨_, _, rfl, .greaterEqual, Option.some.inj binds⟩
    | less => exact ⟨_, _, rfl, .less, Option.some.inj binds⟩
    | lessEqual => exact ⟨_, _, rfl, .lessEqual, Option.some.inj binds⟩
    | minus => exact ⟨_, _, rfl, .difference, Option.some.inj binds⟩
    | plus => exact ⟨_, _, rfl, .sum, Option.some.inj binds⟩
    | slash => exact ⟨_, _, rfl, .quotient, Option.some.inj binds⟩
    | star => exact ⟨_, _, rfl, .product, Option.some.inj binds⟩
    | _ => cases binds
  · rintro ⟨level, operand, takes, listed, rfl⟩
    cases listed <;> cases takes <;> rfl

theorem mem_unaryOperators_iff {kind : TokenKind} : kind ∈ unaryOperators ↔ Listed .unary kind := by
  constructor
  · intro member
    simp only [unaryOperators, List.mem_cons, List.not_mem_nil, or_false] at member
    rcases member with rfl | rfl
    · exact .not
    · exact .negative
  · intro listed
    cases listed <;> decide

theorem precedence?_of_operator {level operand : Rule} (takes : level.operand? = some operand)
    (operator : Operator level) : precedence? operator.1.kind = some level.rank :=
  precedence?_eq_some_iff.mpr ⟨level, operand, takes, operator.2, rfl⟩

theorem rank_level_lt {level operand : Rule} (takes : level.operand? = some operand) :
    level.rank < Rule.unary.rank := by
  cases level <;> cases takes <;> decide

/-- The strength of an operator on the stack. -/
def strength (operator : Token) : Nat := (precedence? operator.kind).getD 0

theorem strength_of_operator {level operand : Rule} (takes : level.operand? = some operand)
    (operator : Operator level) : strength operator.1 = level.rank := by
  rw [strength, precedence?_of_operator takes operator, Option.getD_some]

/-- An operator binds less tightly than its operands. -/
theorem strength_lt_operand {level operand : Rule} (takes : level.operand? = some operand)
    (operator : Operator level) : strength operator.1 < operand.rank := by
  have binds := strength_of_operator takes operator
  have tighter := Rule.rank_operand takes
  omega

theorem close_unary (level : Nat) (operator : Token) (stack : List Frame) (node : Node) :
    close level (.unary operator :: stack) node = close level stack (.unary operator node) := by
  rw [close]

theorem close_binary (level : Nat) (left : Node) (operator : Token) (stack : List Frame) (node : Node) :
    close level (.binary left operator :: stack) node =
      if level ≤ strength operator then close level stack (.binary left operator node)
      else (.binary left operator :: stack, node) := by
  rw [close, strength]

/-- Nothing on top of the stack binds as tightly as a strength, so `close` leaves the stack alone. -/
def Firm (level : Nat) : List Frame → Prop
  | .unary _ :: _ => False
  | .binary _ operator :: _ => strength operator < level
  | _ => True

theorem Firm.mono {level level' : Nat} {stack : List Frame} (firm : Firm level stack)
    (bound : level ≤ level') : Firm level' stack := by
  match stack with
  | [] => trivial
  | .unary _ :: _ => exact firm
  | .binary _ operator :: _ => exact Nat.lt_of_lt_of_le firm bound
  | .group :: _ => trivial

theorem close_of_firm {level : Nat} {stack : List Frame} (firm : Firm level stack) (node : Node) :
    close level stack node = (stack, node) := by
  match stack with
  | [] => rfl
  | .unary _ :: _ => exact firm.elim
  | .binary left operator :: stack =>
      rw [close_binary, if_neg]
      exact Nat.not_le.mpr firm
  | .group :: _ => rfl

/-! ## What the stack stands for -/

/-- The tokens that a stack was read from.  The left operand of a binary operator is derived by the
operator's rule, and nothing below the operator binds as tightly. -/
inductive Opens : List Frame → List Token → Prop where
  | bottom : Opens [] []
  | group {stack : List Frame} {ts : List Token} (opening : OfKind .leftParen)
      (below : Opens stack ts) : Opens (.group :: stack) (ts ++ [opening.1])
  | unary {stack : List Frame} {ts : List Token} (operator : Operator .unary)
      (below : Opens stack ts) : Opens (.unary operator.1 :: stack) (ts ++ [operator.1])
  | binary {stack : List Frame} {ts us : List Token} {level operand : Rule} {left : Node}
      (takes : level.operand? = some operand) (operator : Operator level)
      (first : Produces level us left) (firm : Firm level.rank stack) (below : Opens stack ts) :
      Opens (.binary left operator.1 :: stack) (ts ++ (us ++ [operator.1]))

/-- An expression of this rank is an operand of what is on top of the stack. -/
def Fits (rank : Nat) : List Frame → Prop
  | .unary _ :: _ => Rule.unary.rank ≤ rank
  | .binary _ operator :: _ => strength operator < rank
  | _ => True

theorem Firm.fits {rank : Nat} {stack : List Frame} (firm : Firm rank stack) : Fits rank stack := by
  match stack with
  | [] => trivial
  | .unary _ :: _ => exact firm.elim
  | .binary _ _ :: _ => exact firm
  | .group :: _ => trivial

/-- Unary and primary expressions are operands of everything. -/
theorem Opens.fits {stack : List Frame} {ts : List Token} (opens : Opens stack ts) {rank : Nat}
    (tight : Rule.unary.rank ≤ rank) : Fits rank stack := by
  cases opens with
  | bottom => trivial
  | group => trivial
  | unary => exact tight
  | binary takes operator =>
      show strength operator.1 < rank
      rw [strength_of_operator takes operator]
      exact Nat.lt_of_lt_of_le (rank_level_lt takes) tight

/-- Closing reduces what is on top of the stack and loses no token. -/
theorem close_sound {level : Nat} (loose : level ≤ Rule.unary.rank) {stack : List Frame}
    {ts us : List Token} {node : Node} {rule : Rule} (opens : Opens stack ts)
    (produces : Produces rule us node) (bound : level ≤ rule.rank) (fits : Fits rule.rank stack) :
    ∃ ts' us' rule', Opens (close level stack node).1 ts' ∧ Firm level (close level stack node).1 ∧
      Produces rule' us' (close level stack node).2 ∧ level ≤ rule'.rank ∧ ts' ++ us' = ts ++ us := by
  induction opens generalizing us node rule with
  | bottom => exact ⟨[], us, rule, .bottom, trivial, produces, bound, rfl⟩
  | group opening below ih =>
      exact ⟨_, us, rule, .group opening below, trivial, produces, bound, rfl⟩
  | unary operator below ih =>
      obtain ⟨ts', us', rule', result⟩ :=
        ih (.unary operator (produces.loosen fits)) loose (below.fits (Nat.le_refl _))
      refine ⟨ts', us', rule', ?_⟩
      rw [close_unary]
      simpa only [List.append_assoc, List.cons_append, List.nil_append] using result
  | @binary stack ts vs levelRule operand left takes operator first firm below ih =>
      have binds : strength operator.1 = levelRule.rank := strength_of_operator takes operator
      by_cases closes : level ≤ strength operator.1
      · have second : Produces operand us node := by
          refine produces.loosen ?_
          rw [Rule.rank_operand takes, ← binds]
          exact fits
        obtain ⟨ts', us', rule', result⟩ :=
          ih (.binary takes first operator second) (binds ▸ closes) firm.fits
        refine ⟨ts', us', rule', ?_⟩
        rw [close_binary, if_pos closes]
        simpa only [List.append_assoc, List.cons_append, List.nil_append] using result
      · rw [close_binary, if_neg closes]
        exact ⟨_, us, rule, .binary takes operator first firm below, Nat.not_le.mp closes, produces,
          bound, rfl⟩

/-! ## What the machine has read is produced -/

/-- The tokens of a statement in front of its expression. -/
inductive Opening : Purpose → List Token → Prop where
  | expression : Opening .expression []
  | print (word : OfKind .wordPrint) : Opening .print [word.1]
  | declaration (word : OfKind .wordVar) (name : OfKind .identifier) (equal : OfKind .equal) :
      Opening (.declaration name.1) [word.1, name.1, equal.1]

/-- The tokens of a statement that a phase was reached by. -/
inductive Standing : Phase → List Token → Prop where
  | name (word : OfKind .wordVar) : Standing .name [word.1]
  | named (word : OfKind .wordVar) (name : OfKind .identifier) :
      Standing (.named name.1) [word.1, name.1]
  | operand {purpose : Purpose} {stack : List Frame} {us vs : List Token}
      (opening : Opening purpose us) (opens : Opens stack vs) :
      Standing (.operand purpose stack) (us ++ vs)
  | operator {purpose : Purpose} {stack : List Frame} {node : Node} {us vs ws : List Token}
      (opening : Opening purpose us) (opens : Opens stack vs) (value : Produces .primary ws node) :
      Standing (.operator purpose stack node) (us ++ (vs ++ ws))

theorem takeOperand_sound {purpose : Purpose} {stack : List Frame} {us vs : List Token} {t : Token}
    {phase : Phase} (opening : Opening purpose us) (opens : Opens stack vs)
    (taken : takeOperand purpose stack t = some phase) : Standing phase (us ++ (vs ++ [t])) := by
  unfold takeOperand at taken
  split at taken
  · rename_i node found
    cases taken
    exact .operator opening opens (.atom (Token.atom?_eq_some_iff.mp found))
  · split at taken
    · rename_i kind
      cases taken
      exact .operand opening (.group ⟨t, kind⟩ opens)
    · split at taken
      · rename_i member
        cases taken
        exact .operand opening (.unary ⟨t, mem_unaryOperators_iff.mp member⟩ opens)
      · cases taken

/-- Closing all that is open up to a group or the bottom leaves an expression. -/
theorem close_all_sound {stack : List Frame} {vs ws : List Token} {node : Node}
    (opens : Opens stack vs) (value : Produces .primary ws node) :
    ∃ ts us, Opens (close 0 stack node).1 ts ∧ Produces .expression us (close 0 stack node).2 ∧
      ts ++ us = vs ++ ws := by
  obtain ⟨ts, us, rule, opens', -, produces, -, same⟩ :=
    close_sound (Nat.zero_le _) opens value (Nat.zero_le _) (opens.fits (by decide))
  exact ⟨ts, us, opens', produces.loosen (Nat.zero_le _), same⟩

theorem takeOperator_sound {purpose : Purpose} {stack : List Frame} {node : Node}
    {us vs ws : List Token} {t : Token} {phase : Phase} (opening : Opening purpose us)
    (opens : Opens stack vs) (value : Produces .primary ws node)
    (taken : takeOperator purpose stack node t = some phase) :
    Standing phase (us ++ (vs ++ ws ++ [t])) := by
  unfold takeOperator at taken
  split at taken
  · rename_i level binds
    obtain ⟨levelRule, operand, takes, listed, rfl⟩ := precedence?_eq_some_iff.mp binds
    have loose := rank_level_lt takes
    obtain ⟨ts, ws', rule, opens', firm, produces, bound, same⟩ :=
      close_sound (Nat.le_of_lt loose) opens value (Nat.le_of_lt (Nat.lt_trans loose (by decide)))
        (opens.fits (by decide))
    cases taken
    rw [← same, List.append_assoc]
    exact .operand opening (.binary takes ⟨t, listed⟩ (produces.loosen bound) firm opens')
  · split at taken
    · rename_i kind
      obtain ⟨ts, ws', opens', produces, same⟩ := close_all_sound opens value
      split at taken
      · rename_i stack' inner closed
        rw [closed] at opens' produces
        cases taken
        cases opens' with
        | @group _ ts opening' below =>
            rw [← same, List.append_assoc, List.append_assoc]
            exact .operator opening below (.group opening' produces ⟨t, kind⟩)
      · cases taken
    · cases taken

theorem complete?_sound {stack : List Frame} {node value : Node} {vs ws : List Token}
    (opens : Opens stack vs) (primary : Produces .primary ws node)
    (completes : complete? stack node = some value) : Produces .expression (vs ++ ws) value := by
  obtain ⟨ts, us, opens', produces, same⟩ := close_all_sound opens primary
  unfold complete? at completes
  split at completes
  · rename_i value' closed
    rw [closed] at opens' produces
    cases completes
    cases opens'
    rw [← same]
    exact produces
  · cases completes

/-- An expression behind its opening and in front of a semicolon is a statement. -/
theorem Opening.statement {purpose : Purpose} {us vs : List Token} {value : Node}
    (opening : Opening purpose us) (produces : Produces .expression vs value)
    (semicolon : OfKind .semicolon) :
    ProducesStatement (us ++ (vs ++ [semicolon.1])) (purpose.statement value) := by
  cases opening with
  | expression => exact .expression produces semicolon
  | print word => exact .print word produces semicolon
  | declaration word name equal => exact .initialized word name equal produces semicolon

theorem begin_sound {t : Token} {phase : Phase} (taken : begin t = some phase) :
    Standing phase [t] := by
  unfold begin at taken
  split at taken
  · rename_i kind
    cases taken
    exact .name ⟨t, kind⟩
  · split at taken
    · rename_i kind
      cases taken
      exact .operand (.print ⟨t, kind⟩) .bottom
    · exact takeOperand_sound .expression .bottom taken

/-- Tokens of which the first is on a line. -/
def StartsOn (line : Int) (ts : List Token) : Prop := ∃ t rest, ts = t :: rest ∧ t.line = line

theorem StartsOn.append {line : Int} {ts : List Token} (starts : StartsOn line ts) (us : List Token) :
    StartsOn line (ts ++ us) := by
  obtain ⟨t, rest, rfl, same⟩ := starts
  exact ⟨t, rest ++ us, rfl, same⟩

/-- The machine has read a program, whose statements it has put together, and the front part of the
statement it is in, whose first line it keeps. -/
def Consistent (m : Machine) (ts : List Token) : Prop :=
  ∃ front us : List Token, ts = front ++ us ∧ ProducesProgram front m.finished.reverse ∧
    match m.current with
    | none => us = []
    | some (line, phase) => Standing phase us ∧ StartsOn line us

theorem consistent_initial : Consistent Machine.initial [] := ⟨[], [], rfl, .empty, rfl⟩

section Step

variable {m m' : Machine} {front us : List Token} {t : Token} {line : Int}

theorem consistent_inside (done : ProducesProgram front m.finished.reverse) {phase : Phase}
    (standing : Standing phase (us ++ [t])) (starts : StartsOn line (us ++ [t])) :
    Consistent (m.inside line phase) (front ++ us ++ [t]) :=
  ⟨front, us ++ [t], List.append_assoc .., done, standing, starts⟩

theorem consistent_finish (done : ProducesProgram front m.finished.reverse) {statement : Node}
    (produces : ProducesStatement (us ++ [t]) statement) (starts : StartsOn line (us ++ [t])) :
    Consistent (m.finish line statement) (front ++ us ++ [t]) := by
  obtain ⟨first, rest, same, rfl⟩ := starts
  rw [same] at produces
  refine ⟨front ++ (us ++ [t]), [], ?_, ?_, rfl⟩
  · rw [List.append_nil, List.append_assoc]
  · rw [same, Machine.finish, List.reverse_cons]
    exact .snoc done produces

/-- One token keeps the machine consistent with what it has read. -/
theorem step_consistent {ts : List Token} (consistent : Consistent m ts)
    (steps : m.step t = some m') : Consistent m' (ts ++ [t]) := by
  obtain ⟨front, us, rfl, done, stands⟩ := consistent
  unfold Machine.step at steps
  split at steps
  · rename_i idle
    rw [idle] at stands
    obtain rfl : us = [] := stands
    obtain ⟨phase, taken, rfl⟩ := Option.map_eq_some_iff.mp steps
    exact consistent_inside done (begin_sound taken) ⟨t, [], rfl, rfl⟩
  · rename_i line inName
    rw [inName] at stands
    obtain ⟨standing, starts⟩ := stands
    cases standing with
    | name word =>
        split at steps
        · rename_i kind
          cases steps
          exact consistent_inside done (.named word ⟨t, kind⟩) (starts.append [t])
        · cases steps
  · rename_i line name isNamed
    rw [isNamed] at stands
    obtain ⟨standing, starts⟩ := stands
    cases standing with
    | named word name =>
        split at steps
        · rename_i kind
          cases steps
          have opened : Standing _ [word.1, name.1, t] :=
            .operand (.declaration word name ⟨t, kind⟩) .bottom
          exact consistent_inside done opened (starts.append [t])
        · split at steps
          · rename_i kind
            cases steps
            exact consistent_finish done (.bare word name ⟨t, kind⟩) (starts.append [t])
          · cases steps
  · rename_i line purpose stack inOperand
    rw [inOperand] at stands
    obtain ⟨standing, starts⟩ := stands
    cases standing with
    | operand opening opens =>
        obtain ⟨phase, taken, rfl⟩ := Option.map_eq_some_iff.mp steps
        refine consistent_inside done ?_ (starts.append [t])
        rw [List.append_assoc]
        exact takeOperand_sound opening opens taken
  · rename_i line purpose stack node inOperator
    rw [inOperator] at stands
    obtain ⟨standing, starts⟩ := stands
    cases standing with
    | operator opening opens value =>
        split at steps
        · rename_i kind
          obtain ⟨whole, completes, rfl⟩ := Option.map_eq_some_iff.mp steps
          refine consistent_finish done ?_ (starts.append [t])
          rw [List.append_assoc]
          exact opening.statement (complete?_sound opens value completes) ⟨t, kind⟩
        · obtain ⟨phase, taken, rfl⟩ := Option.map_eq_some_iff.mp steps
          refine consistent_inside done ?_ (starts.append [t])
          rw [List.append_assoc]
          exact takeOperator_sound opening opens value taken

/-- A run keeps the machine consistent with what it has read. -/
theorem run_consistent {ts vs : List Token} (consistent : Consistent m ts)
    (runs : m.run vs = .ok m') : Consistent m' (ts ++ vs) := by
  induction vs generalizing m ts with
  | nil =>
      cases runs
      rw [List.append_nil]
      exact consistent
  | cons t vs ih =>
      rw [Machine.run] at runs
      split at runs
      · rename_i next steps
        have further := ih (step_consistent consistent steps) runs
        rwa [List.append_assoc, List.singleton_append] at further
      · cases runs

end Step

/-! ## What is produced is taken -/

theorem run_of_step {m m' : Machine} {t : Token} (steps : m.step t = some m') (ts : List Token) :
    m.run (t :: ts) = m'.run ts := by
  rw [Machine.run, steps]

theorem run_append {m m' : Machine} {ts : List Token} (runs : m.run ts = .ok m') (us : List Token) :
    m.run (ts ++ us) = m'.run us := by
  induction ts generalizing m with
  | nil =>
      cases runs
      rfl
  | cons t ts ih =>
      rw [Machine.run] at runs
      split at runs
      · rename_i next steps
        rw [List.cons_append, run_of_step steps]
        exact ih runs
      · cases runs

theorem step_operand {purpose : Purpose} {stack : List Frame} {t : Token} {phase : Phase}
    (taken : takeOperand purpose stack t = some phase) (m : Machine) (line : Int) :
    (m.inside line (.operand purpose stack)).step t = some (m.inside line phase) :=
  congrArg (Option.map _) taken

theorem step_operator {purpose : Purpose} {stack : List Frame} {node : Node} {t : Token}
    {phase : Phase} (taken : takeOperator purpose stack node t = some phase)
    (other : t.kind ≠ .semicolon) (m : Machine) (line : Int) :
    (m.inside line (.operator purpose stack node)).step t = some (m.inside line phase) := by
  simp only [Machine.step, Machine.inside, if_neg other]
  exact congrArg (Option.map _) taken

section Operand

variable (purpose : Purpose) (stack : List Frame)

theorem takeOperand_atom {t : Token} {node : Node} (stands : Atom t node) :
    takeOperand purpose stack t = some (.operator purpose stack node) := by
  rw [takeOperand, Token.atom?_eq_some_iff.mpr stands]

theorem takeOperand_group (opening : OfKind .leftParen) :
    takeOperand purpose stack opening.1 = some (.operand purpose (.group :: stack)) := by
  have noAtom : opening.1.atom? = none := by simp only [Token.atom?, opening.2]
  simp only [takeOperand, noAtom, if_pos opening.2]

theorem takeOperand_unary (operator : Operator .unary) :
    takeOperand purpose stack operator.1 = some (.operand purpose (.unary operator.1 :: stack)) := by
  have noAtom : operator.1.atom? = none := by
    cases found : operator.1.atom? with
    | none => rfl
    | some node => exact absurd operator.mem ((Token.atom?_eq_some_iff.mp found).not_operator .unary)
  have noGroup : operator.1.kind ≠ .leftParen := by
    intro kind
    exact absurd operator.mem (by rw [kind]; decide)
  simp only [takeOperand, noAtom, if_neg noGroup, if_pos (mem_unaryOperators_iff.mpr operator.2)]

/-- An operator behind operands that close to one takes it as its left operand. -/
theorem takeOperator_binary {level operand : Rule} (takes : level.operand? = some operand)
    (operator : Operator level) {node left : Node} {below : List Frame}
    (closes : close level.rank stack node = (below, left)) :
    takeOperator purpose stack node operator.1 =
      some (.operand purpose (.binary left operator.1 :: below)) := by
  simp only [takeOperator, precedence?_of_operator takes operator, closes]

theorem takeOperator_group (closing : OfKind .rightParen) {node inner : Node} {below : List Frame}
    (closes : close 0 stack node = (.group :: below, inner)) :
    takeOperator purpose stack node closing.1 = some (.operator purpose below (.grouping inner)) := by
  have noOperator : precedence? closing.1.kind = none := by rw [closing.2]; rfl
  simp only [takeOperator, noOperator, if_pos closing.2, closes]

end Operand

/-- From one phase of a statement, tokens take the machine to the place behind an operand; to all
that closes as loosely as `loosest` the stack looks as if `node` alone stood on top of `stack`. -/
def Arrives (loosest : Nat) (stack : List Frame) (node : Node) (purpose : Purpose) (phase : Phase)
    (ts : List Token) : Prop :=
  ∀ (m : Machine) (line : Int), ∃ stack' node',
    (m.inside line phase).run ts = .ok (m.inside line (.operator purpose stack' node')) ∧
      ∀ level ≤ loosest, close level stack' node' = close level stack node

theorem Arrives.mono {loosest loosest' : Nat} {stack : List Frame} {node : Node} {purpose : Purpose}
    {phase : Phase} {ts : List Token} (arrives : Arrives loosest stack node purpose phase ts)
    (bound : loosest' ≤ loosest) : Arrives loosest' stack node purpose phase ts := by
  intro m line
  obtain ⟨stack', node', runs, same⟩ := arrives m line
  exact ⟨stack', node', runs, fun level below => same level (Nat.le_trans below bound)⟩

/-- Behind an operand, an operator and its right operand are taken; to all that closes as loosely as the
operator they stand as one node. -/
theorem run_binary {level operand : Rule} (takes : level.operand? = some operand) (operator : Operator level)
    {purpose : Purpose} {stack stack' : List Frame} {left node' right : Node} {us : List Token}
    (firm : Firm level.rank stack)
    (same : ∀ strength ≤ level.rank, close strength stack' node' = close strength stack left)
    (second : Firm operand.rank (.binary left operator.1 :: stack) →
      Arrives operand.rank (.binary left operator.1 :: stack) right purpose
        (.operand purpose (.binary left operator.1 :: stack)) us) :
    Arrives level.rank stack (.binary left operator.1 right) purpose (.operator purpose stack' node')
      (operator.1 :: us) := by
  intro m line
  have tighter := Rule.rank_operand takes
  have binds := strength_of_operator takes operator
  have closes : close level.rank stack' node' = (stack, left) := by
    rw [same _ (Nat.le_refl _), close_of_firm firm]
  have steps := step_operator (takeOperator_binary purpose stack' takes operator closes)
    (Rule.ne_semicolon_of_mem operator.mem) m line
  obtain ⟨stack'', node'', runs, same'⟩ := second (strength_lt_operand takes operator) m line
  refine ⟨stack'', node'', ?_, fun level' below => ?_⟩
  · rw [run_of_step steps]
    exact runs
  · rw [same' level' (by omega), close_binary, if_pos (by omega)]

/-- The machine takes what a rule produces, as an operand. -/
theorem run_operand {rule : Rule} {ts : List Token} {node : Node} (produces : Produces rule ts node)
    (purpose : Purpose) (stack : List Frame) (firm : rule.rank < Rule.unary.rank → Firm rule.rank stack) :
    Arrives rule.rank stack node purpose (.operand purpose stack) ts := by
  induction produces generalizing stack with
  | expression value ih =>
      exact (ih stack fun _ => (firm (by decide)).mono (Nat.zero_le _)).mono (Nat.zero_le _)
  | operand takes value ih =>
      have tighter := Rule.rank_operand takes
      have steady := firm (rank_level_lt takes)
      exact (ih stack fun _ => steady.mono (by omega)).mono (by omega)
  | binary takes first operator second ih ih' =>
      intro m line
      have steady := firm (rank_level_lt takes)
      obtain ⟨stack', node', runs, same⟩ := ih stack firm m line
      obtain ⟨stack'', node'', further, same'⟩ :=
        run_binary takes operator steady same (fun firm' => ih' _ fun _ => firm') m line
      refine ⟨stack'', node'', ?_, same'⟩
      rw [run_append runs]
      exact further
  | @unary ts node operator operand ih =>
      intro m line
      have steps := step_operand (takeOperand_unary purpose stack operator) m line
      obtain ⟨stack', node', runs, same⟩ :=
        ih (.unary operator.1 :: stack) (fun tight => absurd tight (by decide)) m line
      refine ⟨stack', node', ?_, fun level below => ?_⟩
      · rw [run_of_step steps]
        exact runs
      · rw [same level below, close_unary]
  | primary value ih => exact (ih stack fun tight => absurd tight (by decide)).mono (by decide)
  | atom stands =>
      intro m line
      refine ⟨stack, _, ?_, fun _ _ => rfl⟩
      rw [run_of_step (step_operand (takeOperand_atom purpose stack stands) m line)]
      rfl
  | @group ts node opening inner closing ih =>
      intro m line
      have opens := step_operand (takeOperand_group purpose stack opening) m line
      obtain ⟨stack', node', runs, same⟩ := ih (.group :: stack) (fun _ => trivial) m line
      have closes := step_operator (takeOperator_group purpose stack' closing (same 0 (Nat.le_refl _)))
        (by simp [closing.2]) m line
      refine ⟨stack, .grouping node, ?_, fun _ _ => rfl⟩
      rw [run_of_step opens, run_append runs, run_of_step closes]
      rfl

/-- Behind the opening of a statement the machine takes its expression and its semicolon. -/
theorem run_value {ts : List Token} {value : Node} (produces : Produces .expression ts value)
    (semicolon : OfKind .semicolon) (purpose : Purpose) (m : Machine) (line : Int) :
    (m.inside line (.operand purpose [])).run (ts ++ [semicolon.1]) =
      .ok (m.finish line (purpose.statement value)) := by
  obtain ⟨stack, node, runs, same⟩ := run_operand produces purpose [] (fun _ => trivial) m line
  have completes : complete? stack node = some value := by
    have closes : close 0 stack node = ([], value) := same 0 (Nat.le_refl _)
    rw [complete?, closes]
  have steps : (m.inside line (.operator purpose stack node)).step semicolon.1 =
      some (m.finish line (purpose.statement value)) := by
    simp only [Machine.step, Machine.inside, if_pos semicolon.2, completes]
    rfl
  rw [run_append runs, run_of_step steps]
  rfl

/-- The machine takes a statement and is idle again. -/
theorem run_statement {t : Token} {ts : List Token} {statement : Node}
    (produces : ProducesStatement (t :: ts) statement) (m : Machine) (idle : m.current = none) :
    m.run (t :: ts) = .ok (m.finish t.line statement) := by
  have starts (t : Token) : m.step t = (begin t).map (m.inside t.line) := by
    rw [Machine.step, idle]
  have varStarts (word : OfKind .wordVar) : m.step word.1 = some (m.inside word.1.line .name) := by
    rw [starts, begin, if_pos word.2]
    rfl
  have takesName (line : Int) (name : OfKind .identifier) :
      (m.inside line .name).step name.1 = some (m.inside line (.named name.1)) := by
    simp only [Machine.step, Machine.inside, if_pos name.2]
  generalize same : t :: ts = us at produces
  cases produces with
  | bare word name semicolon =>
      cases same
      have ends : (m.inside word.1.line (.named name.1)).step semicolon.1 =
          some (m.finish word.1.line (.declaration name.1.lexeme .missing name.1.line)) := by
        have other : semicolon.1.kind ≠ .equal := by simp [semicolon.2]
        simp only [Machine.step, Machine.inside, if_neg other, if_pos semicolon.2]
        rfl
      rw [run_of_step (varStarts word), run_of_step (takesName _ name), run_of_step ends]
      rfl
  | initialized word name equal value semicolon =>
      cases same
      have assigns : (m.inside word.1.line (.named name.1)).step equal.1 =
          some (m.inside word.1.line (.operand (.declaration name.1) [])) := by
        simp only [Machine.step, Machine.inside, if_pos equal.2]
      rw [run_of_step (varStarts word), run_of_step (takesName _ name), run_of_step assigns]
      exact run_value value semicolon (.declaration name.1) m word.1.line
  | print word value semicolon =>
      cases same
      have prints : m.step word.1 = some (m.inside word.1.line (.operand .print [])) := by
        have other : word.1.kind ≠ .wordVar := by simp [word.2]
        rw [starts, begin, if_neg other, if_pos word.2]
        rfl
      rw [run_of_step prints]
      exact run_value value semicolon .print m word.1.line
  | expression value semicolon =>
      obtain ⟨first, rest, rfl, noVar, noPrint⟩ := value.head
      obtain ⟨rfl, rfl⟩ := List.cons.inj same
      -- The first token is taken at once, as if the statement had been opened in front of it.
      have enters : m.step t = (m.inside t.line (.operand .expression [])).step t := by
        rw [starts, begin, if_neg noVar, if_neg noPrint]
        rfl
      have runs := run_value value semicolon .expression m t.line
      rw [List.cons_append, Machine.run] at runs
      rw [List.cons_append, Machine.run, enters]
      exact runs

/-- The machine takes a program and puts its statements together. -/
theorem run_program {ts : List Token} {statements : List Located} (produces : ProducesProgram ts statements) :
    Machine.initial.run ts = .ok ⟨none, statements.reverse⟩ := by
  induction produces with
  | empty => rfl
  | snoc before last ih =>
      rw [run_append ih, run_statement last _ rfl, Machine.finish, List.reverse_append]
      rfl

/-! ## Streams -/

/-- **The machine decides the productions**: it comes to statements exactly if the stream is whole and
its tokens make a program of these statements. -/
theorem located_eq_ok_iff {stream : Stream} {statements : List Located} :
    located stream = .ok statements ↔
      stream.fault = none ∧ ProducesProgram stream.tokens statements := by
  constructor
  · intro found
    unfold located at found
    split at found
    · cases found
    · rename_i m runs
      split at found
      · cases found
      · rename_i whole idle
        cases found
        obtain ⟨front, us, same, done, stands⟩ := run_consistent consistent_initial runs
        rw [idle] at stands
        obtain rfl : us = [] := stands
        rw [List.nil_append, List.append_nil] at same
        rw [same]
        exact ⟨whole, done⟩
      · cases found
  · rintro ⟨whole, produces⟩
    rw [located, run_program produces]
    simp only [whole, List.reverse_reverse]

/-- A stream without diagnostic does not break off, and its tokens derive the statements. -/
theorem read_sound {stream : Stream} (clean : (read stream).diagnostics = []) :
    stream.fault = none ∧
      ∃ p : Program, p.yield = stream.tokens ∧ (read stream).statements = p.ast := by
  unfold read at clean ⊢
  split at clean
  · cases clean
  · rename_i statements found
    split at clean
    · cases clean
    · obtain ⟨whole, produces⟩ := located_eq_ok_iff.mp found
      obtain ⟨p, yields, ast⟩ := produces.exists_program
      exact ⟨whole, p, yields, ast.symm⟩

/-- A stream of a program that does not break off is read as the program's syntax tree, unless that
nests too deeply. -/
theorem read_yield {stream : Stream} (whole : stream.fault = none) {p : Program}
    (yields : p.yield = stream.tokens) :
    read stream = ⟨p.ast, []⟩ ∨ ∃ line, read stream = ⟨[], [.atLine line tooDeepMessage]⟩ := by
  obtain ⟨statements, produces, ast⟩ := p.produces
  have found : located stream = .ok statements := located_eq_ok_iff.mpr ⟨whole, yields ▸ produces⟩
  rw [read, found]
  simp only
  split
  · exact .inr ⟨_, rfl⟩
  · rw [ast]
    exact .inl rfl

end ShiftReduce

end LoxLang
