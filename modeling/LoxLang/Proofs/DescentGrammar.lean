/-
# LoxLang.Proofs.DescentGrammar -- recursive descent decides the grammar

What a rule reads is the yield of a derivation (`parse_sound`), and on the yield of a
derivation a rule answers with its syntax tree, or that it nests too deeply
(`parse_yield`).  Which of the two depends on the height of the derivation alone, so
the limit cuts exactly where it says.

A rule reads as far as it can.  On the yield of a derivation it therefore stops at the
end only if no operator that it could still take follows: `Halts`.
-/
import LoxLang.Grammar.Descent
import LoxLang.Proofs.Derivation

namespace LoxLang.Descent

open LoxLang.Derivation

set_option autoImplicit false

/-! ## What is read is derivable -/

theorem parse_level {level operand : Rule} (takes : level.operand? = some operand) (limit : Nat)
    (ts : List Token) :
    parse (limit + 1) level ts = leftGrouped level.operators (parse limit operand) ts := by
  cases level <;> cases takes <;> rfl

theorem expect_ok {kind : TokenKind} {cause : Cause} {ts rest : List Token}
    (taken : expect kind cause ts = .ok rest) : ∃ t : OfKind kind, ts = t.1 :: rest := by
  cases ts with
  | nil => cases taken
  | cons t ts =>
      simp only [expect] at taken
      split at taken
      · cases taken
        exact ⟨⟨t, ‹_›⟩, rfl⟩
      · cases taken

theorem chain_sound {level operand : Rule} {limit : Nat}
    (sound : ∀ ts node rest, parse limit operand ts = .ok (node, rest) →
      ∃ d : Tree operand, ts = d.yield ++ rest ∧ d.ast = node ∧ d.height ≤ limit)
    (fuel : List Token) (left : Node) (ts : List Token) {node : Node} {rest : List Token}
    (read : chain level.operators (parse limit operand) fuel left ts = .ok (node, rest)) :
    ∃ more : Further level operand, ts = more.yield ++ rest ∧ more.fold left = node ∧
      more.height ≤ limit := by
  induction fuel generalizing left ts with
  | nil =>
      cases read
      exact ⟨.done, rfl, rfl, Nat.zero_le _⟩
  | cons _ fuel ih =>
      cases ts with
      | nil =>
          cases read
          exact ⟨.done, rfl, rfl, Nat.zero_le _⟩
      | cons operator ts =>
          simp only [chain] at read
          split at read
          · rename_i member
            split at read
            · cases read
            · rename_i right behind parsed
              obtain ⟨d, rfl, rfl, bound⟩ := sound _ _ _ parsed
              obtain ⟨more, rfl, rfl, bounds⟩ := ih _ _ read
              refine ⟨.step ⟨operator, listed_iff.mpr member⟩ d more, ?_, rfl, ?_⟩
              · simp only [Further.yield, List.cons_append, List.append_assoc]
              · exact Nat.max_le.mpr ⟨bound, bounds⟩
          · cases read
            exact ⟨.done, rfl, rfl, Nat.zero_le _⟩

theorem parse_sound {limit : Nat} {rule : Rule} {ts : List Token} {node : Node} {rest : List Token}
    (read : parse limit rule ts = .ok (node, rest)) :
    ∃ d : Tree rule, ts = d.yield ++ rest ∧ d.ast = node ∧ d.height ≤ limit := by
  induction limit generalizing rule ts node rest with
  | zero => cases read
  | succ limit ih =>
      cases takes : rule.operand? with
      | some operand =>
          rw [parse_level takes, leftGrouped] at read
          split at read
          · cases read
          · rename_i left behind parsed
            obtain ⟨first, rfl, rfl, bound⟩ := ih parsed
            obtain ⟨more, rfl, rfl, bounds⟩ := chain_sound (fun _ _ _ => ih) _ _ _ read
            refine ⟨.level takes first more, ?_, rfl, ?_⟩
            · simp only [Tree.yield, List.append_assoc]
            · exact Nat.succ_le_succ (Nat.max_le.mpr ⟨bound, bounds⟩)
      | none =>
          cases rule with
          | expression =>
              obtain ⟨value, rfl, rfl, bound⟩ := ih read
              exact ⟨.expression value, rfl, rfl, Nat.succ_le_succ bound⟩
          | unary =>
              cases ts with
              | nil =>
                  obtain ⟨value, same, rfl, bound⟩ := ih read
                  exact ⟨.primary value, same, rfl, Nat.succ_le_succ bound⟩
              | cons operator ts =>
                  simp only [parse] at read
                  split at read
                  · rename_i member
                    split at read
                    · cases read
                    · rename_i parsed
                      cases read
                      obtain ⟨operand, rfl, rfl, bound⟩ := ih parsed
                      exact ⟨.unary ⟨operator, listed_iff.mpr member⟩ operand, rfl, rfl,
                        Nat.succ_le_succ bound⟩
                  · obtain ⟨value, same, rfl, bound⟩ := ih read
                    exact ⟨.primary value, same, rfl, Nat.succ_le_succ bound⟩
          | primary =>
              cases ts with
              | nil => cases read
              | cons t ts =>
                  simp only [parse] at read
                  split at read
                  · rename_i atom
                    cases read
                    exact ⟨.atom t (Token.atom?_eq_some_iff.mp atom), rfl, rfl, Nat.succ_pos limit⟩
                  · split at read
                    · rename_i opens
                      split at read
                      · cases read
                      · rename_i parsed
                        obtain ⟨inner, rfl, rfl, bound⟩ := ih parsed
                        split at read
                        · cases read
                        · rename_i taken
                          cases read
                          obtain ⟨closing, rfl⟩ := expect_ok taken
                          refine ⟨.group ⟨t, opens⟩ inner closing, ?_, rfl, Nat.succ_le_succ bound⟩
                          simp only [Tree.yield, List.cons_append, List.append_assoc,
                            List.nil_append]
                    · cases read
          | _ => cases takes

/-! ## What is derivable is read -/

/-- No operator follows that a rule, or a rule for its operands, would take. -/
def Halts (rule : Rule) (rest : List Token) : Prop :=
  ∀ t ∈ rest.head?, ∀ level operand : Rule, level.operand? = some operand →
    rule.rank ≤ level.rank → t.kind ∉ level.operators

theorem Halts.mono {rule tighter : Rule} {rest : List Token} (halts : Halts rule rest)
    (bound : rule.rank ≤ tighter.rank) : Halts tighter rest :=
  fun t head level operand takes rank => halts t head level operand takes (Nat.le_trans bound rank)

theorem Halts.of_kind {kind : TokenKind} (member : kind ∈ dropped) (rule : Rule) (t : OfKind kind)
    (rest : List Token) : Halts rule (t.1 :: rest) := by
  intro u head level operand _ _
  cases head
  rw [t.2]
  simp only [dropped, List.mem_cons, List.not_mem_nil, or_false] at member
  rcases member with rfl | rfl | rfl | rfl | rfl | rfl <;> cases level <;> decide

/-- Behind an operand stands an operator of the rule or what follows the whole chain. -/
theorem halts_further {level operand : Rule} (takes : level.operand? = some operand)
    (more : Further level operand) {rest : List Token} (halts : Halts level rest) :
    Halts operand (more.yield ++ rest) := by
  have rank := Rule.rank_operand takes
  cases more with
  | done => exact halts.mono (by omega)
  | step operator right more =>
      intro t head level' operand' takes' bound member
      cases head
      cases Rule.level_unique takes takes' operator.mem member
      omega

/-- The answer to a derivation of some height: it is read, unless it is higher than the limit. -/
def Answers (limit height : Nat) (node : Node) (rest : List Token) (p : Parsed) : Prop :=
  height ≤ limit ∧ p = .ok (node, rest) ∨ limit < height ∧ ∃ us, p = .error ⟨.tooDeep, us⟩

theorem Answers.succ {limit height : Nat} {node : Node} {rest : List Token} {p : Parsed}
    (answers : Answers limit height node rest p) :
    Answers (limit + 1) (height + 1) node rest p := by
  rcases answers with ⟨bound, read⟩ | ⟨bound, us, read⟩
  · exact .inl ⟨Nat.succ_le_succ bound, read⟩
  · exact .inr ⟨Nat.succ_lt_succ bound, us, read⟩

mutual

theorem parse_yield : {rule : Rule} → (d : Tree rule) → (limit : Nat) → (rest : List Token) →
    Halts rule rest → Answers limit d.height d.ast rest (parse limit rule (d.yield ++ rest))
  | _, d, 0, rest, _ => .inr ⟨d.height_pos, _, rfl⟩
  | _, .expression value, limit + 1, rest, halts =>
      (parse_yield value limit rest (halts.mono (Nat.zero_le _))).succ
  | level, .level takes first more, limit + 1, rest, halts => by
      rw [parse_level takes, leftGrouped, Tree.yield, List.append_assoc]
      rcases parse_yield first limit _ (halts_further takes more halts) with
        ⟨bound, read⟩ | ⟨bound, us, read⟩
      · rw [read]
        rcases chain_yield more takes limit _ first.ast rest (Nat.le_refl _) halts with
          ⟨bounds, reads⟩ | ⟨bounds, us, reads⟩
        · exact .inl ⟨Nat.succ_le_succ (Nat.max_le.mpr ⟨bound, bounds⟩), reads⟩
        · exact .inr ⟨Nat.succ_lt_succ (Nat.lt_of_lt_of_le bounds (Nat.le_max_right _ _)), us, reads⟩
      · rw [read]
        exact .inr ⟨Nat.succ_lt_succ (Nat.lt_of_lt_of_le bound (Nat.le_max_left _ _)), us, rfl⟩
  | _, .unary operator operand, limit + 1, rest, halts => by
      simp only [Tree.yield, List.cons_append, parse, if_pos operator.mem]
      rcases parse_yield operand limit rest halts with ⟨bound, read⟩ | ⟨bound, us, read⟩
      · rw [read]
        exact .inl ⟨Nat.succ_le_succ bound, rfl⟩
      · rw [read]
        exact .inr ⟨Nat.succ_lt_succ bound, us, rfl⟩
  | _, .primary value, limit + 1, rest, halts => by
      obtain ⟨t, us, yield, noOperator⟩ := value.primary_head
      have skips : parse (limit + 1) .unary (value.yield ++ rest) =
          parse limit .primary (value.yield ++ rest) := by
        rw [yield]
        simp only [List.cons_append, parse, if_neg noOperator]
      simp only [Tree.yield]
      rw [skips]
      exact (parse_yield value limit rest (halts.mono (by decide))).succ
  | _, .atom t stands, limit + 1, rest, _ => by
      simp only [Tree.yield, List.cons_append, List.nil_append, parse,
        Token.atom?_eq_some_iff.mpr stands]
      exact .inl ⟨Nat.succ_pos limit, rfl⟩
  | _, .group opening inner closing, limit + 1, rest, _ => by
      have opens : opening.1.atom? = none := by simp only [Token.atom?, opening.2]
      simp only [Tree.yield, List.cons_append, List.append_assoc, List.nil_append, parse, opens,
        if_pos opening.2]
      rcases parse_yield inner limit (closing.1 :: rest) (.of_kind (by decide) _ closing rest) with
        ⟨bound, read⟩ | ⟨bound, us, read⟩
      · rw [read]
        simp only [expect, if_pos closing.2]
        exact .inl ⟨Nat.succ_le_succ bound, rfl⟩
      · rw [read]
        exact .inr ⟨Nat.succ_lt_succ bound, us, rfl⟩

theorem chain_yield : {level operand : Rule} → (more : Further level operand) →
    level.operand? = some operand → (limit : Nat) → (fuel : List Token) → (left : Node) →
    (rest : List Token) → (more.yield ++ rest).length ≤ fuel.length → Halts level rest →
    Answers limit more.height (more.fold left) rest
      (chain level.operators (parse limit operand) fuel left (more.yield ++ rest))
  | level, operand, .done, takes, limit, fuel, left, rest, _, halts => by
      refine .inl ⟨Nat.zero_le _, ?_⟩
      simp only [Further.yield, List.nil_append]
      cases fuel with
      | nil => rfl
      | cons _ fuel =>
          cases rest with
          | nil => rfl
          | cons t rest => simp only [chain, if_neg (halts t rfl level operand takes (Nat.le_refl _))]; rfl
  | _, _, .step operator right more, takes, limit, [], left, rest, enough, _ => by
      simp [Further.yield] at enough
  | _, _, .step operator right more, takes, limit, _ :: fuel, left, rest, enough, halts => by
      simp only [Further.yield, List.cons_append, List.append_assoc, List.length_cons,
        List.length_append] at enough
      simp only [Further.yield, List.cons_append, List.append_assoc, chain, if_pos operator.mem]
      rcases parse_yield right limit _ (halts_further takes more halts) with
        ⟨bound, read⟩ | ⟨bound, us, read⟩
      · rw [read]
        have enough' : (more.yield ++ rest).length ≤ fuel.length := by
          rw [List.length_append]
          omega
        rcases chain_yield more takes limit fuel (.binary left operator.1 right.ast) rest enough'
          halts with ⟨bounds, reads⟩ | ⟨bounds, us, reads⟩
        · exact .inl ⟨Nat.max_le.mpr ⟨bound, bounds⟩, reads⟩
        · exact .inr ⟨Nat.lt_of_lt_of_le bounds (Nat.le_max_right _ _), us, reads⟩
      · rw [read]
        exact .inr ⟨Nat.lt_of_lt_of_le bound (Nat.le_max_left _ _), us, rfl⟩

end

/-! ## Statements -/

theorem closed_sound {limit : Nat} {cause : Cause} {build : Node → Node} {ts : List Token} {node : Node}
    {rest : List Token} (read : closed limit cause build ts = .ok (node, rest)) :
    ∃ (value : Tree .expression) (semicolon : OfKind .semicolon),
      ts = value.yield ++ semicolon.1 :: rest ∧ build value.ast = node ∧
      value.height ≤ limit := by
  unfold closed at read
  split at read
  · cases read
  · rename_i parsed
    obtain ⟨value, rfl, rfl, bound⟩ := parse_sound parsed
    split at read
    · cases read
    · rename_i taken
      cases read
      obtain ⟨semicolon, rfl⟩ := expect_ok taken
      exact ⟨value, semicolon, rfl, rfl, bound⟩

/-- What is read as a statement is derivable as one. -/
theorem statement_sound {limit : Nat} {ts : List Token} {node : Node} {rest : List Token}
    (read : statement limit ts = .ok (node, rest)) :
    ∃ d : Declaration, ts = d.yield ++ rest ∧ d.ast = node ∧ d.height ≤ limit := by
  cases ts with
  | nil => cases read
  | cons t ts =>
      simp only [statement] at read
      split at read
      · rename_i word
        cases ts with
        | nil => cases read
        | cons name ts =>
            simp only [declaration] at read
            split at read
            · rename_i isName
              cases ts with
              | nil => cases read
              | cons u ts =>
                  simp only [initializer] at read
                  split at read
                  · rename_i equal
                    obtain ⟨value, semicolon, rfl, rfl, bound⟩ := closed_sound read
                    refine ⟨.initialized ⟨t, word⟩ ⟨name, isName⟩ ⟨u, equal⟩ value semicolon, ?_,
                      rfl, bound⟩
                    simp only [Declaration.yield, List.cons_append, List.append_assoc,
                      List.nil_append]
                  · split at read
                    · rename_i semicolon
                      cases read
                      exact ⟨.bare ⟨t, word⟩ ⟨name, isName⟩ ⟨u, semicolon⟩, rfl, rfl, Nat.zero_le _⟩
                    · cases read
            · cases read
      · split at read
        · rename_i word
          obtain ⟨value, semicolon, rfl, rfl, bound⟩ := closed_sound read
          refine ⟨.print ⟨t, word⟩ value semicolon, ?_, rfl, bound⟩
          simp only [Declaration.yield, List.cons_append, List.append_assoc, List.nil_append]
        · obtain ⟨value, semicolon, same, rfl, bound⟩ := closed_sound read
          refine ⟨.expression value semicolon, ?_, rfl, bound⟩
          simp only [same, Declaration.yield, List.append_assoc, List.cons_append, List.nil_append]

theorem closed_yield (limit : Nat) (cause : Cause) (build : Node → Node) (value : Tree .expression)
    (semicolon : OfKind .semicolon) (rest : List Token) :
    Answers limit value.height (build value.ast) rest
      (closed limit cause build (value.yield ++ semicolon.1 :: rest)) := by
  unfold closed
  rcases parse_yield value limit _ (.of_kind (by decide) _ semicolon rest) with
    ⟨bound, read⟩ | ⟨bound, us, read⟩
  · rw [read]
    simp only [expect, if_pos semicolon.2]
    exact .inl ⟨bound, rfl⟩
  · rw [read]
    exact .inr ⟨bound, us, rfl⟩

/-- A derivation of a statement is read, unless it is higher than the limit. -/
theorem statement_yield (limit : Nat) (d : Declaration) (rest : List Token) :
    Answers limit d.height d.ast rest (statement limit (d.yield ++ rest)) := by
  cases d with
  | bare word name semicolon =>
      refine .inl ⟨Nat.zero_le _, ?_⟩
      simp [Declaration.yield, Declaration.ast, statement, declaration, initializer, word.2, name.2,
        semicolon.2]
  | initialized word name equal value semicolon =>
      simp only [Declaration.yield, List.cons_append, List.append_assoc, List.nil_append, statement,
        if_pos word.2, declaration, if_pos name.2, initializer, if_pos equal.2]
      exact closed_yield limit _ (fun value => .declaration name.1.lexeme value name.1.line) value
        semicolon rest
  | print word value semicolon =>
      have noVar : word.1.kind ≠ .wordVar := by simp [word.2]
      simp only [Declaration.yield, List.cons_append, List.append_assoc, List.nil_append, statement,
        if_neg noVar, if_pos word.2]
      exact closed_yield _ _ .print value semicolon rest
  | expression value semicolon =>
      obtain ⟨t, us, same, noVar, noPrint⟩ := value.yield_head
      have whole : statement limit ((Declaration.expression value semicolon).yield ++ rest) =
          closed limit .endOfExpression .expression (value.yield ++ semicolon.1 :: rest) := by
        simp only [Declaration.yield, List.append_assoc, List.cons_append, List.nil_append, same,
          statement, if_neg noVar, if_neg noPrint]
      rw [whole]
      exact closed_yield _ _ .expression value semicolon rest

/-! ## Programs -/

section Passes

variable {limit : Nat} {ts : List Token}

@[simp] theorem passes_nil : passes limit [] = [] := by rw [passes]

theorem passes_of_ok {node : Node} {rest : List Token} (read : statement limit ts = .ok (node, rest)) :
    passes limit ts = .ok node :: passes limit rest := by
  cases ts with
  | nil => cases read
  | cons t ts =>
      rw [passes]
      split
      · rename_i same
        cases read.symm.trans same
        rfl
      · rename_i same
        cases read.symm.trans same

theorem passes_of_error {t : Token} {fault : Fault} (failed : statement limit (t :: ts) = .error fault) :
    passes limit (t :: ts) = .error fault :: passes limit (recover fault.rest) := by
  rw [passes]
  split
  · rename_i same
    cases failed.symm.trans same
  · rename_i same
    cases failed.symm.trans same
    rfl

/-- If no pass ends in a fault, the tokens are derivable as a program. -/
theorem passes_sound (clean : ∀ fault, .error fault ∉ passes limit ts) :
    ∃ p : Program, p.yield = ts ∧ passes limit ts = p.ast.map .ok ∧ p.height ≤ limit := by
  fun_induction passes limit ts with
  | case1 => exact ⟨[], rfl, rfl, Nat.zero_le _⟩
  | case2 t ts node rest read ih =>
      obtain ⟨p, rfl, reads, bounds⟩ := ih fun fault member => clean fault (List.mem_cons_of_mem _ member)
      obtain ⟨d, same, rfl, bound⟩ := statement_sound read
      exact ⟨d :: p, same.symm, by rw [reads]; rfl, Nat.max_le.mpr ⟨bound, bounds⟩⟩
  | case3 t ts fault failed ih => exact absurd List.mem_cons_self (clean fault)

/-- The passes over a derivation of a program give its syntax tree, unless it is higher than the
limit. -/
theorem passes_yield (limit : Nat) (p : Program) :
    p.height ≤ limit ∧ passes limit p.yield = p.ast.map .ok ∨
      limit < p.height ∧ ∃ us, .error ⟨.tooDeep, us⟩ ∈ passes limit p.yield := by
  induction p with
  | nil => exact .inl ⟨Nat.zero_le _, passes_nil⟩
  | cons d p ih =>
      simp only [Program.yield_cons, Program.ast_cons, Program.height_cons, List.map_cons]
      rcases statement_yield limit d (Program.yield p) with ⟨bound, read⟩ | ⟨bound, us, failed⟩
      · rw [passes_of_ok read]
        rcases ih with ⟨bounds, reads⟩ | ⟨bounds, us, fails⟩
        · exact .inl ⟨Nat.max_le.mpr ⟨bound, bounds⟩, by rw [reads]⟩
        · exact .inr ⟨Nat.lt_of_lt_of_le bounds (Nat.le_max_right _ _), us, List.mem_cons_of_mem _ fails⟩
      · obtain ⟨t, ts, same⟩ := d.yield_cons
        rw [same, List.cons_append] at failed ⊢
        refine .inr ⟨Nat.lt_of_lt_of_le bound (Nat.le_max_left _ _), us, ?_⟩
        rw [passes_of_error failed]
        exact List.mem_cons_self

end Passes

/-- The grammar of programs is unambiguous. -/
theorem program_unique (p q : Program) (yields : p.yield = q.yield) : p = q := by
  have read (r : Program) (bound : r.height ≤ max p.height q.height) :
      passes (max p.height q.height) r.yield = r.ast.map .ok := by
    rcases passes_yield (max p.height q.height) r with ⟨-, reads⟩ | ⟨higher, -⟩
    · exact reads
    · omega
  have asts : p.ast.map (Except.ok : Node → Except Fault Node) = q.ast.map Except.ok := by
    rw [← read p (Nat.le_max_left _ _), ← read q (Nat.le_max_right _ _), yields]
  exact (p.agrees q (List.map_injective_iff.mpr (fun _ _ => Except.ok.inj) asts)).unique yields

/-! ## Readings -/

theorem body_append {ts tail : List Token} {eof : Token} (inside : ∀ t ∈ ts, t.kind ≠ .endOfInput)
    (ends : eof.kind = .endOfInput) : body (ts ++ eof :: tail) = ts := by
  have passed : ∀ t ∈ ts, (t.kind != .endOfInput) = true := fun t member => by simpa using inside t member
  simp only [body, List.takeWhile_append_of_pos passed, List.takeWhile_cons, ends, bne_self_eq_false,
    Bool.false_eq_true, if_false, List.append_nil]

/-- Tokens with one ending, at their end, are read as what stands in front of it. -/
theorem readTokens?_append {ts : List Token} {eof : Token} (inside : ∀ t ∈ ts, t.kind ≠ .endOfInput)
    (ends : eof.kind = .endOfInput) : readTokens? (ts ++ [eof]) = some (read ts) := by
  have closed : (ts ++ [eof]).getLast?.map Token.kind = some .endOfInput := by
    simp only [List.getLast?_append, List.getLast?_singleton, Option.some_or, Option.map_some, ends]
  rw [readTokens?, if_pos closed, body_append inside ends]

theorem read_of_passes {ts : List Token} {nodes : List Node}
    (reads : passes ruleLimit ts = nodes.map .ok) : read ts = ⟨nodes, []⟩ := by
  have statements : (nodes.map Except.ok).filterMap statementOf? = nodes := by
    rw [List.filterMap_map]
    exact List.filterMap_some
  have faults : (nodes.map Except.ok).filterMap faultOf? = [] := by
    rw [List.filterMap_map]
    exact List.filterMap_eq_nil_iff.mpr fun _ _ => rfl
  simp only [read, reads, statements, faults, List.map_nil]

/-- Every fault is reported. -/
theorem diagnostic_mem {ts : List Token} {fault : Fault} (member : .error fault ∈ passes ruleLimit ts) :
    fault.diagnostic (lastLine ts) ∈ (read ts).diagnostics :=
  List.mem_map_of_mem (List.mem_filterMap.mpr ⟨_, member, rfl⟩)

theorem read_yield {p : Program} (bound : p.height ≤ ruleLimit) : read p.yield = ⟨p.ast, []⟩ := by
  rcases passes_yield ruleLimit p with ⟨-, reads⟩ | ⟨higher, -⟩
  · exact read_of_passes reads
  · omega

/-- The tokens are read without a diagnostic exactly if they derive from the grammar within the
limit. -/
theorem diagnostics_eq_nil_iff (ts : List Token) :
    (read ts).diagnostics = [] ↔ ∃ p : Program, p.yield = ts ∧ p.height ≤ ruleLimit := by
  constructor
  · intro none
    have clean : ∀ fault, .error fault ∉ passes ruleLimit ts := fun fault member => by
      have reported := diagnostic_mem member
      rw [none] at reported
      cases reported
    obtain ⟨p, yields, -, bound⟩ := passes_sound clean
    exact ⟨p, yields, bound⟩
  · rintro ⟨p, rfl, bound⟩
    rw [read_yield bound]

/-- The tokens nest within the limit: a derivation of them opens no more rules than that. -/
def Shallow (ts : List Token) : Prop := ∀ p : Program, p.yield = ts → p.height ≤ ruleLimit

/-- A token opens seven rules at most, so short programs are shallow. -/
theorem Shallow.of_length {ts : List Token} (short : 7 * ts.length ≤ ruleLimit) : Shallow ts := by
  rintro p rfl
  exact Nat.le_trans p.height_le short

/-- **Recursive descent decides the grammar.**  Tokens that nest within the limit are read without
a diagnostic exactly if they derive from the grammar; the statements are then the syntax tree of
their derivation, which is the only one.  Two programs with the same statements agree token by token
in kind, in whole operators, in names with their lines, and in literals. -/
theorem descent_decides_grammar {body : List Token} {eof : Token} (ends : eof.kind = .endOfInput)
    (inside : ∀ t ∈ body, t.kind ≠ .endOfInput) (carries : ∀ t ∈ body, t.Carries)
    (shallow : Shallow body) :
    ∃ reading, readTokens? (body ++ [eof]) = some reading ∧
      (reading.diagnostics = [] ↔ ∃ p : Program, p.yield = body) ∧
      (∀ p : Program, p.yield = body →
        reading.statements = p.ast ∧ ∀ q : Program, q.yield = body → q = p) ∧
      ∀ (body' : List Token) (eof' : Token) (reading' : Reading), eof'.kind = .endOfInput →
        (∀ t ∈ body', t.kind ≠ .endOfInput) → (∀ t ∈ body', t.Carries) →
        readTokens? (body' ++ [eof']) = some reading' →
        reading.diagnostics = [] → reading'.diagnostics = [] →
        reading.statements = reading'.statements → List.Forall₂ Token.Alike body body' := by
  refine ⟨read body, readTokens?_append inside ends, ?_, ?_, ?_⟩
  · rw [diagnostics_eq_nil_iff]
    constructor
    · rintro ⟨p, yields, -⟩
      exact ⟨p, yields⟩
    · rintro ⟨p, yields⟩
      exact ⟨p, yields, shallow p yields⟩
  · rintro p rfl
    rw [read_yield (shallow p rfl)]
    exact ⟨rfl, fun q yields => program_unique q p yields⟩
  · intro body' eof' reading' ends' inside' carries' reads accepted accepted' same
    rw [readTokens?_append inside' ends'] at reads
    cases reads
    obtain ⟨p, rfl, bound⟩ := (diagnostics_eq_nil_iff body).mp accepted
    obtain ⟨q, rfl, bound'⟩ := (diagnostics_eq_nil_iff body').mp accepted'
    rw [read_yield bound, read_yield bound'] at same
    exact (p.agrees q same).alike carries carries'

/-- `print -1 == x;` is the comparison of a negated number with a name. -/
theorem descent_reads_negated_comparison :
    let minus : Token := ⟨.minus, "-", none, 1⟩
    let equals : Token := ⟨.equalEqual, "==", none, 1⟩
    let body : List Token :=
      [⟨.wordPrint, "print", none, 1⟩, minus, ⟨.number, "1", some (.number 1), 1⟩, equals,
       ⟨.identifier, "x", some (.text "x"), 1⟩, ⟨.semicolon, ";", none, 1⟩]
    Token.ending.kind = .endOfInput ∧ (∀ t ∈ body, t.kind ≠ .endOfInput) ∧
      (∀ t ∈ body, t.Carries) ∧ Shallow body ∧
      ∃ reading, readTokens? (body ++ [Token.ending]) = some reading ∧ reading.diagnostics = [] ∧
        reading.statements =
          [.print (.binary (.unary minus (.literal (.number 1))) equals (.reference "x" 1))] := by
  intro minus equals body
  have inside : ∀ t ∈ body, t.kind ≠ .endOfInput := by decide
  have carries : ∀ t ∈ body, t.Carries := by
    simp only [body, List.forall_mem_cons]
    exact ⟨⟨nofun, nofun⟩, ⟨nofun, nofun⟩, ⟨fun _ => ⟨1, rfl⟩, nofun⟩, ⟨nofun, nofun⟩, ⟨nofun, nofun⟩,
      ⟨nofun, nofun⟩, nofun⟩
  have shallow : Shallow body := .of_length (by decide)
  have ends : Token.ending.kind = .endOfInput := rfl
  refine ⟨ends, inside, carries, shallow, ?_⟩
  obtain ⟨reading, reads, accepted, built, -⟩ := descent_decides_grammar ends inside carries shallow
  let operand (value : Tree .unary) : Tree .comparison :=
    .level rfl (.level rfl (.level rfl value .done) .done) .done
  let p : Program :=
    [.print ⟨⟨.wordPrint, "print", none, 1⟩, rfl⟩
      (.expression (.level rfl
        (operand (.unary ⟨minus, by decide⟩
          (.primary (.atom ⟨.number, "1", some (.number 1), 1⟩ (.number rfl)))))
        (.step ⟨equals, by decide⟩
          (operand (.primary (.atom ⟨.identifier, "x", some (.text "x"), 1⟩ (.name rfl)))) .done)))
      ⟨⟨.semicolon, ";", none, 1⟩, rfl⟩]
  exact ⟨reading, reads, accepted.mpr ⟨p, rfl⟩, (built p rfl).1⟩

end LoxLang.Descent
