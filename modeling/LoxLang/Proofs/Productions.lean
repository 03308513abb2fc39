/-
# LoxLang.Proofs.Productions -- the grammar as productions

    program     := declaration*
    declaration := "var" NAME ";" | "var" NAME "=" expression ";" | "print" expression ";" | expression ";"
    expression  := equality
    equality    := comparison | equality ( "!=" | "==" ) comparison
    comparison  := term | comparison ( ">" | ">=" | "<" | "<=" ) term
    term        := factor | term ( "-" | "+" ) factor
    factor      := unary | factor ( "/" | "*" ) unary
    unary       := ( "!" | "-" ) unary | primary
    primary     := "true" | "false" | "nil" | NUMBER | STRING | NAME | "(" expression ")"

Here the grammar has no repetition: a rule of binary expressions is recursive on the left.
A constructor below is a production, or one for all rules of binary expressions, with the
node that it builds.  A reader that puts together what it has read from left to right
follows these productions.

They derive what the derivation trees do, with the same syntax trees
(`Produces.exists_tree`, `Tree.produces`).  For an operator more, a tree grows at the end of
its chain (`Further.snoc`).
-/
import Mathlib.Data.List.Induction
import LoxLang.Grammar.ShiftReduce
import LoxLang.Proofs.Derivation

namespace LoxLang.Derivation

set_option autoImplicit false

/-- Tokens that a rule produces, and the node that is built from them. -/
inductive Produces : Rule → List Token → Node → Prop where
  | expression {ts : List Token} {node : Node} (value : Produces .equality ts node) :
      Produces .expression ts node
  | operand {level tighter : Rule} {ts : List Token} {node : Node}
      (takes : level.operand? = some tighter) (value : Produces tighter ts node) : Produces level ts node
  | binary {level tighter : Rule} {ts us : List Token} {left right : Node}
      (takes : level.operand? = some tighter) (first : Produces level ts left) (operator : Operator level)
      (second : Produces tighter us right) :
      Produces level (ts ++ operator.1 :: us) (.binary left operator.1 right)
  | unary {ts : List Token} {node : Node} (operator : Operator .unary) (operand : Produces .unary ts node) :
      Produces .unary (operator.1 :: ts) (.unary operator.1 node)
  | primary {ts : List Token} {node : Node} (value : Produces .primary ts node) : Produces .unary ts node
  | atom {t : Token} {node : Node} (stands : Atom t node) : Produces .primary [t] node
  | group {ts : List Token} {node : Node} (opening : OfKind .leftParen) (inner : Produces .expression ts node)
      (closing : OfKind .rightParen) : Produces .primary (opening.1 :: (ts ++ [closing.1])) (.grouping node)

/-- Tokens that make a statement. -/
inductive ProducesStatement : List Token → Node → Prop where
  | bare (word : OfKind .wordVar) (name : OfKind .identifier) (semicolon : OfKind .semicolon) :
      ProducesStatement [word.1, name.1, semicolon.1] (.declaration name.1.lexeme .missing name.1.line)
  | initialized {ts : List Token} {node : Node} (word : OfKind .wordVar) (name : OfKind .identifier)
      (equal : OfKind .equal) (value : Produces .expression ts node) (semicolon : OfKind .semicolon) :
      ProducesStatement (word.1 :: name.1 :: equal.1 :: (ts ++ [semicolon.1]))
        (.declaration name.1.lexeme node name.1.line)
  | print {ts : List Token} {node : Node} (word : OfKind .wordPrint) (value : Produces .expression ts node)
      (semicolon : OfKind .semicolon) : ProducesStatement (word.1 :: (ts ++ [semicolon.1])) (.print node)
  | expression {ts : List Token} {node : Node} (value : Produces .expression ts node)
      (semicolon : OfKind .semicolon) : ProducesStatement (ts ++ [semicolon.1]) (.expression node)

/-- Tokens that make a program, and its statements, each with the line of its first token. -/
inductive ProducesProgram : List Token → List ShiftReduce.Located → Prop where
  | empty : ProducesProgram [] []
  | snoc {ts us : List Token} {t : Token} {statements : List ShiftReduce.Located} {node : Node}
      (before : ProducesProgram ts statements) (last : ProducesStatement (t :: us) node) :
      ProducesProgram (ts ++ t :: us) (statements ++ [⟨t.line, node⟩])

/-! ## Productions and derivation trees -/

namespace Further

variable {level operand : Rule}

/-- One more operator and its operand at the end. -/
def snoc (operator : Operator level) (right : Tree operand) :
    Further level operand → Further level operand
  | .done => .step operator right .done
  | .step operator' right' more => .step operator' right' (more.snoc operator right)

theorem yield_snoc (operator : Operator level) (right : Tree operand) :
    (more : Further level operand) →
      (more.snoc operator right).yield = more.yield ++ operator.1 :: right.yield
  | .done => by simp only [snoc, yield, List.append_nil, List.nil_append]
  | .step operator' right' more => by
      simp only [snoc, yield, yield_snoc operator right more, List.cons_append, List.append_assoc]

theorem fold_snoc (operator : Operator level) (right : Tree operand) :
    (more : Further level operand) → (left : Node) →
      (more.snoc operator right).fold left = .binary (more.fold left) operator.1 right.ast
  | .done, _ => rfl
  | .step _ _ more, _ => fold_snoc operator right more _

end Further

/-- What is produced is the yield of a tree. -/
theorem Produces.exists_tree {rule : Rule} {ts : List Token} {node : Node}
    (produces : Produces rule ts node) : ∃ d : Tree rule, d.yield = ts ∧ d.ast = node := by
  induction produces with
  | expression value ih =>
      obtain ⟨d, rfl, rfl⟩ := ih
      exact ⟨.expression d, rfl, rfl⟩
  | operand takes value ih =>
      obtain ⟨d, rfl, rfl⟩ := ih
      exact ⟨.level takes d .done, List.append_nil _, rfl⟩
  | binary takes first operator second ih ih' =>
      obtain ⟨d, rfl, rfl⟩ := ih
      obtain ⟨e, rfl, rfl⟩ := ih'
      obtain ⟨head, more, rfl⟩ := d.level_cases takes
      refine ⟨.level takes head (more.snoc operator e), ?_, more.fold_snoc operator e head.ast⟩
      simp only [Tree.yield, Further.yield_snoc, List.append_assoc]
  | unary operator operand ih =>
      obtain ⟨d, rfl, rfl⟩ := ih
      exact ⟨.unary operator d, rfl, rfl⟩
  | primary value ih =>
      obtain ⟨d, rfl, rfl⟩ := ih
      exact ⟨.primary d, rfl, rfl⟩
  | atom stands => exact ⟨.atom _ stands, rfl, rfl⟩
  | group opening inner closing ih =>
      obtain ⟨d, rfl, rfl⟩ := ih
      exact ⟨.group opening d closing, rfl, rfl⟩

mutual

/-- The yield of a tree is produced. -/
theorem Tree.produces : {rule : Rule} → (d : Tree rule) → {ts : List Token} → d.yield = ts →
    Produces rule ts d.ast
  | _, .expression value, _, rfl => .expression (value.produces rfl)
  | _, .level takes first more, _, rfl => more.produces takes (.operand takes (first.produces rfl))
  | _, .unary operator operand, _, rfl => .unary operator (operand.produces rfl)
  | _, .primary value, _, rfl => .primary (value.produces rfl)
  | _, .atom _ stands, _, rfl => .atom stands
  | _, .group opening inner closing, _, rfl => .group opening (inner.produces rfl) closing

/-- Further operators are produced one by one, each behind all that stands on its left. -/
theorem Further.produces : {level operand : Rule} → (more : Further level operand) →
    level.operand? = some operand → {ts : List Token} → {left : Node} → Produces level ts left →
    Produces level (ts ++ more.yield) (more.fold left)
  | _, _, .done, _, _, _, first => by
      rw [Further.yield, List.append_nil]
      exact first
  | _, _, .step operator right more, takes, _, _, first => by
      have further := more.produces takes (.binary takes first operator (right.produces rfl))
      rwa [List.append_assoc, List.cons_append] at further

end

theorem ProducesStatement.exists_declaration {ts : List Token} {node : Node}
    (produces : ProducesStatement ts node) : ∃ d : Declaration, d.yield = ts ∧ d.ast = node := by
  cases produces with
  | bare word name semicolon => exact ⟨.bare word name semicolon, rfl, rfl⟩
  | initialized word name equal value semicolon =>
      obtain ⟨d, rfl, rfl⟩ := value.exists_tree
      exact ⟨.initialized word name equal d semicolon, rfl, rfl⟩
  | print word value semicolon =>
      obtain ⟨d, rfl, rfl⟩ := value.exists_tree
      exact ⟨.print word d semicolon, rfl, rfl⟩
  | expression value semicolon =>
      obtain ⟨d, rfl, rfl⟩ := value.exists_tree
      exact ⟨.expression d semicolon, rfl, rfl⟩

theorem Declaration.produces (d : Declaration) : ProducesStatement d.yield d.ast := by
  cases d with
  | bare word name semicolon => exact .bare word name semicolon
  | initialized word name equal value semicolon =>
      exact .initialized word name equal (value.produces rfl) semicolon
  | print word value semicolon => exact .print word (value.produces rfl) semicolon
  | expression value semicolon => exact .expression (value.produces rfl) semicolon

theorem ProducesProgram.exists_program {ts : List Token} {statements : List ShiftReduce.Located}
    (produces : ProducesProgram ts statements) :
    ∃ p : Program, p.yield = ts ∧ p.ast = statements.map ShiftReduce.Located.statement := by
  induction produces with
  | empty => exact ⟨[], rfl, rfl⟩
  | snoc before last ih =>
      obtain ⟨p, rfl, ast⟩ := ih
      obtain ⟨d, yields, rfl⟩ := last.exists_declaration
      refine ⟨p ++ [d], ?_, ?_⟩
      · rw [Program.yield_append, Program.yield_singleton, yields]
      · rw [Program.ast_append, ast, List.map_append]
        rfl

theorem Program.produces (p : Program) :
    ∃ statements, ProducesProgram p.yield statements ∧
      statements.map ShiftReduce.Located.statement = p.ast := by
  induction p using List.reverseRecOn with
  | nil => exact ⟨[], .empty, rfl⟩
  | append_singleton p d ih =>
      obtain ⟨statements, before, same⟩ := ih
      obtain ⟨t, us, yields⟩ := d.yield_cons
      have last := d.produces
      rw [yields] at last
      refine ⟨statements ++ [⟨t.line, d.ast⟩], ?_, ?_⟩
      · rw [Program.yield_append, Program.yield_singleton, yields]
        exact .snoc before last
      · rw [Program.ast_append, ← same, List.map_append]
        rfl

/-! ## Looser and tighter rules -/

namespace Produces

variable {ts : List Token} {node : Node}

/-- Every rule but the loosest has a next looser one, which produces all that it does. -/
theorem exists_looser (rule : Rule) (tight : 0 < rule.rank) :
    ∃ looser : Rule, looser.rank + 1 = rule.rank ∧
      ∀ ts node, Produces rule ts node → Produces looser ts node := by
  cases rule with
  | expression => cases tight
  | equality => exact ⟨.expression, rfl, fun _ _ => .expression⟩
  | comparison => exact ⟨.equality, rfl, fun _ _ => .operand rfl⟩
  | term => exact ⟨.comparison, rfl, fun _ _ => .operand rfl⟩
  | factor => exact ⟨.term, rfl, fun _ _ => .operand rfl⟩
  | unary => exact ⟨.factor, rfl, fun _ _ => .operand rfl⟩
  | primary => exact ⟨.unary, rfl, fun _ _ => .primary⟩

/-- An expression starts with no word that starts a statement. -/
theorem head {rule : Rule} (produces : Produces rule ts node) :
    ∃ t us, ts = t :: us ∧ t.kind ≠ .wordVar ∧ t.kind ≠ .wordPrint := by
  obtain ⟨d, rfl, -⟩ := produces.exists_tree
  exact d.yield_head

/-- A looser rule produces all that a tighter one does. -/
theorem loosen {tight loose : Rule} (bound : loose.rank ≤ tight.rank)
    (produces : Produces tight ts node) : Produces loose ts node := by
  by_cases same : loose.rank = tight.rank
  · rw [Rule.rank_injective same]
    exact produces
  · obtain ⟨looser, rank, further⟩ := exists_looser tight (by omega)
    exact loosen (by omega) (further ts node produces)
termination_by tight.rank

end Produces

end LoxLang.Derivation
