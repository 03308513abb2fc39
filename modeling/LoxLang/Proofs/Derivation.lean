/-
# LoxLang.Proofs.Derivation -- derivation trees of the grammar

A derivation tree applies the rules of `LoxLang.Grammar` one for one, repetition
included: a rule of binary expressions is a first operand and a list of operators with
their operands (`Further`).  The trees are indexed by their rule and hold tokens of the
right kinds only, so every tree is a derivation.  The operators of a rule are those that the
grammar lists (`Listed`); each reader has a table of its own, which agrees with the list.

A tree has a yield, the tokens it derives, and a syntax tree.  Binary operators group to
the left because `Further.fold` puts what was read so far on the left; a unary operator
takes everything its operand derives; each pair of parentheses is one node.

The syntax tree forgets little: two derivations with one syntax tree have yields that
agree token by token in all that matters, and if the yields are the same so are the
derivations (`Tree.agrees`).
-/
import Mathlib.Data.List.Forall2
import LoxLang.Grammar

namespace LoxLang

set_option autoImplicit false

namespace Rule

/-- The rule of the operands, for the rules of binary expressions. -/
def operand? : Rule → Option Rule
  | .equality => some .comparison
  | .comparison => some .term
  | .term => some .factor
  | .factor => some .unary
  | .expression | .unary | .primary => none

/-- How tightly the expressions of a rule hold together. -/
def rank : Rule → Nat
  | .expression => 0
  | .equality => 1
  | .comparison => 2
  | .term => 3
  | .factor => 4
  | .unary => 5
  | .primary => 6

theorem rank_operand {level operand : Rule} (takes : level.operand? = some operand) :
    operand.rank = level.rank + 1 := by
  cases level <;> cases takes <;> rfl

theorem rank_injective {rule rule' : Rule} (same : rule.rank = rule'.rank) : rule = rule' := by
  cases rule <;> cases rule' <;> first | rfl | cases same

/-- A binary operator belongs to one rule. -/
theorem level_unique {level operand level' operand' : Rule} {kind : TokenKind}
    (takes : level.operand? = some operand) (takes' : level'.operand? = some operand')
    (member : kind ∈ level.operators) (member' : kind ∈ level'.operators) : level = level' := by
  cases level <;> cases takes <;> cases level' <;> cases takes' <;>
    first
    | rfl
    | (simp only [operators, List.mem_cons, List.not_mem_nil, or_false] at member member'
       rcases member with rfl | rfl | rfl | rfl <;> simp at member')

/-- The kinds of token that stand in expressions. -/
def expressionKinds : List TokenKind :=
  [.leftParen, .rightParen, .minus, .plus, .slash, .star, .bang, .bangEqual, .equalEqual, .greater,
   .greaterEqual, .less, .lessEqual, .identifier, .string, .number, .wordFalse, .wordNil, .wordTrue]

theorem operators_subset (rule : Rule) : rule.operators ⊆ expressionKinds := by
  cases rule <;> decide

theorem ne_semicolon_of_mem {rule : Rule} {kind : TokenKind} (member : kind ∈ rule.operators) :
    kind ≠ .semicolon := by
  rintro rfl
  exact absurd (rule.operators_subset member) (by decide)

end Rule

/-- A token that is an expression by itself, and which one. -/
inductive Atom : Token → Node → Prop where
  | yes {t : Token} (kind : t.kind = .wordTrue) : Atom t (.literal (.boolean true))
  | no {t : Token} (kind : t.kind = .wordFalse) : Atom t (.literal (.boolean false))
  | nothing {t : Token} (kind : t.kind = .wordNil) : Atom t (.literal .nil)
  | number {t : Token} (kind : t.kind = .number) : Atom t t.numberLiteral
  | string {t : Token} (kind : t.kind = .string) : Atom t t.stringLiteral
  | name {t : Token} (kind : t.kind = .identifier) : Atom t (.reference t.lexeme t.line)

namespace Token

theorem atom?_eq_some_iff {t : Token} {node : Node} : t.atom? = some node ↔ Atom t node := by
  constructor
  · intro found
    unfold atom? at found
    split at found <;> cases found
    · exact .no ‹_›
    · exact .yes ‹_›
    · exact .nothing ‹_›
    · exact .number ‹_›
    · exact .string ‹_›
    · exact .name ‹_›
  · intro atom
    cases atom <;> simp only [atom?, *]

/-- Numbers and strings carry what they stand for. -/
structure Carries (t : Token) : Prop where
  number : t.kind = .number → ∃ x, t.literal = some (.number x)
  string : t.kind = .string → ∃ s, t.literal = some (.text s)

/-- Two tokens agree in all that a syntax tree keeps of a token. -/
structure Alike (t u : Token) : Prop where
  kind : t.kind = u.kind
  operator : ∀ rule : Rule, t.kind ∈ rule.operators → t = u
  name : t.kind = .identifier → t.lexeme = u.lexeme ∧ t.line = u.line
  literal : t.kind = .number ∨ t.kind = .string → t.literal = u.literal

theorem Alike.refl (t : Token) : t.Alike t :=
  ⟨rfl, fun _ _ => rfl, fun _ => ⟨rfl, rfl⟩, fun _ => rfl⟩

theorem Alike.symm {t u : Token} (alike : t.Alike u) : u.Alike t where
  kind := alike.kind.symm
  operator rule member := (alike.operator rule (alike.kind ▸ member)).symm
  name isName := by
    obtain ⟨lexeme, line⟩ := alike.name (alike.kind.trans isName)
    exact ⟨lexeme.symm, line.symm⟩
  literal carries := (alike.literal (by rwa [alike.kind])).symm

end Token

namespace Atom

/-- The kind of token that an expression of one token is read from. -/
def kindOf : Node → Option TokenKind
  | .literal (.boolean true) => some .wordTrue
  | .literal (.boolean false) => some .wordFalse
  | .literal .nil => some .wordNil
  | .literal (.number _) | .hollow .number => some .number
  | .literal (.string _) | .hollow .string => some .string
  | .reference .. => some .identifier
  | _ => none

theorem kindOf_eq {t : Token} {node : Node} (stands : Atom t node) : kindOf node = some t.kind := by
  cases stands with
  | number kind => unfold Token.numberLiteral; split <;> rw [kind] <;> rfl
  | string kind => unfold Token.stringLiteral; split <;> rw [kind] <;> rfl
  | _ kind => rw [kind]; rfl

theorem ne_binary {t : Token} {node : Node} (stands : Atom t node) (l : Node) (operator : Token)
    (r : Node) : node ≠ .binary l operator r := by
  rintro rfl
  cases stands.kindOf_eq

theorem ne_unary {t : Token} {node : Node} (stands : Atom t node) (operator : Token) (n : Node) :
    node ≠ .unary operator n := by
  rintro rfl
  cases stands.kindOf_eq

theorem ne_grouping {t : Token} {node : Node} (stands : Atom t node) (n : Node) :
    node ≠ .grouping n := by
  rintro rfl
  cases stands.kindOf_eq

theorem ne_missing {t : Token} {node : Node} (stands : Atom t node) : node ≠ .missing := by
  rintro rfl
  cases stands.kindOf_eq

theorem not_operator {t : Token} {node : Node} (stands : Atom t node) (rule : Rule) :
    t.kind ∉ rule.operators := by
  cases stands <;> cases rule <;> simp [Rule.operators, *]

/-- Tokens that stand for one expression are alike. -/
theorem alike {t u : Token} {node : Node} (stands : Atom t node) (stands' : Atom u node)
    (carries : t.Carries) (carries' : u.Carries) : t.Alike u := by
  have kind : u.kind = t.kind := Option.some.inj (stands'.kindOf_eq.symm.trans stands.kindOf_eq)
  have same : t.atom? = u.atom? :=
    (Token.atom?_eq_some_iff.mpr stands).trans (Token.atom?_eq_some_iff.mpr stands').symm
  refine ⟨kind.symm, fun rule member => absurd member (stands.not_operator rule), fun name => ?_, ?_⟩
  · simpa only [Token.atom?, kind, name, Option.some.injEq, Node.reference.injEq] using same
  · rintro (number | string)
    · obtain ⟨x, holds⟩ := carries.number number
      obtain ⟨y, holds'⟩ := carries'.number (kind.trans number)
      simp only [Token.atom?, Token.numberLiteral, kind, number, holds, holds', Option.some.injEq,
        Node.literal.injEq, Value.number.injEq] at same
      rw [holds, holds', same]
    · obtain ⟨s, holds⟩ := carries.string string
      obtain ⟨s', holds'⟩ := carries'.string (kind.trans string)
      simp only [Token.atom?, Token.stringLiteral, kind, string, holds, holds', Option.some.injEq,
        Node.literal.injEq, Value.string.injEq] at same
      rw [holds, holds', same]

/-- Of two tokens that are alike, one stands for what the other does. -/
theorem of_alike {t u : Token} {node : Node} (stands : Atom t node) (alike : t.Alike u) :
    Atom u node := by
  have kind := alike.kind.symm
  cases stands with
  | yes isKind => exact .yes (kind.trans isKind)
  | no isKind => exact .no (kind.trans isKind)
  | nothing isKind => exact .nothing (kind.trans isKind)
  | number isKind =>
      have same : t.numberLiteral = u.numberLiteral := by
        rw [Token.numberLiteral, Token.numberLiteral, alike.literal (.inl isKind)]
      rw [same]
      exact .number (kind.trans isKind)
  | string isKind =>
      have same : t.stringLiteral = u.stringLiteral := by
        rw [Token.stringLiteral, Token.stringLiteral, alike.literal (.inr isKind)]
      rw [same]
      exact .string (kind.trans isKind)
  | name isKind =>
      obtain ⟨lexeme, line⟩ := alike.name isKind
      rw [lexeme, line]
      exact .name (kind.trans isKind)

end Atom

namespace Derivation

/-- A token of one kind. -/
abbrev OfKind (kind : TokenKind) : Type := { t : Token // t.kind = kind }

/-- The kinds of token of which the syntax tree keeps nothing. -/
def dropped : List TokenKind :=
  [.leftParen, .rightParen, .semicolon, .equal, .wordVar, .wordPrint]

theorem OfKind.alike {kind : TokenKind} (member : kind ∈ dropped) (t u : OfKind kind) :
    t.1.Alike u.1 := by
  refine ⟨t.2.trans u.2.symm, ?_, ?_, ?_⟩ <;> rw [t.2]
  · intro rule operator
    simp only [dropped, List.mem_cons, List.not_mem_nil, or_false] at member
    rcases member with rfl | rfl | rfl | rfl | rfl | rfl <;>
      cases rule <;> simp [Rule.operators] at operator
  · rintro rfl
    simp [dropped] at member
  · rintro (rfl | rfl) <;> simp [dropped] at member

theorem OfKind.alike_name (t u : OfKind .identifier) (lexeme : t.1.lexeme = u.1.lexeme)
    (line : t.1.line = u.1.line) : t.1.Alike u.1 := by
  refine ⟨t.2.trans u.2.symm, fun rule operator => ?_, fun _ => ⟨lexeme, line⟩, ?_⟩
  · rw [t.2] at operator
    cases rule <;> simp [Rule.operators] at operator
  · simp [t.2]

/-- The operators that the grammar lists for a rule. -/
inductive Listed : Rule → TokenKind → Prop where
  | unequal : Listed .equality .bangEqual
  | equal : Listed .equality .equalEqual
  | greater : Listed .comparison .greater
  | greaterEqual : Listed .comparison .greaterEqual
  | less : Listed .comparison .less
  | lessEqual : Listed .comparison .lessEqual
  | difference : Listed .term .minus
  | sum : Listed .term .plus
  | quotient : Listed .factor .slash
  | product : Listed .factor .star
  | not : Listed .unary .bang
  | negative : Listed .unary .minus

/-- Recursive descent looks for the operators that the grammar lists. -/
theorem listed_iff {rule : Rule} {kind : TokenKind} : Listed rule kind ↔ kind ∈ rule.operators := by
  constructor
  · intro listed
    cases listed <;> decide
  · intro member
    cases rule <;> simp only [Rule.operators, List.mem_cons, List.not_mem_nil, or_false] at member <;>
      rcases member with rfl | rfl | rfl | rfl <;> constructor

instance (rule : Rule) (kind : TokenKind) : Decidable (Listed rule kind) :=
  decidable_of_iff _ listed_iff.symm

/-- An operator of a rule. -/
abbrev Operator (rule : Rule) : Type := { t : Token // Listed rule t.kind }

theorem Operator.mem {rule : Rule} (operator : Operator rule) : operator.1.kind ∈ rule.operators :=
  listed_iff.mp operator.2

/-! ## Expressions -/

mutual

/-- The derivations of a rule. -/
inductive Tree : Rule → Type where
  | expression (value : Tree .equality) : Tree .expression
  | level {level operand : Rule} (takes : level.operand? = some operand) (first : Tree operand)
      (more : Further level operand) : Tree level
  | unary (operator : Operator .unary) (operand : Tree .unary) : Tree .unary
  | primary (value : Tree .primary) : Tree .unary
  | atom (t : Token) {node : Node} (stands : Atom t node) : Tree .primary
  | group (opening : OfKind .leftParen) (inner : Tree .expression)
      (closing : OfKind .rightParen) : Tree .primary

/-- Operators of a rule, each with its right operand. -/
inductive Further : Rule → Rule → Type where
  | done {level operand : Rule} : Further level operand
  | step {level operand : Rule} (operator : Operator level) (right : Tree operand)
      (more : Further level operand) : Further level operand

end

mutual

/-- The tokens that a tree derives. -/
def Tree.yield : {rule : Rule} → Tree rule → List Token
  | _, .expression value => value.yield
  | _, .level _ first more => first.yield ++ more.yield
  | _, .unary operator operand => operator.1 :: operand.yield
  | _, .primary value => value.yield
  | _, .atom t _ => [t]
  | _, .group opening inner closing => opening.1 :: (inner.yield ++ [closing.1])

def Further.yield : {level operand : Rule} → Further level operand → List Token
  | _, _, .done => []
  | _, _, .step operator right more => operator.1 :: (right.yield ++ more.yield)

end

mutual

/-- The syntax tree of a derivation. -/
def Tree.ast : {rule : Rule} → Tree rule → Node
  | _, .expression value => value.ast
  | _, .level _ first more => more.fold first.ast
  | _, .unary operator operand => .unary operator.1 operand.ast
  | _, .primary value => value.ast
  | _, @Tree.atom _ node _ => node
  | _, .group _ inner _ => .grouping inner.ast

/-- Take operators and operands into the expression on their left, the first ones first. -/
def Further.fold : {level operand : Rule} → Further level operand → Node → Node
  | _, _, .done, left => left
  | _, _, .step operator right more, left => more.fold (.binary left operator.1 right.ast)

end

mutual

/-- The most rules that are open inside one another. -/
def Tree.height : {rule : Rule} → Tree rule → Nat
  | _, .expression value => value.height + 1
  | _, .level _ first more => max first.height more.height + 1
  | _, .unary _ operand => operand.height + 1
  | _, .primary value => value.height + 1
  | _, .atom _ _ => 1
  | _, .group _ inner _ => inner.height + 1

def Further.height : {level operand : Rule} → Further level operand → Nat
  | _, _, .done => 0
  | _, _, .step _ right more => max right.height more.height

end

theorem Tree.height_pos {rule : Rule} (d : Tree rule) : 0 < d.height := by
  cases d <;> exact Nat.succ_pos _

/-! ### The shape of a tree -/

theorem Tree.expression_cases (d : Tree .expression) : ∃ value, d = .expression value := by
  cases d with
  | expression value => exact ⟨value, rfl⟩
  | level takes => cases takes

theorem Tree.level_cases {level operand : Rule} (takes : level.operand? = some operand)
    (d : Tree level) : ∃ first more, d = .level takes first more := by
  cases d with
  | level takes' first more =>
      cases takes.symm.trans takes'
      exact ⟨first, more, rfl⟩
  | _ => cases takes

theorem Tree.unary_cases (d : Tree .unary) :
    (∃ operator operand, d = .unary operator operand) ∨ ∃ value, d = .primary value := by
  cases d with
  | unary operator operand => exact .inl ⟨operator, operand, rfl⟩
  | primary value => exact .inr ⟨value, rfl⟩
  | level takes => cases takes

theorem Tree.primary_cases (d : Tree .primary) :
    (∃ t node, ∃ stands : Atom t node, d = .atom t stands) ∨
      ∃ opening inner closing, d = .group opening inner closing := by
  cases d with
  | atom t stands => exact .inl ⟨t, _, stands, rfl⟩
  | group opening inner closing => exact .inr ⟨opening, inner, closing, rfl⟩
  | level takes => cases takes

/-! ### The shape of a syntax tree -/

/-- The operators and operands as they stand in the syntax tree. -/
def Further.pairs : {level operand : Rule} → Further level operand → List (Token × Node)
  | _, _, .done => []
  | _, _, .step operator right more => (operator.1, right.ast) :: more.pairs

/-- The operand at the left end of a chain of operators of a rule, and what follows it. -/
def spine (level : Rule) : Node → Node × List (Token × Node)
  | .binary left operator right =>
      if operator.kind ∈ level.operators then
        ((spine level left).1, (spine level left).2 ++ [(operator, right)])
      else (.binary left operator right, [])
  | node => (node, [])

/-- Folding is undone by walking down the left side. -/
theorem Further.spine_fold : {level operand : Rule} → (more : Further level operand) →
    (left : Node) →
    spine level (more.fold left) = ((spine level left).1, (spine level left).2 ++ more.pairs)
  | _, _, .done, left => by simp only [Further.fold, Further.pairs, List.append_nil]
  | _, _, .step operator right more, left => by
      simp only [Further.fold, more.spine_fold, spine, if_pos operator.mem, Further.pairs,
        List.append_assoc, List.singleton_append]

/-- Further operators leave an operator of their rule on top. -/
theorem Further.operator_fold : {level operand : Rule} → (more : Further level operand) →
    (left : Node) → (∀ l operator r, left = .binary l operator r → operator.kind ∈ level.operators) →
    ∀ l operator r, more.fold left = .binary l operator r → operator.kind ∈ level.operators
  | _, _, .done, _, top => top
  | _, _, .step operator' right more, left, _ =>
      more.operator_fold (.binary left operator'.1 right.ast) fun _ _ _ eq => by
        cases eq
        exact operator'.mem

theorem Further.fold_ne_missing : {level operand : Rule} → (more : Further level operand) →
    (left : Node) → left ≠ .missing → more.fold left ≠ .missing
  | _, _, .done, _, present => present
  | _, _, .step operator right more, left, _ =>
      more.fold_ne_missing (.binary left operator.1 right.ast) nofun

/-- An expression is there. -/
theorem Tree.ast_ne_missing : {rule : Rule} → (d : Tree rule) → d.ast ≠ .missing
  | _, .expression value => value.ast_ne_missing
  | _, .level _ first more => more.fold_ne_missing first.ast first.ast_ne_missing
  | _, .unary _ _ => nofun
  | _, .primary value => value.ast_ne_missing
  | _, .atom _ stands => stands.ne_missing
  | _, .group _ _ _ => nofun

/-- The operator on top of the syntax tree of a rule belongs to a rule that binds as tightly. -/
theorem Tree.operator_ast : {rule : Rule} → (d : Tree rule) → ∀ l operator r,
    d.ast = .binary l operator r →
    ∃ level operand : Rule, level.operand? = some operand ∧ operator.kind ∈ level.operators ∧
      rule.rank ≤ level.rank
  | _, .expression value, l, operator, r, same => by
      obtain ⟨level, operand, takes, member, -⟩ := value.operator_ast l operator r same
      exact ⟨level, operand, takes, member, Nat.zero_le _⟩
  | _, .level takes first more, l, operator, r, same => by
      cases more with
      | done =>
          obtain ⟨level', operand', takes', member, bound⟩ := first.operator_ast l operator r same
          refine ⟨level', operand', takes', member, ?_⟩
          have := Rule.rank_operand takes
          omega
      | step operator' right more =>
          refine ⟨_, _, takes, more.operator_fold _ (fun _ _ _ eq => ?_) l operator r same, Nat.le_refl _⟩
          cases eq
          exact operator'.mem
  | _, .unary _ _, _, _, _, same => by cases same
  | _, .primary value, l, operator, r, same => by
      rcases value.primary_cases with ⟨t, node, stands, rfl⟩ | ⟨opening, inner, closing, rfl⟩
      · exact absurd same (stands.ne_binary l operator r)
      · cases same
  | _, .atom _ stands, l, operator, r, same => absurd same (stands.ne_binary l operator r)
  | _, .group _ _ _, _, _, _, same => by cases same

/-- An operand has no operator of the rule on top. -/
theorem Tree.spine_ast {level operand : Rule} (takes : level.operand? = some operand)
    (d : Tree operand) : spine level d.ast = (d.ast, []) := by
  unfold spine
  split
  · rename_i l operator r same
    obtain ⟨level', operand', takes', member, bound⟩ := d.operator_ast _ _ _ same
    have rank := Rule.rank_operand takes
    rw [if_neg, same]
    intro member'
    cases Rule.level_unique takes takes' member' member
    omega
  · rfl

/-! ### A syntax tree has one derivation -/

/-- What the yields of two derivations with one syntax tree have in common: they agree in all that
the syntax tree keeps, and where they are the same, so are the derivations. -/
structure Agreement (ys zs : List Token) (same : Prop) : Prop where
  length : ys.length = zs.length
  alike : (∀ t ∈ ys, t.Carries) → (∀ t ∈ zs, t.Carries) → List.Forall₂ Token.Alike ys zs
  unique : ys = zs → same

namespace Agreement

variable {ys zs ys' zs' : List Token} {same same' : Prop} {t u : Token}

theorem mono (agreement : Agreement ys zs same) (implies : same → same') : Agreement ys zs same' :=
  ⟨agreement.length, agreement.alike, fun yields => implies (agreement.unique yields)⟩

theorem nil : Agreement [] [] True := ⟨rfl, fun _ _ => .nil, fun _ => trivial⟩

theorem cons (alike : t.Carries → u.Carries → t.Alike u) (agreement : Agreement ys zs same) :
    Agreement (t :: ys) (u :: zs) (t = u ∧ same) where
  length := by simp only [List.length_cons, agreement.length]
  alike carries carries' := by
    rw [List.forall_mem_cons] at carries carries'
    exact .cons (alike carries.1 carries'.1) (agreement.alike carries.2 carries'.2)
  unique yields := (List.cons.inj yields).imp_right agreement.unique

theorem append (first : Agreement ys zs same) (second : Agreement ys' zs' same') :
    Agreement (ys ++ ys') (zs ++ zs') (same ∧ same') where
  length := by simp only [List.length_append, first.length, second.length]
  alike carries carries' := by
    rw [List.forall_mem_append] at carries carries'
    exact List.rel_append (first.alike carries.1 carries'.1) (second.alike carries.2 carries'.2)
  unique yields := (List.append_inj yields first.length).imp first.unique second.unique

end Agreement

mutual

theorem Tree.agrees : {rule : Rule} → (d e : Tree rule) → d.ast = e.ast →
    Agreement d.yield e.yield (d = e)
  | _, .expression value, e, same => by
      obtain ⟨value', rfl⟩ := e.expression_cases
      exact (value.agrees value' same).mono (congrArg Tree.expression)
  | level, .level takes first more, e, same => by
      obtain ⟨first', more', rfl⟩ := e.level_cases takes
      have spines := congrArg (spine level) same
      simp only [Tree.ast, Further.spine_fold, Tree.spine_ast takes, List.nil_append,
        Prod.mk.injEq] at spines
      refine ((first.agrees first' spines.1).append (more.agrees more' spines.2)).mono ?_
      rintro ⟨rfl, rfl⟩
      rfl
  | _, .unary operator operand, e, same => by
      rcases e.unary_cases with ⟨operator', operand', rfl⟩ | ⟨value, rfl⟩
      · simp only [Tree.ast, Node.unary.injEq] at same
        obtain ⟨operators, operands⟩ := same
        cases Subtype.ext operators
        refine (Agreement.cons (fun _ _ => .refl _) (operand.agrees operand' operands)).mono ?_
        rintro ⟨-, rfl⟩
        rfl
      · rcases value.primary_cases with ⟨t, node, stands, rfl⟩ | ⟨opening, inner, closing, rfl⟩
        · exact absurd same.symm (stands.ne_unary _ _)
        · cases same
  | _, .primary value, e, same => by
      rcases e.unary_cases with ⟨operator', operand', rfl⟩ | ⟨value', rfl⟩
      · rcases value.primary_cases with ⟨t, node, stands, rfl⟩ | ⟨opening, inner, closing, rfl⟩
        · exact absurd same (stands.ne_unary _ _)
        · cases same
      · exact (value.agrees value' same).mono (congrArg Tree.primary)
  | _, .atom t stands, e, same => by
      rcases e.primary_cases with ⟨u, node, stands', rfl⟩ | ⟨opening, inner, closing, rfl⟩
      · cases same
        refine (Agreement.cons (stands.alike stands') .nil).mono ?_
        rintro ⟨rfl, -⟩
        rfl
      · exact absurd same (stands.ne_grouping _)
  | _, .group opening inner closing, e, same => by
      rcases e.primary_cases with ⟨u, node, stands, rfl⟩ | ⟨opening', inner', closing', rfl⟩
      · exact absurd same.symm (stands.ne_grouping _)
      · have agreement := inner.agrees inner' (Node.grouping.inj same)
        refine (Agreement.cons (fun _ _ => opening.alike (by decide) opening') (agreement.append
          (.cons (fun _ _ => closing.alike (by decide) closing') .nil))).mono ?_
        rintro ⟨first, rfl, last, -⟩
        rw [Subtype.ext first, Subtype.ext last]

theorem Further.agrees : {level operand : Rule} → (m n : Further level operand) →
    m.pairs = n.pairs → Agreement m.yield n.yield (m = n)
  | _, _, .done, .done, _ => Agreement.nil.mono fun _ => rfl
  | _, _, .done, .step _ _ _, same => by cases same
  | _, _, .step _ _ _, .done, same => by cases same
  | _, _, .step operator right more, .step operator' right' more', same => by
      simp only [Further.pairs, List.cons.injEq, Prod.mk.injEq] at same
      obtain ⟨⟨operators, rights⟩, pairs⟩ := same
      cases Subtype.ext operators
      refine (Agreement.cons (fun _ _ => .refl _)
        ((right.agrees right' rights).append (more.agrees more' pairs))).mono ?_
      rintro ⟨-, rfl, rfl⟩
      rfl

end

/-! ### Tokens that are alike derive the same -/

theorem OfKind.of_alike {kind : TokenKind} (t : OfKind kind) {u : Token} (alike : u.Alike t.1) :
    u.kind = kind :=
  alike.kind.trans t.2

theorem exists_last_of_alike {us ys : List Token} {t : Token}
    (alike : List.Forall₂ Token.Alike us (ys ++ [t])) :
    ∃ vs u, us = vs ++ [u] ∧ List.Forall₂ Token.Alike vs ys ∧ u.Alike t := by
  have before := List.forall₂_take_append us _ _ alike
  have behind := List.forall₂_drop_append us _ _ alike
  cases last : us.drop ys.length with
  | nil =>
      rw [last] at behind
      cases behind
  | cons u rest =>
      rw [last] at behind
      cases behind with
      | cons same none =>
          cases none
          exact ⟨us.take ys.length, u, by rw [← last, List.take_append_drop], before, same⟩

theorem Operator.eq_of_alike {rule : Rule} (operator : Operator rule) {u : Token}
    (alike : u.Alike operator.1) : u = operator.1 :=
  alike.operator rule (alike.kind ▸ operator.mem)

mutual

theorem Tree.retell : {rule : Rule} → (d : Tree rule) → (us : List Token) →
    List.Forall₂ Token.Alike us d.yield → ∃ e : Tree rule, e.yield = us ∧ e.ast = d.ast
  | _, .expression value, us, alike => by
      obtain ⟨e, rfl, ast⟩ := value.retell us alike
      exact ⟨.expression e, rfl, ast⟩
  | _, .level takes first more, us, alike => by
      obtain ⟨e, yields, ast⟩ := first.retell _ (List.forall₂_take_append us _ _ alike)
      obtain ⟨f, yields', folds⟩ := more.retell _ (List.forall₂_drop_append us _ _ alike)
      refine ⟨.level takes e f, ?_, ?_⟩
      · rw [Tree.yield, yields, yields', List.take_append_drop]
      · rw [Tree.ast, Tree.ast, folds, ast]
  | _, .unary operator operand, us, alike => by
      cases alike with
      | cons same alike =>
          obtain ⟨e, rfl, ast⟩ := operand.retell _ alike
          refine ⟨.unary operator e, ?_, ?_⟩
          · rw [Tree.yield, Operator.eq_of_alike operator same]
          · rw [Tree.ast, Tree.ast, ast]
  | _, .primary value, us, alike => by
      obtain ⟨e, rfl, ast⟩ := value.retell us alike
      exact ⟨.primary e, rfl, ast⟩
  | _, .atom t stands, us, alike => by
      cases alike with
      | cons same alike =>
          cases alike
          exact ⟨.atom _ (stands.of_alike same.symm), rfl, rfl⟩
  | _, .group opening inner closing, us, alike => by
      cases alike with
      | cons same alike =>
          obtain ⟨vs, u, rfl, alike, same'⟩ := exists_last_of_alike alike
          obtain ⟨e, rfl, ast⟩ := inner.retell vs alike
          refine ⟨.group ⟨_, opening.of_alike same⟩ e ⟨u, closing.of_alike same'⟩, rfl, ?_⟩
          rw [Tree.ast, Tree.ast, ast]

theorem Further.retell : {level operand : Rule} → (more : Further level operand) →
    (us : List Token) → List.Forall₂ Token.Alike us more.yield →
    ∃ f : Further level operand, f.yield = us ∧ ∀ left, f.fold left = more.fold left
  | _, _, .done, us, alike => by
      cases alike
      exact ⟨.done, rfl, fun _ => rfl⟩
  | _, _, .step operator right more, us, alike => by
      cases alike with
      | @cons first _ rest _ same alike =>
          obtain ⟨e, yields, ast⟩ := right.retell _ (List.forall₂_take_append rest _ _ alike)
          obtain ⟨f, yields', folds⟩ := more.retell _ (List.forall₂_drop_append rest _ _ alike)
          refine ⟨.step operator e f, ?_, fun left => ?_⟩
          · rw [Further.yield, yields, yields', List.take_append_drop, Operator.eq_of_alike operator same]
          · rw [Further.fold, Further.fold, folds, ast]

end

/-! ### The tokens of an expression -/

/-- Every expression starts with one token of its own, with a parenthesis or with a unary operator,
so with no word that starts a statement. -/
theorem Tree.yield_head : {rule : Rule} → (d : Tree rule) →
    ∃ t us, d.yield = t :: us ∧ t.kind ≠ .wordVar ∧ t.kind ≠ .wordPrint
  | _, .expression value => value.yield_head
  | _, .level _ first more => by
      obtain ⟨t, us, same, start⟩ := first.yield_head
      exact ⟨t, us ++ more.yield, by rw [Tree.yield, same, List.cons_append], start⟩
  | _, .unary operator operand => by
      refine ⟨operator.1, operand.yield, rfl, ?_, ?_⟩ <;>
        exact fun kind => absurd operator.mem (by rw [kind]; decide)
  | _, .primary value => value.yield_head
  | _, .atom t stands => by
      refine ⟨t, [], rfl, ?_, ?_⟩ <;> cases stands <;> simp [*]
  | _, .group opening inner closing => by
      refine ⟨opening.1, _, rfl, ?_, ?_⟩ <;> simp [opening.2]

/-- A primary expression does not start with a unary operator. -/
theorem Tree.primary_head (d : Tree .primary) :
    ∃ t us, d.yield = t :: us ∧ t.kind ∉ Rule.unary.operators := by
  rcases d.primary_cases with ⟨t, node, stands, rfl⟩ | ⟨opening, inner, closing, rfl⟩
  · exact ⟨t, [], rfl, stands.not_operator .unary⟩
  · exact ⟨opening.1, _, rfl, by rw [opening.2]; decide⟩

mutual

theorem Tree.kind_mem : {rule : Rule} → (d : Tree rule) → ∀ t ∈ d.yield, t.kind ∈ Rule.expressionKinds
  | _, .expression value => value.kind_mem
  | _, .level _ first more => List.forall_mem_append.mpr ⟨first.kind_mem, more.kind_mem⟩
  | _, .unary operator operand =>
      List.forall_mem_cons.mpr ⟨Rule.operators_subset _ operator.mem, operand.kind_mem⟩
  | _, .primary value => value.kind_mem
  | _, .atom t stands => by
      refine List.forall_mem_singleton.mpr ?_
      cases stands <;> simp [Rule.expressionKinds, *]
  | _, .group opening inner closing => by
      refine List.forall_mem_cons.mpr ⟨by simp [Rule.expressionKinds, opening.2],
        List.forall_mem_append.mpr ⟨inner.kind_mem, List.forall_mem_singleton.mpr ?_⟩⟩
      simp [Rule.expressionKinds, closing.2]

theorem Further.kind_mem : {level operand : Rule} → (more : Further level operand) →
    ∀ t ∈ more.yield, t.kind ∈ Rule.expressionKinds
  | _, _, .done => nofun
  | _, _, .step operator right more =>
      List.forall_mem_cons.mpr ⟨Rule.operators_subset _ operator.mem,
        List.forall_mem_append.mpr ⟨right.kind_mem, more.kind_mem⟩⟩

end

/-- No semicolon stands inside an expression. -/
theorem Tree.no_semicolon {rule : Rule} (d : Tree rule) : ∀ t ∈ d.yield, t.kind ≠ .semicolon := by
  intro t member semicolon
  have inside := d.kind_mem t member
  rw [semicolon] at inside
  exact absurd inside (by decide)

mutual

/-- A token opens seven rules at most. -/
theorem Tree.height_le : {rule : Rule} → (d : Tree rule) →
    d.height + rule.rank ≤ 7 * d.yield.length
  | _, .expression value => by
      have := value.height_le
      simp only [Tree.height, Tree.yield, Rule.rank] at *
      omega
  | _, .level takes first more => by
      have := first.height_le
      have := more.height_le
      have := Rule.rank_operand takes
      simp only [Tree.height, Tree.yield, List.length_append] at *
      omega
  | _, .unary operator operand => by
      have := operand.height_le
      simp only [Tree.height, Tree.yield, List.length_cons, Rule.rank] at *
      omega
  | _, .primary value => by
      have := value.height_le
      simp only [Tree.height, Tree.yield, Rule.rank] at *
      omega
  | _, .atom _ _ => Nat.le_refl 7
  | _, .group opening inner closing => by
      have := inner.height_le
      simp only [Tree.height, Tree.yield, List.length_cons, List.length_append, Rule.rank] at *
      omega

theorem Further.height_le : {level operand : Rule} → (more : Further level operand) →
    more.height = 0 ∨ more.height + operand.rank ≤ 7 * more.yield.length
  | _, _, .done => .inl rfl
  | _, _, .step operator right more => by
      have := right.height_le
      have := more.height_le
      simp only [Further.height, Further.yield, List.length_cons, List.length_append] at *
      omega

end

/-! ## Statements and programs -/

/-- The derivations of a declaration or statement. -/
inductive Declaration where
  | bare (word : OfKind .wordVar) (name : OfKind .identifier) (semicolon : OfKind .semicolon)
  | initialized (word : OfKind .wordVar) (name : OfKind .identifier) (equal : OfKind .equal)
      (value : Tree .expression) (semicolon : OfKind .semicolon)
  | print (word : OfKind .wordPrint) (value : Tree .expression) (semicolon : OfKind .semicolon)
  | expression (value : Tree .expression) (semicolon : OfKind .semicolon)

namespace Declaration

def yield : Declaration → List Token
  | .bare word name semicolon => [word.1, name.1, semicolon.1]
  | .initialized word name equal value semicolon =>
      word.1 :: name.1 :: equal.1 :: (value.yield ++ [semicolon.1])
  | .print word value semicolon => word.1 :: (value.yield ++ [semicolon.1])
  | .expression value semicolon => value.yield ++ [semicolon.1]

def ast : Declaration → Node
  | .bare _ name _ => .declaration name.1.lexeme .missing name.1.line
  | .initialized _ name _ value _ => .declaration name.1.lexeme value.ast name.1.line
  | .print _ value _ => .print value.ast
  | .expression value _ => .expression value.ast

/-- The most rules of expressions that are open inside one another. -/
def height : Declaration → Nat
  | .bare .. => 0
  | .initialized _ _ _ value _ | .print _ value _ | .expression value _ => value.height

theorem agrees (d e : Declaration) (same : d.ast = e.ast) : Agreement d.yield e.yield (d = e) := by
  cases d with
  | bare word name semicolon =>
      cases e with
      | bare word' name' semicolon' =>
          simp only [ast, Node.declaration.injEq, true_and] at same
          refine (Agreement.cons (fun _ _ => word.alike (by decide) word')
            (.cons (fun _ _ => name.alike_name name' same.1 same.2)
              (.cons (fun _ _ => semicolon.alike (by decide) semicolon') .nil))).mono ?_
          rintro ⟨first, second, third, -⟩
          rw [Subtype.ext first, Subtype.ext second, Subtype.ext third]
      | initialized word' name' equal value semicolon' =>
          exact absurd (Node.declaration.inj same).2.1.symm value.ast_ne_missing
      | print => cases same
      | expression => cases same
  | initialized word name equal value semicolon =>
      cases e with
      | initialized word' name' equal' value' semicolon' =>
          simp only [ast, Node.declaration.injEq] at same
          obtain ⟨lexeme, values, line⟩ := same
          refine (Agreement.cons (fun _ _ => word.alike (by decide) word')
            (.cons (fun _ _ => name.alike_name name' lexeme line)
              (.cons (fun _ _ => equal.alike (by decide) equal') ((value.agrees value' values).append
                (.cons (fun _ _ => semicolon.alike (by decide) semicolon') .nil))))).mono ?_
          rintro ⟨first, second, third, rfl, last, -⟩
          rw [Subtype.ext first, Subtype.ext second, Subtype.ext third, Subtype.ext last]
      | bare => exact absurd (Node.declaration.inj same).2.1 value.ast_ne_missing
      | print => cases same
      | expression => cases same
  | print word value semicolon =>
      cases e with
      | print word' value' semicolon' =>
          refine (Agreement.cons (fun _ _ => word.alike (by decide) word')
            ((value.agrees value' (Node.print.inj same)).append
              (.cons (fun _ _ => semicolon.alike (by decide) semicolon') .nil))).mono ?_
          rintro ⟨first, rfl, last, -⟩
          rw [Subtype.ext first, Subtype.ext last]
      | bare => cases same
      | initialized => cases same
      | expression => cases same
  | expression value semicolon =>
      cases e with
      | expression value' semicolon' =>
          refine ((value.agrees value' (Node.expression.inj same)).append
            (.cons (fun _ _ => semicolon.alike (by decide) semicolon') .nil)).mono ?_
          rintro ⟨rfl, last, -⟩
          rw [Subtype.ext last]
      | bare => cases same
      | initialized => cases same
      | print => cases same

theorem yield_cons (d : Declaration) : ∃ t ts, d.yield = t :: ts := by
  cases d with
  | expression value semicolon =>
      obtain ⟨t, us, same, -⟩ := value.yield_head
      exact ⟨t, us ++ [semicolon.1], by rw [yield, same, List.cons_append]⟩
  | _ => exact ⟨_, _, rfl⟩

/-- A statement runs up to its first semicolon. -/
theorem yield_eq (d : Declaration) : ∃ us, ∃ semicolon : OfKind .semicolon,
    d.yield = us ++ [semicolon.1] ∧ ∀ t ∈ us, t.kind ≠ .semicolon := by
  cases d with
  | bare word name semicolon =>
      refine ⟨[word.1, name.1], semicolon, rfl, ?_⟩
      simp [word.2, name.2]
  | initialized word name equal value semicolon =>
      refine ⟨word.1 :: name.1 :: equal.1 :: value.yield, semicolon, rfl, ?_⟩
      simpa [word.2, name.2, equal.2] using value.no_semicolon
  | print word value semicolon =>
      refine ⟨word.1 :: value.yield, semicolon, rfl, ?_⟩
      simpa [word.2] using value.no_semicolon
  | expression value semicolon => exact ⟨value.yield, semicolon, rfl, value.no_semicolon⟩

/-- The kinds of token that stand in programs. -/
def kinds : List TokenKind := dropped ++ Rule.expressionKinds

theorem kind_mem (d : Declaration) : ∀ t ∈ d.yield, t.kind ∈ kinds := by
  have inside (value : Tree .expression) : ∀ t ∈ value.yield, t.kind ∈ kinds :=
    fun t member => List.mem_append_right _ (value.kind_mem t member)
  have mark {kind : TokenKind} (member : kind ∈ kinds) (t : OfKind kind) : t.1.kind ∈ kinds := by
    rw [t.2]
    exact member
  have last (semicolon : OfKind .semicolon) : ∀ t ∈ [semicolon.1], t.kind ∈ kinds :=
    List.forall_mem_singleton.mpr (mark (by decide) semicolon)
  cases d with
  | bare word name semicolon =>
      exact List.forall_mem_cons.mpr ⟨mark (by decide) word,
        List.forall_mem_cons.mpr ⟨mark (by decide) name, last semicolon⟩⟩
  | initialized word name equal value semicolon =>
      exact List.forall_mem_cons.mpr ⟨mark (by decide) word,
        List.forall_mem_cons.mpr ⟨mark (by decide) name, List.forall_mem_cons.mpr
          ⟨mark (by decide) equal, List.forall_mem_append.mpr ⟨inside value, last semicolon⟩⟩⟩⟩
  | print word value semicolon =>
      exact List.forall_mem_cons.mpr ⟨mark (by decide) word,
        List.forall_mem_append.mpr ⟨inside value, last semicolon⟩⟩
  | expression value semicolon =>
      exact List.forall_mem_append.mpr ⟨inside value, last semicolon⟩

/-- Tokens like those of a statement derive the same statement. -/
theorem retell (d : Declaration) (us : List Token) (alike : List.Forall₂ Token.Alike us d.yield) :
    ∃ e : Declaration, e.yield = us ∧ e.ast = d.ast := by
  cases d with
  | bare word name semicolon =>
      rcases alike with _ | ⟨first, _ | ⟨second, _ | ⟨third, _ | _⟩⟩⟩
      obtain ⟨lexeme, line⟩ := second.name (name.of_alike second)
      refine ⟨.bare ⟨_, word.of_alike first⟩ ⟨_, name.of_alike second⟩ ⟨_, semicolon.of_alike third⟩, rfl,
        ?_⟩
      rw [ast, ast, lexeme, line]
  | initialized word name equal value semicolon =>
      rcases alike with _ | ⟨first, _ | ⟨second, _ | ⟨third, alike⟩⟩⟩
      obtain ⟨vs, u, rfl, alike, same⟩ := exists_last_of_alike alike
      obtain ⟨e, rfl, values⟩ := value.retell vs alike
      obtain ⟨lexeme, line⟩ := second.name (name.of_alike second)
      refine ⟨.initialized ⟨_, word.of_alike first⟩ ⟨_, name.of_alike second⟩ ⟨_, equal.of_alike third⟩ e
        ⟨u, semicolon.of_alike same⟩, rfl, ?_⟩
      rw [ast, ast, lexeme, line, values]
  | print word value semicolon =>
      rcases alike with _ | ⟨first, alike⟩
      obtain ⟨vs, u, rfl, alike, same⟩ := exists_last_of_alike alike
      obtain ⟨e, rfl, values⟩ := value.retell vs alike
      refine ⟨.print ⟨_, word.of_alike first⟩ e ⟨u, semicolon.of_alike same⟩, rfl, ?_⟩
      rw [ast, ast, values]
  | expression value semicolon =>
      obtain ⟨vs, u, rfl, alike, same⟩ := exists_last_of_alike alike
      obtain ⟨e, rfl, values⟩ := value.retell vs alike
      refine ⟨.expression e ⟨u, semicolon.of_alike same⟩, rfl, ?_⟩
      rw [ast, ast, values]

theorem height_le (d : Declaration) : d.height ≤ 7 * d.yield.length := by
  cases d with
  | bare => exact Nat.zero_le _
  | initialized word name equal value semicolon =>
      have := value.height_le
      simp only [height, yield, List.length_cons, List.length_append]
      omega
  | print word value semicolon =>
      have := value.height_le
      simp only [height, yield, List.length_cons, List.length_append]
      omega
  | expression value semicolon =>
      have := value.height_le
      simp only [height, yield, List.length_append]
      omega

end Declaration

/-- The derivations of a program. -/
abbrev Program := List Declaration

namespace Program

def yield (p : Program) : List Token := p.flatMap Declaration.yield

def ast (p : Program) : List Node := p.map Declaration.ast

def height (p : Program) : Nat := p.foldr (fun d height => max d.height height) 0

theorem yield_append (p q : Program) : yield (p ++ q) = yield p ++ yield q := List.flatMap_append

theorem yield_singleton (d : Declaration) : yield [d] = d.yield := List.flatMap_singleton ..

theorem ast_append (p q : Program) : ast (p ++ q) = ast p ++ ast q := List.map_append

@[simp] theorem yield_cons (d : Declaration) (p : Program) : yield (d :: p) = d.yield ++ yield p := rfl

@[simp] theorem ast_cons (d : Declaration) (p : Program) : ast (d :: p) = d.ast :: ast p := rfl

@[simp] theorem height_cons (d : Declaration) (p : Program) :
    height (d :: p) = max d.height (height p) := rfl

theorem agrees (p q : Program) (same : p.ast = q.ast) : Agreement p.yield q.yield (p = q) := by
  induction p generalizing q with
  | nil =>
      cases q with
      | nil => exact Agreement.nil.mono fun _ => rfl
      | cons => cases same
  | cons d p ih =>
      cases q with
      | nil => cases same
      | cons e q =>
          obtain ⟨first, rest⟩ := List.cons.inj same
          refine ((d.agrees e first).append (ih q rest)).mono ?_
          rintro ⟨rfl, rfl⟩
          rfl

theorem kind_mem (p : Program) : ∀ t ∈ p.yield, t.kind ∈ Declaration.kinds := by
  intro t member
  obtain ⟨d, -, inside⟩ := List.mem_flatMap.mp member
  exact d.kind_mem t inside

/-- Tokens like those of a program derive the same program. -/
theorem retell (p : Program) (us : List Token) (alike : List.Forall₂ Token.Alike us p.yield) :
    ∃ q : Program, q.yield = us ∧ q.ast = p.ast := by
  induction p generalizing us with
  | nil =>
      cases alike
      exact ⟨[], rfl, rfl⟩
  | cons d p ih =>
      rw [yield_cons] at alike
      obtain ⟨e, yields, ast⟩ := d.retell _ (List.forall₂_take_append us _ _ alike)
      obtain ⟨q, yields', asts⟩ := ih _ (List.forall₂_drop_append us _ _ alike)
      refine ⟨e :: q, ?_, ?_⟩
      · rw [yield_cons, yields, yields', List.take_append_drop]
      · rw [ast_cons, ast_cons, ast, asts]

theorem height_le (p : Program) : p.height ≤ 7 * p.yield.length := by
  induction p with
  | nil => exact Nat.zero_le _
  | cons d p ih =>
      have := d.height_le
      rw [height_cons, yield_cons, List.length_append]
      omega

end Program

end Derivation

end LoxLang
