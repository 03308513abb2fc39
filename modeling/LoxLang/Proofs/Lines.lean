/-
# LoxLang.Proofs.Lines -- the lines of a tree

Tokens, names and operators carry lines, and nothing else in a tree does.  `mapLine` puts
another line in the place of each; what a tree is apart from that stays.

A statement is reported on the line of its outermost name or operator.  A literal has none,
alone or inside groups, and counts as on line zero.  Such a statement is never reported,
though: the descent front end reads no more than some hundred groups inside one another
(`Descent.groups_of_mem_passes`), and evaluation goes deeper than that.  So what fails
carries a line (`Descent.lined_of_fails`).
-/
import LoxLang.Proofs.Execution

namespace LoxLang

open LoxLang.Derivation

set_option autoImplicit false

/-! ## Other lines -/

/-- A token on another line. -/
def Token.mapLine (f : Int → Int) (t : Token) : Token := { t with line := f t.line }

namespace Token

variable (f : Int → Int) (t : Token)

@[simp] theorem kind_mapLine : (t.mapLine f).kind = t.kind := rfl

@[simp] theorem lexeme_mapLine : (t.mapLine f).lexeme = t.lexeme := rfl

@[simp] theorem literal_mapLine : (t.mapLine f).literal = t.literal := rfl

@[simp] theorem line_mapLine : (t.mapLine f).line = f t.line := rfl

end Token

namespace Node

mutual

/-- A tree on other lines. -/
def mapLine (f : Int → Int) : Node → Node
  | .binary left operator right => .binary (left.mapLine f) (operator.mapLine f) (right.mapLine f)
  | .unary operator operand => .unary (operator.mapLine f) (operand.mapLine f)
  | .grouping inner => .grouping (inner.mapLine f)
  | .literal value => .literal value
  | .hollow kind => .hollow kind
  | .reference name line => .reference name (f line)
  | .expression value => .expression (value.mapLine f)
  | .print value => .print (value.mapLine f)
  | .declaration name initializer line => .declaration name (initializer.mapLine f) (f line)
  | .missing => .missing
  | .block statements => .block (mapLineList f statements)

def mapLineList (f : Int → Int) : List Node → List Node
  | [] => []
  | node :: rest => node.mapLine f :: mapLineList f rest

end

theorem kindName_mapLine (f : Int → Int) (node : Node) : (node.mapLine f).kindName = node.kindName := by
  cases node <;> simp [mapLine, kindName]

theorem mapLine_ne_missing (f : Int → Int) {node : Node} (present : node ≠ .missing) :
    node.mapLine f ≠ .missing := by
  cases node <;> simp_all [mapLine]

/-! ## Trees that carry a line -/

/-- Whether a tree carries a line on top: that of an operator or of a name, perhaps inside groups. -/
def lined : Node → Bool
  | .binary .. | .unary .. | .reference .. | .declaration .. => true
  | .grouping inner => inner.lined
  | .expression value => value.lined
  | .print value => value.lined
  | .literal _ | .hollow _ | .missing | .block _ => false

/-- A tree is on the changed line if it carries one, or if the line in place of none is none. -/
theorem line_mapLine {f : Int → Int} : (node : Node) → node.lined ∨ f 0 = 0 →
    (node.mapLine f).line = f node.line
  | .binary .., _ | .unary .., _ | .reference .., _ | .declaration .., _ => by simp [mapLine, line]
  | .grouping inner, carries => by simpa [mapLine, line] using inner.line_mapLine carries
  | .expression value, carries => by simpa [mapLine, line] using value.line_mapLine carries
  | .print value, carries => by simpa [mapLine, line] using value.line_mapLine carries
  | .literal _, carries | .hollow _, carries | .missing, carries | .block _, carries => by
      simpa [mapLine, line, lined, eq_comm] using carries

/-- The number of groups around a tree. -/
def groups : Node → Nat
  | .grouping inner => inner.groups + 1
  | _ => 0

/-- A literal inside few groups has a value. -/
theorem IsExpression.yields_of_unlined {node : Node} (built : node.IsExpression Token.Written)
    (unlined : node.lined = false) (b : Bindings) {limit : Nat} (few : node.groups < limit) :
    ∃ value, node.Yields b limit (.ok value) := by
  induction built generalizing limit with
  | @atom t node written stands =>
      obtain ⟨limit, rfl⟩ : ∃ n, limit = n + 1 := ⟨limit - 1, by omega⟩
      rcases written.atom stands with ⟨value, rfl, -⟩ | ⟨-, rfl⟩
      · exact ⟨value, .literal limit value⟩
      · simp [lined] at unlined
  | unary => simp [lined] at unlined
  | binary => simp [lined] at unlined
  | @grouping inner _ ih =>
      obtain ⟨limit, rfl⟩ : ∃ n, limit = n + 1 := ⟨limit - 1, by omega⟩
      simp only [groups, Nat.add_lt_add_iff_right] at few
      obtain ⟨value, yields⟩ := ih unlined few
      exact ⟨value, .grouping yields⟩

end Node

/-! ## Groups in a derivation -/

theorem Atom.groups_eq {t : Token} {node : Node} (stands : Atom t node) : node.groups = 0 := by
  cases node with
  | grouping inner => exact absurd rfl (stands.ne_grouping inner)
  | _ => rfl

namespace Derivation

theorem Further.groups_fold : {level operand : Rule} → (more : Further level operand) → (left : Node) →
    more.fold left = left ∨ (more.fold left).groups = 0
  | _, _, .done, _ => .inl rfl
  | _, _, .step operator right more, left => by
      rcases more.groups_fold (.binary left operator.1 right.ast) with same | none
      · simp [Further.fold, same, Node.groups]
      · simp [Further.fold, none]

/-- Every group opens seven rules, and so does the expression inside. -/
theorem Tree.groups_height {rule : Rule} (d : Tree rule) :
    7 * d.ast.groups + 7 ≤ d.height + rule.rank := by
  cases d with
  | expression value =>
      have := value.groups_height
      simp only [Tree.ast, Tree.height, Rule.rank] at *
      omega
  | level takes first more =>
      have := first.groups_height
      have := Rule.rank_operand takes
      have : (more.fold first.ast).groups ≤ first.ast.groups := by
        rcases more.groups_fold first.ast with same | none
        · rw [same]
        · simp [none]
      simp only [Tree.ast, Tree.height]
      omega
  | unary operator operand =>
      have := operand.groups_height
      simp only [Tree.ast, Tree.height, Node.groups, Rule.rank] at *
      omega
  | primary value =>
      have := value.groups_height
      simp only [Tree.ast, Tree.height, Rule.rank] at *
      omega
  | atom t stands =>
      have none := stands.groups_eq
      simp [Tree.ast, Tree.height, Rule.rank, none]
  | group opening inner closing =>
      have := inner.groups_height
      simp only [Tree.ast, Tree.height, Node.groups, Rule.rank] at *
      omega

end Derivation

/-! ## Statements that fail -/

namespace Descent

/-- The statements of a reading have derivations within the limit. -/
theorem derived_of_mem_passes {limit : Nat} {ts : List Token} {node : Node}
    (member : .ok node ∈ passes limit ts) : ∃ d : Declaration, d.ast = node ∧ d.height ≤ limit := by
  fun_induction passes limit ts with
  | case1 => cases member
  | case2 t ts first rest read ih =>
      rcases List.mem_cons.mp member with here | later
      · cases here
        obtain ⟨d, -, same, bound⟩ := statement_sound read
        exact ⟨d, same, bound⟩
      · exact ih later
  | case3 t ts fault failed ih =>
      rcases List.mem_cons.mp member with here | later
      · cases here
      · exact ih later

/-- The expression of a statement stands inside few groups. -/
theorem groups_of_mem_passes {ts : List Token} {statement part : Node}
    (member : .ok statement ∈ passes ruleLimit ts) (isPart : statement.part? = some part) :
    part.groups < Node.partLimit := by
  have bound : ∀ value : Tree .expression, value.height ≤ ruleLimit →
      value.ast.groups < Node.partLimit := by
    intro value bound
    have := value.groups_height
    simp only [Rule.rank, ruleLimit, Node.partLimit, evalLimit] at *
    omega
  obtain ⟨d, rfl, height⟩ := derived_of_mem_passes member
  cases d with
  | bare word name semicolon =>
      cases isPart
      decide
  | initialized word name equal value semicolon =>
      cases isPart
      exact bound value height
  | print word value semicolon =>
      cases isPart
      exact bound value height
  | expression value semicolon =>
      cases isPart
      exact bound value height

/-- **A statement that fails carries a line.** -/
theorem lined_of_fails {ts : List Token} (written : ∀ t ∈ ts, t.Written) {statement part : Node}
    (member : .ok statement ∈ passes ruleLimit ts) (isPart : statement.part? = some part) {b : Bindings}
    {failure : Failure} (fails : part.Yields b Node.partLimit (.error failure)) : statement.lined := by
  have few := groups_of_mem_passes member isPart
  have carries (inner : part.IsExpression (· ∈ ts)) : part.lined := by
    by_contra unlined
    obtain ⟨value, yields⟩ := (inner.mono written).yields_of_unlined (by simpa using unlined) b few
    cases fails.unique yields
  cases isStatement_of_mem_passes ruleLimit ts statement member with
  | expression inner =>
      cases isPart
      exact carries inner
  | print inner =>
      cases isPart
      exact carries inner
  | bare => rfl
  | initialized => rfl

end Descent

/-- A statement of a text that fails carries a line. -/
theorem FrontEnd.lined_of_fails {source : String} {statement : Node}
    (member : statement ∈ (descent.read source).statements) {b : Bindings} {error : RuntimeError}
    (fails : statement.Fails b error) : statement.lined := by
  have written : ∀ t ∈ descent.tokens source, t.Written :=
    fun t inside => (descent.tokens_written source t inside).1
  obtain ⟨part, failure, isPart, yields, -⟩ := fails
  rw [read_descent] at member
  obtain ⟨pass, passed, found⟩ := List.mem_filterMap.mp member
  cases pass with
  | error fault => cases found
  | ok node =>
      cases found
      exact Descent.lined_of_fails written passed isPart yields

end LoxLang
