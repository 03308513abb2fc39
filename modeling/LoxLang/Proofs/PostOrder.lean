/-
# LoxLang.Proofs.PostOrder -- expressions as steps on a stack of values

The literals, names and operators of an expression can be written one after another, the
parts of a node from left to right and its operator behind them.  Each of them is a step on
a stack of values: a literal or a name puts its value on top, and an operator takes its
operands off and puts its result there.

Evaluating an expression is running its steps (`Node.IsExpression.runs`).  The induction is
over the expression, for any values below on the stack and any steps behind (`Computes`),
since a right operand is computed on top of the left one and in front of the operator.

Steps stop at the first one that fails, so the failure that evaluation reports is the first
from the left, and its line is the line of the name or operator of that step.
-/
import LoxLang.Proofs.Reports

namespace LoxLang

set_option autoImplicit false

/-! ## Steps on a stack -/

/-- One step of an expression written in post-order. -/
inductive Instruction where
  | push (value : Value)
  | fetch (name : Text) (line : Int)
  | unary (operator : Token)
  | binary (operator : Token)
  deriving DecidableEq

/-- Why steps stop: an error of the program, or too few values on the stack. -/
inductive Stop where
  | failed (error : RuntimeError)
  | underflow
  deriving DecidableEq

namespace Instruction

/-- Take one step.  The right operand of an operator is on top of the left one. -/
def perform (b : Bindings) : Instruction → List Value → Except Stop (List Value)
  | .push value, stack => .ok (value :: stack)
  | .fetch name line, stack =>
      match b.get? name with
      | some value => .ok (value :: stack)
      | none => .error (.failed ⟨line, .undefined name⟩)
  | .unary operator, operand :: stack =>
      ((applyUnary operator operand).map (· :: stack)).mapError .failed
  | .binary operator, right :: left :: stack =>
      ((applyBinary operator left right).map (· :: stack)).mapError .failed
  | _, _ => .error .underflow

/-- Take steps up to the first that fails. -/
def runAll (b : Bindings) : List Instruction → List Value → Except Stop (List Value)
  | [], stack => .ok stack
  | step :: rest, stack => step.perform b stack >>= runAll b rest

/-- The name or the operator that a step is made of. -/
inductive MadeOf : Token → Instruction → Prop where
  | name {t : Token} (kind : t.kind = .identifier) : MadeOf t (.fetch t.lexeme t.line)
  | unary (t : Token) : MadeOf t (.unary t)
  | binary (t : Token) : MadeOf t (.binary t)

variable {b : Bindings}

/-- A step that fails reports the line of its name or operator. -/
theorem MadeOf.line_of_perform {t : Token} {step : Instruction} (made : MadeOf t step)
    {stack : List Value} {error : RuntimeError}
    (fails : step.perform b stack = .error (.failed error)) : error.line = t.line := by
  cases made with
  | name kind =>
      cases found : b.get? t.lexeme <;> simp only [perform, found] at fails <;> cases fails
      rfl
  | unary =>
      cases stack with
      | nil => cases fails
      | cons operand stack =>
          simp only [perform] at fails
          cases applied : applyUnary t operand <;> rw [applied] at fails <;> cases fails
          exact line_of_applyUnary applied
  | binary =>
      rcases stack with - | ⟨right, - | ⟨left, stack⟩⟩
      · cases fails
      · cases fails
      · simp only [perform] at fails
        cases applied : applyBinary t left right <;> rw [applied] at fails <;> cases fails
        exact line_of_applyBinary applied

/-- Steps that stop have a first one that fails. -/
theorem exists_first_failure {steps : List Instruction} {stack : List Value} {stop : Stop}
    (stops : runAll b steps stack = .error stop) :
    ∃ before step after reached, steps = before ++ step :: after ∧
      runAll b before stack = .ok reached ∧ step.perform b reached = .error stop := by
  induction steps generalizing stack with
  | nil => cases stops
  | cons step rest ih =>
      rw [runAll] at stops
      cases performed : step.perform b stack with
      | error stop' =>
          rw [performed] at stops
          cases stops
          exact ⟨[], step, rest, stack, rfl, rfl, performed⟩
      | ok next =>
          rw [performed] at stops
          obtain ⟨before, failing, after, reached, rfl, ran, fails⟩ := ih stops
          refine ⟨step :: before, failing, after, reached, rfl, ?_, fails⟩
          rw [runAll, performed]
          exact ran

/-- Whatever lies below on the stack and whatever follows, steps put one value on top or stop with an
error. -/
def Computes (b : Bindings) (steps : List Instruction) (result : Except RuntimeError Value) : Prop :=
  ∀ (rest : List Instruction) (stack : List Value), runAll b (steps ++ rest) stack =
    result.mapError .failed >>= fun value => runAll b rest (value :: stack)

namespace Computes

variable {xs ys : List Instruction} {error : RuntimeError}

theorem push (b : Bindings) (value : Value) : Computes b [.push value] (.ok value) :=
  fun _ _ => rfl

theorem fetch {name : Text} {value : Value} (found : b.get? name = some value) (line : Int) :
    Computes b [.fetch name line] (.ok value) := by
  intro rest stack
  simp only [List.singleton_append, runAll, perform, found]
  rfl

theorem fetch_of_none {name : Text} (absent : b.get? name = none) (line : Int) :
    Computes b [.fetch name line] (.error ⟨line, .undefined name⟩) := by
  intro rest stack
  simp only [List.singleton_append, runAll, perform, absent]
  rfl

/-- Steps behind an error are not taken. -/
theorem append_of_error (fails : Computes b xs (.error error)) (more : List Instruction) :
    Computes b (xs ++ more) (.error error) := by
  intro rest stack
  rw [List.append_assoc, fails]
  rfl

/-- If the first of two parts has a value, the error of the second is that of both. -/
theorem append_of_second_error {value : Value} (first : Computes b xs (.ok value))
    (fails : Computes b ys (.error error)) : Computes b (xs ++ ys) (.error error) := by
  intro rest stack
  rw [List.append_assoc, first]
  exact fails rest (value :: stack)

theorem unary {operand : Value} (first : Computes b xs (.ok operand)) (operator : Token) :
    Computes b (xs ++ [.unary operator]) (applyUnary operator operand) := by
  intro rest stack
  rw [List.append_assoc, first]
  show perform b (.unary operator) (operand :: stack) >>= runAll b rest = _
  simp only [perform]
  cases applyUnary operator operand <;> rfl

theorem binary {left right : Value} (first : Computes b xs (.ok left))
    (second : Computes b ys (.ok right)) (operator : Token) :
    Computes b (xs ++ ys ++ [.binary operator]) (applyBinary operator left right) := by
  intro rest stack
  rw [List.append_assoc, List.append_assoc, first]
  show runAll b (ys ++ ([.binary operator] ++ rest)) (left :: stack) = _
  rw [second]
  show perform b (.binary operator) (right :: left :: stack) >>= runAll b rest = _
  simp only [perform]
  cases applyBinary operator left right <;> rfl

end Computes

end Instruction

/-! ## Expressions in post-order -/

namespace Node

open Instruction

/-- The steps of an expression, parts before wholes and from left to right. -/
def postOrder : Node → List Instruction
  | .literal value => [.push value]
  | .reference name line => [.fetch name line]
  | .grouping inner => inner.postOrder
  | .unary operator operand => operand.postOrder ++ [.unary operator]
  | .binary left operator right => left.postOrder ++ right.postOrder ++ [.binary operator]
  | _ => []

/-- The expressions in a node, the node itself included. -/
def expressions : Node → List Node
  | .literal value => [.literal value]
  | .reference name line => [.reference name line]
  | .grouping inner => .grouping inner :: inner.expressions
  | .unary operator operand => .unary operator operand :: operand.expressions
  | .binary left operator right => .binary left operator right :: (left.expressions ++ right.expressions)
  | .expression value => value.expressions
  | .print value => value.expressions
  | .declaration _ initializer _ => initializer.expressions
  | _ => []

section Parts

variable {P : Token → Prop} {node : Node}

theorem IsExpression.of_mem_expressions (built : node.IsExpression fun t => t.Written ∧ P t) :
    ∀ part ∈ node.expressions, part.IsExpression fun t => t.Written ∧ P t := by
  induction built with
  | @atom t node holds stands =>
      intro part member
      have same : part = node := by
        rcases holds.1.atom stands with ⟨value, rfl, -⟩ | ⟨-, rfl⟩ <;> exact List.mem_singleton.mp member
      rw [same]
      exact .atom holds stands
  | unary holds member inner ih => exact List.forall_mem_cons.mpr ⟨.unary holds member inner, ih⟩
  | binary holds takes member first second ih ih' =>
      exact List.forall_mem_cons.mpr
        ⟨.binary holds takes member first second, List.forall_mem_append.mpr ⟨ih, ih'⟩⟩
  | grouping inner ih => exact List.forall_mem_cons.mpr ⟨.grouping inner, ih⟩

theorem IsStatement.of_mem_expressions (built : node.IsStatement fun t => t.Written ∧ P t) :
    ∀ part ∈ node.expressions, part.IsExpression fun t => t.Written ∧ P t := by
  cases built with
  | expression inner => exact inner.of_mem_expressions
  | print inner => exact inner.of_mem_expressions
  | bare => simp [expressions]
  | initialized _ _ inner => exact inner.of_mem_expressions

/-- Every step of an expression puts a literal on the stack or is made of one of its tokens. -/
theorem IsExpression.madeOf_of_mem (built : node.IsExpression fun t => t.Written ∧ P t) :
    ∀ step ∈ node.postOrder, (∃ value, step = .push value) ∨ ∃ t, P t ∧ MadeOf t step := by
  induction built with
  | @atom t node holds stands =>
      rcases holds.1.atom stands with ⟨value, rfl, -⟩ | ⟨kind, rfl⟩
      · exact List.forall_mem_singleton.mpr (.inl ⟨value, rfl⟩)
      · exact List.forall_mem_singleton.mpr (.inr ⟨t, holds.2, .name kind⟩)
  | @unary operator _ holds _ _ ih =>
      refine List.forall_mem_append.mpr ⟨ih, List.forall_mem_singleton.mpr ?_⟩
      exact .inr ⟨operator, holds.2, .unary operator⟩
  | @binary _ _ operator _ _ holds _ _ _ _ ih ih' =>
      refine List.forall_mem_append.mpr
        ⟨List.forall_mem_append.mpr ⟨ih, ih'⟩, List.forall_mem_singleton.mpr ?_⟩
      exact .inr ⟨operator, holds.2, .binary operator⟩
  | grouping _ ih => exact ih

end Parts

/-- What an expression yields is what its steps compute, unless it is deeper than the limit. -/
inductive Runs (b : Bindings) (limit : Nat) (node : Node) : Except Failure Value → Prop where
  | tooDeep (deep : limit < node.depth) : Runs b limit node (.error .tooDeep)
  | value {value : Value} (computes : Computes b node.postOrder (.ok value)) :
      Runs b limit node (.ok value)
  | error {error : RuntimeError} (computes : Computes b node.postOrder (.error error)) :
      Runs b limit node (.error (.runtime error))

theorem Runs.of_computes {b : Bindings} {limit : Nat} {node : Node} {result : Except RuntimeError Value}
    (computes : Computes b node.postOrder result) : Runs b limit node (result.mapError .runtime) := by
  cases result with
  | ok value => exact .value computes
  | error error => exact .error computes

/-- **Evaluation runs the steps of an expression.** -/
theorem IsExpression.runs {b : Bindings} {limit : Nat} {node : Node} {outcome : Except Failure Value}
    (built : node.IsExpression Token.Written) (yields : node.Yields b limit outcome) :
    Runs b limit node outcome := by
  induction built generalizing limit outcome with
  | @atom t _ written stands =>
      rcases written.atom stands with ⟨value, rfl, -⟩ | ⟨-, rfl⟩
      · cases yields with
        | tooDeep => exact .tooDeep Nat.one_pos
        | literal => exact .value (.push b value)
      · cases yields with
        | tooDeep => exact .tooDeep Nat.one_pos
        | bound found => exact .value (.fetch found _)
        | unbound absent => exact .error (.fetch_of_none absent _)
  | @unary operator _ _ _ _ ih =>
      cases yields with
      | tooDeep => exact .tooDeep (Nat.succ_pos _)
      | operand fails =>
          cases ih fails with
          | tooDeep deep => exact .tooDeep (Nat.succ_lt_succ deep)
          | error computes => exact .error (computes.append_of_error _)
      | unary inner =>
          cases ih inner with
          | value computes => exact .of_computes (computes.unary operator)
  | @binary left right operator _ _ _ _ _ _ _ ih ih' =>
      cases yields with
      | tooDeep => exact .tooDeep (Nat.succ_pos _)
      | left fails =>
          cases ih fails with
          | tooDeep deep => exact .tooDeep (Nat.succ_lt_succ (Nat.lt_of_lt_of_le deep (Nat.le_max_left _ _)))
          | error computes => exact .error ((computes.append_of_error _).append_of_error _)
      | right first fails =>
          cases ih first with
          | value computes =>
              cases ih' fails with
              | tooDeep deep =>
                  exact .tooDeep (Nat.succ_lt_succ (Nat.lt_of_lt_of_le deep (Nat.le_max_right _ _)))
              | error computes' =>
                  exact .error ((computes.append_of_second_error computes').append_of_error _)
      | binary first second =>
          cases ih first with
          | value computes =>
              cases ih' second with
              | value computes' => exact .of_computes (computes.binary computes' operator)
  | grouping _ ih =>
      cases yields with
      | tooDeep => exact .tooDeep (Nat.succ_pos _)
      | grouping inner =>
          cases ih inner with
          | tooDeep deep => exact .tooDeep (Nat.succ_lt_succ deep)
          | value computes => exact .value computes
          | error computes => exact .error computes

/-- **Evaluation is left to right in post-order and reports the first failure.**  Take any expression in a
statement that a front end makes of a text.  Evaluating it leaves bindings and output alone.  It ends
at the limit only if the expression is deeper.  Otherwise it comes to what its steps come to on the
empty stack: to the one value that they leave there, or to the error at which they stop.  All steps in
front of the one that fails succeed, and the line of the error is that of the name or operator of the
text that this step is made of. -/
theorem evaluation_is_post_order (frontEnd : FrontEnd) (source : String) {statement node : Node}
    (member : statement ∈ (frontEnd.read source).statements) (inside : node ∈ statement.expressions)
    (limit : Nat) (s : Store) :
    Eval.Comes s (.error .tooDeep) (node.eval limit s) ∧ limit < node.depth ∨
    (∃ value, Eval.Comes s (.ok value) (node.eval limit s) ∧
      runAll s.bindings node.postOrder [] = .ok [value]) ∨
    ∃ error, Eval.Comes s (.error (.runtime error)) (node.eval limit s) ∧
      runAll s.bindings node.postOrder [] = .error (.failed error) ∧
      ∃ before step after stack, node.postOrder = before ++ step :: after ∧
        runAll s.bindings before [] = .ok stack ∧
        step.perform s.bindings stack = .error (.failed error) ∧
        ∃ t ∈ frontEnd.tokens source, MadeOf t step ∧ error.line = t.line := by
  have tokens : statement.IsStatement fun t => t.Written ∧ t ∈ frontEnd.tokens source :=
    (frontEnd.isStatement_of_read source statement member).mono
      fun t read => ⟨(frontEnd.tokens_written source t read).1, read⟩
  have built := tokens.of_mem_expressions node inside
  have written := built.mono fun _ => And.left
  obtain ⟨outcome, yields, comes⟩ := eval_yields written s.bindings limit
  cases written.runs yields with
  | tooDeep deep => exact .inl ⟨comes s rfl, deep⟩
  | @value value computes =>
      have alone := computes [] []
      rw [List.append_nil] at alone
      exact .inr (.inl ⟨value, comes s rfl, alone⟩)
  | @error error computes =>
      have alone := computes [] []
      rw [List.append_nil] at alone
      obtain ⟨before, step, after, stack, whole, ran, fails⟩ := exists_first_failure alone
      refine .inr (.inr ⟨error, comes s rfl, alone, before, step, after, stack, whole, ran, fails, ?_⟩)
      have first : step ∈ node.postOrder := by simp [whole]
      rcases built.madeOf_of_mem step first with ⟨value, rfl⟩ | ⟨t, read, made⟩
      · cases fails
      · exact ⟨t, read, made, made.line_of_perform fails⟩

/-- The negation on the second line fails.  The sum in front of it has been computed by then, and the name
behind it, which is not bound either, is not looked up. -/
theorem evaluation_is_post_order_of_two_lines :
    let source := "print (1 + 2) *\n-\"a\" + missing;"
    let s : Store := ⟨.empty, []⟩
    let steps : List Instruction :=
      [.push (.number 1), .push (.number 2), .binary ⟨.plus, "+", none, 1⟩, .push (.string "a"),
        .unary ⟨.minus, "-", none, 2⟩, .binary ⟨.star, "*", none, 1⟩, .fetch "missing" 2,
        .binary ⟨.plus, "+", none, 2⟩]
    ∃ statement ∈ (FrontEnd.descent.read source).statements, ∃ node ∈ statement.expressions,
      node.postOrder = steps ∧
      Eval.Comes s (.error (.runtime ⟨2, .operandNotNumber⟩)) (node.eval evalLimit s) := by
  intro source s steps
  let parts := (FrontEnd.descent.read source).statements.flatMap expressions
  have listed : (steps, 5) ∈ parts.map fun node => (node.postOrder, node.depth) := by decide +kernel
  have stops : runAll s.bindings steps [] = .error (.failed ⟨2, .operandNotNumber⟩) := by decide +kernel
  obtain ⟨node, part, same⟩ := List.mem_map.mp listed
  obtain ⟨statement, member, inside⟩ := List.mem_flatMap.mp part
  obtain ⟨order, depth⟩ := Prod.mk.inj same
  refine ⟨statement, member, node, inside, order, ?_⟩
  rcases evaluation_is_post_order .descent source member inside evalLimit s with
    ⟨-, deep⟩ | ⟨value, -, ran⟩ | ⟨error, comes, ran, -⟩
  · rw [depth] at deep
    exact absurd deep (by decide)
  · rw [order, stops] at ran
    cases ran
  · rw [order, stops] at ran
    cases ran
    exact comes

end Node

end LoxLang
