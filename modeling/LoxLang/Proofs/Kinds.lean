/-
# LoxLang.Proofs.Kinds -- success and failure depend on kinds only

A value can be of four types, and which operators apply to it depends on its type alone.
So two runs of the same statements that start from bindings of the same types go the same
way: they print equally often, they end with the same diagnostics, and they leave bindings
of the same types.  What the values are shows in the printed text and nowhere else.

The argument is about pairs of computations.  `Eval.Twin` relates two computations that
from related stores come to related ends; it is closed under sequencing (`Twin.bind`), and
each primitive of evaluation is its own twin.  Evaluation follows by recursion on the
limit, and running a program by induction over its statements.
-/
import LoxLang.Session

namespace LoxLang

set_option autoImplicit false

/-! ## Pairs of computations -/

namespace Eval

section Twin

variable {α β γ δ : Type} {S : Store → Store → Prop} {F : Failure → Failure → Prop}

/-- Two results that are both successes, with answers related by `R`, or both failures, related by
`F`; the stores behind them are related by `S`. -/
def Meet (S : Store → Store → Prop) (F : Failure → Failure → Prop) (R : α → β → Prop) :
    EStateM.Result Failure Store α → EStateM.Result Failure Store β → Prop
  | .ok a s, .ok b t => R a b ∧ S s t
  | .error e s, .error f t => F e f ∧ S s t
  | _, _ => False

/-- Two computations that from related stores come to results that meet. -/
def Twin (S : Store → Store → Prop) (F : Failure → Failure → Prop) (R : α → β → Prop)
    (m : Eval α) (n : Eval β) : Prop :=
  ∀ ⦃s t : Store⦄, S s t → Meet S F R (m s) (n t)

theorem Twin.pure {R : α → β → Prop} {a : α} {b : β} (alike : R a b) :
    Twin S F R (pure a) (pure b) :=
  fun _ _ related => ⟨alike, related⟩

theorem Twin.throw {R : α → β → Prop} {e f : Failure} (alike : F e f) :
    Twin S F R (throw e) (throw f) :=
  fun _ _ related => ⟨alike, related⟩

theorem Twin.bind {R : α → β → Prop} {Q : γ → δ → Prop} {m : Eval α} {n : Eval β}
    {k : α → Eval γ} {l : β → Eval δ} (first : Twin S F R m n)
    (next : ∀ a b, R a b → Twin S F Q (k a) (l b)) : Twin S F Q (m >>= k) (n >>= l) := by
  intro s t related
  have met := first related
  show Meet S F Q (EStateM.bind m k s) (EStateM.bind n l t)
  unfold EStateM.bind
  -- Only two successes and two failures meet, so two of the four cases are left.
  cases left : m s <;> cases right : n t <;> rw [left, right] at met
  · exact next _ _ met.1 met.2
  · exact met.elim
  · exact met.elim
  · exact met

theorem Twin.modify {f g : Store → Store} (keeps : ∀ s t, S s t → S (f s) (g t)) :
    Twin S F Eq (modify f : Eval Unit) (modify g : Eval Unit) :=
  fun s t related => ⟨rfl, keeps s t related⟩

end Twin

end Eval

/-! ## Kinds -/

namespace Value

/-- Two values of the same type. -/
def SameKind (v w : Value) : Prop := v.typeName = w.typeName

theorem SameKind.refl (v : Value) : v.SameKind v := rfl

-- Stated for variables: to compare two sums as values is to unfold the addition of floats.
theorem SameKind.numbers (x y : Float) : (number x).SameKind (number y) := rfl

theorem SameKind.strings (s t : Text) : (string s).SameKind (string t) := rfl

theorem SameKind.booleans (a b : Bool) : (boolean a).SameKind (boolean b) := rfl

/-- The pairs of values that are of one type. -/
theorem SameKind.cases {v w : Value} (same : v.SameKind w) :
    (∃ x y, v = .number x ∧ w = .number y) ∨ (∃ s t, v = .string s ∧ w = .string t) ∨
      (∃ a b, v = .boolean a ∧ w = .boolean b) ∨ v = .nil ∧ w = .nil := by
  unfold SameKind at same
  cases v <;> cases w <;> simp_all [typeName]

end Value

/-- Two answers of operators: values of one type, or the same error. -/
def SameOutcome : Except RuntimeError Value → Except RuntimeError Value → Prop
  | .ok v, .ok w => v.SameKind w
  | .error e, .error f => e = f
  | _, _ => False

theorem applyUnary_sameOutcome (operator : Token) {v w : Value} (same : v.SameKind w) :
    SameOutcome (applyUnary operator v) (applyUnary operator w) := by
  rw [applyUnary_eq, applyUnary_eq]
  split
  · exact .booleans _ _
  · split
    · rcases same.cases with ⟨x, y, rfl, rfl⟩ | ⟨s, t, rfl, rfl⟩ | ⟨a, b, rfl, rfl⟩ | ⟨rfl, rfl⟩
      · exact .numbers _ _
      all_goals rfl
    · rfl

/-- An operator that takes numbers only gives values of one type. -/
theorem numeric?_sameKind {kind : TokenKind} {f : Float → Float → Value} (takes : numeric? kind = some f)
    (x y x' y' : Float) : (f x y).SameKind (f x' y') := by
  unfold numeric? at takes
  split at takes
  · cases takes
    exact .numbers _ _
  · cases takes
    exact .booleans _ _
  · cases takes

theorem applyBinary_sameOutcome (operator : Token) {v v' w w' : Value} (left : v.SameKind v')
    (right : w.SameKind w') :
    SameOutcome (applyBinary operator v w) (applyBinary operator v' w') := by
  unfold applyBinary
  split
  · exact .booleans _ _
  · exact .booleans _ _
  · rcases left.cases with ⟨x, y, rfl, rfl⟩ | ⟨s, t, rfl, rfl⟩ | ⟨a, b, rfl, rfl⟩ | ⟨rfl, rfl⟩ <;>
      rcases right.cases with ⟨x', y', rfl, rfl⟩ | ⟨s', t', rfl, rfl⟩ | ⟨a', b', rfl, rfl⟩ |
        ⟨rfl, rfl⟩ <;>
      first
      | exact Value.SameKind.numbers _ _
      | exact Value.SameKind.strings _ _
      | rfl
  · cases takes : numeric? operator.kind with
    | none => rfl
    | some f =>
        rcases left.cases with ⟨x, y, rfl, rfl⟩ | ⟨s, t, rfl, rfl⟩ | ⟨a, b, rfl, rfl⟩ |
            ⟨rfl, rfl⟩ <;>
          rcases right.cases with ⟨x', y', rfl, rfl⟩ | ⟨s', t', rfl, rfl⟩ | ⟨a', b', rfl, rfl⟩ |
            ⟨rfl, rfl⟩ <;>
          first
          | exact numeric?_sameKind takes _ _ _ _
          | rfl

namespace Bindings

/-- The same names are bound, to values of the same types. -/
def SameKinds (b c : Bindings) : Prop :=
  ∀ name, (b.get? name).map Value.typeName = (c.get? name).map Value.typeName

theorem SameKinds.refl (b : Bindings) : b.SameKinds b := fun _ => rfl

theorem SameKinds.insert {b c : Bindings} (same : b.SameKinds c) (name : Text) {v w : Value}
    (kind : v.SameKind w) : (b.insert name v).SameKinds (c.insert name w) := by
  intro other
  by_cases here : other = name
  · simpa [here, Value.SameKind] using kind
  · simpa [here] using same other

/-- A name is bound on neither side, or on both to values of one type. -/
theorem SameKinds.get? {b c : Bindings} (same : b.SameKinds c) (name : Text) :
    b.get? name = none ∧ c.get? name = none ∨
      ∃ v w, b.get? name = some v ∧ c.get? name = some w ∧ v.SameKind w := by
  have here := same name
  cases left : b.get? name <;> cases right : c.get? name <;> rw [left, right] at here
  · exact .inl ⟨rfl, rfl⟩
  · cases here
  · cases here
  · exact .inr ⟨_, _, rfl, rfl, Option.some.inj here⟩

end Bindings

/-! ## Evaluation -/

namespace Store

/-- The number of lines printed so far. -/
def printed (s : Store) : Nat := (Event.outputs s.events).length

theorem printed_note (s : Store) (event : Event) :
    (s.note event).printed = s.printed + event.output?.toList.length := by
  unfold printed note events Event.outputs
  rw [List.reverse_cons, List.filterMap_append, List.length_append]
  cases event <;> rfl

/-- Bindings of the same types, and as many lines printed. -/
structure SameKinds (s t : Store) : Prop where
  bindings : s.bindings.SameKinds t.bindings
  printed : s.printed = t.printed

theorem SameKinds.note {s t : Store} (same : s.SameKinds t) {e f : Event}
    (prints : e.output?.isSome = f.output?.isSome) : (s.note e).SameKinds (t.note f) := by
  refine ⟨same.bindings, ?_⟩
  rw [printed_note, printed_note, same.printed]
  cases left : e.output? <;> cases right : f.output? <;> simp_all

end Store

namespace Eval

/-- Computations that agree in all but what values are. -/
abbrev Parallel {α : Type} (R : α → α → Prop) (m n : Eval α) : Prop := Twin Store.SameKinds Eq R m n

theorem note_parallel {e f : Event} (prints : e.output?.isSome = f.output?.isSome) :
    Parallel Eq (note e) (note f) :=
  Twin.modify fun _ _ same => same.note prints

/-- Events that print alike may be left behind before values of one type. -/
theorem noted_parallel {e f : Event} {v w : Value} (prints : e.output?.isSome = f.output?.isSome)
    (kind : v.SameKind w) :
    Parallel Value.SameKind (do note e; return v) (do note f; return w) :=
  (note_parallel prints).bind fun _ _ _ => Twin.pure kind

theorem define_parallel (name : Text) {v w : Value} (kind : v.SameKind w) :
    Parallel Eq (define name v) (define name w) :=
  Twin.modify fun _ _ same => ⟨same.bindings.insert name kind, same.printed⟩

theorem lookUp_parallel (name : Text) (line : Int) :
    Parallel Value.SameKind (lookUp name line) (lookUp name line) := by
  intro s t same
  rcases same.bindings.get? name with ⟨left, right⟩ | ⟨v, w, left, right, kind⟩
  · rw [lookUp_of_none left, lookUp_of_none right]
    exact ⟨rfl, same⟩
  · rw [lookUp_of_some left, lookUp_of_some right]
    exact ⟨kind, same⟩

theorem ofExcept_parallel {x y : Except RuntimeError Value} (same : SameOutcome x y) :
    Parallel Value.SameKind (ofExcept x) (ofExcept y) := by
  cases x <;> cases y
  · exact Twin.throw (congrArg Failure.runtime same)
  · exact same.elim
  · exact same.elim
  · exact Twin.pure same

end Eval

open Eval in
/-- Evaluation of a node under bindings of the same types goes the same way. -/
theorem Node.eval_parallel (limit : Nat) (node : Node) :
    Parallel Value.SameKind (node.eval limit) (node.eval limit) := by
  induction limit generalizing node with
  | zero => exact Twin.throw rfl
  | succ limit ih =>
      have define_nil (name : Text) {v w : Value} (kind : v.SameKind w) :
          Parallel Value.SameKind
            (do define name v; note (.defined name v); return .nil)
            (do define name w; note (.defined name w); return .nil) :=
        (define_parallel name kind).bind fun _ _ _ => noted_parallel rfl (.refl .nil)
      cases node with
      | literal value => exact Twin.pure (.refl value)
      | hollow kind => exact Twin.throw rfl
      | missing => exact Twin.throw rfl
      | block statements => exact Twin.throw rfl
      | grouping inner => exact ih inner
      | unary operator operand =>
          refine (ih operand).bind fun v w kind => ?_
          refine (ofExcept_parallel (applyUnary_sameOutcome operator kind)).bind fun r r' result => ?_
          exact noted_parallel rfl result
      | binary left operator right =>
          refine (ih left).bind fun v v' kind => ?_
          refine (ih right).bind fun w w' kind' => ?_
          refine (ofExcept_parallel (applyBinary_sameOutcome operator kind kind')).bind
            fun r r' result => ?_
          exact noted_parallel rfl result
      | reference name line =>
          refine (lookUp_parallel name line).bind fun v w kind => ?_
          exact noted_parallel rfl kind
      | expression value => exact (ih value).bind fun _ _ _ => Twin.pure (.refl .nil)
      | print value =>
          exact (ih value).bind fun v w _ => noted_parallel rfl (.refl .nil)
      | declaration name initializer line =>
          by_cases bare : initializer = .missing
          · subst bare
            exact define_nil name (.refl .nil)
          · rw [Node.eval_declaration limit name line bare]
            exact (ih initializer).bind fun _ _ kind => define_nil name kind

/-! ## Runs -/

/-- One statement: the same halt or none, and stores of the same kinds. -/
theorem Node.execute_sameKinds (statement : Node) {s t : Store} (same : s.SameKinds t) :
    (statement.execute s).1 = (statement.execute t).1 ∧
      (statement.execute s).2.SameKinds (statement.execute t).2 := by
  have started : (s.note (.executed statement.kindName)).SameKinds
      (t.note (.executed statement.kindName)) := same.note rfl
  have met := statement.eval_parallel evalLimit started
  unfold Node.execute
  cases left : statement.eval evalLimit (s.note (.executed statement.kindName)) <;>
    cases right : statement.eval evalLimit (t.note (.executed statement.kindName)) <;>
    rw [left, right] at met
  · exact ⟨rfl, met.2⟩
  · exact met.elim
  · exact met.elim
  · exact ⟨by rw [met.1], met.2⟩

/-- All statements: the same halt or none, and stores of the same kinds. -/
theorem executeAll_sameKinds (statements : List Node) {s t : Store} (same : s.SameKinds t) :
    (executeAll statements s).1 = (executeAll statements t).1 ∧
      (executeAll statements s).2.SameKinds (executeAll statements t).2 := by
  induction statements generalizing s t with
  | nil => exact ⟨rfl, same⟩
  | cons statement rest ih =>
      obtain ⟨halts, after⟩ := statement.execute_sameKinds same
      unfold executeAll
      cases left : statement.execute s with
      | mk halt s' =>
          cases right : statement.execute t with
          | mk halt' t' =>
              rw [left, right] at halts after
              cases halts
              cases halt with
              | ok => exact ih after
              | error halt => exact ⟨rfl, after⟩

namespace Session

/-- **Outcomes depend on kinds only.**  Run in two sessions whose bindings are of the same types, a
list of statements gives the same diagnostics, breaks off at the same node or at none, prints
equally many lines, and leaves bindings of the same types. -/
theorem outcome_depends_on_kinds (s t : Session) (same : s.bindings.SameKinds t.bindings)
    (statements : List Node) :
    (s.runStatements statements).result.diagnostics =
        (t.runStatements statements).result.diagnostics ∧
      (s.runStatements statements).result.brokeOffAt =
        (t.runStatements statements).result.brokeOffAt ∧
      (Event.outputs (s.runStatements statements).events).length =
        (Event.outputs (t.runStatements statements).events).length ∧
      (s.runStatements statements).session.bindings.SameKinds
        (t.runStatements statements).session.bindings := by
  have started : Store.SameKinds ⟨s.bindings, []⟩ ⟨t.bindings, []⟩ := ⟨same, rfl⟩
  obtain ⟨halts, after⟩ := executeAll_sameKinds statements started
  refine ⟨?_, ?_, after.printed, after.bindings⟩
  · show (result statements _).diagnostics = (result statements _).diagnostics
    rw [halts]
  · show (result statements _).brokeOffAt = (result statements _).brokeOffAt
    rw [halts]

/-- Zero over zero against seven over seven, an empty string against another, and true against false:
two statements print and the negation of the boolean fails on line 3, whatever the values. -/
theorem outcome_depends_on_kinds_of_three_names :
    let session (x : Float) (text : Text) (b : Bool) : Session :=
      ((Session.initial .descent 0).define "n" (.number x) |>.define "s" (.string text)).define "b"
        (.boolean b)
    let s := session 0 "" true
    let t := session 7 "xyz" false
    let statements := (FrontEnd.descent.read
      "print n / n;\nprint s + s;\nprint -b;").statements
    s.bindings.SameKinds t.bindings ∧
      (s.runStatements statements).result.diagnostics =
        [.whileRunning 3 "Operand must be a number."] ∧
      (t.runStatements statements).result.diagnostics =
        [.whileRunning 3 "Operand must be a number."] ∧
      (Event.outputs (t.runStatements statements).events).length = 2 ∧
      (s.runStatements statements).session.bindings.SameKinds
        (t.runStatements statements).session.bindings := by
  intro session s t statements
  have same : s.bindings.SameKinds t.bindings := by
    refine (((Bindings.SameKinds.refl .empty).insert "n" ?_).insert "s" ?_).insert "b" ?_ <;> rfl
  have ran : (s.runStatements statements).result.diagnostics =
        [.whileRunning 3 "Operand must be a number."] ∧
      (Event.outputs (s.runStatements statements).events).length = 2 := by decide +kernel
  obtain ⟨diagnostics, -, lines, after⟩ := outcome_depends_on_kinds s t same statements
  exact ⟨same, ran.1, diagnostics.symm.trans ran.1, lines.symm.trans ran.2, after⟩

end Session

end LoxLang
