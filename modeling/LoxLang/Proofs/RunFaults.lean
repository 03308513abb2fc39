/-
# LoxLang.Proofs.RunFaults -- what the run of any tree keeps to

A saved tree may lack parts, hold a program in the place of a node, or hold strings with
surrogates.  Two questions about its run have one answer: which nodes without meaning it can
come to, and which texts it can print.  Evaluation takes the literals of a tree, applies
operators, binds names and prints, so it keeps to any property of values that operators
pass on (`Eval.Closed`), if the literals have it (`Node.fits`).

With no condition on values, a tree without gaps never comes to a node without meaning.
With the condition that a value has no surrogates, nothing with a surrogate is printed.
-/
import Mathlib.Data.List.TakeWhile
import LoxLang.Session
import LoxLang.Text.Utf8

namespace LoxLang

set_option autoImplicit false

/-- Whether the literals in the evaluated parts of a tree are allowed, and no such part is missing, a
program or hollow, unless gaps are allowed too. -/
def Node.fits (allowed : Value → Bool) (gaps : Bool) : Node → Bool
  | .binary left _ right => left.fits allowed gaps && right.fits allowed gaps
  | .unary _ operand => operand.fits allowed gaps
  | .grouping inner => inner.fits allowed gaps
  | .expression value => value.fits allowed gaps
  | .print value => value.fits allowed gaps
  | .declaration _ .missing _ => true
  | .declaration _ initializer _ => initializer.fits allowed gaps
  | .literal value => allowed value
  | .reference .. => true
  | .hollow _ | .missing | .block _ => gaps

theorem Node.fits_declaration {allowed : Value → Bool} {gaps : Bool} {name : Text} {initializer : Node}
    {line : Int} (fits : (Node.declaration name initializer line).fits allowed gaps)
    (present : initializer ≠ .missing) : initializer.fits allowed gaps := by
  cases initializer with
  | missing => exact absurd rfl present
  | _ => exact fits

namespace Eval

/-! ## Properties that evaluation keeps -/

/-- A computation that keeps an invariant of the store, answers with values that have a property, and
comes to a node without meaning only if there are gaps. -/
def Within {α : Type} (I : Store → Prop) (Q : α → Prop) (gaps : Prop) (m : Eval α) : Prop :=
  ∀ s, I s → match m s with
    | .ok a t => Q a ∧ I t
    | .error failure t => (∀ kindName, failure = .meaningless kindName → gaps) ∧ I t

namespace Within

variable {α β : Type} {I : Store → Prop} {P : α → Prop} {Q : β → Prop} {gaps : Prop}

theorem pure {a : α} (holds : P a) : Within I P gaps (pure a) := fun _ invariant => ⟨holds, invariant⟩

theorem throw {failure : Failure} (allowed : ∀ kindName, failure = .meaningless kindName → gaps) :
    Within I P gaps (throw failure) :=
  fun _ invariant => ⟨allowed, invariant⟩

theorem note {event : Event} (keeps : ∀ s, I s → I (s.note event)) :
    Within I (fun _ => True) gaps (note event) :=
  fun s invariant => ⟨trivial, keeps s invariant⟩

theorem define {name : Text} {value : Value}
    (keeps : ∀ s : Store, I s → I { s with bindings := s.bindings.insert name value }) :
    Within I (fun _ => True) gaps (define name value) :=
  fun s invariant => ⟨trivial, keeps s invariant⟩

theorem bind {m : Eval α} {k : α → Eval β} (first : Within I P gaps m)
    (second : ∀ a, P a → Within I Q gaps (k a)) : Within I Q gaps (m >>= k) := by
  intro s invariant
  have here := first s invariant
  cases ran : m s with
  | ok a t =>
      rw [ran] at here
      rw [bind_of_ok ran]
      exact second a here.1 t here.2
  | error failure t =>
      rw [ran] at here
      rw [bind_of_error ran]
      exact here

/-- An event may be left behind before the answer. -/
theorem noted {m : Eval α} (first : Within I P gaps m) {event : α → Event}
    (keeps : ∀ a, P a → ∀ s, I s → I (s.note (event a))) {answer : α → β} (holds : ∀ a, P a → Q (answer a)) :
    Within I Q gaps (do let a ← m; Eval.note (event a); return answer a) :=
  first.bind fun a property => (note (keeps a property)).bind fun _ _ => .pure (holds a property)

theorem ofExcept {x : Except RuntimeError α} (holds : ∀ a, x = .ok a → P a) :
    Within I P gaps (ofExcept x) := by
  cases x with
  | ok a => exact .pure (holds a rfl)
  | error error => exact .throw nofun

theorem lookUp {name : Text} {P : Value → Prop}
    (holds : ∀ (s : Store) value, I s → s.bindings.get? name = some value → P value) (line : Int) :
    Within I P gaps (lookUp name line) := by
  intro s invariant
  cases found : s.bindings.get? name with
  | some value =>
      rw [lookUp_of_some found]
      exact ⟨holds s value invariant found, invariant⟩
  | none =>
      rw [lookUp_of_none found]
      exact ⟨nofun, invariant⟩

end Within

/-- An invariant of the store and a property of values that operators, bindings and printing pass
on. -/
structure Closed (I : Store → Prop) (Q : Value → Prop) : Prop where
  nil : Q .nil
  unary {operator : Token} {a b : Value} (holds : Q a) (applied : applyUnary operator a = .ok b) : Q b
  binary {operator : Token} {a b c : Value} (left : Q a) (right : Q b)
    (applied : applyBinary operator a b = .ok c) : Q c
  bound {s : Store} {name : Text} {value : Value} (invariant : I s)
    (found : s.bindings.get? name = some value) : Q value
  define {s : Store} (invariant : I s) (name : Text) {value : Value} (holds : Q value) :
    I { s with bindings := s.bindings.insert name value }
  print {s : Store} (invariant : I s) {value : Value} (holds : Q value) : I (s.note (.printed value.text))
  note {s : Store} (invariant : I s) {event : Event} (silent : event.output? = none) : I (s.note event)

end Eval

section Runs

open Eval

variable {I : Store → Prop} {Q : Value → Prop} (closed : Closed I Q) {allowed : Value → Bool} {gaps : Bool}
  (literals : ∀ value, allowed value → Q value)

include closed literals

/-- The evaluation of a tree that fits keeps to what operators pass on. -/
theorem Node.eval_within {node : Node} (fits : node.fits allowed gaps) (limit : Nat) :
    Within I Q gaps (node.eval limit) := by
  induction limit generalizing node with
  | zero => exact .throw nofun
  | succ limit ih =>
      cases node with
      | binary left operator right =>
          obtain ⟨first, second⟩ := (Bool.and_eq_true _ _).mp fits
          refine (ih first).bind fun a holds => (ih second).bind fun b holds' => ?_
          exact (Within.ofExcept fun c applied => closed.binary holds holds' applied).noted
            (fun _ _ _ invariant => closed.note invariant rfl) fun _ holds => holds
      | unary operator operand =>
          have inner : Within I Q gaps (operand.eval limit) := ih fits
          refine inner.bind fun a holds => ?_
          exact (Within.ofExcept fun b applied => closed.unary holds applied).noted
            (fun _ _ _ invariant => closed.note invariant rfl) fun _ holds => holds
      | grouping inner =>
          have value : Within I Q gaps (inner.eval limit) := ih fits
          exact value
      | literal value => exact .pure (literals value fits)
      | hollow kind => exact .throw fun _ _ => fits
      | reference name line =>
          exact (Within.lookUp (fun _ _ => closed.bound) line).noted
            (fun _ _ _ invariant => closed.note invariant rfl) fun _ holds => holds
      | expression part =>
          have inner : Within I Q gaps (part.eval limit) := ih fits
          exact inner.bind fun _ _ => .pure closed.nil
      | print part =>
          have inner : Within I Q gaps (part.eval limit) := ih fits
          exact inner.noted (fun _ holds _ invariant => closed.print invariant holds) fun _ _ => closed.nil
      | declaration name initializer line =>
          -- only here a part may be missing, and then nothing is evaluated
          by_cases bare : initializer = .missing
          · subst bare
            exact (Within.define fun _ invariant => closed.define invariant name closed.nil).noted
              (fun _ _ _ invariant => closed.note invariant rfl) fun _ _ => closed.nil
          · rw [eval_declaration limit name line bare]
            refine (ih (fits_declaration fits bare)).bind fun value holds => ?_
            exact (Within.define fun _ invariant => closed.define invariant name holds).noted
              (fun _ _ _ invariant => closed.note invariant rfl) fun _ _ => closed.nil
      | missing => exact .throw fun _ _ => fits
      | block statements => exact .throw fun _ _ => fits

/-- A run of statements that fit keeps to what operators pass on. -/
theorem executeAll_within {statements : List Node} (fits : ∀ s ∈ statements, s.fits allowed gaps)
    {store : Store} (invariant : I store) :
    (∀ kindName, (executeAll statements store).1 = .error (.meaningless kindName) → gaps) ∧
      I (executeAll statements store).2 := by
  induction statements generalizing store with
  | nil => exact ⟨nofun, invariant⟩
  | cons statement rest ih =>
      obtain ⟨here, later⟩ := List.forall_mem_cons.mp fits
      have within := Node.eval_within closed literals here evalLimit
        (store.note (.executed statement.kindName)) (closed.note invariant rfl)
      unfold executeAll Node.execute
      cases ran : statement.eval evalLimit (store.note (.executed statement.kindName)) with
      | ok value t =>
          rw [ran] at within
          exact ih later within.2
      | error failure t =>
          rw [ran] at within
          refine ⟨fun kindName halts => ?_, within.2⟩
          cases failure with
          | meaningless kindName' => exact within.1 kindName' rfl
          | _ => cases halts

end Runs

/-! ## Nodes without meaning -/

/-- Whether no evaluated part of a tree is missing or a program, and no literal is hollow. -/
def Node.whole (node : Node) : Bool := node.fits (fun _ => true) false

/-- A run of whole statements never comes to a node without meaning. -/
theorem executeAll_meaningful {statements : List Node} (whole : ∀ s ∈ statements, s.whole) (store : Store)
    (kindName : String) : (executeAll statements store).1 ≠ .error (.meaningless kindName) := by
  intro halts
  have closed : Eval.Closed (fun _ => True) (fun _ => True) := by constructor <;> intros <;> trivial
  have noGaps := (executeAll_within closed (fun _ _ => trivial) whole trivial).1 kindName halts
  cases noGaps

/-! ## Printed surrogates -/

/-- Whether a text has no surrogates. -/
def Text.plain (t : Text) : Bool := t.all CodePoint.isChar

theorem Text.plain_ofString (s : String) : (ofString s).plain := by
  simp [plain, ofString, ofChars, CodePoint.isChar]

theorem Text.surrogateError?_of_plain {t : Text} (plain : t.plain) : surrogateError? t = none := by
  have none : t.dropWhile CodePoint.isChar = [] := List.dropWhile_eq_nil_iff.mpr (List.all_eq_true.mp plain)
  rw [surrogateError?, none]

/-- Whether the text of a value has no surrogates. -/
def Value.plain (v : Value) : Bool := v.text.plain

namespace Value

theorem plain_number (x : Float) : (number x).plain := Text.plain_ofString _

theorem plain_boolean (b : Bool) : (boolean b).plain := by
  cases b <;> exact Text.plain_ofString _

theorem plain_of_applyUnary {operator : Token} {a b : Value} (applied : applyUnary operator a = .ok b) :
    b.plain := by
  unfold applyUnary at applied
  split at applied
  · cases applied
    exact plain_boolean _
  · cases applied
    exact plain_number _
  · cases applied
  · cases applied

theorem plain_of_numeric? {kind : TokenKind} {f : Float → Float → Value} (found : numeric? kind = some f)
    (x y : Float) : (f x y).plain := by
  unfold numeric? at found
  split at found
  · cases found
    exact plain_number _
  · cases found
    exact plain_boolean _
  · cases found

theorem plain_of_applyBinary {operator : Token} {a b c : Value} (left : a.plain) (right : b.plain)
    (applied : applyBinary operator a b = .ok c) : c.plain := by
  unfold applyBinary at applied
  split at applied
  · cases applied
    exact plain_boolean _
  · cases applied
    exact plain_boolean _
  · split at applied
    · cases applied
      exact plain_number _
    · rename_i s t
      cases applied
      show (s ++ t).all CodePoint.isChar
      rw [List.all_append, Bool.and_eq_true]
      exact ⟨left, right⟩
    · cases applied
  · split at applied
    · cases applied
      exact plain_of_numeric? ‹_› _ _
    · cases applied
    · cases applied

end Value

/-- The values that are bound, and the lines that were printed, have no surrogates. -/
structure Store.Plain (s : Store) : Prop where
  bound : ∀ name value, s.bindings.get? name = some value → value.plain
  printed : ∀ text ∈ Event.outputs s.trail, text.plain

theorem Store.closed_plain : Eval.Closed Store.Plain (fun value => value.plain) where
  nil := Text.plain_ofString _
  unary _ applied := Value.plain_of_applyUnary applied
  binary left right applied := Value.plain_of_applyBinary left right applied
  bound plain found := plain.bound _ _ found
  define {s} plain name value holds := by
    refine ⟨fun other value' found => ?_, plain.printed⟩
    rw [Bindings.get?_insert] at found
    split at found
    · cases found
      exact holds
    · exact plain.bound other value' found
  print {s} plain value holds := by
    refine ⟨plain.bound, fun text member => ?_⟩
    rcases List.mem_cons.mp member with rfl | before
    · exact holds
    · exact plain.printed text before
  note {s} plain event silent := by
    refine ⟨plain.bound, fun text member => plain.printed text ?_⟩
    rwa [Event.outputs, note, List.filterMap_cons_none silent] at member

/-- Whether the strings in the evaluated parts of a tree have no surrogates. -/
def Node.plain (node : Node) : Bool := node.fits Value.plain true

/-- A run of statements whose strings have no surrogates prints none. -/
theorem plain_of_printed {statements : List Node} (plain : ∀ s ∈ statements, s.plain) :
    ∀ text ∈ Event.outputs (executeAll statements ⟨.empty, []⟩).2.events, text.plain := by
  have start : Store.Plain ⟨.empty, []⟩ := ⟨nofun, nofun⟩
  have kept := (executeAll_within Store.closed_plain (fun _ holds => holds) plain start).2
  intro text member
  refine kept.printed text ?_
  rwa [Store.events, Event.outputs, List.filterMap_reverse, List.mem_reverse] at member

end LoxLang
