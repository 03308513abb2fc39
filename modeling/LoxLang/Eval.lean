/-
# LoxLang.Eval -- running trees

Evaluation goes through a tree from left to right, parts before wholes.  It may fail: at
an operator, at a name that is not bound, when the tree nests too deeply, or at a node
that has no meaning.  What it did before it failed stays done: the bindings it made and
the events it left behind, in order.

An event is a line printed for the user or a step that a debug log can show.  Steps have
a level: statements are on the first, names on the second and operators on the third.

Nodes may be evaluated inside one another up to a limit.  It is an ideal one: it counts nodes,
whatever it takes to evaluate one of them, and is checked where a node is entered and nowhere
else.  Operators, bindings, events and the report of a failure take nothing of it, so each of
them is done as a whole, however deep it stands.
-/
import LoxLang.Bindings
import LoxLang.Diagnostic
import LoxLang.Grammar

namespace LoxLang

set_option autoImplicit false

/-! ## Failures -/

/-- What can be wrong with a running program. -/
inductive RuntimeCause where
  | operandNotNumber
  | operandsNotNumbers
  | operandsNotAddable
  | unknownUnary (lexeme : Text)
  | unknownBinary (lexeme : Text)
  | undefined (name : Text)
  | tooDeep
  deriving DecidableEq, Repr

def RuntimeCause.message : RuntimeCause → Text
  | .operandNotNumber => "Operand must be a number."
  | .operandsNotNumbers => "Operands must be numbers."
  | .operandsNotAddable => "Operands must be two numbers or two strings."
  | .unknownUnary lexeme => "Unknown unary operator '" ++ lexeme ++ "'."
  | .unknownBinary lexeme => "Unknown operator '" ++ lexeme ++ "'."
  | .undefined name => "Undefined variable '" ++ name ++ "'."
  | .tooDeep => tooDeepMessage

/-- A cause and the line on which it shows. -/
structure RuntimeError where
  line : Int
  cause : RuntimeCause
  deriving DecidableEq, Repr

namespace RuntimeError

/-- The text of an error where no diagnostic is made of it. -/
def message (e : RuntimeError) : Text := Diagnostic.raisedText e.line e.cause.message

def diagnostic (e : RuntimeError) : Diagnostic := .whileRunning e.line e.cause.message

end RuntimeError

/-- Why evaluation stops: an error of the program, a tree beyond the limit, or a node without
meaning. -/
inductive Failure where
  | runtime (error : RuntimeError)
  | tooDeep
  | meaningless (kindName : String)
  deriving DecidableEq, Repr

/-- The message about a node without meaning. -/
def meaninglessMessage (kindName : String) : String :=
  "evaluate: unexpected node type <class '" ++ kindName ++ "'>"

/-! ## Operators -/

/-- Apply a unary operator. -/
def applyUnary (operator : Token) (operand : Value) : Except RuntimeError Value :=
  match operator.kind, operand with
  | .bang, _ => .ok operand.negate
  | .minus, .number x => .ok (.number (-x))
  | .minus, _ => .error ⟨operator.line, .operandNotNumber⟩
  | _, _ => .error ⟨operator.line, .unknownUnary operator.lexeme⟩

theorem applyUnary_eq (operator : Token) (operand : Value) :
    applyUnary operator operand =
      if operator.kind = .bang then .ok operand.negate
      else if operator.kind = .minus then
        match operand with
        | .number x => .ok (.number (-x))
        | _ => .error ⟨operator.line, .operandNotNumber⟩
      else .error ⟨operator.line, .unknownUnary operator.lexeme⟩ := by
  unfold applyUnary
  split <;> simp_all

/-- The arithmetic of a kind of operator, division by zero included. -/
def arithmetic? : TokenKind → Option (Float → Float → Float)
  | .minus => some fun x y => x - y
  | .star => some fun x y => x * y
  | .slash => some fun x y => x / y
  | _ => none

/-- The comparison of a kind of operator. -/
def comparison? : TokenKind → Option (Float → Float → Bool)
  | .greater => some fun x y => decide (y < x)
  | .greaterEqual => some fun x y => decide (y ≤ x)
  | .less => some fun x y => decide (x < y)
  | .lessEqual => some fun x y => decide (x ≤ y)
  | _ => none

/-- The operation of a kind of operator that takes numbers only. -/
def numeric? (kind : TokenKind) : Option (Float → Float → Value) :=
  match arithmetic? kind, comparison? kind with
  | some f, _ => some fun x y => .number (f x y)
  | none, some f => some fun x y => .boolean (f x y)
  | none, none => none

/-- Apply a binary operator. -/
def applyBinary (operator : Token) (left right : Value) : Except RuntimeError Value :=
  match operator.kind with
  | .equalEqual => .ok (.boolean (left.equals right))
  | .bangEqual => .ok (.boolean (!left.equals right))
  | .plus =>
      match left, right with
      | .number x, .number y => .ok (.number (x + y))
      | .string s, .string t => .ok (.string (s ++ t))
      | _, _ => .error ⟨operator.line, .operandsNotAddable⟩
  | kind =>
      match numeric? kind, left, right with
      | some f, .number x, .number y => .ok (f x y)
      | some _, _, _ => .error ⟨operator.line, .operandsNotNumbers⟩
      | none, _, _ => .error ⟨operator.line, .unknownBinary operator.lexeme⟩

/-! ## Events -/

/-- Something a run did. -/
inductive Event where
  | printed (text : Text)
  | executed (kindName : String)
  | lookedUp (name : Text) (value : Value)
  | defined (name : Text) (value : Value)
  | appliedUnary (operator : Token) (operand result : Value)
  | appliedBinary (operator : Token) (left right result : Value)
  deriving DecidableEq

namespace Event

/-- The line an event prints for the user. -/
def output? : Event → Option Text
  | .printed text => some text
  | _ => none

/-- The level and the text of an event in a debug log. -/
def debug? : Event → Option (Nat × Text)
  | .printed _ => none
  | .executed kindName => some (1, "execute " ++ kindName)
  | .lookedUp name value => some (2, "lookup " ++ name ++ " = " ++ value.describe)
  | .defined name value =>
      some (2, "define " ++ name ++ ": " ++ value.typeName ++ " = " ++ value.describe)
  | .appliedUnary operator operand result =>
      some (3, operator.lexeme ++ " " ++ operand.describe ++ " -> " ++ result.describe)
  | .appliedBinary operator left right result =>
      some (3, left.describe ++ " " ++ operator.lexeme ++ " " ++ right.describe ++ " -> " ++
        result.describe)

/-- The lines that events print. -/
def outputs (events : List Event) : List Text := events.filterMap output?

/-- The debug message of an event if its level is within the verbosity. -/
def message? (verbosity : Nat) (event : Event) : Option Text :=
  match event.debug? with
  | some (level, text) => if level ≤ verbosity then some text else none
  | none => none

/-- The debug messages of events. -/
def messages (verbosity : Nat) (events : List Event) : List Text :=
  events.filterMap (message? verbosity)

end Event

/-! ## Evaluation -/

/-- The bindings of a run and its events, the last one first. -/
structure Store where
  bindings : Bindings
  trail : List Event

namespace Store

def events (s : Store) : List Event := s.trail.reverse

/-- Leave an event behind. -/
def note (s : Store) (event : Event) : Store := { s with trail := event :: s.trail }

end Store

/-- A computation that may fail and keeps what it did. -/
abbrev Eval (α : Type) := EStateM Failure Store α

namespace Eval

def note (event : Event) : Eval Unit := modify fun s => s.note event

/-- The value of a name. -/
def lookUp (name : Text) (line : Int) : Eval Value := do
  match (← get).bindings.get? name with
  | some value => return value
  | none => throw (.runtime ⟨line, .undefined name⟩)

/-- Bind a name. -/
def define (name : Text) (value : Value) : Eval Unit :=
  modify fun s => { s with bindings := s.bindings.insert name value }

def ofExcept {α : Type} : Except RuntimeError α → Eval α
  | .ok a => return a
  | .error e => throw (.runtime e)

section Lemmas

variable {α β : Type} {m : Eval α} {k : α → Eval β} {s t : Store} {failure : Failure}

theorem bind_of_ok {a : α} (ran : m s = .ok a t) : (m >>= k) s = k a t := by
  show EStateM.bind m k s = _
  rw [EStateM.bind, ran]

theorem bind_of_error (ran : m s = .error failure t) : (m >>= k) s = .error failure t := by
  show EStateM.bind m k s = _
  rw [EStateM.bind, ran]

/-- A computation in two steps fails in the first or in the second. -/
theorem bind_eq_error : (m >>= k) s = .error failure t ↔
    m s = .error failure t ∨ ∃ a u, m s = .ok a u ∧ k a u = .error failure t := by
  cases ran : m s with
  | ok a u =>
      rw [bind_of_ok ran]
      constructor
      · intro fails
        exact .inr ⟨a, u, rfl, fails⟩
      · rintro (first | ⟨a', u', first, second⟩)
        · cases first
        · cases first
          exact second
  | error failure' u => simp [bind_of_error ran]

theorem lookUp_of_some {name : Text} {value : Value} (found : s.bindings.get? name = some value)
    (line : Int) : lookUp name line s = .ok value s := by
  rw [lookUp, bind_of_ok (show (get : Eval Store) s = .ok s s from rfl), found]
  rfl

theorem lookUp_of_none {name : Text} (absent : s.bindings.get? name = none) (line : Int) :
    lookUp name line s = .error (.runtime ⟨line, .undefined name⟩) s := by
  rw [lookUp, bind_of_ok (show (get : Eval Store) s = .ok s s from rfl), absent]
  rfl

end Lemmas

end Eval

/-- The most nodes on a way down that are evaluated. -/
def evalLimit : Nat := 1000

open Eval in
/-- Evaluate a node while nodes nest at most `limit` deep.  A statement has the value nil. -/
def Node.eval : (limit : Nat) → Node → Eval Value
  | 0, _ => throw .tooDeep
  | _ + 1, .literal value => return value
  | _ + 1, .hollow kind => throw (.meaningless (Node.hollow kind).kindName)
  | limit + 1, .grouping inner => eval limit inner
  | limit + 1, .unary operator operand => do
      let value ← eval limit operand
      let result ← ofExcept (applyUnary operator value)
      note (.appliedUnary operator value result)
      return result
  | limit + 1, .binary left operator right => do
      let a ← eval limit left
      let b ← eval limit right
      let result ← ofExcept (applyBinary operator a b)
      note (.appliedBinary operator a b result)
      return result
  | _ + 1, .reference name line => do
      let value ← lookUp name line
      note (.lookedUp name value)
      return value
  | limit + 1, .expression value => do
      let _ ← eval limit value
      return .nil
  | limit + 1, .print value => do
      let value ← eval limit value
      note (.printed value.text)
      return .nil
  | _ + 1, .declaration name .missing _ => do
      define name .nil
      note (.defined name .nil)
      return .nil
  | limit + 1, .declaration name initializer _ => do
      let value ← eval limit initializer
      define name value
      note (.defined name value)
      return .nil
  | _ + 1, .missing => throw (.meaningless Node.missing.kindName)
  | _ + 1, .block statements => throw (.meaningless (Node.block statements).kindName)

open Eval in
theorem Node.eval_declaration (limit : Nat) (name : Text) {initializer : Node} (line : Int)
    (present : initializer ≠ .missing) :
    (Node.declaration name initializer line).eval (limit + 1) =
      initializer.eval limit >>= fun value => do
        define name value
        note (.defined name value)
        return .nil := by
  cases initializer <;> first | rfl | exact absurd rfl present

/-- Why a run stops early: an error of the program, or a node without meaning. -/
inductive Halt where
  | error (error : RuntimeError)
  | meaningless (kindName : String)
  deriving DecidableEq, Repr

/-- The halt that a failure of a statement on `line` leads to; nesting beyond the limit is an error of
the program. -/
def Failure.halt (line : Int) : Failure → Halt
  | .runtime error => .error error
  | .tooDeep => .error ⟨line, .tooDeep⟩
  | .meaningless kindName => .meaningless kindName

/-- Run one statement. -/
def Node.execute (statement : Node) (store : Store) : Except Halt Unit × Store :=
  match statement.eval evalLimit (store.note (.executed statement.kindName)) with
  | .ok _ store => (.ok (), store)
  | .error failure store => (.error (failure.halt statement.line), store)

/-- Run statements in order, up to the first that fails. -/
def executeAll : List Node → Store → Except Halt Unit × Store
  | [], store => (.ok (), store)
  | statement :: rest, store =>
      match statement.execute store with
      | (.ok (), store) => executeAll rest store
      | (.error halt, store) => (.error halt, store)

end LoxLang
