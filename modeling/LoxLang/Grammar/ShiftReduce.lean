/-
# LoxLang.Grammar.ShiftReduce -- reading with a stack

A machine takes the tokens of a stream one by one.  Between an operand and the next
operator it keeps what is open to the left on a stack: unary operators, binary operators
with their left operand, and groups.  An operator first closes everything on the stack
that binds at least as tightly, where operators of one group bind alike.  So the machine
applies productions without naming them; which ones is said in `LoxLang.Proofs.Productions`.
It refuses the first token that no program could have at its place, and reading ends there:
this front end reports one fault and returns no statements.

The depth of the stack is not limited.  The statements are measured afterwards, and the
first one that nests too deeply is reported on the line where it starts.
-/
import LoxLang.Grammar
import LoxLang.Grammar.Stream

namespace LoxLang.ShiftReduce

set_option autoImplicit false

/-- The most nodes on a way down that this front end builds. -/
def depthLimit : Nat := 500

/-- The binary operators in groups that bind alike, the loosest first. -/
def binaryOperators : List (List TokenKind) :=
  [[.bangEqual, .equalEqual], [.greater, .greaterEqual, .less, .lessEqual], [.minus, .plus], [.slash, .star]]

def unaryOperators : List TokenKind := [.bang, .minus]

/-- How tightly a binary operator binds: the place of its group, counted from one. -/
def precedence? (kind : TokenKind) : Option Nat :=
  (binaryOperators.findIdx? fun operators => kind ∈ operators).map (· + 1)

/-- What is open to the left of an operand. -/
inductive Frame where
  | unary (operator : Token)
  | binary (left : Node) (operator : Token)
  | group

/-- The statement whose expression is being read. -/
inductive Purpose where
  | expression
  | print
  | declaration (name : Token)

/-- The statement of a purpose and its expression. -/
def Purpose.statement : Purpose → Node → Node
  | .expression, value => .expression value
  | .print, value => .print value
  | .declaration name, value => .declaration name.lexeme value name.line

/-- Where the machine stands inside a statement. -/
inductive Phase where
  | name
  | named (name : Token)
  | operand (purpose : Purpose) (stack : List Frame)
  | operator (purpose : Purpose) (stack : List Frame) (node : Node)

/-- A finished statement and the line on which it starts. -/
structure Located where
  line : Int
  statement : Node

/-- The machine: the statement it is in, with the line on which it starts, and the finished ones,
the last one first. -/
structure Machine where
  current : Option (Int × Phase)
  finished : List Located

def Machine.initial : Machine := ⟨none, []⟩

/-- Close the operators on top of the stack that bind at least as tightly as `level`. -/
def close (level : Nat) : List Frame → Node → List Frame × Node
  | .unary operator :: stack, node => close level stack (.unary operator node)
  | .binary left operator :: stack, node =>
      if level ≤ (precedence? operator.kind).getD 0 then
        close level stack (.binary left operator node)
      else (.binary left operator :: stack, node)
  | stack, node => (stack, node)

/-- Take the token at the place of an operand. -/
def takeOperand (purpose : Purpose) (stack : List Frame) (t : Token) : Option Phase :=
  match t.atom? with
  | some atom => some (.operator purpose stack atom)
  | none =>
      if t.kind = .leftParen then some (.operand purpose (.group :: stack))
      else if t.kind ∈ unaryOperators then some (.operand purpose (.unary t :: stack))
      else none

/-- Take the token behind an operand, unless it ends the statement. -/
def takeOperator (purpose : Purpose) (stack : List Frame) (node : Node) (t : Token) :
    Option Phase :=
  match precedence? t.kind with
  | some level =>
      let (stack, left) := close level stack node
      some (.operand purpose (.binary left t :: stack))
  | none =>
      if t.kind = .rightParen then
        match close 0 stack node with
        | (.group :: stack, inner) => some (.operator purpose stack (.grouping inner))
        | _ => none
      else none

/-- The expression that a semicolon completes. -/
def complete? (stack : List Frame) (node : Node) : Option Node :=
  match close 0 stack node with
  | ([], value) => some value
  | _ => none

/-- Take the first token of a statement. -/
def begin (t : Token) : Option Phase :=
  if t.kind = .wordVar then some .name
  else if t.kind = .wordPrint then some (.operand .print [])
  else takeOperand .expression [] t

namespace Machine

/-- Stay inside a statement. -/
def inside (m : Machine) (line : Int) (phase : Phase) : Machine := { m with current := some (line, phase) }

/-- Finish a statement. -/
def finish (m : Machine) (line : Int) (statement : Node) : Machine :=
  ⟨none, ⟨line, statement⟩ :: m.finished⟩

/-- Take one token, or refuse it. -/
def step (m : Machine) (t : Token) : Option Machine :=
  match m.current with
  | none => (begin t).map (m.inside t.line)
  | some (line, .name) => if t.kind = .identifier then some (m.inside line (.named t)) else none
  | some (line, .named name) =>
      if t.kind = .equal then some (m.inside line (.operand (.declaration name) []))
      else if t.kind = .semicolon then
        some (m.finish line (.declaration name.lexeme .missing name.line))
      else none
  | some (line, .operand purpose stack) => (takeOperand purpose stack t).map (m.inside line)
  | some (line, .operator purpose stack node) =>
      if t.kind = .semicolon then
        (complete? stack node).map fun value => m.finish line (purpose.statement value)
      else (takeOperator purpose stack node t).map (m.inside line)

/-- Take tokens until one is refused. -/
def run (m : Machine) : List Token → Except Token Machine
  | [] => .ok m
  | t :: ts =>
      match m.step t with
      | some m => run m ts
      | none => .error t

end Machine

def refusedMessage : String := "Unexpected token."

/-- The fault of a stream, if it holds no program: a refused token, the fault at which the stream
breaks off, or its end inside a statement. -/
def located (stream : Stream) : Except Diagnostic (List Located) :=
  match Machine.initial.run stream.tokens with
  | .error t => .error (.atToken t refusedMessage none)
  | .ok m =>
      match stream.fault, m.current with
      | some fault, _ => .error fault
      | none, none => .ok m.finished.reverse
      | none, some _ =>
          let line := (stream.tokens.getLast?.map Token.line).getD 1
          .error (.atToken Token.ending refusedMessage (some line))

/-- Read a stream. -/
def read (stream : Stream) : Reading :=
  match located stream with
  | .error fault => ⟨[], [fault]⟩
  | .ok statements =>
      match statements.find? fun s => depthLimit < s.statement.depth with
      | some s => ⟨[], [.atLine s.line tooDeepMessage]⟩
      | none => ⟨statements.map Located.statement, []⟩

end LoxLang.ShiftReduce
