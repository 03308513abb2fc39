/-
# LoxLang.Node.Printer -- trees as text

A node is written in parentheses: what it is, then its parts.  Strings stand between
double quotes, just as they are; numbers, names and the other values are written bare.
A missing part, a list of nodes and a hollow literal have no written form.

Printing has a limit.  It is an ideal one: it counts the nodes on the longest way down,
whatever it takes to print one of them, and is checked before anything is printed.  So a
statement is printed as a whole or reported, as too deep before any other fault.
-/
import LoxLang.Node

namespace LoxLang.Node

set_option autoImplicit false

/-- The most nodes on a way down that are printed. -/
def printLimit : Nat := 360

/-- Why a tree is not printed. -/
inductive PrintError where
  | unexpected (kindName : String)
  | hollow (kind : HollowKind)
  | tooDeep
  deriving DecidableEq, Repr

def PrintError.message : PrintError → String
  | .unexpected kindName => "stringify: unexpected node type <class '" ++ kindName ++ "'>"
  | .hollow .number => noNumberMessage
  | .hollow .string => "can only concatenate str (not \"NoneType\") to str"
  | .tooDeep => "maximum recursion depth exceeded"

def printValue : Value → Text
  | .string s => "\"" ++ s ++ "\""
  | value => value.text

/-- The text of a tree of any depth. -/
def render : Node → Except PrintError Text
  | .binary left operator right => do
      return "(" ++ operator.lexeme ++ " " ++ (← left.render) ++ " " ++ (← right.render) ++ ")"
  | .unary operator operand => do return "(" ++ operator.lexeme ++ " " ++ (← operand.render) ++ ")"
  | .grouping inner => do return "(group " ++ (← inner.render) ++ ")"
  | .literal value => return printValue value
  | .hollow kind => .error (.hollow kind)
  | .reference name _ => return name
  | .expression value => do return "(expr " ++ (← value.render) ++ ")"
  | .print value => do return "(print " ++ (← value.render) ++ ")"
  | .declaration name .missing _ => return "(var " ++ name ++ ")"
  | .declaration name initializer _ => do
      return "(var " ++ name ++ " " ++ (← initializer.render) ++ ")"
  | .missing => .error (.unexpected missing.kindName)
  | .block statements => .error (.unexpected (block statements).kindName)

/-- The text of a tree within the limit. -/
def toText (node : Node) : Except PrintError Text :=
  if printLimit < node.depth then .error .tooDeep else node.render

/-- The text of a program, a line for each statement. -/
def programText (statements : List Node) : Except PrintError Text := do
  return Text.intercalate "\n" (← statements.mapM toText)

end LoxLang.Node
