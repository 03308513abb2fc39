/-
# LoxLang.Foreign -- plain data in the place of values and nodes

Data that is no value of the language and no node has a type of its own and nothing
else: it has no text, cannot be saved, printed or run.  Each operation refuses it in its
own words.  Only null and lists can be saved: null as a missing node, and a list as a
program if its items can be saved.
-/
import LoxLang.Eval
import LoxLang.Json
import LoxLang.Node.Printer

namespace LoxLang.Foreign

set_option autoImplicit false

/-- How an operation refuses plain data. -/
inductive Refusal where
  | text (value : Json)
  | saveValue (typeName : String)
  | saveNode (typeName : String)
  | print (typeName : String)
  | run (typeName : String)

def Refusal.message : Refusal → Text
  | .text value => "not a Lox value: " ++ value.describe
  | .saveValue typeName => "Unsupported value for serialization: " ++ typeName
  | .saveNode typeName => "Unsupported node for serialization: " ++ typeName
  | .print typeName => (Node.PrintError.unexpected typeName).message
  | .run typeName => meaninglessMessage typeName

def toText (value : Json) : Except Refusal Text := .error (.text value)

def saveValue (value : Json) : Except Refusal Json := .error (.saveValue value.typeName)

mutual

def saveNode : Json → Except Refusal Json
  | .null => .ok .null
  | .array items => do
      return .object [("type", .string "Program"), ("body", .array (← saveNodes items))]
  | value => .error (.saveNode value.typeName)
termination_by structural value => value

def saveNodes : List Json → Except Refusal (List Json)
  | [] => .ok []
  | item :: rest => do return (← saveNode item) :: (← saveNodes rest)
termination_by structural items => items

end

def print (value : Json) : Except Refusal Text := .error (.print value.typeName)

def run (value : Json) : Except Refusal Value := .error (.run value.typeName)

end LoxLang.Foreign
