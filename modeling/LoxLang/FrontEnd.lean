/-
# LoxLang.FrontEnd -- from text to statements

There are two ways to read a program.  The descent front end reports every faulty token
and every faulty statement it meets; the stream front end stops at the first fault.  On
programs without fault they build the same statements.
-/
import LoxLang.Grammar.Descent
import LoxLang.Grammar.ShiftReduce

namespace LoxLang

set_option autoImplicit false

inductive FrontEnd where
  | descent
  | stream
  deriving DecidableEq, Repr

namespace FrontEnd

/-- The name by which a front end is chosen. -/
def name : FrontEnd → String
  | .descent => "descent"
  | .stream => "lark"

/-- The front ends in the order of their names. -/
def all : List FrontEnd := [.descent, .stream]

def ofName? (name : String) : Option FrontEnd := all.find? fun frontEnd => frontEnd.name == name

/-- Read a program. -/
def read : FrontEnd → String → Reading
  | .descent, source =>
      let scan := scan source
      let reading := Descent.read (Descent.body scan.tokens)
      ⟨reading.statements, scan.diagnostics ++ reading.diagnostics⟩
  | .stream, source => ShiftReduce.read (Stream.ofText source)

end FrontEnd

end LoxLang
