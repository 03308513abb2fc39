/-
# LoxLang.Bindings -- the variables of a program

There is one scope.  Defining a name that is bound replaces its value, and nothing ever
removes a name.
-/
import LoxLang.Entries
import LoxLang.Value

namespace LoxLang

set_option autoImplicit false

/-- Names with their values, in the order of their first definition. -/
structure Bindings where
  entries : List (Text × Value)
  deriving DecidableEq

namespace Bindings

def empty : Bindings := ⟨[]⟩

/-- The value of a name. -/
def get? (b : Bindings) (name : Text) : Option Value := b.entries.lookup name

def contains (b : Bindings) (name : Text) : Bool := (b.get? name).isSome

/-- Bind a name to a value. -/
def insert (b : Bindings) (name : Text) (value : Value) : Bindings :=
  ⟨Entries.put name value b.entries⟩

/-- A name has the value it was bound to last. -/
@[simp]
theorem get?_insert (b : Bindings) (name : Text) (value : Value) (other : Text) :
    (b.insert name value).get? other = if other = name then some value else b.get? other :=
  Entries.lookup_put name value b.entries other

def size (b : Bindings) : Nat := b.entries.length

/-- The entries in the order of their names, compared by code points. -/
def sorted (b : Bindings) : List (Text × Value) :=
  b.entries.mergeSort fun a c => a.1.before c.1

end Bindings

end LoxLang
