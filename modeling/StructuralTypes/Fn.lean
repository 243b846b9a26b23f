/-!
# Functions as objects

Predicate types and container types refer to functions. A reference only says which function it
is and what it is called; what functions do is up to an interpretation.
-/

namespace StructuralTypes

/-- A function that types refer to. Two references are to the same function when they are equal;
the function's own name is missing for some functions. -/
structure Fn where
  label : String
  name? : Option String
deriving DecidableEq, Inhabited

namespace Fn

/-- A function that goes by its label. -/
def named (label : String) : Fn := ⟨label, some label⟩

/-- What a function is called: its own name, or its label in angle brackets. -/
def display (f : Fn) : String := f.name?.getD ("<" ++ f.label ++ ">")

end Fn

end StructuralTypes
