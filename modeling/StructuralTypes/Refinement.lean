import StructuralTypes.Algebra

/-!
# Refinements

Functions from a type to a type: the operators with one operand fixed, and changes of metadata. A
pipeline of refinements can be given a name.
-/

namespace StructuralTypes.Build

/-- The values of a type that also pass a test. -/
def suchThat (pred : Fn) (parent : Referent) : Build Ty := do
  let guard ← predicate pred none
  compound .intersection (.type guard) parent

/-- A copy under one more name, in front of those it has. -/
def withAlias (name : String) (parent : Referent) : Build Ty := do
  let t ← ofAttempt (parent.expect .relabel)
  let names ← ofAttempt t.names
  relabel t (some (name :: names)) none

/-- A copy without the first name, or the type itself if it has just one. -/
def withoutAlias (parent : Referent) : Build Ty := do
  let t ← ofAttempt (parent.expect .names)
  let names ← ofAttempt t.names
  if names.length = 1 then return t else relabel t (some names.tail) none

/-- A copy with other metadata; what is not given stays. -/
def withMetadata (names? docs? : Option (List String)) (parent : Referent) : Build Ty := do
  let t ← ofAttempt (parent.expect .relabel)
  relabel t names? docs?

/-- Applies refinements from the left and names the result. -/
def compose (name : String) (base : Referent) (steps : List (Referent → Build Ty)) :
    Build Ty := do
  let refined ← steps.foldlM (fun current step => return .type (← step current)) base
  withAlias name refined

end StructuralTypes.Build
