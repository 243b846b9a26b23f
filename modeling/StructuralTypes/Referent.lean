import StructuralTypes.Ty
import StructuralTypes.Value.Printer

/-!
# What a name may refer to

Types are expected nearly everywhere, but a plain value can stand in their place, and edges may
lead to one.
-/

namespace StructuralTypes

/-- A type, or a plain value with the handle that tells it apart from equal values. -/
inductive Referent where
  | type (t : Ty)
  | plain (handle : Nat) (v : Value)

instance : Inhabited Referent := ⟨.plain 0 .null⟩

/-- What tells referents apart. -/
inductive Identity where
  | type (id : Nat)
  | plain (handle : Nat)
deriving DecidableEq

/-- The two kinds of edges of the lattice: to known subsets and to known supersets of a type. -/
inductive Direction where
  | subsets
  | supersets
deriving DecidableEq

def Direction.text : Direction → String
  | .subsets => "subsets"
  | .supersets => "supersets"

namespace Referent

def identity : Referent → Identity
  | .type t => .type t.id
  | .plain handle _ => .plain handle

/-- The name of the class of a referent, as messages about missing features give it. -/
def className : Referent → String
  | .type t => t.className
  | .plain _ v => v.qualifiedClassName

/-- Whether two referents are one and the same object. -/
def isSame : Referent → Referent → Bool
  | .type t, .type u => t.id = u.id
  | .plain h v, .plain k w => h = k || v.isSharedWith w
  | _, _ => false

/-- Whether two hashable referents are the same member of a collection without repeats. -/
def isSameMember (r s : Referent) : Bool :=
  isSame r s || match r, s with
    | .plain _ v, .plain _ w => v.agrees w
    | _, _ => false

end Referent

end StructuralTypes
