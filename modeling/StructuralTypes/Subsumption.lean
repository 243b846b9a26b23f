import StructuralTypes.Container
import StructuralTypes.Equality

/-!
# Subsumption

Whether the edges of the lattice prove that one type contains another. The search goes down from
the one and up from the other and stops at a pair of structurally equal types. Pairs that are
decided are remembered; meeting a pair that is still being decided means that the edges go round
in a circle.
-/

namespace StructuralTypes

/-- The state of a search: the lattice, the pairs decided so far, and those being decided. -/
structure Search where
  lattice : Lattice
  decided : List ((Identity × Identity) × Bool)
  pending : List (Identity × Identity)

abbrev Searching := ExceptT Fault (StateM Search)

namespace Searching

def ofBuild {α : Type} (build : Build α) : Searching α := fun s =>
  let (result, lattice) := build s.lattice
  (result, { s with lattice })

def ofAttempt {α : Type} (attempt : Attempt α) : Searching α := fun s => (attempt, s)

def start (pair : Identity × Identity) : Searching Unit :=
  modify fun s => { s with pending := pair :: s.pending }

def finish (pair : Identity × Identity) (answer : Bool) : Searching Unit :=
  modify fun s =>
    { s with decided := (pair, answer) :: s.decided, pending := s.pending.erase pair }

/-- Decides a pair by equality, or with one side replaced by what its edges lead to, searching on
from there. -/
def settle (search : Referent → Referent → Searching Bool) (sup sub : Referent) :
    Searching Bool := do
  if ← ofAttempt (sup.equals sub) then return true
  let below ← ofBuild (sup.edges .subsets)
  if ← below.anyM fun s => search s sub then return true
  let above ← ofBuild (sub.edges .supersets)
  above.anyM fun s => search sup s

/-- Searches to a limited depth. -/
def supersedes : Nat → Referent → Referent → Searching Bool
  | 0, _, _ => throw .tooDeep
  | depth + 1, sup, sub => do
    ofAttempt sup.checkHashable
    ofAttempt sub.checkHashable
    let pair := (sup.identity, sub.identity)
    match (← get).decided.lookup pair with
    | some answer => return answer
    | none =>
      if (← get).pending.contains pair then throw (.cyclicLattice sup sub)
      start pair
      let answer ← settle (supersedes depth) sup sub
      finish pair answer
      return answer

end Searching

namespace Build

/-- Searches to a limited depth, with nothing decided yet. -/
def supersedesWithin (sup sub : Referent) (depth : Nat) : Build Bool := fun l =>
  let (result, s) := Searching.supersedes depth sup sub ⟨l, [], []⟩
  (result, s.lattice)

/-- Whether the edges prove that `sup` contains `sub`. -/
def supersedes (sup sub : Referent) : Build Bool := unlimited (supersedesWithin sup sub)

end Build

end StructuralTypes
