import StructuralTypes.Components
import StructuralTypes.Container
import StructuralTypes.Workbench

/-!
# Acyclicity

Edges of either kind should lead to no cycle. The check walks the part of the lattice that a type
leads to and complains about every strongly connected component that has a cycle.
-/

namespace StructuralTypes

/-- Nodes with their edges of one kind, in the order they were met. -/
abbrev Reach := List (Referent × List Referent)

namespace Reach

def identities (g : Reach) : List Identity := g.map fun (r, _) => r.identity

/-- The numbers of the nodes that the node with number `q` leads to. -/
def successors (g : Reach) (q : Nat) : List Nat :=
  (g.getD q default).2.map fun r => g.identities.idxOf r.identity

def leadsToItself (g : Reach) (q : Nat) : Bool := (g.successors q).contains q

/-- The components that have a cycle: those with two or more members, and single nodes that lead
to themselves. -/
def cycles (g : Reach) : List (List Referent) :=
  let cyclic := (Components.components g.length g.successors).filter fun c =>
    1 < c.length || c.any g.leadsToItself
  cyclic.map fun c => c.map fun q => (g.getD q default).1

end Reach

namespace Build

/-- Walks from a node to a limited depth, later edges first, and adds what was not met yet. -/
def explore (d : Direction) : Nat → Reach → Referent → Build Reach
  | 0, _, _ => throw .tooDeep
  | depth + 1, g, r => do
    ofAttempt r.checkHashable
    if g.identities.contains r.identity then return g
    let nodes ← r.edges d
    nodes.reverse.foldlM (explore d depth) (g ++ [(r, nodes)])

/-- Everything that a node leads to through edges of one kind. -/
def reachable (d : Direction) (root : Referent) : Build Reach :=
  unlimited fun depth => explore d depth [] root

end Build

namespace Work

def checkDirection (root : Referent) (d : Direction) : Work Unit := do
  let g ← ofBuild (Build.reachable d root)
  let shown ← ofAttempt root.display
  inform ("Checking " ++ toString g.length ++ " type(s) reachable through " ++ d.text ++ " from "
    ++ shown)
  g.cycles.forM fun cycle => do
    complain (← ofAttempt (Complaint.cyclicLattice d.text cycle))

/-- Complains about each cycle among the subsets of a type, then among its supersets. -/
def checkLattice (root : Referent) : Work Unit := do
  checkDirection root .subsets
  checkDirection root .supersets

end Work

end StructuralTypes
