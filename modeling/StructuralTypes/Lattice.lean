import StructuralTypes.Fault

/-!
# The lattice

Edges lead from a type to types known to be contained in it and to types known to contain it.
They belong to the node, not to its structure: a copy has its own, and they can be overwritten.
Some nodes have edges that are worked out only when they are asked for.
-/

namespace StructuralTypes

/-- The edges of one node, where `none` stands for edges that are not worked out yet. -/
structure Edges where
  subsets? : Option (List Referent)
  supersets? : Option (List Referent)
deriving Inhabited

namespace Edges

def get? (e : Edges) : Direction → Option (List Referent)
  | .subsets => e.subsets?
  | .supersets => e.supersets?

def set (e : Edges) (nodes : List Referent) : Direction → Edges
  | .subsets => { e with subsets? := some nodes }
  | .supersets => { e with supersets? := some nodes }

/-- The edges of a node that has none. -/
def empty : Edges := ⟨some [], some []⟩

/-- The edges of a container, before anyone asks for them. -/
def pending : Edges := ⟨none, none⟩

end Edges

/-- All edges, stored by the identity of the node, and the next serial number. -/
structure Lattice where
  entries : Array Edges
  nextSerial : Nat

namespace Lattice

def empty : Lattice := ⟨#[], 0⟩

def stored? (l : Lattice) (d : Direction) (id : Nat) : Option (List Referent) :=
  l.entries[id]?.bind (·.get? d)

def store (l : Lattice) (d : Direction) (id : Nat) (nodes : List Referent) : Lattice :=
  { l with entries := l.entries.modify id (·.set nodes d) }

end Lattice

/-- A computation that may fail and may change the lattice; what it changed before it failed
stays changed. -/
abbrev Build := ExceptT Fault (StateM Lattice)

namespace Build

def ofAttempt {α : Type} (attempt : Attempt α) : Build α := fun l => (attempt, l)

/-- The next serial number, which no later construction gets again. -/
def takeSerial : Build Nat := do
  let l ← get
  set { l with nextSerial := l.nextSerial + 1 }
  return l.nextSerial

/-- A new node's identity, under which its edges are stored. -/
def register (edges : Edges) : Build Nat := do
  let l ← get
  set { l with entries := l.entries.push edges }
  return l.entries.size

/-- The edges stored for a node, or else those that `work` gives, which are then stored. -/
def kept (d : Direction) (id : Nat) (work : Build (List Referent)) : Build (List Referent) := do
  match (← get).stored? d id with
  | some nodes => return nodes
  | none =>
    let nodes ← work
    modify (·.store d id nodes)
    return nodes

/-- A copy of a node, with the edges that the node has at this moment and the given metadata in
place of its own. -/
def relabel (t : Ty) (names? docs? : Option (List String)) : Build Ty := do
  let id ← register ((← get).entries[t.id]?.getD .empty)
  let old := t.label
  return t.setLabel ⟨id, old.serial, names?.or old.names?, docs?.or old.docs?⟩

/-- What a run that is limited in depth comes to if the depth is enough, where `none` stands for no
such depth. -/
structure Sufficient {α : Type} (run : Nat → Build α) (l : Lattice) where
  outcome? : Option (Attempt α × Lattice)
  enough : ∀ outcome ∈ outcome?, ∃ depth, outcome = run depth l ∧ ¬Attempt.isTooDeep outcome.1

instance {α : Type} (run : Nat → Build α) (l : Lattice) : Nonempty (Sufficient run l) :=
  ⟨none, nofun⟩

/-- One attempt: what the run comes to, or more than twice the depth for the next attempt. -/
def attemptAt {α : Type} (run : Nat → Build α) (l : Lattice) (depth : Nat) : Nat ⊕ Sufficient run l :=
  let outcome := run depth l
  if h : Attempt.isTooDeep outcome.1 then
    .inl (2 * depth + 1)
  else
    .inr ⟨some outcome, by intro _ ho; cases ho; exact ⟨depth, rfl, h⟩⟩

/-- Repeats a run, each time to a greater depth, until it no longer goes too deep. -/
def deepen {α : Type} (run : Nat → Build α) (l : Lattice) (depth : Nat) : Sufficient run l :=
  Id.run (repeatM (attemptAt run l) depth)

/-- What a run comes to if its depth is not limited. The depth that is tried first is enough for
every path over stored edges, along which no pair of nodes repeats. A run for which no depth is
enough would never end: it counts as one that goes too deep, and leaves the lattice as it was. -/
def unlimited {α : Type} (run : Nat → Build α) : Build α := fun l =>
  let depth := l.entries.size * l.entries.size + 1
  let outcome := run depth l
  if Attempt.isTooDeep outcome.1 then
    (deepen run l (2 * depth + 1)).outcome?.getD (.error .tooDeep, l)
  else
    outcome

/-- Where the documentation of a kind of type is found. -/
def docLink (kind : String) : String :=
  "https://github.com/wearereasonablepeople/typisch" ++ "#" ++ kind

end Build

end StructuralTypes
