import StructuralTypes.Lattice

/-!
# Canonical operands

Operators keep their operands flat and sorted: an operand that the operator absorbs is replaced by
its own operands, and the order depends only on canonical names and, among equal names, on serial
numbers.
-/

namespace StructuralTypes

/-- Joins what two operands contribute. An operand with no contribution of its own stands for
itself, after the other one's contribution. -/
def splice (part? : Referent → Option (List Referent)) (left right : Referent) : List Referent :=
  match part? left, part? right with
  | some ls, some rs => ls ++ rs
  | some ls, none => ls ++ [right]
  | none, some rs => rs ++ [left]
  | none, none => [left, right]

/-- A type with the keys it is sorted by. -/
structure Ranked where
  canonicalName : String
  serial : Nat
  type : Ty

namespace Ranked

def ofReferent (r : Referent) : Attempt Ranked := do
  let t ← r.expect .canonicalName
  return ⟨← t.canonicalName, t.serial, t⟩

/-- By canonical name, then by serial number. -/
def precedes (a b : Ranked) : Bool :=
  a.canonicalName < b.canonicalName || (a.canonicalName = b.canonicalName && a.serial ≤ b.serial)

def insert (a : Ranked) : List Ranked → List Ranked
  | [] => [a]
  | b :: rest => if a.precedes b then a :: b :: rest else b :: insert a rest

/-- Sorts by the keys; equal keys stay in the order given. -/
def sort : List Ranked → List Ranked
  | [] => []
  | a :: rest => insert a (sort rest)

end Ranked

/-- The operands of a flattening operator applied to two operands. -/
def mergeOperands (op : Operator) (left right : Referent) : Attempt (List Ranked) := do
  let part? : Referent → Option (List Referent)
    | .type t => (t.absorbed? op).map (·.map .type)
    | .plain .. => none
  return Ranked.sort (← (splice part? left right).mapM Ranked.ofReferent)

def operationalName (glyph : String) (names : List String) : String :=
  "(" ++ (" " ++ glyph ++ " ").intercalate names ++ ")"

/-- Drops repeats and keeps the order of first occurrences. -/
def dropRepeats (rs : List Referent) : Attempt (List Referent) :=
  rs.foldlM (fun kept r => do
    r.checkHashable
    return if kept.any (·.isSameMember r) then kept else kept ++ [r]) []

/-- What two operands of a union contribute to its subsets: a union its own subsets, as they are
now, and any other operand itself. -/
def unionSubsets (l : Lattice) (left right : Referent) : List Referent :=
  let part? : Referent → Option (List Referent)
    | .type (.compound label .union _) => some ((l.stored? .subsets label.id).getD [])
    | _ => none
  splice part? left right

/-- What lies above an operand of an intersection: above an intersection what lies above its
supersets, and otherwise the operand itself. -/
def supersetLeaves (l : Lattice) : Nat → Referent → Attempt (List Referent)
  | 0, _ => .error .tooDeep
  | depth + 1, .type (.compound label .intersection _) => do
    let above ← ((l.stored? .supersets label.id).getD []).mapM (supersetLeaves l depth)
    return above.flatten
  | _ + 1, r => .ok [r]

/-- The supersets of an intersection: both operands as given, and what lies above them. -/
def intersectionSupersets (l : Lattice) (left right : Referent) : Attempt (List Referent) := do
  let depth := l.entries.size + 1
  let aboveLeft ← supersetLeaves l depth left
  let aboveRight ← supersetLeaves l depth right
  dropRepeats (left :: right :: aboveLeft ++ aboveRight)

end StructuralTypes
