import StructuralTypes.Fn

/-!
# Types

A type is a tree: leaves that accept everything or ask a function, operators over operands, and
containers. Every node carries a label with its identity and its metadata. The edges of the
lattice are not part of the tree; they are kept in `Lattice`.
-/

namespace StructuralTypes

/-- What a node carries besides its structure. Copies of a node have identities of their own and
share the serial number. A bare node may have no names or no docs at all. -/
structure Label where
  id : Nat
  serial : Nat
  names? : Option (List String)
  docs? : Option (List String)
deriving DecidableEq, Inhabited

/-- The operators that keep their operands flat and sorted. -/
inductive Operator where
  | intersection
  | union
  | difference
deriving DecidableEq

namespace Operator

def kind : Operator → String
  | .intersection => "intersection"
  | .union => "union"
  | .difference => "difference"

def glyph : Operator → String
  | .intersection => "∩"
  | .union => "∪"
  | .difference => "⊖"

/-- Whether an operand built by `inner` dissolves into its operands under this operator. -/
def absorbs : Operator → Operator → Bool
  | .intersection, inner => inner = .intersection
  | .union, inner => inner = .union
  | .difference, inner => inner = .difference || inner = .union

end Operator

/-- A type. A bare one has no membership test of its own. -/
inductive Ty where
  | bare (label : Label)
  | any (label : Label)
  | predicate (label : Label) (pred : Fn)
  | compound (label : Label) (op : Operator) (operands : List Ty)
  | without (label : Label) (left right : Ty)
  | unary (label : Label) (outer : Ty) (extractor : Fn) (inner : Ty)

namespace Ty

instance : Inhabited Ty := ⟨.bare default⟩

def label : Ty → Label
  | .bare l | .any l | .predicate l _ | .compound l .. | .without l .. | .unary l .. => l

def setLabel (l : Label) : Ty → Ty
  | .bare _ => .bare l
  | .any _ => .any l
  | .predicate _ p => .predicate l p
  | .compound _ op ts => .compound l op ts
  | .without _ a b => .without l a b
  | .unary _ o e i => .unary l o e i

def id (t : Ty) : Nat := t.label.id

def serial (t : Ty) : Nat := t.label.serial

def kind? : Ty → Option String
  | .bare _ => none
  | .any _ => some "any"
  | .predicate .. => some "predicate"
  | .compound _ op _ => some op.kind
  | .without .. => some "without"
  | .unary .. => some "unary"

/-- The name of the class that a type belongs to among all values. -/
def className : Ty → String
  | .bare _ => "Type"
  | .any _ => "Anything"
  | .predicate .. => "Predicate"
  | .compound _ .intersection _ => "Intersection"
  | .compound _ .union _ => "Union"
  | .compound _ .difference _ => "Difference"
  | .without .. => "Without"
  | .unary .. => "Unary"

mutual

/-- The number of nodes of the tree. -/
def size : Ty → Nat
  | .bare _ | .any _ | .predicate .. => 1
  | .compound _ _ operands => sizes operands + 1
  | .without _ left right => size left + size right + 1
  | .unary _ outer _ inner => size outer + size inner + 1

def sizes : List Ty → Nat
  | [] => 0
  | t :: ts => size t + sizes ts

end

/-- The operands of a type that dissolves under `op`. -/
def absorbed? (op : Operator) : Ty → Option (List Ty)
  | .compound _ inner operands => if op.absorbs inner then some operands else none
  | _ => none

end Ty

end StructuralTypes
