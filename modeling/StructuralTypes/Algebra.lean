import StructuralTypes.Canonical

/-!
# The algebra of types

The constructors. Each takes a serial number first, works out metadata and edges, and fails if an
operand lacks what it needs.
-/

namespace StructuralTypes.Build

/-- The type that has every value. -/
def any : Build Ty := do
  let serial ← takeSerial
  let id ← register .empty
  return .any ⟨id, serial, some ["Any"], some [docLink "any"]⟩

/-- A type with no kind, no names and no docs. -/
def bare : Build Ty := do
  let serial ← takeSerial
  let id ← register .empty
  return .bare ⟨id, serial, none, none⟩

/-- The type of the values that pass a test. An empty name counts as none. -/
def predicate (pred : Fn) (name? : Option String) : Build Ty := do
  let serial ← takeSerial
  let name := match name? with
    | some name => if name.isEmpty then pred.display else name
    | none => pred.display
  let id ← register .empty
  return .predicate ⟨id, serial, some [name], some [docLink "predicate"]⟩ pred

/-- The edges that an operator declares between its result and its operands as given. -/
def declaredEdges (l : Lattice) (left right : Referent) : Operator → Attempt Edges
  | .intersection => do return ⟨some [], some (← intersectionSupersets l left right)⟩
  | .union => do return ⟨some (← dropRepeats (unionSubsets l left right)), some []⟩
  | .difference => return ⟨some [], some [left, right]⟩

/-- Intersection, union or difference of two operands. A difference has what every operand
rejects. -/
def compound (op : Operator) (left right : Referent) : Build Ty := do
  let serial ← takeSerial
  let ranked ← ofAttempt (mergeOperands op left right)
  let operands := ranked.map (·.type)
  let name := operationalName op.glyph (ranked.map (·.canonicalName))
  let docs ← ofAttempt (operands.mapM (·.firstDoc))
  let edges ← ofAttempt (declaredEdges (← get) left right op)
  let id ← register edges
  return .compound ⟨id, serial, some [name], some (docLink op.kind :: docs)⟩ op operands

/-- What is taken away: for an exclusion the union of its two parts. -/
def excluded : Referent → Build Referent
  | .type (.without _ a b) => do return .type (← compound .union (.type a) (.type b))
  | other => return other

/-- What the left operand has and the right one has not. -/
def without (left right : Referent) : Build Ty := do
  let serial ← takeSerial
  let right ← excluded right
  let leftType ← ofAttempt (left.expect .canonicalName)
  let leftName ← ofAttempt leftType.canonicalName
  let rightType ← ofAttempt (right.expect .canonicalName)
  let rightName ← ofAttempt rightType.canonicalName
  let leftDoc ← ofAttempt leftType.firstDoc
  let rightDoc ← ofAttempt rightType.firstDoc
  let id ← register ⟨some [], some [left]⟩
  return .without ⟨id, serial, some ["(" ++ leftName ++ " \\ " ++ rightName ++ ")"],
    some [docLink "without", leftDoc, rightDoc]⟩ leftType rightType

end StructuralTypes.Build
