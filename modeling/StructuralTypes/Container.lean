import StructuralTypes.Lattice

/-!
# Containers

A container type says what the container is and what its elements are. Its edges spell out that it
grows and shrinks with both parts: each edge leads to a new container type, which has edges of its
own. They are worked out when they are first asked for and then kept.
-/

namespace StructuralTypes

namespace Build

/-- A container type: what `outer` has and of which the extractor pulls out only what `inner` has.
Both parts must have a name and a doc. -/
def container (outer : Referent) (extractor : Fn) (inner : Referent) : Build Ty := do
  let serial ← takeSerial
  let outerType ← ofAttempt (outer.expect .canonicalName)
  let outerName ← ofAttempt outerType.canonicalName
  let innerType ← ofAttempt (inner.expect .canonicalName)
  let innerName ← ofAttempt innerType.canonicalName
  let outerDoc ← ofAttempt outerType.firstDoc
  let innerDoc ← ofAttempt innerType.firstDoc
  let id ← register .pending
  return .unary ⟨id, serial, some ["(" ++ outerName ++ " " ++ innerName ++ ")"],
    some [docLink "unary", outerDoc, innerDoc]⟩ outerType extractor innerType

/-- The subsets of a container: one part or both replaced by a known subset. -/
def containerSubsets (outer : Ty) (extractor : Fn) (inner : Ty)
    (outerSubsets innerSubsets : List Referent) : Build (List Referent) := do
  let rows ← (.type outer :: outerSubsets).mapM fun o => do
    let inners := if o.isSame (.type outer) then innerSubsets else .type inner :: innerSubsets
    inners.mapM fun i => return .type (← container o extractor i)
  return rows.flatten

/-- The supersets of a container: its outer part, and the inner part replaced by a known
superset. -/
def containerSupersets (outer : Ty) (extractor : Fn) (innerSupersets : List Referent) :
    Build (List Referent) := do
  let widened ← innerSupersets.mapM fun s => return .type (← container (.type outer) extractor s)
  return .type outer :: widened

end Build

namespace Ty

/-- The edges of a type. Those of a container are worked out from its parts on first use. -/
def edges : Direction → Ty → Build (List Referent)
  | .subsets, .unary label outer extractor inner => Build.kept .subsets label.id do
    let outerSubsets ← edges .subsets outer
    let innerSubsets ← edges .subsets inner
    Build.containerSubsets outer extractor inner outerSubsets innerSubsets
  | .supersets, .unary label outer extractor inner => Build.kept .supersets label.id do
    let innerSupersets ← edges .supersets inner
    Build.containerSupersets outer extractor innerSupersets
  | d, t => Build.kept d t.id (return [])

end Ty

namespace Referent

def edges (d : Direction) (r : Referent) : Build (List Referent) := do
  let t ← Build.ofAttempt (r.expect d.feature)
  t.edges d

end Referent

end StructuralTypes
