import StructuralTypes.Fault

/-!
# Structural equality

Two types are equal when their trees agree in operators, functions and extractors, whatever their
names are. Containers and exclusions put the question to the parts of the other side.
-/

namespace StructuralTypes.Ty

mutual

/-- `agrees false s t` puts the question to `s`, and `agrees true s t` puts it to `t`. Only a bare
type that the question is put to makes a difference: it has no answer. -/
def agrees : Bool → Ty → Ty → Attempt Bool
  | false, .bare _, _ => .error .undefinedOnBare
  | true, _, .bare _ => .error .undefinedOnBare
  | _, .any _, .any _ => .ok true
  | _, .predicate _ p, .predicate _ q => .ok (p = q)
  | asksRight, .compound _ op ts, .compound _ op' us =>
    if op = op' ∧ ts.length = us.length then agreesAll asksRight ts us else .ok false
  | asksRight, .without _ a b, .without _ a' b' => do
    if ← agrees (!asksRight) a a' then agrees (!asksRight) b b' else return false
  | asksRight, .unary _ o e i, .unary _ o' e' i' =>
    if e = e' then do
      if ← agrees (!asksRight) o o' then agrees (!asksRight) i i' else return false
    else .ok false
  | _, _, _ => .ok false

def agreesAll : Bool → List Ty → List Ty → Attempt Bool
  | asksRight, t :: ts, u :: us => do
    if ← agrees asksRight t u then agreesAll asksRight ts us else return false
  | _, _, _ => .ok true

end

/-- Asks `s` whether it is structurally equal to `t`. -/
def equals (s t : Ty) : Attempt Bool := agrees false s t

end StructuralTypes.Ty

namespace StructuralTypes

/-- A type is never equal to a plain value, and a plain value cannot be asked. -/
def Referent.equals (r s : Referent) : Attempt Bool := do
  match ← r.expect .equality, s with
  | t, .type u => t.equals u
  | .bare _, .plain .. => .error .undefinedOnBare
  | _, .plain .. => return false

end StructuralTypes
