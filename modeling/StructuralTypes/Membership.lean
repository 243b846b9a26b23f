import StructuralTypes.Interpretation

/-!
# Membership

Whether a value is a member of a type. The answer is what the tests answer, not turned into a
boolean, so only its truth counts.
-/

namespace StructuralTypes.Ty

mutual

/-- Asks a type whether it has a value, testing operands from the left and no more of them than
the answer needs. -/
def has (I : Interpretation) : Ty → Value → Traced Value
  | .bare _, _ => Traced.fail .undefinedOnBare
  | .any _, _ => pure (.boolean true)
  | .predicate _ pred, v => Traced.call pred (I.test pred v)
  | .compound _ .intersection operands, v => do return .boolean (← allHave I operands v)
  | .compound _ .union operands, v => do return .boolean (← someHas I operands v)
  | .compound _ .difference operands, v => do return .boolean !(← someHas I operands v)
  | .without _ left right, v => do
    let inLeft ← has I left v
    if inLeft.isTruthy then
      return .boolean !(← has I right v).isTruthy
    else return inLeft
  | .unary _ outer extractor inner, v => do
    let inOuter ← has I outer v
    if inOuter.isTruthy then
      let extraction ← Traced.call extractor (.ok (I.extract extractor v))
      return .boolean (← Traced.allExtracted (fun item => has I inner item) extraction)
    else return inOuter

def allHave (I : Interpretation) : List Ty → Value → Traced Bool
  | [], _ => pure true
  | t :: ts, v => do
    if (← has I t v).isTruthy then allHave I ts v else return false

def someHas (I : Interpretation) : List Ty → Value → Traced Bool
  | [], _ => pure false
  | t :: ts, v => do
    if (← has I t v).isTruthy then return true else someHas I ts v

end

end StructuralTypes.Ty
