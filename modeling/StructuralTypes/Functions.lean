import StructuralTypes.Prelude

/-!
# Ready-made functions

A stock of predicates and extractors to build types from, found by their labels. Some come in
families, whose predicates have a number: `lambda:5` tests for more than five, `nameless:5` for less.
-/

namespace StructuralTypes

namespace Fn

/-- Whether a label is that of a member of a family. -/
def isInFamily (family label : String) : Bool := label.startsWith (family ++ ":")

/-- The number in the label of a member of a family. -/
def familyNumber? (family label : String) : Option Int :=
  if isInFamily family label then
    (Spelling.readInteger (String.ofList (label.toList.drop (family.length + 1)))).toOption
  else none

/-- The function with a label: members of the first family all have the same name, those of the
second have none, and any other function goes by its label. -/
def ofLabel (label : String) : Fn :=
  if isInFamily "lambda" label then ⟨label, some "<lambda>"⟩
  else if isInFamily "nameless" label then ⟨label, none⟩
  else named label

end Fn

namespace Stock

/-- A test that only integers can be put to. -/
def integerTest (label : String) (p : Int → Bool) : Value → Attempt Value
  | .integer n => .ok (.boolean (p n))
  | _ => .error (.needsInteger label)

def test (f : Fn) (v : Value) : Attempt Value :=
  match f.label with
  | "even" => integerTest "even" (· % 2 = 0) v
  | "odd" => integerTest "odd" (· % 2 = 1) v
  | "positive" => integerTest "positive" (0 < ·) v
  | "small" => integerTest "small" (·.natAbs < 10) v
  | "truthy" => .ok (.boolean v.isTruthy)
  | "identity" => .ok v
  | "length" => .ok (.integer v.length)
  | "always" => .ok (.boolean true)
  | "never" => .ok (.boolean false)
  | "nothing" => .ok .null
  | "boom" => .error (.refused "boom")
  | label =>
    match Fn.familyNumber? "lambda" label, Fn.familyNumber? "nameless" label with
    | some n, _ => integerTest label (n < ·) v
    | none, some n => integerTest label (· < n) v
    | none, none => .ok .null

def extract (f : Fn) (v : Value) : Extraction :=
  match f.label with
  | "wrap" => ⟨[v], none⟩
  | "empty" => ⟨[], none⟩
  | "void" => ⟨[], some (.notIterable "NoneType")⟩
  | "number" => ⟨[], some (.notIterable "int")⟩
  | "crash" => ⟨[], some (.refused "crash")⟩
  | _ => .ofAttempt v.elements

end Stock

/-- The meaning of the stock and of the functions of the prelude. -/
def Interpretation.standard : Interpretation :=
  (Interpretation.mk Stock.test Stock.extract).withPrelude

end StructuralTypes
