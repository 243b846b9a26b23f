import StructuralTypes.Fault

/-!
# Values as they are written down

Numbers are written as texts, and collections by their contents. Not every text is a number, and
not every value can be an element of a set or a key.
-/

namespace StructuralTypes.Value

def readDouble (text : String) : Attempt Double :=
  match Double.read? text with
  | some x => .ok x
  | none => .error (.notADouble text)

def readInteger (text : String) : Attempt Int :=
  match Spelling.readInteger text with
  | .ok n => .ok n
  | .error .malformed => .error (.notAnInteger text)
  | .error (.tooLong digits) => .error (.integerTooLong digits)

def ofDoubleText (text : String) : Attempt Value := return .double (← readDouble text)

def ofComplexTexts (re im : String) : Attempt Value :=
  return .complex (← readDouble re) (← readDouble im)

def ofDecimalText (text : String) : Attempt Value :=
  match Decimal.read? text with
  | some x => if x.isInRange then .ok (.decimal x) else .error .decimalOutOfRange
  | none => .error .notADecimal

/-- A fraction in lowest terms. -/
def ofRatioTexts (numerator denominator : String) : Attempt Value := do
  let n ← readInteger numerator
  let d ← readInteger denominator
  if d = 0 then .error (.zeroDenominator n)
  return .ratio ((n : Rat) / (d : Rat))

def ofOctets (octets : List Int) : Attempt Value :=
  if octets.all fun n => 0 ≤ n ∧ n < 256 then .ok (.bytes (octets.map Int.toNat))
  else .error .octetOutOfRange

/-- A set, whose elements must be hashable. -/
def ofElements (elements : List Value) : Attempt Value := do
  elements.forM checkHashable
  return .set elements

/-- Puts an entry into a mapping, under a key that must be hashable. -/
def putEntry (entries : List (Value × Value)) (key held : Value) :
    Attempt (List (Value × Value)) := do
  key.checkHashable
  return insertEntry entries key held

end StructuralTypes.Value
