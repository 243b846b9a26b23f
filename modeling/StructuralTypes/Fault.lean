import StructuralTypes.Referent

/-!
# What can go wrong

`Fault` lists the causes and `Fault.message` words them. Asking a type for a name it does not have,
or a plain value for a feature of types, is where most of them come from.
-/

namespace StructuralTypes

/-- A feature of types that something else may lack. -/
inductive Feature where
  | canonicalName
  | relabel
  | kind
  | names
  | docs
  | composition
  | operands
  | membership
  | equality
  | subsets
  | supersets
  | heldValues
deriving DecidableEq

def Feature.text : Feature → String
  | .canonicalName => "canonical_name"
  | .relabel => "relabel"
  | .kind => "kind"
  | .names => "names"
  | .docs => "docs"
  | .composition => "meta"
  | .operands => "types"
  | .membership => "has"
  | .equality => "equals"
  | .subsets => "subsets"
  | .supersets => "supersets"
  | .heldValues => "values"

/-- Everything that can go wrong. -/
inductive Fault where
  | lacks (owner : String) (feature : Feature)
  | undrawable (className : String)
  | outOfRange
  | indexTooLarge
  | undefinedOnBare
  | unhashable (obstacle : HashObstacle)
  | notIterable (className : String)
  | notCallable (className : String)
  | needsInteger (label : String)
  | refused (reason : String)
  | signalingNaN
  | ratioTooLarge
  | notADouble (text : String)
  | notADecimal
  | decimalOutOfRange
  | notAnInteger (text : String)
  | integerTooLong (digits : Nat)
  | zeroDenominator (numerator : Int)
  | octetOutOfRange
  | cyclicLattice (sup sub : Referent)
  | tooDeep
  | tooManyIssues
  | issuesFound (text : String)
  | unbound (name : String)
  | emptyModuleName
  | relativeModuleName (name : String)
  | missingMember

/-- How far a computation that may fail has come. -/
abbrev Attempt := Except Fault

/-- Whether a computation has ended because it went too deep. -/
def Attempt.isTooDeep {α : Type} : Attempt α → Bool
  | .error .tooDeep => true
  | _ => false

namespace Ty

def names (t : Ty) : Attempt (List String) :=
  match t.label.names? with
  | some names => .ok names
  | none => .error (.lacks "Type" .names)

def docs (t : Ty) : Attempt (List String) :=
  match t.label.docs? with
  | some docs => .ok docs
  | none => .error (.lacks "Type" .docs)

def kind (t : Ty) : Attempt String :=
  match t.kind? with
  | some kind => .ok kind
  | none => .error (.lacks "Type" .kind)

/-- The first name, which is what a type is shown as. -/
def name (t : Ty) : Attempt String := do
  match ← t.names with
  | [] => .error .outOfRange
  | n :: _ => .ok n

/-- The last name, which copies with more names keep. -/
def canonicalName (t : Ty) : Attempt String := do
  match (← t.names).getLast? with
  | none => .error .outOfRange
  | some n => .ok n

def firstDoc (t : Ty) : Attempt String := do
  match ← t.docs with
  | [] => .error .outOfRange
  | d :: _ => .ok d

end Ty

def Direction.feature : Direction → Feature
  | .subsets => .subsets
  | .supersets => .supersets

/-- Some values cannot be hashed, and hence neither be keys nor elements of a set. -/
def Value.checkHashable (v : Value) : Attempt Unit :=
  match v.hashObstacle? with
  | some obstacle => .error (.unhashable obstacle)
  | none => .ok ()

namespace Referent

/-- The type, where a feature of types is asked for. -/
def expect (feature : Feature) : Referent → Attempt Ty
  | .type t => .ok t
  | .plain _ v => .error (.lacks v.qualifiedClassName feature)

/-- How a referent is shown. -/
def display : Referent → Attempt String
  | .type t => t.name
  | .plain _ v => .ok v.print

/-- Types are hashed by identity, plain values by content, which some do not allow. -/
def checkHashable : Referent → Attempt Unit
  | .type _ => .ok ()
  | .plain _ v => v.checkHashable

end Referent

namespace Fault

/-- How a cycle is put, naming a referent that cannot be shown by nothing. -/
def shown (r : Referent) : String :=
  match r.display with
  | .ok text => text
  | .error _ => ""

def message : Fault → String
  | .lacks owner feature => "'" ++ owner ++ "' object has no attribute '" ++ feature.text ++ "'"
  | .undrawable className => "'Outline' object has no attribute 'visit_" ++ className ++ "'"
  | .outOfRange => "tuple index out of range"
  | .indexTooLarge => "cannot fit 'int' into an index-sized integer"
  | .undefinedOnBare => "<class 'typisch.ontology.Type'>"
  | .unhashable (.unhashableClass name) => "unhashable type: '" ++ name ++ "'"
  | .unhashable .signalingNaN => "Cannot hash a signaling NaN value"
  | .notIterable className => "'" ++ className ++ "' object is not iterable"
  | .notCallable className => "'" ++ className ++ "' object is not callable"
  | .needsInteger label => label ++ ": needs an int"
  | .refused reason => reason
  | .signalingNaN => "cannot convert signaling NaN to float"
  | .ratioTooLarge => "integer division result too large for a float"
  | .notADouble text => "could not convert string to float: " ++ Text.quote text
  | .notADecimal => "[<class 'decimal.ConversionSyntax'>]"
  | .decimalOutOfRange => "[<class 'decimal.InvalidOperation'>]"
  | .notAnInteger text =>
    "invalid literal for int() with base 10: " ++ String.ofList ((Text.quote text).toList.take 200)
  | .integerTooLong digits => Spelling.tooLongText digits
  | .zeroDenominator numerator => "Fraction(" ++ toString numerator ++ ", 0)"
  | .octetOutOfRange => "bytes must be in range(0, 256)"
  | .cyclicLattice sup sub =>
    "Cycle in the type lattice involving: " ++ shown sup ++ ", " ++ shown sub
  | .tooDeep => "maximum recursion depth exceeded"
  | .tooManyIssues => ""
  | .issuesFound text => text
  | .unbound name => "unbound " ++ name
  | .emptyModuleName => "Empty module name"
  | .relativeModuleName name =>
    "the 'package' argument is required to perform a relative import for " ++ Text.quote name
  | .missingMember => "the JSON object must be str, bytes or bytearray, not list"

end Fault

end StructuralTypes
