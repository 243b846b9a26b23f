import StructuralTypes.Container
import StructuralTypes.Interpretation
import StructuralTypes.Refinement

/-!
# The prelude

Ready-made types over the built-in values, the functions they ask, and container constructors to
go with them.
-/

namespace StructuralTypes

namespace Fn

def isNull : Fn := named "_is_null"

def isBoolean : Fn := named "_is_boolean"

def isNumber : Fn := named "_is_number"

def isIntegral : Fn := named "_is_integral"

def isString : Fn := named "_is_string"

def isArray : Fn := named "_is_array"

def isMapping : Fn := named "_is_mapping"

def elements : Fn := named "elements"

def values : Fn := named "values"

/-- The functions of the prelude. -/
def builtIn : List Fn :=
  [isNull, isBoolean, isNumber, isIntegral, isString, isArray, isMapping, elements, values]

end Fn

namespace Value

/-- Whether a value is a whole number. A ratio or a decimal is first rounded to a binary number to
see whether it is finite, so one that is too large for that has no answer or counts as infinite. -/
def isIntegral : Value → Attempt Bool
  | .integer _ | .boolean _ => .ok true
  | .double x => .ok x.isWhole
  | .ratio q => if Double.overflows q then .error .ratioTooLarge else .ok (q.den = 1)
  | .decimal (.nan true ..) => .error .signalingNaN
  | .decimal (.finite s) => .ok (!Double.overflowsNumeral s && Decimal.isWholeNumeral s)
  | _ => .ok false

/-- The items of a value that can be iterated over. -/
def elements (v : Value) : Attempt (List Value) :=
  match v.items? with
  | some items => .ok items
  | none => .error (.notIterable v.qualifiedClassName)

/-- What a mapping holds. -/
def heldValues (v : Value) : Attempt (List Value) :=
  match v.held? with
  | some held => .ok held
  | none => .error (.lacks v.qualifiedClassName .heldValues)

end Value

/-- The types that are there from the start. -/
structure Prelude where
  any : Ty
  null : Ty
  boolean : Ty
  number : Ty
  string : Ty
  array : Ty
  mapping : Ty
  integer : Ty
  scalar : Ty
deriving Inhabited

namespace Prelude

def build : Build Prelude := do
  let any ← Build.any
  let null ← Build.predicate .isNull (some "Null")
  let boolean ← Build.predicate .isBoolean (some "Boolean")
  let number ← Build.predicate .isNumber (some "Number")
  let string ← Build.predicate .isString (some "String")
  let array ← Build.predicate .isArray (some "Array")
  let mapping ← Build.predicate .isMapping (some "Mapping")
  let whole ← Build.suchThat .isIntegral (.type number)
  let integer ← Build.withAlias "Integer" (.type whole)
  let small ← Build.compound .union (.type null) (.type boolean)
  let large ← Build.compound .union (.type number) (.type string)
  let all ← Build.compound .union (.type small) (.type large)
  let scalar ← Build.withAlias "Scalar" (.type all)
  return { any, null, boolean, number, string, array, mapping, integer, scalar }

/-- The prelude and the lattice that holds nothing else. -/
def initial : Prelude × Lattice :=
  match build Lattice.empty with
  | (.ok p, l) => (p, l)
  | (.error _, l) => (default, l)

/-- The named types of the prelude, in order. -/
def types (p : Prelude) : List (String × Ty) :=
  [("Null", p.null), ("Boolean", p.boolean), ("Number", p.number), ("String", p.string),
    ("Array", p.array), ("Mapping", p.mapping), ("Integer", p.integer), ("Scalar", p.scalar)]

def typeNames : List String :=
  ["Null", "Boolean", "Number", "String", "Array", "Mapping", "Integer", "Scalar"]

/-- An array all of whose elements are members of a type. -/
def arrayOf (p : Prelude) (inner : Referent) : Build Ty :=
  Build.container (.type p.array) .elements inner

/-- A mapping all of whose values are members of a type. -/
def mappingOf (p : Prelude) (inner : Referent) : Build Ty :=
  Build.container (.type p.mapping) .values inner

/-- A member of a type, or null. -/
def optional (p : Prelude) (t : Referent) : Build Ty :=
  Build.compound .union (.type p.null) t

end Prelude

namespace Interpretation

/-- Gives the functions of the prelude their meaning and leaves all others as they are. -/
def withPrelude (I : Interpretation) : Interpretation where
  test f v :=
    if f = .isNull then .ok (.boolean v.isNull)
    else if f = .isBoolean then .ok (.boolean v.isBoolean)
    else if f = .isNumber then .ok (.boolean v.isNumber)
    else if f = .isIntegral then v.isIntegral.map .boolean
    else if f = .isString then .ok (.boolean v.isText)
    else if f = .isArray then .ok (.boolean v.isArray)
    else if f = .isMapping then .ok (.boolean v.isMapping)
    else I.test f v
  extract f v :=
    if f = .elements then .ofAttempt v.elements
    else if f = .values then .ofAttempt v.heldValues
    else I.extract f v

end Interpretation

end StructuralTypes
