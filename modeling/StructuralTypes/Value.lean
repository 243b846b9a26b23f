import StructuralTypes.Number.Decimal
import StructuralTypes.Text.Quoted

/-!
# Values

The values that types are asked about: numbers of several classes, texts, containers, and a value
with no features at all.
-/

namespace StructuralTypes

/-- A value of one of the built-in classes. -/
inductive Value where
  | null
  | boolean (b : Bool)
  | integer (n : Int)
  | double (x : Double)
  | ratio (q : Rat)
  | decimal (x : Decimal)
  | complex (re im : Double)
  | text (points : Text.Points)
  | array (items : List Value)
  | tuple (items : List Value)
  | mapping (entries : List (Value × Value))
  | mappingView (entries : List (Value × Value))
  | set (items : List Value)
  | bytes (octets : List Nat)
  | featureless
deriving Inhabited

/-- Why a value cannot be hashed: its class as a whole, or being a signaling not-a-number. -/
inductive HashObstacle where
  | unhashableClass (name : String)
  | signalingNaN
deriving DecidableEq

/-- A real number as the numeric classes give it, compared by what it denotes. -/
inductive RealValue where
  | exact (q : Rat)
  | numeral (s : Scientific)
  | infinite (negative : Bool)
  | nan

namespace RealValue

def ofDouble : Double → RealValue
  | .nan => .nan
  | .infinite negative => .infinite negative
  | .negativeZero => .exact 0
  | .finite q => .exact q

def ofDecimal : Decimal → RealValue
  | .nan .. => .nan
  | .infinite negative => .infinite negative
  | .finite s => .numeral s

def agrees : RealValue → RealValue → Bool
  | .exact p, .exact q => p = q
  | .exact q, .numeral s => Decimal.denotes s q
  | .numeral s, .exact q => Decimal.denotes s q
  | .numeral s, .numeral t => Decimal.normalize s = Decimal.normalize t
  | .infinite a, .infinite b => a = b
  | _, _ => false

end RealValue

namespace Value

def ofString (s : String) : Value := .text (Text.points s)

/-- The name of a value's class. -/
def className : Value → String
  | .null => "NoneType"
  | .boolean _ => "bool"
  | .integer _ => "int"
  | .double _ => "float"
  | .ratio _ => "Fraction"
  | .decimal _ => "Decimal"
  | .complex .. => "complex"
  | .text _ => "str"
  | .array _ => "list"
  | .tuple _ => "tuple"
  | .mapping _ => "dict"
  | .mappingView _ => "mappingproxy"
  | .set _ => "set"
  | .bytes _ => "bytes"
  | .featureless => "Opaque"

/-- The name of a value's class as messages about missing features give it. -/
def qualifiedClassName (v : Value) : String :=
  match v with
  | .decimal _ => "decimal.Decimal"
  | _ => v.className

/-- Whether a value counts as true: not null, not a zero, not empty. -/
def isTruthy : Value → Bool
  | .null => false
  | .boolean b => b
  | .integer n => n ≠ 0
  | .double x => !x.isZero
  | .ratio q => q ≠ 0
  | .decimal x => !x.isZero
  | .complex re im => !(re.isZero && im.isZero)
  | .text points => !points.isEmpty
  | .array items | .tuple items | .set items => !items.isEmpty
  | .mapping entries | .mappingView entries => !entries.isEmpty
  | .bytes octets => !octets.isEmpty
  | .featureless => true

/-- The number of elements of a text, array, tuple or mapping, and zero for anything else. -/
def length : Value → Nat
  | .text points => points.length
  | .array items | .tuple items => items.length
  | .mapping entries => entries.length
  | _ => 0

/-- What iterating over a value gives; a mapping gives its keys. -/
def items? : Value → Option (List Value)
  | .array items | .tuple items | .set items => some items
  | .text points => some (points.map fun p => .text [p])
  | .mapping entries | .mappingView entries => some (entries.map Prod.fst)
  | .bytes octets => some (octets.map fun n : Nat => .integer n)
  | _ => none

/-- What a mapping holds under its keys. -/
def held? : Value → Option (List Value)
  | .mapping entries | .mappingView entries => some (entries.map Prod.snd)
  | _ => none

def isBoolean : Value → Bool
  | .boolean _ => true
  | _ => false

def isNumber : Value → Bool
  | .integer _ | .double _ | .ratio _ | .decimal _ | .complex .. => true
  | _ => false

def isNull : Value → Bool
  | .null => true
  | _ => false

def isText : Value → Bool
  | .text _ => true
  | _ => false

def isArray : Value → Bool
  | .array _ | .tuple _ => true
  | _ => false

def isMapping : Value → Bool
  | .mapping _ | .mappingView _ => true
  | _ => false

/-- The real and the imaginary part of a number; a boolean is a number here. -/
def parts? : Value → Option (RealValue × RealValue)
  | .boolean b => some (.exact (if b then 1 else 0), .exact 0)
  | .integer n => some (.exact n, .exact 0)
  | .double x => some (.ofDouble x, .exact 0)
  | .ratio q => some (.exact q, .exact 0)
  | .decimal x => some (.ofDecimal x, .exact 0)
  | .complex re im => some (.ofDouble re, .ofDouble im)
  | _ => none

def agreesAsNumber (v w : Value) : Bool :=
  match v.parts?, w.parts? with
  | some (re, im), some (re', im') => re.agrees re' && im.agrees im'
  | _, _ => false

mutual

/-- Whether two hashable values are the same key: numbers by what they denote, whatever their
class, and other values by class and content. -/
def agrees : Value → Value → Bool
  | .null, .null => true
  | .featureless, .featureless => true
  | .text a, .text b => a = b
  | .bytes a, .bytes b => a = b
  | .tuple as, .tuple bs => agreesAll as bs
  | a, b => agreesAsNumber a b

def agreesAll : List Value → List Value → Bool
  | [], [] => true
  | a :: as, b :: bs => agrees a b && agreesAll as bs
  | _, _ => false

end

mutual

/-- What keeps a value from being hashed, if anything; a tuple is hashed element by element. -/
def hashObstacle? : Value → Option HashObstacle
  | .array _ => some (.unhashableClass "list")
  | .mapping _ => some (.unhashableClass "dict")
  | .mappingView _ => some (.unhashableClass "mappingproxy")
  | .set _ => some (.unhashableClass "set")
  | .decimal (.nan true ..) => some .signalingNaN
  | .tuple items => firstObstacle? items
  | _ => none

def firstObstacle? : List Value → Option HashObstacle
  | [] => none
  | v :: vs => (hashObstacle? v).or (firstObstacle? vs)

end

/-- Puts an entry into a mapping: a key that is there keeps its place and gets the new value. -/
def insertEntry (entries : List (Value × Value)) (key held : Value) : List (Value × Value) :=
  if entries.any fun (k, _) => agrees k key then
    entries.map fun (k, v) => if agrees k key then (k, held) else (k, v)
  else entries ++ [(key, held)]

/-- Whether two occurrences of equal small values are always one and the same object. -/
def isSharedWith : Value → Value → Bool
  | .null, .null => true
  | .featureless, .featureless => true
  | .boolean a, .boolean b => a = b
  | .integer m, .integer n => m = n && -5 ≤ m && m ≤ 256
  | .text [], .text [] => true
  | .text [a], .text [b] => a = b && a < 256
  | .tuple [], .tuple [] => true
  | .bytes [], .bytes [] => true
  | .bytes [a], .bytes [b] => a = b
  | _, _ => false

end Value

end StructuralTypes
