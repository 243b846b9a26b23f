import StructuralTypes.Number.Spelling

/-!
# Binary floating-point numbers

A finite number is kept as the exact rational that it denotes, so that every question about it is
a question about rationals. Rounding is to nearest, ties to even, with 53 significant bits and
exponents down to -1074.
-/

namespace StructuralTypes

/-- A binary floating-point number. -/
inductive Double where
  | nan
  | infinite (negative : Bool)
  | negativeZero
  | finite (value : Rat)
deriving DecidableEq, Inhabited

namespace Double

def pow2 (k : Int) : Rat := if 0 ≤ k then Nat.pow 2 k.toNat else 1 / Nat.pow 2 (-k).toNat

def pow10 (k : Int) : Rat := if 0 ≤ k then Nat.pow 10 k.toNat else 1 / Nat.pow 10 (-k).toNat

/-- The whole number nearest to a non-negative rational, a tie going to the even one. -/
def roundHalfEven (q : Rat) : Nat :=
  let whole := q.num.toNat / q.den
  let rest := q.num.toNat % q.den
  if 2 * rest < q.den then whole
  else if q.den < 2 * rest then whole + 1
  else if whole % 2 = 0 then whole else whole + 1

/-- The largest `k` with `2 ^ k ≤ q`, for a positive `q`. -/
def floorLog2 (q : Rat) : Int :=
  let k : Int := (Nat.log2 q.num.toNat : Int) - Nat.log2 q.den
  if pow2 k ≤ q then k else k - 1

/-- The exponent of the last significant bit of a positive number of this size. -/
def unitExponent (q : Rat) : Int := max (floorLog2 q - 52) (-1074)

/-- The nearest number with 53 significant bits to a positive rational, without an upper bound. -/
def roundMagnitude (q : Rat) : Rat :=
  let unit := pow2 (unitExponent q)
  roundHalfEven (q / unit) * unit

/-- The least magnitude that rounds past the largest finite number. -/
def overflowThreshold : Rat := ((Nat.pow 2 1024 - Nat.pow 2 970 : Nat) : Rat)

def overflows (q : Rat) : Bool := overflowThreshold ≤ q ∨ q ≤ -overflowThreshold

/-- The number with a given sign whose magnitude is nearest to `q`. -/
def ofMagnitude (negative : Bool) (q : Rat) : Double :=
  if q = 0 then if negative then .negativeZero else .finite 0
  else if overflows q then .infinite negative
  else
    let rounded := roundMagnitude q
    if negative then if rounded = 0 then .negativeZero else .finite (-rounded)
    else .finite rounded

/-- The number of digits before the point of a numeral, or minus the zeros right after it. -/
def leadingPlace (s : Scientific) : Int := (Scientific.digitCount s.coefficient : Int) + s.exponent

/-- Whether a numeral rounds past the largest finite number. Far from the threshold, which has 309
digits, the number of digits decides. -/
def overflowsNumeral (s : Scientific) : Bool :=
  if s.coefficient = 0 ∨ leadingPlace s < 309 then false
  else if 309 < leadingPlace s then true
  else overflows (s.coefficient * pow10 s.exponent)

/-- Rounds a numeral; one with more than 330 zeros after the point rounds to zero. -/
def ofScientific (s : Scientific) : Double :=
  if overflowsNumeral s then .infinite s.negative
  else if s.coefficient = 0 ∨ leadingPlace s < -330 then ofMagnitude s.negative 0
  else ofMagnitude s.negative (s.coefficient * pow10 s.exponent)

/-- Reads a numeral, or one of the words for infinity and not-a-number in any case. -/
def read? (text : String) : Option Double := do
  let (negative, rest) := Scientific.splitSign (← Spelling.plain? text)
  match String.ofList (rest.map Char.toLower) with
  | "inf" | "infinity" => some (.infinite negative)
  | "nan" => some .nan
  | _ => (Scientific.readUnsigned? negative rest).map ofScientific

def isZero : Double → Bool
  | .negativeZero => true
  | .finite q => q = 0
  | _ => false

/-- The rational that a finite number denotes. -/
def toRat? : Double → Option Rat
  | .negativeZero => some 0
  | .finite q => some q
  | _ => none

/-- Whether a number is finite and whole. -/
def isWhole : Double → Bool
  | .negativeZero => true
  | .finite q => q.den = 1
  | _ => false

end Double

end StructuralTypes
