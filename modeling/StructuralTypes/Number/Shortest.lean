import StructuralTypes.Number.Decimal

/-!
# Numbers as text

A binary floating-point number is written with the fewest digits that read back as the same
number, the nearest such digits. A decimal is written with the digits it has.
-/

namespace StructuralTypes

namespace Double

/-- The largest `k` with `10 ^ k ≤ q`, for a positive `q`. -/
def floorLog10 (q : Rat) : Int :=
  let k := floorLog2 q * 30103 / 100000
  if pow10 (k + 1) ≤ q then k + 1 else if pow10 k ≤ q then k else k - 1

/-- The reals that round to the positive number `q`: both ends, and whether the ends belong. -/
def roundingInterval (q : Rat) : Rat × Rat × Bool :=
  let exponent := unitExponent q
  let unit := pow2 exponent
  let significand := roundHalfEven (q / unit)
  let below := if significand = Nat.pow 2 52 ∧ -1074 < exponent then unit / 4 else unit / 2
  (q - below, q + unit / 2, significand % 2 = 0)

/-- The digits of `q` on the grid of `count` digits, if one of its two neighbours there rounds to
`q`: the nearer one that does, or of two equally near ones the even one, as a coefficient and the
exponent of its last digit. -/
def digitsAt? (q : Rat) (count : Nat) : Option (Nat × Int) :=
  let (low, high, closed) := roundingInterval q
  let exponent := floorLog10 q - count + 1
  let unit := pow10 exponent
  let lower := (q / unit).floor.toNat
  let hits (n : Nat) : Bool :=
    if closed then low ≤ n * unit ∧ n * unit ≤ high else low < n * unit ∧ n * unit < high
  let distance (n : Nat) : Rat := if q ≤ n * unit then n * unit - q else q - n * unit
  match hits lower, hits (lower + 1) with
  | true, true =>
    let upward := distance (lower + 1) < distance lower
      || (distance (lower + 1) = distance lower && lower % 2 = 1)
    some (if upward then lower + 1 else lower, exponent)
  | true, false => some (lower, exponent)
  | false, true => some (lower + 1, exponent)
  | false, false => none

/-- The fewest digits that read back as the positive number `q`. -/
def shortest (q : Rat) : Nat × Int :=
  ((List.range 17).findSome? fun n => digitsAt? q (n + 1)).getD (0, 0)

def trimTrailingZeros (digits : List Char) : List Char :=
  (digits.reverse.dropWhile (· = '0')).reverse

/-- Writes a positive number: positionally from 0.0001 up to 16 digits before the point, with an
exponent of at least two digits otherwise. -/
def magnitudeText (q : Rat) : String :=
  let (coefficient, exponent) := shortest q
  let digits := Nat.toDigits 10 coefficient
  let point : Int := digits.length + exponent
  let kept := trimTrailingZeros digits
  if -4 < point ∧ point ≤ 16 then
    if point ≤ 0 then
      "0." ++ String.ofList (List.replicate (-point).toNat '0' ++ kept)
    else
      let padded := kept ++ List.replicate (point.toNat - kept.length) '0'
      let fraction := padded.drop point.toNat
      String.ofList (padded.take point.toNat) ++ "."
        ++ (if fraction.isEmpty then "0" else String.ofList fraction)
  else
    let power := point - 1
    let powerDigits := Nat.toDigits 10 power.natAbs
    String.ofList (kept.take 1) ++ (if kept.length ≤ 1 then "" else "." ++ String.ofList (kept.drop 1))
      ++ "e" ++ (if power < 0 then "-" else "+")
      ++ String.ofList (List.replicate (2 - powerDigits.length) '0' ++ powerDigits)

def text : Double → String
  | .nan => "nan"
  | .infinite negative => if negative then "-inf" else "inf"
  | .negativeZero => "-0.0"
  | .finite q => if q = 0 then "0.0" else if q < 0 then "-" ++ magnitudeText (-q) else magnitudeText q

/-- A number as it stands inside a complex one, where a whole number has no point. -/
def bareText (d : Double) : String :=
  let t := d.text
  if t.endsWith ".0" then String.ofList (t.toList.take (t.length - 2)) else t

end Double

namespace Decimal

/-- Writes a numeral with its own digits: with a point while the last digit is not left of the
units and at most six places separate the point from the first digit, else with an exponent. -/
def numeralText (s : Scientific) : String :=
  let digits := Nat.toDigits 10 s.coefficient
  let place : Int := s.exponent + digits.length
  let point : Int := if s.exponent ≤ 0 ∧ -6 < place then place else 1
  let body :=
    if point ≤ 0 then "0." ++ String.ofList (List.replicate (-point).toNat '0' ++ digits)
    else if (digits.length : Int) ≤ point then
      String.ofList (digits ++ List.replicate (point.toNat - digits.length) '0')
    else String.ofList (digits.take point.toNat) ++ "." ++ String.ofList (digits.drop point.toNat)
  let power := place - point
  let exponent := if power = 0 then "" else "E" ++ (if power < 0 then "" else "+") ++ toString power
  (if s.negative then "-" else "") ++ body ++ exponent

def text : Decimal → String
  | .nan signaling negative payload =>
    (if negative then "-" else "") ++ (if signaling then "sNaN" else "NaN") ++ String.ofList payload
  | .infinite negative => if negative then "-Infinity" else "Infinity"
  | .finite s => numeralText s

end Decimal

end StructuralTypes
