import StructuralTypes.Number.Double

/-!
# Decimal floating-point numbers

A decimal keeps its coefficient and exponent as written. Its exponent may be far too large to
write the number out, so questions of size look at the number of digits first.
-/

namespace StructuralTypes

/-- A decimal floating-point number. -/
inductive Decimal where
  | nan (signaling : Bool) (negative : Bool) (payload : List Char)
  | infinite (negative : Bool)
  | finite (value : Scientific)
deriving DecidableEq, Inhabited

namespace Decimal

/-- Reads a numeral or one of the special words, in any case; a not-a-number may carry digits. -/
def read? (text : String) : Option Decimal :=
  let (negative, rest) := Scientific.splitSign (Spelling.plainDecimal text)
  let word := rest.map Char.toLower
  if word = "inf".toList ∨ word = "infinity".toList then some (.infinite negative)
  else if word.take 3 = "nan".toList ∧ (word.drop 3).all Char.isDigit then
    some (.nan false negative (trimZeros (word.drop 3)))
  else if word.take 4 = "snan".toList ∧ (word.drop 4).all Char.isDigit then
    some (.nan true negative (trimZeros (word.drop 4)))
  else (Scientific.readUnsigned? negative rest).map .finite
where
  trimZeros (digits : List Char) : List Char := digits.dropWhile (· = '0')

/-- The largest power of ten that a leading digit may stand for. -/
def maxExponent : Int := 999999999999999999

/-- The least power of ten that a last digit may stand for. -/
def minExponent : Int := -1999999999999999997

/-- Whether the exponents of a number are within bounds. -/
def isInRange : Decimal → Bool
  | .finite s => Double.leadingPlace s - 1 ≤ maxExponent && minExponent ≤ s.exponent
  | _ => true

def isZero : Decimal → Bool
  | .finite s => s.coefficient = 0
  | _ => false

/-- Whether a numeral denotes a whole number. -/
def isWholeNumeral (s : Scientific) : Bool :=
  if s.coefficient = 0 ∨ 0 ≤ s.exponent then true
  else if Double.leadingPlace s ≤ 0 then false
  else s.coefficient % Nat.pow 10 (-s.exponent).toNat = 0

/-- The numeral with the fewest digits that denotes the same number. -/
def normalize (s : Scientific) : Scientific :=
  if s.coefficient = 0 then ⟨false, 0, 0⟩
  else shorten (Scientific.digitCount s.coefficient) s
where
  shorten : Nat → Scientific → Scientific
    | 0, s => s
    | n + 1, s =>
      if s.coefficient % 10 = 0 then shorten n ⟨s.negative, s.coefficient / 10, s.exponent + 1⟩
      else s

/-- Whether a numeral denotes the rational `q`. A shortest numeral that does has an exponent no
larger than the number of bits of the numerator or denominator. -/
def denotes (s : Scientific) (q : Rat) : Bool :=
  let t := normalize s
  let coefficient : Int := if t.negative then -t.coefficient else t.coefficient
  if 0 ≤ t.exponent then
    t.exponent ≤ Nat.log2 q.num.natAbs + 1 ∧ q = (coefficient * (Nat.pow 10 t.exponent.toNat : Nat) : Int)
  else
    -t.exponent ≤ Nat.log2 q.den + 1 ∧ q = mkRat coefficient (Nat.pow 10 (-t.exponent).toNat)

end Decimal

end StructuralTypes
