/-!
# Decimal numerals

A numeral is a sign, a whole coefficient and a power of ten. This module reads the written forms
that the floating-point and decimal readers share.
-/

namespace StructuralTypes

/-- The number `± coefficient * 10 ^ exponent`. -/
structure Scientific where
  negative : Bool
  coefficient : Nat
  exponent : Int
deriving DecidableEq, Inhabited

namespace Scientific

def digitsValue (digits : List Char) : Nat :=
  digits.foldl (fun n c => 10 * n + (c.toNat - 48)) 0

/-- The number of decimal digits of `n`, which is one for zero. -/
def digitCount (n : Nat) : Nat := (Nat.toDigits 10 n).length

/-- Splits an optional sign off the front; `true` stands for minus. -/
def splitSign : List Char → Bool × List Char
  | '-' :: rest => (true, rest)
  | '+' :: rest => (false, rest)
  | rest => (false, rest)

/-- The power of ten at the end of a numeral: nothing, or a mark, an optional sign and digits. -/
def readExponent? : List Char → Option Int
  | [] => some 0
  | mark :: rest =>
    if mark = 'e' ∨ mark = 'E' then
      let (negative, digits) := splitSign rest
      if digits.isEmpty ∨ ¬ digits.all Char.isDigit then none
      else some (if negative then -(digitsValue digits : Int) else digitsValue digits)
    else none

/-- Reads a numeral without its sign: digits around at most one point, at least one digit in all,
and an optional power of ten. -/
def readUnsigned? (negative : Bool) (text : List Char) : Option Scientific :=
  let whole := text.takeWhile Char.isDigit
  let afterWhole := text.dropWhile Char.isDigit
  let (fraction, rest) := match afterWhole with
    | '.' :: more => (more.takeWhile Char.isDigit, more.dropWhile Char.isDigit)
    | other => ([], other)
  if whole.isEmpty ∧ fraction.isEmpty then none
  else (readExponent? rest).map fun exponent =>
    ⟨negative, digitsValue (whole ++ fraction), exponent - fraction.length⟩

def read? (text : List Char) : Option Scientific :=
  let (negative, rest) := splitSign text
  readUnsigned? negative rest

end Scientific

end StructuralTypes
