import StructuralTypes.Number.Scientific
import StructuralTypes.Text.Blank
import StructuralTypes.Text.DecimalDigit

/-!
# Spellings of numerals

A numeral may have blanks around it, digits of any script, and underscores that group its digits.
Its plain spelling has none of these.
-/

namespace StructuralTypes

namespace Spelling

/-- A digit of any script as a plain digit and a foreign blank as a space; any other character stays
as it is. -/
def plainChar (c : Char) : Char :=
  if c.toNat < 127 then c
  else if Text.isBlank c then ' '
  else match Text.digitValue? c with
    | some d => Char.ofNat (48 + d)
    | none => c

/-- Drops the underscores, each of which must stand between two digits. -/
def ungroup? (afterDigit : Bool) : List Char → Option (List Char)
  | [] => some []
  | ['_'] => none
  | '_' :: c :: rest =>
    if afterDigit && c.isDigit then (ungroup? true rest).map (c :: ·) else none
  | c :: rest => (ungroup? c.isDigit rest).map (c :: ·)

/-- The plain spelling of a numeral. -/
def plain? (text : String) : Option (List Char) :=
  ungroup? false (Text.trim Text.isPlainBlank (text.toList.map plainChar))

/-- The plain spelling of a decimal numeral, in which underscores may stand anywhere. -/
def plainDecimal (text : String) : List Char :=
  ((Text.trim Text.isBlank text.toList).filter (· ≠ '_')).map plainChar

/-- The most digits an integer may have, leading zeros included. -/
def digitLimit : Nat := 4300

def tooLongText (digits : Nat) : String :=
  "Exceeds the limit (" ++ toString digitLimit ++ " digits) for integer string conversion: value has "
    ++ toString digits ++ " digits; use sys.set_int_max_str_digits() to increase the limit"

/-- Why a text is no whole number. -/
inductive IntegerFlaw where
  | malformed
  | tooLong (digits : Nat)
deriving DecidableEq

/-- Reads a whole number: an optional sign and digits. The digits are counted before anything after
them is looked at. -/
def readInteger (text : String) : Except IntegerFlaw Int :=
  let chars := Text.trim Text.isPlainBlank (text.toList.map plainChar)
  let (negative, body) := Scientific.splitSign chars
  let isPart (c : Char) : Bool := c.isDigit || c = '_'
  match ungroup? false (body.takeWhile isPart) with
  | none => .error .malformed
  | some digits =>
    if digitLimit < digits.length then .error (.tooLong digits.length)
    else if digits.isEmpty || !(body.dropWhile isPart).isEmpty then .error .malformed
    else
      let n : Int := Scientific.digitsValue digits
      .ok (if negative then -n else n)

end Spelling

end StructuralTypes
