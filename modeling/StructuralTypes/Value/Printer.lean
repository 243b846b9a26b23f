import StructuralTypes.Value
import StructuralTypes.Number.Shortest

/-!
# Values as text

How a plain value is shown where a type was expected.
-/

namespace StructuralTypes.Value

def octetText (quote octet : Nat) : String :=
  if octet < 0x7f then Text.escapePoint quote octet else "\\x" ++ Text.hex 2 octet

def bytesText (octets : List Nat) : String :=
  let quote := if octets.contains Text.singleQuote && !octets.contains Text.doubleQuote
    then Text.doubleQuote else Text.singleQuote
  "b" ++ Text.ofPoints [quote] ++ String.join (octets.map (octetText quote)) ++ Text.ofPoints [quote]

/-- A complex number: only the imaginary part if the real one is a plain zero. -/
def complexText (re im : Double) : String :=
  if re = .finite 0 then im.bareText ++ "j"
  else
    let imaginary := im.bareText
    "(" ++ re.bareText ++ (if imaginary.startsWith "-" then "" else "+") ++ imaginary ++ "j)"

def ratioText (q : Rat) : String :=
  "Fraction(" ++ toString q.num ++ ", " ++ toString q.den ++ ")"

mutual

def print : Value → String
  | .null => "None"
  | .boolean b => if b then "True" else "False"
  | .integer n => toString n
  | .double x => x.text
  | .ratio q => ratioText q
  | .decimal x => "Decimal('" ++ x.text ++ "')"
  | .complex re im => complexText re im
  | .text points => Text.quotePoints points
  | .array items => "[" ++ ", ".intercalate (printAll items) ++ "]"
  | .tuple [item] => "(" ++ print item ++ ",)"
  | .tuple items => "(" ++ ", ".intercalate (printAll items) ++ ")"
  | .mapping entries => "\x7b" ++ ", ".intercalate (printEntries entries) ++ "\x7d"
  | .mappingView entries =>
    "mappingproxy(\x7b" ++ ", ".intercalate (printEntries entries) ++ "\x7d)"
  | .set [] => "set()"
  | .set items => "\x7b" ++ ", ".intercalate (printAll items) ++ "\x7d"
  | .bytes octets => bytesText octets
  | .featureless => "<Opaque>"

def printAll : List Value → List String
  | [] => []
  | v :: vs => print v :: printAll vs

def printEntries : List (Value × Value) → List String
  | [] => []
  | (key, held) :: rest => (print key ++ ": " ++ print held) :: printEntries rest

end

end StructuralTypes.Value
