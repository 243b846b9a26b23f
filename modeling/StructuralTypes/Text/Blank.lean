/-!
# Blank characters

The characters of all scripts that only keep other characters apart, as ranges of code points.
-/

namespace StructuralTypes.Text

/-- The ranges of blank characters, in ascending order. -/
def blankRanges : List (Nat × Nat) :=
  [(0x9, 0xd), (0x1c, 0x20), (0x85, 0x85), (0xa0, 0xa0), (0x1680, 0x1680), (0x2000, 0x200a),
   (0x2028, 0x2029), (0x202f, 0x202f), (0x205f, 0x205f), (0x3000, 0x3000)]

def isBlank (c : Char) : Bool :=
  blankRanges.any fun (low, high) => low ≤ c.toNat && c.toNat ≤ high

/-- The blanks that a typewriter has: the space, and tabs and line ends of all kinds. -/
def isPlainBlank (c : Char) : Bool := c = ' ' || (9 ≤ c.toNat && c.toNat ≤ 13)

/-- Takes characters of a kind off both ends. -/
def trim (p : Char → Bool) (chars : List Char) : List Char :=
  ((chars.dropWhile p).reverse.dropWhile p).reverse

end StructuralTypes.Text
