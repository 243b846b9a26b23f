import StructuralTypes.Text.Printable

/-!
# Quoted texts

A text is quoted with single quotes, or with double quotes if it holds a single quote and no
double one. The backslash and the quote in use are escaped, and so is what cannot be printed.
-/

namespace StructuralTypes.Text

/-- A text as its code points, lone surrogates included. -/
abbrev Points := List Nat

def points (s : String) : Points := s.toList.map Char.toNat

def ofPoints (ps : Points) : String := String.ofList (ps.map Char.ofNat)

/-- The last `width` hexadecimal digits of `n`, in lower case. -/
def hex (width n : Nat) : String :=
  let digits := Nat.toDigits 16 n
  String.ofList (List.replicate (width - digits.length) '0' ++ digits)

/-- How one code point stands between quotes of the given kind. -/
def escapePoint (quote point : Nat) : String :=
  if point = quote ∨ point = '\\'.toNat then "\\" ++ ofPoints [point]
  else if point = '\n'.toNat then "\\n"
  else if point = '\r'.toNat then "\\r"
  else if point = '\t'.toNat then "\\t"
  else if isPrintable point then ofPoints [point]
  else if point ≤ 0xff then "\\x" ++ hex 2 point
  else if point ≤ 0xffff then "\\u" ++ hex 4 point
  else "\\U" ++ hex 8 point

def singleQuote : Nat := 39

def doubleQuote : Nat := 34

def quotePoints (ps : Points) : String :=
  let quote := if ps.contains singleQuote && !ps.contains doubleQuote then doubleQuote
    else singleQuote
  ofPoints [quote] ++ String.join (ps.map (escapePoint quote)) ++ ofPoints [quote]

def quote (s : String) : String := quotePoints (points s)

end StructuralTypes.Text
