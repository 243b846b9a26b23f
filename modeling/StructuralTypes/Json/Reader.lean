import StructuralTypes.Value

/-!
# Reading JSON

Reads one JSON value from a text. Not-a-number and the infinities are accepted, a number with a
fraction or an exponent is a floating-point number, and the last of several equal keys counts.
Flaws are reported with the place they were noticed at.
-/

namespace StructuralTypes.Json

inductive Problem where
  | expectingValue
  | extraData
  | expectingPropertyName
  | expectingColon
  | expectingComma
  | unterminatedText
  | controlCharacter
  | badEscape
  | badUnicodeEscape
  | byteOrderMark
deriving DecidableEq

namespace Problem

def text : Problem → String
  | .expectingValue => "Expecting value"
  | .extraData => "Extra data"
  | .expectingPropertyName => "Expecting property name enclosed in double quotes"
  | .expectingColon => "Expecting ':' delimiter"
  | .expectingComma => "Expecting ',' delimiter"
  | .unterminatedText => "Unterminated string starting at"
  | .controlCharacter => "Invalid control character at"
  | .badEscape => "Invalid \\escape"
  | .badUnicodeEscape => "Invalid \\uXXXX escape"
  | .byteOrderMark => "Unexpected UTF-8 BOM (decode using utf-8-sig)"

end Problem

/-- Why a text is no JSON value: a problem at a place, or an integer with too many digits. -/
inductive Flaw where
  | noticed (problem : Problem) (position : Nat)
  | tooManyDigits (count : Nat)
deriving DecidableEq

/-- Words a flaw, with lines and columns counted from one. -/
def Flaw.text (document : String) : Flaw → String
  | .noticed problem position =>
    let before := document.toList.take position
    let line := before.count '\n' + 1
    let column := (before.reverse.takeWhile (· ≠ '\n')).length + 1
    problem.text ++ ": line " ++ toString line ++ " column " ++ toString column ++ " (char "
      ++ toString position ++ ")"
  | .tooManyDigits count => Spelling.tooLongText count

/-- A place in the document and what follows it. -/
structure Cursor where
  position : Nat
  rest : List Char

def fail {α : Type} (problem : Problem) (position : Nat) : Except Flaw α :=
  .error (.noticed problem position)

def isBlank (c : Char) : Bool := c = ' ' || c = '\t' || c = '\n' || c = '\r'

namespace Cursor

def advance (c : Cursor) (n : Nat) : Cursor := ⟨c.position + n, c.rest.drop n⟩

def skipBlanks (c : Cursor) : Cursor := c.advance (c.rest.takeWhile isBlank).length

/-- Skips a word if the rest starts with it. -/
def skip? (c : Cursor) (word : String) : Option Cursor :=
  if word.toList.isPrefixOf c.rest then some (c.advance word.length) else none

end Cursor

def hexDigit? (c : Char) : Option Nat :=
  if '0' ≤ c ∧ c ≤ '9' then some (c.toNat - '0'.toNat)
  else if 'a' ≤ c ∧ c ≤ 'f' then some (c.toNat - 'a'.toNat + 10)
  else if 'A' ≤ c ∧ c ≤ 'F' then some (c.toNat - 'A'.toNat + 10)
  else none

def hexValue? (a b c d : Char) : Option Nat := do
  return (((← hexDigit? a) * 16 + (← hexDigit? b)) * 16 + (← hexDigit? c)) * 16 + (← hexDigit? d)

def isHighSurrogate (n : Nat) : Bool := 0xd800 ≤ n && n ≤ 0xdbff

def isLowSurrogate (n : Nat) : Bool := 0xdc00 ≤ n && n ≤ 0xdfff

def joinSurrogates (high low : Nat) : Nat := 0x10000 + (high - 0xd800) * 0x400 + (low - 0xdc00)

/-- The character that a one-letter escape stands for. -/
def escaped? : Char → Option Char
  | '"' => some '"'
  | '\\' => some '\\'
  | '/' => some '/'
  | 'b' => some '\x08'
  | 'f' => some '\x0c'
  | 'n' => some '\n'
  | 'r' => some '\r'
  | 't' => some '\t'
  | _ => none

/-- The code point that an escape in hexadecimal at `position` stands for, given what follows the
letter, and the number of characters it takes. Something must follow the escape, and two escaped
surrogates that make up a pair are joined. -/
def unicodeEscape (position : Nat) : List Char → Except Flaw (Nat × Nat)
  | a :: b :: c :: d :: e :: rest =>
    match hexValue? a b c d with
    | none => fail .badUnicodeEscape (position + 1)
    | some high =>
      match isHighSurrogate high, e :: rest with
      | true, '\\' :: 'u' :: a' :: b' :: c' :: d' :: _ :: _ =>
        match hexValue? a' b' c' d' with
        | none => fail .badUnicodeEscape (position + 7)
        | some low =>
          if isLowSurrogate low then .ok (joinSurrogates high low, 12) else .ok (high, 6)
      | _, _ => .ok (high, 6)
  | _ => fail .badUnicodeEscape (position + 1)

/-- The next code point of a text whose opening quote stood at `start`, and the number of
characters it takes. -/
def nextPoint (start position : Nat) : List Char → Except Flaw (Nat × Nat)
  | [] | ['\\'] => fail .unterminatedText start
  | '\\' :: 'u' :: rest => unicodeEscape position rest
  | '\\' :: c :: _ =>
    match escaped? c with
    | none => fail .badEscape position
    | some e => .ok (e.toNat, 2)
  | c :: _ => if c.toNat ≤ 0x1f then fail .controlCharacter position else .ok (c.toNat, 1)

/-- Reads a text up to its closing quote; `reversed` holds what was read so far. Fuel for one step
per character is enough. -/
def readText (start : Nat) : Nat → Text.Points → Cursor → Except Flaw (Text.Points × Cursor)
  | 0, _, _ => fail .unterminatedText start
  | fuel + 1, reversed, c =>
    match c.rest with
    | '"' :: _ => .ok (reversed.reverse, c.advance 1)
    | rest => do
      let (point, width) ← nextPoint start c.position rest
      readText start fuel (point :: reversed) (c.advance width)

/-- Reads the text whose opening quote is at the cursor. -/
def readQuoted (c : Cursor) : Except Flaw (Text.Points × Cursor) :=
  readText c.position c.rest.length [] (c.advance 1)

/-- The digits of a whole number at the front: a zero alone, or digits that start with none. -/
def wholeDigits : List Char → List Char
  | '0' :: _ => ['0']
  | cs => cs.takeWhile Char.isDigit

/-- The fraction at the front, with its point, if a digit follows the point. -/
def fractionPart : List Char → List Char
  | '.' :: rest =>
    let digits := rest.takeWhile Char.isDigit
    if digits.isEmpty then [] else '.' :: digits
  | _ => []

/-- The exponent at the front, with its mark and sign, if it has a digit. -/
def exponentPart : List Char → List Char
  | mark :: rest =>
    if mark = 'e' || mark = 'E' then
      let sign := match rest with
        | '+' :: _ => ['+']
        | '-' :: _ => ['-']
        | _ => []
      let digits := (rest.drop sign.length).takeWhile Char.isDigit
      if digits.isEmpty then [] else mark :: sign ++ digits
    else []
  | [] => []

def readNumber (c : Cursor) : Except Flaw (Value × Cursor) := do
  let sign := match c.rest with
    | '-' :: _ => ['-']
    | _ => []
  let whole := wholeDigits (c.rest.drop sign.length)
  if whole.isEmpty then fail .expectingValue c.position
  let fraction := fractionPart (c.rest.drop (sign.length + whole.length))
  let exponent := exponentPart (c.rest.drop (sign.length + whole.length + fraction.length))
  let after := c.advance (sign.length + whole.length + fraction.length + exponent.length)
  if fraction.isEmpty && exponent.isEmpty then
    if Spelling.digitLimit < whole.length then .error (.tooManyDigits whole.length)
    let magnitude : Int := Scientific.digitsValue whole
    return (.integer (if sign.isEmpty then magnitude else -magnitude), after)
  else
    match Scientific.read? (sign ++ whole ++ fraction ++ exponent) with
    | some s => return (.double (.ofScientific s), after)
    | none => fail .expectingValue c.position

/-- The values that are written as words. -/
def words : List (String × Value) :=
  [("null", .null), ("true", .boolean true), ("false", .boolean false), ("NaN", .double .nan),
    ("Infinity", .double (.infinite false)), ("-Infinity", .double (.infinite true))]

mutual

/-- Reads a value. Each step of the recursion uses up fuel; twice as much fuel as there are
characters is enough. -/
def readValue : Nat → Cursor → Except Flaw (Value × Cursor)
  | 0, c => fail .expectingValue c.position
  | fuel + 1, c =>
    match c.rest with
    | '"' :: _ => do
      let (points, after) ← readQuoted c
      return (.text points, after)
    | '[' :: _ =>
      let inside := (c.advance 1).skipBlanks
      match inside.rest with
      | ']' :: _ => .ok (.array [], inside.advance 1)
      | _ => readItems fuel [] inside
    | '\x7b' :: _ =>
      let inside := (c.advance 1).skipBlanks
      match inside.rest with
      | '\x7d' :: _ => .ok (.mapping [], inside.advance 1)
      | _ => readMembers fuel [] inside
    | _ =>
      match words.findSome? fun (word, v) => (c.skip? word).map (v, ·) with
      | some found => .ok found
      | none => readNumber c

/-- Reads the items of an array from the next one on. -/
def readItems : Nat → List Value → Cursor → Except Flaw (Value × Cursor)
  | 0, _, c => fail .expectingValue c.position
  | fuel + 1, items, c => do
    let (item, after) ← readValue fuel c
    let next := after.skipBlanks
    match next.rest with
    | ']' :: _ => return (.array (items ++ [item]), next.advance 1)
    | ',' :: _ => readItems fuel (items ++ [item]) (next.advance 1).skipBlanks
    | _ => fail .expectingComma next.position

/-- Reads the members of an object from the next one on. -/
def readMembers : Nat → List (Value × Value) → Cursor → Except Flaw (Value × Cursor)
  | 0, _, c => fail .expectingValue c.position
  | fuel + 1, members, c =>
    match c.rest with
    | '"' :: _ => do
      let (key, afterKey) ← readQuoted c
      let colon := afterKey.skipBlanks
      match colon.rest with
      | ':' :: _ => do
        let (held, after) ← readValue fuel (colon.advance 1).skipBlanks
        let known := Value.insertEntry members (.text key) held
        let next := after.skipBlanks
        match next.rest with
        | '\x7d' :: _ => return (.mapping known, next.advance 1)
        | ',' :: _ => readMembers fuel known (next.advance 1).skipBlanks
        | _ => fail .expectingComma next.position
      | _ => fail .expectingColon colon.position
    | _ => fail .expectingPropertyName c.position

end

/-- Reads a document that holds one value and blanks around it. -/
def read (document : String) : Except Flaw Value := do
  let chars := document.toList
  if chars.head? = some '\ufeff' then fail .byteOrderMark 0
  let (v, after) ← readValue (2 * chars.length + 2) (Cursor.skipBlanks ⟨0, chars⟩)
  let final := after.skipBlanks
  if final.rest.isEmpty then return v else fail .extraData final.position

end StructuralTypes.Json
