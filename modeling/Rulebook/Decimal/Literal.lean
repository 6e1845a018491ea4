import Rulebook.Decimal.Rounding

/-!
# Decimal literals

A plain literal is an optional sign and digits with at most one point; underscores may follow the
first digit. Digits are taken while the mantissa fits and fewer than 29 places are filled. The
first digit that finds no room rounds what was read, half upward; only digits and underscores may
follow it, and they count for nothing. A literal with an exponent moves the point of a plain one.
-/
namespace Rulebook.Decimal

/-- The value of a decimal digit. -/
def digitValue? (character : Char) : Option Nat :=
  if '0' ≤ character ∧ character ≤ '9' then some (character.toNat - '0'.toNat) else none

/-- What has been read so far: the digits as one count, how many stand behind the point, whether
the point was seen, and whether any digit was. -/
structure Reading where
  coefficient : Nat := 0
  scale : Nat := 0
  pointed : Bool := false
  started : Bool := false

/-- Adds one in the last place; a mantissa that outgrows its room gives up its last place. -/
def Reading.roundUp (reading : Reading) : Option (Nat × Nat) :=
  if reading.coefficient + 1 < 0x1_00000000_00000000_00000000 then
    some (reading.coefficient + 1, reading.scale)
  else if reading.scale = 0 then none
  -- Only the largest coefficient comes here; its last digit is rounded away.
  else some ((reading.coefficient + 5) / 10, reading.scale - 1)

/-- Ends the reading at the characters for which there is no room: the first digit among them
decides which way the number is rounded. -/
def Reading.roundOn (reading : Reading) (characters : List Char) : Option (Nat × Nat) := do
  let digits ← (characters.filter (· != '_')).mapM digitValue?
  if digits.head?.any (5 ≤ ·) then reading.roundUp else some (reading.coefficient, reading.scale)

/-- Takes one more digit. -/
def Reading.push (reading : Reading) (digit : Nat) : Reading :=
  { coefficient := reading.coefficient * 10 + digit
    scale := if reading.pointed then reading.scale + 1 else reading.scale
    pointed := reading.pointed
    started := true }

/-- Reads the unsigned part of a literal: the digits as one count and the number of places. -/
def readUnsigned : List Char → Reading → Option (Nat × Nat)
  | [], reading => if reading.started then some (reading.coefficient, reading.scale) else none
  | character :: rest, reading =>
    -- All places are filled: what follows only decides which way they are rounded.
    if reading.pointed ∧ 28 ≤ reading.scale then reading.roundOn (character :: rest)
    else match digitValue? character with
    | some digit =>
      let next := reading.push digit
      if next.coefficient < 0x1_00000000_00000000_00000000 then readUnsigned rest next
      -- Behind the point a digit without room rounds, before it the number is too large.
      else if reading.pointed then reading.roundOn (character :: rest)
      else none
    | none =>
      if character = '.' then
        if reading.pointed then none else readUnsigned rest { reading with pointed := true }
      else if character = '_' then
        if reading.started then readUnsigned rest reading else none
      else none

/-- Reads a plain literal, with every place it has room for. -/
def ofPlainChars? : List Char → Option Decimal
  | '-' :: rest => do
    let (coefficient, scale) ← readUnsigned rest {}
    ofParts? (-coefficient) scale
  | '+' :: rest => do
    let (coefficient, scale) ← readUnsigned rest {}
    ofParts? coefficient scale
  | characters => do
    let (coefficient, scale) ← readUnsigned characters {}
    ofParts? coefficient scale

/-- Reads a plain literal such as `-12.50`. -/
def ofPlain? (text : String) : Option Decimal :=
  ofPlainChars? text.toList

/-- Reads one or more digits as a count. -/
def readCount? : List Char → Option Nat
  | [] => none
  | characters => characters.foldl (fun total character => do
      let sum ← total
      let digit ← digitValue? character
      return sum * 10 + digit) (some 0)

/-- Reads the magnitude of an exponent: digits, possibly after a plus, within 32 bits. -/
def readExponent? (characters : List Char) : Option Nat := do
  let digits := match characters with
    | '+' :: rest => rest
    | _ => characters
  let exponent ← readCount? digits
  if exponent < 0x1_00000000 then some exponent else none

/-- Moves the point to the left: only the places grow. -/
def shiftLeft? (number : Decimal) (exponent : Nat) : Option Decimal :=
  ofParts? number.mantissa (number.scale + exponent)

/-- Moves the point to the right: places are used up first, then the mantissa grows; an exponent
that outruns the places is refused above 28. -/
def shiftRight? (number : Decimal) (exponent : Nat) : Option Decimal :=
  if exponent ≤ number.scale then ofParts? number.mantissa (number.scale - exponent)
  else if exponent ≤ 28 then
    ofParts? (number.mantissa * powerOfTen (exponent - number.scale)) 0
  else none

def isExponentMark (character : Char) : Bool :=
  character == 'e' || character == 'E'

/-- Reads a literal with an exponent, which starts at the first exponent mark. -/
def ofScientificChars? (characters : List Char) : Option Decimal := do
  let number ← ofPlainChars? (characters.takeWhile (!isExponentMark ·))
  match (characters.dropWhile (!isExponentMark ·)).drop 1 with
  | '-' :: exponent => shiftLeft? number (← readExponent? exponent)
  | exponent => shiftRight? number (← readExponent? exponent)

/-- Reads a literal, with an exponent if it has a mark of one. -/
def ofLiteralChars? (characters : List Char) : Option Decimal :=
  if characters.any isExponentMark then ofScientificChars? characters
  else ofPlainChars? characters

end Rulebook.Decimal
