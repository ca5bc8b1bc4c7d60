/-! # Numerals

Whole numbers in a radix, and decimal numbers with a fraction or an exponent. A decimal number
is finite in double precision when it lies below the point from which numbers round to infinity.
-/

namespace SpnegoRealm.Text.Numeral

/-- The value of a digit in radixes up to sixteen. -/
def digit? (radix : Nat) (c : Char) : Option Nat :=
  let value :=
    if c.isDigit then c.toNat - '0'.toNat
    else if 'a' ≤ c ∧ c ≤ 'f' then c.toNat - 'a'.toNat + 10
    else if 'A' ≤ c ∧ c ≤ 'F' then c.toNat - 'A'.toNat + 10
    else radix
  if value < radix then some value else none

/-- The number that digits in a radix write; there has to be a digit. -/
def whole? (radix : Nat) : List Char → Option Nat
  | [] => none
  | digits => digits.foldlM (fun value c => (digit? radix c).map (value * radix + ·)) 0

/-- The radix that a numeral names, and the digits after it. -/
def radixAndDigits : List Char → Nat × List Char
  | '0' :: 'x' :: digits => (16, digits)
  | '0' :: 'o' :: digits => (8, digits)
  | '0' :: 'b' :: digits => (2, digits)
  | digits => (10, digits)

/-- A numeral without its plus sign. -/
def unsigned : List Char → List Char
  | '+' :: rest => rest
  | characters => characters

/-- A decimal number: a whole number written with some digits, times a power of ten. -/
structure Decimal where
  value : Nat
  digits : Nat
  exponent : Int

namespace Decimal

/-- Read the exponent of a decimal number, if one follows. -/
def exponent? : List Char → Option Int
  | [] => some 0
  | mark :: rest =>
    if mark = 'e' ∨ mark = 'E' then
      match rest with
      | '-' :: digits => (whole? 10 digits).map fun value => -(value : Int)
      | digits => (whole? 10 (unsigned digits)).map fun value => (value : Int)
    else
      none

/-- Read a decimal number without a sign. At least one digit has to stand before or after the
point. -/
def ofChars? (characters : List Char) : Option Decimal := do
  let before := characters.takeWhile Char.isDigit
  let rest := characters.dropWhile Char.isDigit
  let (after, rest) :=
    match rest with
    | '.' :: fraction => (fraction.takeWhile Char.isDigit, fraction.dropWhile Char.isDigit)
    | _ => ([], rest)
  let value ← whole? 10 (before ++ after)
  let exponent ← exponent? rest
  return ⟨value, before.length + after.length, exponent - after.length⟩

/-- The number from which on numbers round to infinity. -/
def infinityBound : Nat := Nat.pow 2 1024 - Nat.pow 2 970

/-- Whether a decimal number is finite in double precision. -/
def isFinite (decimal : Decimal) : Bool :=
  match decimal.exponent with
  | .ofNat power =>
    decimal.value == 0 || (power ≤ 400 && decimal.value * Nat.pow 10 power < infinityBound)
  | .negSucc power =>
    decimal.digits ≤ power || decimal.value < infinityBound * Nat.pow 10 (power + 1)

end Decimal

/-- A numeral without its sign. -/
def withoutSign : List Char → List Char
  | '-' :: rest => rest
  | characters => unsigned characters

/-- Whether a text is a decimal number, with or without a sign. -/
def isDecimal (characters : List Char) : Bool :=
  (Decimal.ofChars? (withoutSign characters)).isSome

end SpnegoRealm.Text.Numeral
