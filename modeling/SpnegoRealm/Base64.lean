import SpnegoRealm.Text.Utf8

/-! # Base 64

The standard alphabet with canonical padding: every byte string has exactly one written form,
and reading refuses every other text. A refusal names the first thing found wrong, reading the
quads from the left and the last quad after all others.
-/

namespace SpnegoRealm.Base64

/-- The symbol for six bits. -/
def symbol (sextet : Nat) : Char :=
  if sextet < 26 then Char.ofNat (0x41 + sextet)
  else if sextet < 52 then Char.ofNat (0x61 + (sextet - 26))
  else if sextet < 62 then Char.ofNat (0x30 + (sextet - 52))
  else if sextet = 62 then '+'
  else '/'

/-- The six bits that a symbol stands for. -/
def sextet? (byte : UInt8) : Option Nat :=
  let code := byte.toNat
  if 0x41 ≤ code ∧ code ≤ 0x5A then some (code - 0x41)
  else if 0x61 ≤ code ∧ code ≤ 0x7A then some (code - 0x61 + 26)
  else if 0x30 ≤ code ∧ code ≤ 0x39 then some (code - 0x30 + 52)
  else if code = 0x2B then some 62
  else if code = 0x2F then some 63
  else none

/-- The byte of the padding sign. -/
def pad : UInt8 := 0x3D

/-- Write bytes, three to a quad of symbols, the last quad padded. -/
def encodeChars : Bytes → List Char
  | [] => []
  | [a] => [symbol (a.toNat / 4), symbol (a.toNat % 4 * 16), '=', '=']
  | [a, b] =>
    [symbol (a.toNat / 4), symbol (a.toNat % 4 * 16 + b.toNat / 16),
      symbol (b.toNat % 16 * 4), '=']
  | a :: b :: c :: rest =>
    symbol (a.toNat / 4) :: symbol (a.toNat % 4 * 16 + b.toNat / 16) ::
      symbol (b.toNat % 16 * 4 + c.toNat / 64) :: symbol (c.toNat % 64) :: encodeChars rest

/-- Write bytes as text. -/
def encode (bytes : Bytes) : String :=
  String.ofList (encodeChars bytes)

/-- What is wrong with a text that is not base 64. Offsets count bytes. -/
inductive Error where
  | invalidSymbol (byte : UInt8) (offset : Nat)
  | invalidLength (length : Nat)
  | invalidLastSymbol (byte : UInt8) (offset : Nat)
  | invalidPadding
  deriving DecidableEq, Repr

/-- The wording of a refusal. -/
def Error.message : Error → String
  | .invalidSymbol byte offset => s!"Invalid symbol {byte.toNat}, offset {offset}."
  | .invalidLength length => s!"Invalid input length: {length}"
  | .invalidLastSymbol byte offset => s!"Invalid last symbol {byte.toNat}, offset {offset}."
  | .invalidPadding => "Invalid padding"

/-- The six bits of the symbol at an offset. -/
def sextetAt (offset : Nat) (byte : UInt8) : Except Error Nat :=
  match sextet? byte with
  | some sextet => .ok sextet
  | none => .error (.invalidSymbol byte offset)

/-- The byte with this value. -/
def byteOf (value : Nat) : UInt8 := UInt8.ofNat value

/-- The symbols of the last quad up to its padding, each with its six bits, and the number of
padding signs. Padding may not start before the third place and nothing may follow it. -/
def tailSymbols (offset : Nat) : Nat → List UInt8 → Except Error (List (UInt8 × Nat) × Nat)
  | _, [] => .ok ([], 0)
  | place, byte :: rest =>
    if byte = pad then
      if place < 2 then
        .error (.invalidSymbol byte (offset + place))
      else if rest.all (· = pad) then
        .ok ([], rest.length + 1)
      else
        .error (.invalidSymbol pad (offset + place))
    else do
      let sextet ← sextetAt (offset + place) byte
      let (symbols, padding) ← tailSymbols offset (place + 1) rest
      return ((byte, sextet) :: symbols, padding)

/-- Read the last quad, of at most four symbols. -/
def decodeTail (offset : Nat) (tail : List UInt8) : Except Error Bytes := do
  let (symbols, padding) ← tailSymbols offset 0 tail
  match symbols with
  | [] => if offset = 0 ∧ tail = [] then return [] else throw (.invalidLength offset)
  | [_] => throw (.invalidLength (offset + 1))
  | [(_, a), (last, b)] =>
    if padding ≠ 2 then throw .invalidPadding
    else if b % 16 ≠ 0 then throw (.invalidLastSymbol last (offset + 1))
    else return [byteOf (a * 4 + b / 16)]
  | [(_, a), (_, b), (last, c)] =>
    if padding ≠ 1 then throw .invalidPadding
    else if c % 4 ≠ 0 then throw (.invalidLastSymbol last (offset + 2))
    else return [byteOf (a * 4 + b / 16), byteOf (b % 16 * 16 + c / 4)]
  | (_, a) :: (_, b) :: (_, c) :: (_, d) :: _ =>
    return [byteOf (a * 4 + b / 16), byteOf (b % 16 * 16 + c / 4), byteOf (c % 4 * 64 + d)]

/-- Read quads from the left; the last one is read by `decodeTail`. -/
def decodeFrom (offset : Nat) : List UInt8 → Except Error Bytes
  | first :: second :: third :: fourth :: fifth :: rest => do
    let a ← sextetAt offset first
    let b ← sextetAt (offset + 1) second
    let c ← sextetAt (offset + 2) third
    let d ← sextetAt (offset + 3) fourth
    let decoded ← decodeFrom (offset + 4) (fifth :: rest)
    return byteOf (a * 4 + b / 16) :: byteOf (b % 16 * 16 + c / 4) ::
      byteOf (c % 4 * 64 + d) :: decoded
  | tail => decodeTail offset tail

/-- Read base 64. One symbol too many that is no symbol at all is reported before all else. -/
def decode (symbols : List UInt8) : Except Error Bytes :=
  match symbols.getLast? with
  | some last =>
    if symbols.length % 4 = 1 ∧ last ≠ pad ∧ sextet? last = none then
      .error (.invalidSymbol last (symbols.length - 1))
    else
      decodeFrom 0 symbols
  | none => .ok []

end SpnegoRealm.Base64
