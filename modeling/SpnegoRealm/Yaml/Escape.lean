import SpnegoRealm.Yaml.Token

/-! # Escapes

In a double-quoted scalar a backslash writes a character by a letter or by its number. In a tag
a percent sign writes a byte.
-/

namespace SpnegoRealm.Yaml

/-- The character that a one-letter escape stands for. -/
def escapedChar? (c : Char) : Option Char :=
  [('0', '\x00'), ('a', '\x07'), ('b', '\x08'), ('t', '\t'), ('\t', '\t'), ('n', '\n'),
    ('v', '\x0b'), ('f', '\x0c'), ('r', '\r'), ('e', '\x1b'), (' ', ' '), ('"', '"'),
    ('/', '/'), ('\\', '\\'), ('N', '\u0085'), ('_', '\u00a0'), ('L', '\u2028'),
    ('P', '\u2029')].lookup c

/-- The value of a hexadecimal digit. -/
def hexDigit? (c : Char) : Option Nat :=
  if c.isDigit then some (c.toNat - 0x30)
  else if 'a' ≤ c ∧ c ≤ 'f' then some (c.toNat - 0x61 + 10)
  else if 'A' ≤ c ∧ c ≤ 'F' then some (c.toNat - 0x41 + 10)
  else none

/-- The number that hexadecimal digits write. -/
def hexValue? (digits : List Char) : Option Nat :=
  digits.foldlM (fun value c => (hexDigit? c).map (value * 16 + ·)) 0

/-- The character with a code point, if it is one. -/
def charOfCode? (code : Nat) : Option Char :=
  if code.isValidChar then some (Char.ofNat code) else none

/-- The number of digits in a numeric escape. -/
def escapeWidth? (c : Char) : Option Nat :=
  [('x', 2), ('u', 4), ('U', 8)].lookup c

/-- Read an escape after its backslash: the character that it stands for, and the number of
characters that it takes. -/
def escape? : List Char → Option (Char × Nat)
  | [] => none
  | c :: rest =>
    match escapedChar? c, escapeWidth? c with
    | some escaped, _ => some (escaped, 1)
    | none, some width => do
      let digits := rest.take width
      let escaped ← (hexValue? digits).bind charOfCode?
      if digits.length = width then some (escaped, width + 1) else none
    | none, none => none

/-- Read the byte that a percent sign and two digits write. -/
def percentByte? : List Char → Option (UInt8 × List Char)
  | '%' :: high :: low :: rest =>
    (hexValue? [high, low]).map fun value => (UInt8.ofNat value, rest)
  | _ => none

/-- The number of bytes that a first byte announces for its character. -/
def announcedBytes? (first : UInt8) : Option Nat :=
  if first < 0x80 then some 1
  else if 0xC0 ≤ first && first < 0xE0 then some 2
  else if 0xE0 ≤ first && first < 0xF0 then some 3
  else if 0xF0 ≤ first && first < 0xF8 then some 4
  else none

/-- Read some further bytes of a character. -/
def continuationBytes? : Nat → List Char → Option (Bytes × List Char)
  | 0, text => some ([], text)
  | count + 1, text => do
    let (byte, text) ← percentByte? text
    if Text.Utf8.isContinuation byte then
      let (others, text) ← continuationBytes? count text
      return (byte :: others, text)
    else
      none

/-- Read the bytes that percent signs write for one character. The edition 1.2 puts them side by
side to make a code point. -/
def percentBytes? (edition : Edition) (text : List Char) : Option (Bytes × List Char) := do
  let (first, text) ← percentByte? text
  let count ← announcedBytes? first
  let (others, text) ← continuationBytes? (count - 1) text
  let bytes := first :: others
  match edition with
  | .v11 => return (bytes, text)
  | .v12 =>
    let escaped ← charOfCode? (bytes.foldl (fun code byte => code * 256 + byte.toNat) 0)
    return (Text.utf8 escaped.toString, text)

/-- Read the characters of a class, and those written by percent signs if these are in it. Not
more steps are taken than the text has characters. -/
def uriBytes? (edition : Edition) (inClass : Char → Bool) :
    Nat → List Char → Option (Bytes × List Char)
  | _, [] => some ([], [])
  | 0, text => some ([], text)
  | steps + 1, c :: rest =>
    if !inClass c then some ([], c :: rest)
    else do
      let (bytes, text) ←
        if c = '%' then percentBytes? edition (c :: rest)
        else some (Text.utf8 c.toString, rest)
      let (others, text) ← uriBytes? edition inClass steps text
      return (bytes ++ others, text)

/-- Read the characters of a class from a place on. -/
def Cursor.uri? (cursor : Cursor) (inClass : Char → Bool) : Option (Bytes × Cursor) :=
  (uriBytes? cursor.edition inClass cursor.rest.length cursor.rest).map fun (bytes, rest) =>
    (bytes, cursor.skip (cursor.rest.length - rest.length))

end SpnegoRealm.Yaml
