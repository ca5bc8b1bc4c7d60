import SpnegoRealm.Settings.Value
import SpnegoRealm.Text.Blank
import SpnegoRealm.Text.Numeral
import SpnegoRealm.Yaml.Escape

/-! # Values written on one line

The value of an environment variable: `true` and `false`, numbers, quoted texts, lists in
brackets and tables in braces. What reads as none of these, or goes on after it, is a text, with
all its blanks.
-/

namespace SpnegoRealm.Settings

namespace Inline

/-- A blank between the parts of a value. -/
def isGap (c : Char) : Bool :=
  c == ' ' || c == '\t' || c == '\n' || c == '\r' || c == '\x0c'

/-- A control character, which cannot stand in a quoted text. A tab can. -/
def isControl (c : Char) : Bool := (c < ' ' && c != '\t') || c == '\x7f'

/-- A character that ends a value without quotes. -/
def isSeparator (c : Char) : Bool :=
  c == ',' || c == '{' || c == '}' || c == '[' || c == ']'

/-- A character of a name without quotes. -/
def isNameChar (c : Char) : Bool := c.isAlphanum || c == '-' || c == '_'

/-- What follows the gap at the start. -/
def afterGap (characters : List Char) : List Char := characters.dropWhile isGap

/-- The character that a one-letter escape stands for. -/
def escapedChar? (c : Char) : Option Char :=
  [('b', '\x08'), ('t', '\t'), ('n', '\n'), ('f', '\x0c'), ('r', '\r'), ('"', '"'),
    ('\\', '\\')].lookup c

/-- Read a quoted text after its first quote. `pending` digits of a numeric escape are still to
be skipped. -/
def quoted (reversed : List Char) (pending : Nat) : List Char → Option (String × List Char)
  | [] => none
  | '\\' :: c :: rest =>
    match escapedChar? c with
    | some escaped => quoted (escaped :: reversed) 0 rest
    | none =>
      let width := if c = 'u' then 4 else if c = 'U' then 8 else 0
      if width = 0 || (rest.take width).length < width then none
      else do
        let code ← Yaml.hexValue? (rest.take width)
        let escaped ← Yaml.charOfCode? code
        quoted (escaped :: reversed) width rest
  | c :: rest =>
    match pending with
    | skipped + 1 => quoted reversed skipped rest
    | 0 =>
      if c = '"' then some (String.ofList reversed.reverse, rest)
      else if isControl c then none
      else quoted (c :: reversed) 0 rest

/-- The value of a word without quotes. -/
def word (characters : List Char) : Value :=
  let trimmed := Text.trimChars Text.isBlank characters
  if trimmed.contains '.' && Text.Numeral.isDecimal trimmed then .real
  else
    match Text.Numeral.whole? 10 (Text.Numeral.withoutSign trimmed) with
    | some amount =>
      if trimmed.head? == some '-' then
        if amount ≤ Nat.pow 2 63 then .integer (-(amount : Int)) else .text (String.ofList trimmed)
      else if amount < UInt64.size then .integer amount
      else .text (String.ofList trimmed)
    | none => .text (String.ofList trimmed)

/-- What follows a word at the start, if it is there. -/
def afterWord? (expected characters : List Char) : Option (List Char) :=
  if characters.take expected.length = expected then some (characters.drop expected.length)
  else none

/-- Read the name of a field. -/
def name? (characters : List Char) : Option (String × List Char) :=
  match characters with
  | '"' :: rest => quoted [] 0 rest
  | _ =>
    match characters.takeWhile isNameChar with
    | [] => none
    | name => some (String.ofList name, characters.dropWhile isNameChar)

mutual

/-- Read a value and the gaps around it. -/
def value? : Nat → List Char → Option (Value × List Char)
  | 0, _ => none
  | fuel + 1, characters => do
    let start := afterGap characters
    let (value, rest) ←
      match afterWord? "true".toList start, afterWord? "false".toList start, start with
      | some rest, _, _ => some (.bool true, rest)
      | none, some rest, _ => some (.bool false, rest)
      | none, none, '{' :: rest =>
        (fields? fuel rest).map fun (fields, rest) => (Value.ofFields fields, rest)
      | none, none, '[' :: rest =>
        (items? fuel rest).map fun (items, rest) => (Value.list items, rest)
      | none, none, '"' :: rest =>
        (quoted [] 0 rest).map fun (text, rest) => (Value.text text, rest)
      | none, none, '\'' :: c :: '\'' :: rest => some (.text c.toString, rest)
      | none, none, '\'' :: _ => none
      | none, none, _ =>
        some (word (start.takeWhile (!isSeparator ·)), start.dropWhile (!isSeparator ·))
    return (value, afterGap rest)

/-- Read the items of a list after its bracket. -/
def items? : Nat → List Char → Option (List Value × List Char)
  | 0, _ => none
  | fuel + 1, characters =>
    match characters with
    | ']' :: rest => some ([], rest)
    | _ => do
      let (item, rest) ← value? fuel characters
      match rest with
      | ',' :: rest =>
        let (others, rest) ← items? fuel rest
        return (item :: others, rest)
      | ']' :: rest => return ([item], rest)
      | _ => none

/-- Read the fields of a table after its brace. -/
def fields? : Nat → List Char → Option (List (String × Value) × List Char)
  | 0, _ => none
  | fuel + 1, characters =>
    match characters with
    | '}' :: rest => some ([], rest)
    | _ => do
      let (name, rest) ← name? (afterGap characters)
      match afterGap rest with
      | '=' :: rest =>
        let (value, rest) ← value? fuel rest
        match rest with
        | ',' :: rest =>
          let (others, rest) ← fields? fuel rest
          return ((name, value) :: others, rest)
        | '}' :: rest => return ([(name, value)], rest)
        | _ => none
      | _ => none

end

/-- The value that a line writes. -/
def read (line : String) : Value :=
  match value? (line.length + 2) line.toList with
  | some (value, []) => value
  | _ => .text line

end Inline

end SpnegoRealm.Settings
