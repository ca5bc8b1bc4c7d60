/-! # Pretty JSON

Texts, lists and objects, one item or field a line, two blanks a level. An empty list or object
stands on one line.
-/

namespace SpnegoRealm

/-- A JSON value of the kinds that the operator's program prints. -/
inductive Json where
  | text (value : String)
  | list (items : List Json)
  | object (fields : List (String × Json))
  deriving Inhabited

namespace Json

/-- The lowercase hexadecimal digit with a value. -/
def hexDigit (value : Nat) : Char :=
  if value < 10 then Char.ofNat (0x30 + value) else Char.ofNat (0x61 + (value - 10))

/-- A character as it stands between the quotes of a text. -/
def escapeChar (c : Char) : List Char :=
  if c = '"' then ['\\', '"']
  else if c = '\\' then ['\\', '\\']
  else if c = '\n' then ['\\', 'n']
  else if c = '\r' then ['\\', 'r']
  else if c = '\t' then ['\\', 't']
  else if c = '\x08' then ['\\', 'b']
  else if c = '\x0c' then ['\\', 'f']
  else if c.toNat < 0x20 then
    ['\\', 'u', '0', '0', hexDigit (c.toNat / 16), hexDigit (c.toNat % 16)]
  else [c]

/-- A text in quotes. -/
def quote (text : String) : String :=
  "\"" ++ String.ofList (text.toList.flatMap escapeChar) ++ "\""

/-- The start of a line at a level. -/
def indent (level : Nat) : String := String.ofList (List.replicate (2 * level) ' ')

mutual

/-- A value whose first line is already indented to a level. -/
def pretty (level : Nat) : Json → String
  | text value => quote value
  | list [] => "[]"
  | list (item :: rest) =>
    "[\n" ++ prettyItems (level + 1) (item :: rest) ++ "\n" ++ indent level ++ "]"
  | object [] => "\x7b\x7d"
  | object (field :: rest) =>
    "\x7b\n" ++ prettyFields (level + 1) (field :: rest) ++ "\n" ++ indent level ++ "\x7d"

/-- The lines of some items. -/
def prettyItems (level : Nat) : List Json → String
  | [] => ""
  | [item] => indent level ++ pretty level item
  | item :: rest => indent level ++ pretty level item ++ ",\n" ++ prettyItems level rest

/-- The lines of some fields. -/
def prettyFields (level : Nat) : List (String × Json) → String
  | [] => ""
  | [field] => indent level ++ prettyField level field
  | field :: rest => indent level ++ prettyField level field ++ ",\n" ++ prettyFields level rest

/-- A field whose line is already indented. -/
def prettyField (level : Nat) : String × Json → String
  | (name, value) => quote name ++ ": " ++ pretty level value

end

end Json

end SpnegoRealm
