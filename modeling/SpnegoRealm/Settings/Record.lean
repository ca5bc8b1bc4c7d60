/-! # Reading records

Formats differ in which values they take for a truth value, a number or a text, and in what
stands for a record. A format is the collection of these decisions; a record is then read field
by field in the same way from every format. A field that is absent takes its default; a field
that nobody knows is refused.
-/

namespace SpnegoRealm.Settings

/-- How the values of a format are read. -/
structure Format (α : Type) where
  isNull : α → Bool
  bool? : α → Option Bool
  /-- Numbers from zero up to the greatest that fits in sixty-four bits. -/
  natural? : α → Option Nat
  text? : α → Option String
  /-- The fields of a record whose fields have the given names, in this order. -/
  fields? : List String → α → Option (List (String × α))

namespace Format

variable {α β : Type}

/-- The first natural number that an option cannot hold. -/
def naturalLimit : Nat := UInt64.size

/-- The fields of a record, if it has no field under another name. -/
def record? (format : Format α) (names : List String) (value : α) :
    Option (List (String × α)) := do
  let fields ← format.fields? names value
  if fields.all (names.contains ·.1) then some fields else none

/-- Read a field, or take its default. -/
def field? (fields : List (String × α)) (name : String) (read : α → Option β) (default : β) :
    Option β :=
  match fields.lookup name with
  | some value => read value
  | none => some default

/-- Read a value that may be null. -/
def optional? (format : Format α) (read : α → Option β) (value : α) : Option (Option β) :=
  if format.isNull value then some none else (read value).map some

end Format

end SpnegoRealm.Settings
