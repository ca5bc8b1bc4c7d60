import SpnegoRealm.Text.Utf8
import SpnegoRealm.Yaml.Edition

/-! # Tokens of a YAML text

The pieces that a YAML text is made of, with the block structure that its indentation implies
made explicit, and the places in the text.
-/

namespace SpnegoRealm.Yaml

/-- How a scalar is written. -/
inductive Style where
  | plain
  | singleQuoted
  | doubleQuoted
  | literal
  | folded
  deriving DecidableEq, Repr

/-- Whether a scalar stands in quotes. -/
def Style.isQuoted (style : Style) : Bool :=
  style == .singleQuoted || style == .doubleQuoted

/-- What is wrong with a YAML text. -/
inductive Error where
  | badCharacter
  | unclosedKey
  | misplacedEntry
  | misplacedKey
  | misplacedValue
  | strayCharacter (c : Char)
  | strayBracket
  | missingBlank
  | tabIndentation
  | badIndentation
  | unclosedScalar
  | unclosedCollection
  | trailingContent
  | badEscape
  | badBlockHeader
  | badDirective
  | repeatedDirective
  | badAnchor
  | badTag
  | badPlainScalar
  | missingContent
  | missingSeparator
  | missingDocumentStart
  | missingDocumentEnd
  | severalDocuments
  | unknownAnchor (name : String)
  | nestingTooDeep
  | tooManyAliases
  deriving DecidableEq, Repr

/-- A tag as written: a handle and what follows it. -/
structure TagText where
  handle : String
  suffix : Bytes
  deriving DecidableEq, Repr

/-- A piece of a YAML text. -/
inductive Token where
  /-- The edition that a text claims to be written in. -/
  | version (major minor : Nat)
  /-- A handle, and what it stands for at the start of a tag. -/
  | handle (name : String) (start : Bytes)
  | documentStart
  | documentEnd
  | blockSequenceStart
  | blockMappingStart
  | blockEnd
  | flowSequenceStart
  | flowSequenceEnd
  | flowMappingStart
  | flowMappingEnd
  | blockEntry
  | flowEntry
  | key
  | value
  | anchor (name : String)
  | alias (name : String)
  | tag (text : TagText)
  | scalar (text : String) (style : Style)
  /-- The text ends here. -/
  | streamEnd
  /-- The text makes no sense from here on. -/
  | broken (error : Error)
  deriving DecidableEq, Repr

/-- A place in a text and what follows it. -/
structure Cursor where
  edition : Edition
  rest : List Char
  line : Nat := 0
  column : Nat := 0
  index : Nat := 0

namespace Cursor

/-- A character that breaks a line. -/
def isBreak (cursor : Cursor) (c : Char) : Bool := cursor.edition.isBreak c

/-- Whether a text ends here or goes on with a blank, a tab or a line break. -/
def atGap (cursor : Cursor) : Bool := cursor.edition.atGap cursor.rest

/-- Whether a line ends here. -/
def atLineEnd (cursor : Cursor) : Bool := cursor.edition.atLineEnd cursor.rest

/-- The place after a character. -/
def past (cursor : Cursor) (c : Char) (rest : List Char) : Cursor :=
  if cursor.isBreak c then
    { cursor with rest := rest, line := cursor.line + 1, column := 0, index := cursor.index + 1 }
  else
    { cursor with rest := rest, column := cursor.column + 1, index := cursor.index + 1 }

/-- The place after the next character. -/
def next (cursor : Cursor) : Cursor :=
  match cursor.rest with
  | [] => cursor
  | c :: rest => cursor.past c rest

/-- The place some characters further. -/
def skip (cursor : Cursor) : Nat → Cursor
  | 0 => cursor
  | count + 1 => (cursor.next).skip count

/-- The place after the leading characters of a class, none of which is a line break. -/
def skipWhile (cursor : Cursor) (inClass : Char → Bool) : Cursor :=
  let skipped := (cursor.rest.takeWhile inClass).length
  { cursor with
    rest := cursor.rest.drop skipped
    column := cursor.column + skipped
    index := cursor.index + skipped }

/-- The characters of a class that follow. -/
def takeWhile (cursor : Cursor) (inClass : Char → Bool) : String :=
  String.ofList (cursor.rest.takeWhile inClass)

/-- The place at the end of the line. -/
def lineEnd (cursor : Cursor) : Cursor :=
  cursor.skipWhile (!cursor.isBreak ·)

end Cursor

end SpnegoRealm.Yaml
