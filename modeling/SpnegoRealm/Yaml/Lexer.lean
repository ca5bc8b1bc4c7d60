import SpnegoRealm.Text.Numeral
import SpnegoRealm.Yaml.Scalar

/-! # From a YAML text to its tokens

Indentation opens and closes block collections. A key that is not marked as such is only known
to be one when its colon is met: until then the place of every possible key is remembered, and
the tokens that open the key are put there afterwards. What both editions have in common stands
here; each has a lexer of its own.
-/

namespace SpnegoRealm.Yaml

/-- A place where a key may have started. -/
structure PossibleKey where
  required : Bool
  tokenNumber : Nat
  line : Nat
  column : Nat
  index : Nat

/-- The longest key that needs no mark, in characters. -/
def longestKey : Nat := 1024

/-- The column that the lines of something have to reach. Only a block collection is closed
where they do not. -/
structure Indent where
  column : Nat
  isBlock : Bool := true

/-- How far a text has been read. `indents` are the indentations that hold here, innermost first.
`keys` holds the possible key of each open flow collection, innermost first, and of the block
around them. The last six fields serve the edition 1.2: whether only blanks were met on this
line, the column at which the last token started, the index at which a colon needs no blank
after it, the line on which a comment ended a plain scalar, whether a brace was met since a pair
in brackets was closed, and for each open pair of brackets the flow level at which a pair
without braces was opened in it. -/
structure Lexer where
  cursor : Cursor
  tokens : Array Token := #[]
  indents : List Indent := []
  keyAllowed : Bool := true
  keys : List (Option PossibleKey) := [none]
  lineIsBlank : Bool := true
  lastColumn : Nat := 0
  colonIndex : Option Nat := none
  cutLine : Option Nat := none
  braceMet : Bool := false
  openPairs : List (Option Nat) := []

namespace Lexer

/-- How many flow collections are open. -/
def flowLevel (lexer : Lexer) : Nat := lexer.keys.length - 1

/-- Whether a flow collection is open. -/
def inFlow (lexer : Lexer) : Bool := lexer.flowLevel != 0

/-- The column of the next character. -/
def column (lexer : Lexer) : Nat := lexer.cursor.column

/-- The possible key of the innermost flow collection or block. -/
def possibleKey? (lexer : Lexer) : Option PossibleKey := lexer.keys.head?.join

/-- Replace the possible key of the innermost flow collection or block. -/
def setKey (lexer : Lexer) (key : Option PossibleKey) : Lexer :=
  { lexer with keys := key :: lexer.keys.tail }

/-- Add a token. -/
def emit (lexer : Lexer) (token : Token) : Lexer :=
  { lexer with tokens := lexer.tokens.push token }

/-- Add a token in front of one that is there. -/
def emitAt (lexer : Lexer) (tokenNumber : Nat) (token : Token) : Lexer :=
  { lexer with tokens := lexer.tokens.insertIdx! tokenNumber token }

/-- Whether a column lies left of the innermost indentation. -/
def isOutside (lexer : Lexer) (column : Nat) : Bool :=
  lexer.indents.head?.any (column < ·.column)

/-- The least column right of the innermost indentation. -/
def innerColumn (lexer : Lexer) : Nat :=
  (lexer.indents.head?.map (·.column + 1)).getD 0

/-- The place of a required key cannot be given up. -/
def dropKey (lexer : Lexer) : Except Error Lexer :=
  match lexer.possibleKey? with
  | some key => if key.required then .error .unclosedKey else .ok (lexer.setKey none)
  | none => .ok lexer

/-- Remember that a key may start here. -/
def markKey (lexer : Lexer) : Except Error Lexer :=
  if lexer.keyAllowed then do
    let lexer ← lexer.dropKey
    return lexer.setKey (some {
      required := !lexer.inFlow &&
        lexer.indents.head?.any fun indent => indent.isBlock && indent.column == lexer.column
      tokenNumber := lexer.tokens.size
      line := lexer.cursor.line
      column := lexer.column
      index := lexer.cursor.index })
  else
    .ok lexer

/-- Forget possible keys that ended with their line or grew too long. In the edition 1.2 those in
flow collections cannot. -/
def dropStaleKeys (lexer : Lexer) : Except Error Lexer := do
  if lexer.inFlow && lexer.cursor.edition == .v12 then return lexer
  let keys ← lexer.keys.mapM fun key? =>
    match key? with
    | none => Except.ok none
    | some key =>
      if key.line < lexer.cursor.line || key.index + longestKey < lexer.cursor.index then
        if key.required then .error .unclosedKey else .ok none
      else
        .ok (some key)
  return { lexer with keys := keys }

/-- Open a block collection at a column, if it lies deeper than those open. Indentation that
opens no block gives way to it. -/
def openBlock (lexer : Lexer) (column : Nat) (tokenNumber : Nat) (token : Token) : Lexer :=
  if lexer.inFlow then
    lexer
  else
    let indents :=
      match lexer.indents with
      | indent :: outer =>
        if !indent.isBlock && indent.column ≤ column then outer else lexer.indents
      | [] => []
    if indents.head?.all (·.column < column) then
      { lexer with indents := { column := column } :: indents }.emitAt tokenNumber token
    else
      { lexer with indents := indents }

/-- Close the block collections for which a text indented like this is no longer inside. -/
def closeBlocks (lexer : Lexer) (outside : Nat → Bool) : Lexer :=
  if lexer.inFlow then
    lexer
  else
    let closed := lexer.indents.takeWhile (outside ·.column)
    { lexer with
      indents := lexer.indents.drop closed.length
      tokens := lexer.tokens ++
        Array.replicate (closed.countP (·.isBlock)) Token.blockEnd }

/-- Close all block collections. -/
def closeAllBlocks (lexer : Lexer) : Lexer := lexer.closeBlocks fun _ => true

/-- Move on by some characters. -/
def advance (lexer : Lexer) (count : Nat) : Lexer :=
  { lexer with cursor := lexer.cursor.skip count }

/-- Move on to a place. -/
def moveTo (lexer : Lexer) (cursor : Cursor) : Lexer :=
  { lexer with cursor := cursor }

/-- Say whether a key may start next. -/
def allowKey (lexer : Lexer) (allowed : Bool) : Lexer :=
  { lexer with keyAllowed := allowed }

/-- Enter a flow collection. -/
def enterFlow (lexer : Lexer) : Lexer :=
  { lexer with keys := none :: lexer.keys }

/-- Leave a flow collection, if one is open. -/
def leaveFlow (lexer : Lexer) : Lexer :=
  if lexer.inFlow then { lexer with keys := lexer.keys.tail } else lexer

/-- Add a scalar that has been read. -/
def addScalar (lexer : Lexer) (read : ScalarRead) (style : Style) : Lexer :=
  (lexer.emit (.scalar read.text style)).moveTo read.cursor

/-- Read the handle of a tag: an exclamation mark, and a word that another one closes. -/
def readHandle? (cursor : Cursor) : Option (String × Cursor) :=
  match cursor.rest with
  | '!' :: _ =>
    let name := cursor.next.takeWhile isWordChar
    let after := cursor.next.skipWhile isWordChar
    if after.rest.head? = some '!' then some ("!" ++ name ++ "!", after.next)
    else some ("!" ++ name, after)
  | _ => none

/-- Whether a handle is closed by an exclamation mark of its own. -/
def isClosedHandle (handle : String) : Bool :=
  handle.endsWith "!" && handle.length != 1

/-- The greatest number of digits in a version. -/
def longestVersion : Nat := 9

/-- Read a number of a version. -/
def readVersionNumber? (cursor : Cursor) : Option (Nat × Cursor) :=
  let digits := cursor.rest.takeWhile Char.isDigit
  if longestVersion < digits.length then none
  else (Text.Numeral.whole? 10 digits).map fun value => (value, cursor.skip digits.length)

/-- Read the version of a directive: two numbers with a full stop between them. -/
def readVersion? (cursor : Cursor) : Option (Token × Cursor) := do
  let (major, cursor) ← readVersionNumber? (cursor.skipWhile isSpace)
  if cursor.rest.head? = some '.' then
    let (minor, cursor) ← readVersionNumber? cursor.next
    return (.version major minor, cursor)
  else
    none

/-- The number of the first token that may turn out to follow the start of a key. -/
def firstUndecided (lexer : Lexer) : Nat :=
  lexer.keys.foldl (fun least key? => (key?.map (min least ·.tokenNumber)).getD least)
    lexer.tokens.size

/-- The tokens of a text that makes no sense from here on. Those that are not decided yet are
held back. -/
def brokenBy (lexer : Lexer) (error : Error) : Array Token :=
  (lexer.tokens.extract 0 lexer.firstUndecided).push (.broken error)

/-- Read tokens in steps until the text ends or makes no sense. -/
def run (step : Lexer → Except Error Lexer) (lexer : Lexer) : Nat → Array Token
  | 0 => lexer.brokenBy .nestingTooDeep
  | steps + 1 =>
    match lexer.dropStaleKeys with
    | .error error => lexer.brokenBy error
    | .ok current =>
      match step current with
      | .error error => current.brokenBy error
      | .ok further =>
        if further.tokens.back? = some .streamEnd then further.tokens else further.run step steps

end Lexer

end SpnegoRealm.Yaml
