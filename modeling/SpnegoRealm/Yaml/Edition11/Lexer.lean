import SpnegoRealm.Yaml.Edition11.Scalar
import SpnegoRealm.Yaml.Lexer

/-! # The lexer of the edition 1.1

A key without a mark has to fit on one line, also in a flow collection. In flow collections a
question mark and a colon need no blank after them. Tabs separate, but never indent.
-/

namespace SpnegoRealm.Yaml.Edition11

open Lexer

/-- Skip blanks, comments and line breaks. A byte order mark may start a line. -/
def skipFrom (lexer : Lexer) : List Char → Bool → Lexer
  | [], _ => lexer
  | c :: rest, inComment =>
    if lexer.cursor.isBreak c then
      let moved := lexer.advance 1
      skipFrom (if moved.inFlow then moved else moved.allowKey true) rest false
    else if inComment then
      skipFrom (lexer.advance 1) rest true
    else if c = ' ' || (c = '\t' && (lexer.inFlow || !lexer.keyAllowed)) then
      skipFrom (lexer.advance 1) rest false
    else if c = '\uFEFF' && lexer.column = 0 then
      skipFrom (lexer.advance 1) rest false
    else if c = '#' then
      skipFrom (lexer.advance 1) rest true
    else
      lexer

/-- A character of a tag. -/
def isTagChar (c : Char) : Bool :=
  isWordChar c || ";/?:@&=+$.!~*'()%".toList.contains c

/-- A character of a tag that is written in full. -/
def isUriChar (c : Char) : Bool :=
  isTagChar c || c == ',' || c == '[' || c == ']'

/-- Read what a directive says about the handle of a tag. -/
def readHandleDirective? (cursor : Cursor) : Option (Token × Cursor) := do
  let (name, cursor) ← readHandle? (cursor.skipWhile isSpace)
  if (name = "!" || isClosedHandle name) && cursor.rest.head?.any isSpace then
    let (start, cursor) ← (cursor.skipWhile isSpace).uri? isUriChar
    if start.isEmpty || !cursor.atGap then none else return (.handle name start, cursor)
  else
    none

/-- Read a directive line. -/
def directive (lexer : Lexer) : Except Error Lexer := do
  let lexer := lexer.closeAllBlocks
  let lexer := (← lexer.dropKey).allowKey false
  let name := lexer.cursor.next.takeWhile isWordChar
  let cursor := lexer.cursor.next.skipWhile isWordChar
  let content? :=
    if !cursor.atGap then none
    else if name = "YAML" then readVersion? cursor
    else if name = "TAG" then readHandleDirective? cursor
    else none
  match content? with
  | none => throw .badDirective
  | some (token, cursor) =>
    let cursor := cursor.skipWhile isSpace
    let cursor := if cursor.rest.head? = some '#' then cursor.lineEnd else cursor
    if cursor.atLineEnd then return (lexer.emit token).moveTo cursor.next
    else throw .badDirective

/-- Read the mark at the border of a document. -/
def documentMark (lexer : Lexer) (token : Token) : Except Error Lexer := do
  let lexer := lexer.closeAllBlocks
  let lexer := (← lexer.dropKey).allowKey false
  return (lexer.emit token).advance 3

/-- Read the start of a flow collection. -/
def flowStart (lexer : Lexer) (token : Token) : Except Error Lexer := do
  let lexer ← lexer.markKey
  return ((lexer.enterFlow.allowKey true).emit token).advance 1

/-- Read the end of a flow collection. -/
def flowEnd (lexer : Lexer) (token : Token) : Except Error Lexer := do
  let lexer ← lexer.dropKey
  return ((lexer.leaveFlow.allowKey false).emit token).advance 1

/-- Read a comma in a flow collection. -/
def flowSeparator (lexer : Lexer) : Except Error Lexer := do
  let lexer ← lexer.dropKey
  return ((lexer.allowKey true).emit .flowEntry).advance 1

/-- Read the dash of a block sequence. -/
def blockDash (lexer : Lexer) : Except Error Lexer := do
  if !lexer.inFlow && !lexer.keyAllowed then throw .misplacedEntry
  let lexer := lexer.openBlock lexer.column lexer.tokens.size .blockSequenceStart
  let lexer ← lexer.dropKey
  return ((lexer.allowKey true).emit .blockEntry).advance 1

/-- Read the question mark of an explicit key. -/
def explicitKey (lexer : Lexer) : Except Error Lexer := do
  if !lexer.inFlow && !lexer.keyAllowed then throw .misplacedKey
  let lexer := lexer.openBlock lexer.column lexer.tokens.size .blockMappingStart
  let lexer ← lexer.dropKey
  return ((lexer.allowKey !lexer.inFlow).emit .key).advance 1

/-- Read the colon before a value; what stood at the remembered place was its key. -/
def valueColon (lexer : Lexer) : Except Error Lexer := do
  match lexer.possibleKey? with
  | some key =>
    let lexer := lexer.emitAt key.tokenNumber .key
    let lexer := lexer.openBlock key.column key.tokenNumber .blockMappingStart
    return (((lexer.setKey none).allowKey false).emit .value).advance 1
  | none =>
    if !lexer.inFlow && !lexer.keyAllowed then throw .misplacedValue
    let lexer := lexer.openBlock lexer.column lexer.tokens.size .blockMappingStart
    return ((lexer.allowKey !lexer.inFlow).emit .value).advance 1

/-- Whether the name of an anchor may end here. -/
def endsName (cursor : Cursor) : Bool :=
  cursor.atGap || cursor.rest.head?.any ("?:,]\x7d%@`".toList.contains ·)

/-- Read an anchor or an alias. -/
def name (lexer : Lexer) (token : String → Token) : Except Error Lexer := do
  let lexer := (← lexer.markKey).allowKey false
  let word := lexer.cursor.next.takeWhile isWordChar
  let after := lexer.cursor.next.skipWhile isWordChar
  if word.isEmpty || !endsName after then throw .badAnchor
  return (lexer.emit (token word)).moveTo after

/-- Read the text of a tag. What is no handle belongs to the tag itself. -/
def readTag? (cursor : Cursor) : Option (TagText × Cursor) := do
  if cursor.next.rest.head? = some '<' then
    let (uri, after) ← (cursor.skip 2).uri? isUriChar
    if uri.isEmpty || after.rest.head? != some '>' then none
    else return ({ handle := "", suffix := uri }, after.next)
  else
    let (handle, after) ← readHandle? cursor
    if isClosedHandle handle then
      let (suffix, after) ← after.uri? isTagChar
      if suffix.isEmpty then none else return ({ handle := handle, suffix := suffix }, after)
    else
      let (suffix, after) ← cursor.next.uri? isTagChar
      if suffix.isEmpty then return ({ handle := "", suffix := Text.utf8 "!" }, after)
      else return ({ handle := "!", suffix := suffix }, after)

/-- Read a tag. -/
def tag (lexer : Lexer) : Except Error Lexer := do
  let lexer := (← lexer.markKey).allowKey false
  match readTag? lexer.cursor with
  | none => throw .badTag
  | some (text, after) =>
    if after.atGap || (lexer.inFlow && after.rest.head? == some ',') then
      return (lexer.emit (.tag text)).moveTo after
    else
      throw .badTag

/-- Read a block scalar after its indicator. -/
def blockScalar (lexer : Lexer) (style : Style) : Except Error Lexer := do
  let lexer := (← lexer.dropKey).allowKey true
  let parent := lexer.indents.head?.map (·.column)
  return lexer.addScalar (← readBlock (style == .folded) parent lexer.cursor.next) style

/-- Read a quoted scalar. -/
def quotedScalar (lexer : Lexer) (style : Style) : Except Error Lexer := do
  let lexer := (← lexer.markKey).allowKey false
  let inside := lexer.cursor.next
  return lexer.addScalar (← readQuoted style [] .none 0 inside inside.rest) style

/-- Read a plain scalar. A key may start on the line that a plain scalar was given up for. -/
def plainScalar (lexer : Lexer) : Except Error Lexer := do
  let lexer := (← lexer.markKey).allowKey false
  let read ← readPlain lexer.inFlow lexer.innerColumn [] .none lexer.cursor lexer.cursor.rest
  let lexer := lexer.addScalar read .plain
  return if read.brokeLine then lexer.allowKey true else lexer

/-- Whether a plain scalar can start with this character. -/
def startsPlain (inFlow : Bool) (c : Char) (rest : List Char) : Bool :=
  !(Edition.v11.atGap [c] || "-?:,[]{}#&*!|>'\"%@`".toList.contains c) ||
    (c == '-' && !(rest.head?.any isSpace)) ||
    (!inFlow && (c == '?' || c == ':') && !Edition.v11.atGap rest)

/-- Read the next token, and those that its indentation implies. -/
def step (lexer : Lexer) : Except Error Lexer := do
  let lexer ← (skipFrom lexer lexer.cursor.rest false).dropStaleKeys
  let lexer := lexer.closeBlocks (lexer.column < ·)
  match lexer.cursor.rest with
  | [] => return (← lexer.closeAllBlocks.dropKey).emit .streamEnd
  | c :: rest =>
    let startsLine := lexer.column = 0
    if startsLine && c == '%' then directive lexer
    else if startsLine && Edition.v11.atDocumentStart (c :: rest) then
      documentMark lexer .documentStart
    else if startsLine && Edition.v11.atDocumentEnd (c :: rest) then
      documentMark lexer .documentEnd
    else if c = '[' then flowStart lexer .flowSequenceStart
    else if c = '{' then flowStart lexer .flowMappingStart
    else if c = ']' then flowEnd lexer .flowSequenceEnd
    else if c = '}' then flowEnd lexer .flowMappingEnd
    else if c = ',' then flowSeparator lexer
    else if c = '-' && Edition.v11.atGap rest then blockDash lexer
    else if c = '?' && (lexer.inFlow || Edition.v11.atGap rest) then explicitKey lexer
    else if c = ':' && (lexer.inFlow || Edition.v11.atGap rest) then valueColon lexer
    else if c = '*' then name lexer .alias
    else if c = '&' then name lexer .anchor
    else if c = '!' then tag lexer
    else if c = '|' && !lexer.inFlow then blockScalar lexer .literal
    else if c = '>' && !lexer.inFlow then blockScalar lexer .folded
    else if c = '\'' then quotedScalar lexer .singleQuoted
    else if c = '"' then quotedScalar lexer .doubleQuoted
    else if startsPlain lexer.inFlow c rest then plainScalar lexer
    else throw (.strayCharacter c)

/-- The tokens of a text. Every step but the last consumes a character. -/
def tokens (characters : List Char) : Array Token :=
  Lexer.run step { cursor := { edition := .v11, rest := characters } } (characters.length + 2)

end SpnegoRealm.Yaml.Edition11
