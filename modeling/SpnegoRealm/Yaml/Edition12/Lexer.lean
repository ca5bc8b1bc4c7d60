import SpnegoRealm.Yaml.Edition12.Scalar
import SpnegoRealm.Yaml.Lexer

/-! # The lexer of the edition 1.2

What follows a key is indented by a column at least, which opens no block. In a flow collection a
key may go on over several lines, a question mark or a colon with no blank after it starts a
plain scalar, and a colon needs no blank after a quoted key. A pair without braces in a flow
sequence is put into braces, up to the first pair of braces that is written.
-/

namespace SpnegoRealm.Yaml.Edition12

open Lexer

/-- Indent by a column what follows, if a block collection is innermost. -/
def indentColumn (lexer : Lexer) : Lexer :=
  match lexer.indents with
  | indent :: outer =>
    if indent.isBlock && !lexer.inFlow then
      { lexer with indents := ⟨indent.column + 1, false⟩ :: indent :: outer }
    else
      lexer
  | [] => lexer

/-- Go back to the innermost block collection. -/
def dedentToBlock (lexer : Lexer) : Lexer :=
  { lexer with indents := lexer.indents.dropWhile (!·.isBlock) }

/-- Skip the blanks and the comment on a line. -/
def skipBlanks (lexer : Lexer) : Except Error Lexer :=
  (afterBlanks lexer.cursor).map lexer.moveTo

/-- Move past some characters of a line that are no blanks. -/
def consume (lexer : Lexer) (count : Nat) : Lexer :=
  { lexer.advance count with lineIsBlank := false }

/-- Skip blanks, comments and line breaks. A tab cannot stand for indentation. -/
def skipFrom (lexer : Lexer) : List Char → Bool → Except Error Lexer
  | [], _ => .ok lexer
  | c :: rest, inComment =>
    let moved := lexer.advance 1
    if lexer.cursor.isBreak c then
      let moved := { moved with lineIsBlank := true }
      skipFrom (if moved.inFlow then moved else moved.allowKey true) rest false
    else if inComment then
      skipFrom moved rest true
    else if c = ' ' then
      skipFrom moved rest false
    else if c = '\t' then
      if lexer.lineIsBlank && lexer.isOutside lexer.column && !isIdle rest then
        .error .tabIndentation
      else
        skipFrom moved rest false
    else if c = '#' then
      skipFrom moved rest true
    else
      .ok lexer

/-- A character of a tag that is written in full. -/
def isUriChar (c : Char) : Bool :=
  isWordChar c || "#;/?:@&=+$,.!~*'()[]%".toList.contains c

/-- A character of a tag. -/
def isTagChar (c : Char) : Bool :=
  isUriChar c && !isFlowIndicator c && c != '!'

/-- Read what stands for a handle: an exclamation mark or a character of a tag, and further
characters. -/
def readHandleStart? (cursor : Cursor) : Option (Bytes × Cursor) :=
  match cursor.rest with
  | c :: _ => if c = '!' || isTagChar c then cursor.uri? isUriChar else none
  | [] => none

/-- Read what a directive says about the handle of a tag. -/
def readHandleDirective? (cursor : Cursor) : Option (Token × Cursor) := do
  let (name, cursor) ← readHandle? (cursor.skipWhile isSpace)
  if name = "!" || isClosedHandle name then
    let (start, cursor) ← readHandleStart? (cursor.skipWhile isSpace)
    if cursor.atGap then return (.handle name start, cursor) else none
  else
    none

/-- Read a directive line. One that nobody knows names no handle. -/
def directive (lexer : Lexer) : Except Error Lexer := do
  let lexer := lexer.closeAllBlocks
  let lexer := (← lexer.dropKey).allowKey false
  let name := lexer.cursor.next.takeWhile isWordChar
  let cursor := lexer.cursor.next.skipWhile isWordChar
  let content? :=
    if name = "" || !cursor.atGap then none
    else if name = "YAML" then readVersion? cursor
    else if name = "TAG" then readHandleDirective? cursor
    else some (.handle "" [], cursor.lineEnd)
  match content? with
  | none => throw .badDirective
  | some (token, cursor) =>
    let cursor ← afterBlanks cursor
    if cursor.atLineEnd then
      return { (lexer.emit token).moveTo cursor.next with lineIsBlank := true }
    else
      throw .badDirective

/-- Read the mark at the border of a document. -/
def documentMark (lexer : Lexer) (token : Token) : Except Error Lexer := do
  if lexer.inFlow then throw .unclosedCollection
  let lexer := lexer.closeAllBlocks
  let lexer := (← lexer.dropKey).allowKey false
  return consume (lexer.emit token) 3

/-- Read the mark at the end of a document. Only a comment can follow on its line. -/
def documentEnd (lexer : Lexer) : Except Error Lexer := do
  let lexer ← skipBlanks (← documentMark lexer .documentEnd)
  if lexer.cursor.atLineEnd then return lexer else throw .trailingContent

/-- The greatest number of flow collections that may be open. -/
def flowLimit : Nat := 255

/-- Read the start of a flow collection. -/
def flowStart (lexer : Lexer) (token : Token) : Except Error Lexer := do
  let lexer ← lexer.markKey
  if lexer.flowLevel = flowLimit then throw .nestingTooDeep
  let lexer :=
    if token = .flowMappingStart then { lexer with braceMet := true }
    else { lexer with openPairs := none :: lexer.openPairs }
  skipBlanks (consume (((indentColumn lexer).enterFlow.allowKey true).emit token) 1)

/-- Close the pair without braces at this flow level, if one is open. -/
def closePair (lexer : Lexer) : Lexer :=
  match lexer.openPairs with
  | some level :: outer =>
    if level = lexer.flowLevel then
      { lexer with braceMet := false, openPairs := none :: outer }.emit .flowMappingEnd
    else
      lexer
  | _ => lexer

/-- Read the end of a flow collection, of which one has to be open. A colon needs no blank after
it. -/
def flowEnd (lexer : Lexer) (token : Token) : Except Error Lexer := do
  if !lexer.inFlow then throw .strayBracket
  let lexer ← lexer.dropKey
  let lexer :=
    if token = .flowSequenceEnd then
      let closed := closePair lexer
      { closed with openPairs := closed.openPairs.tail }
    else
      lexer
  let lexer := (lexer.leaveFlow.allowKey false).emit token
  let lexer ← skipBlanks (consume lexer 1)
  return if lexer.inFlow then { lexer with colonIndex := some lexer.cursor.index } else lexer

/-- Read a comma in a flow collection. -/
def flowSeparator (lexer : Lexer) : Except Error Lexer := do
  let lexer := closePair ((← lexer.dropKey).allowKey true)
  skipBlanks (consume (lexer.emit .flowEntry) 1)

/-- Whether the last token is an anchor or a tag at the start of a line. -/
def followsProperty (lexer : Lexer) : Bool :=
  lexer.lastColumn = 0 &&
    match lexer.tokens.back? with
    | some (.anchor _) | some (.tag _) => true
    | _ => false

/-- Read the dash of a block sequence. Blanks after it may hold a tab only if no further dash
follows. -/
def blockDash (lexer : Lexer) : Except Error Lexer := do
  if lexer.inFlow || !lexer.keyAllowed then throw .misplacedEntry
  if followsProperty lexer && lexer.column = 0 && !lexer.indents.isEmpty then
    throw .badIndentation
  let lexer := consume (lexer.openBlock lexer.column lexer.tokens.size .blockSequenceStart) 1
  let hasTab := (lexer.cursor.rest.takeWhile isSpace).contains '\t'
  let lexer ← skipBlanks lexer
  let next? := lexer.cursor.rest.head?
  if hasTab && next? = some '-' && lexer.cursor.next.atGap then throw .tabIndentation
  let lexer :=
    if next?.any fun c => lexer.cursor.isBreak c || isFlowIndicator c then indentColumn lexer
    else lexer
  return ((← lexer.dropKey).allowKey true).emit .blockEntry

/-- Skip blanks, comments and line breaks, but no tab. Something has to be skipped. -/
def skipGap (lexer : Lexer) (skipped inComment : Bool) : List Char → Except Error Lexer
  | [] => if skipped then .ok lexer else .error .missingBlank
  | c :: rest =>
    let moved := lexer.advance 1
    if lexer.cursor.isBreak c then
      let moved := { moved with lineIsBlank := true }
      skipGap (if moved.inFlow then moved else moved.allowKey true) true false rest
    else if inComment then
      skipGap moved skipped true rest
    else if c = ' ' then
      skipGap moved true false rest
    else if c = '#' then
      skipGap moved skipped true rest
    else if !skipped then
      .error .missingBlank
    else if c = '\t' then
      .error .tabIndentation
    else
      .ok lexer

/-- Read the question mark of an explicit key. -/
def explicitKey (lexer : Lexer) : Except Error Lexer := do
  if !lexer.inFlow && !lexer.keyAllowed then throw .misplacedKey
  let lexer := lexer.openBlock lexer.column lexer.tokens.size .blockMappingStart
  let lexer := if lexer.inFlow then { lexer with braceMet := true } else lexer
  let lexer := consume ((← lexer.dropKey).allowKey !lexer.inFlow) 1
  return (← skipGap lexer false false lexer.cursor.rest).emit .key

/-- Move past the colon before a value. A tab does not set it apart from what looks like a
scalar. -/
def consumeColon (lexer : Lexer) : Except Error Lexer := do
  let lexer := consume lexer 1
  if lexer.cursor.rest.head? = some '\t' then
    let blanks := lexer.cursor.rest.takeWhile isSpace
    let lexer ← skipBlanks lexer
    let startsScalar := lexer.cursor.rest.head?.any fun c => c == '-' || isWordChar c
    if !blanks.contains ' ' && startsScalar then throw .tabIndentation
    return lexer
  else
    return lexer

/-- Read the colon before a value; what stood at the remembered place was its key. -/
def valueColon (lexer : Lexer) : Except Error Lexer := do
  let key? := lexer.possibleKey?
  let start := lexer.cursor
  let opensPair := !lexer.openPairs.isEmpty && !lexer.braceMet
  let lexer :=
    if opensPair then
      { lexer with openPairs := some lexer.flowLevel :: lexer.openPairs.tail }
    else
      lexer
  let lexer ← consumeColon lexer
  match key? with
  | some key =>
    if opensPair && key.line < start.line then throw .misplacedValue
    let lexer := lexer.emitAt key.tokenNumber .key
    let lexer := if opensPair then lexer.emitAt key.tokenNumber .flowMappingStart else lexer
    let lexer := lexer.openBlock key.column key.tokenNumber .blockMappingStart
    return (((indentColumn lexer).setKey none).allowKey false).emit .value
  | none =>
    let lexer := if opensPair then lexer.emit .flowMappingStart else lexer
    if !lexer.inFlow && !lexer.keyAllowed then throw .misplacedValue
    let lexer := lexer.openBlock start.column lexer.tokens.size .blockMappingStart
    return ((indentColumn lexer).allowKey !lexer.inFlow).emit .value

/-- Read the colon before a value in a flow collection. It has to stand apart from a collection
unless its key allows it not to. -/
def flowColon (lexer : Lexer) : Except Error Lexer :=
  let next? := lexer.cursor.next.rest.head?
  if lexer.colonIndex != some lexer.cursor.index && (next? = some '[' || next? = some '{') then
    .error .misplacedValue
  else
    valueColon lexer

/-- A character of the name of an anchor. -/
def isNameChar (c : Char) : Bool :=
  !isSpace c && !Edition.v12.isBreak c && c != '\uFEFF' && !isFlowIndicator c

/-- Read an anchor or an alias. -/
def name (lexer : Lexer) (token : String → Token) : Except Error Lexer := do
  let lexer := (← lexer.markKey).allowKey false
  let word := lexer.cursor.next.takeWhile isNameChar
  if word.isEmpty then throw .badAnchor
  return ((consume lexer 1).emit (token word)).moveTo (lexer.cursor.next.skipWhile isNameChar)

/-- Read the text of a tag. What is no handle belongs to the tag itself. -/
def readTag? (cursor : Cursor) : Option (TagText × Cursor) := do
  if cursor.next.rest.head? = some '<' then
    let (uri, after) ← (cursor.skip 2).uri? isUriChar
    if after.rest.head? = some '>' then return ({ handle := "", suffix := uri }, after.next)
    else none
  else
    let (handle, after) ← readHandle? cursor
    if isClosedHandle handle then
      let (suffix, after) ← after.uri? isTagChar
      if suffix.isEmpty then none else return ({ handle := handle, suffix := suffix }, after)
    else
      let (suffix, after) ← cursor.next.uri? isTagChar
      if suffix.isEmpty then return ({ handle := "", suffix := Text.utf8 "!" }, after)
      else return ({ handle := "!", suffix := suffix }, after)

/-- Read a tag. -/
def tag (lexer : Lexer) : Except Error Lexer := do
  let lexer := (← lexer.markKey).allowKey false
  match readTag? lexer.cursor with
  | none => throw .badTag
  | some (text, after) =>
    if after.atGap || (lexer.inFlow && after.rest.head?.any isFlowIndicator) then
      return ((consume lexer 1).emit (.tag text)).moveTo after
    else
      throw .badTag

/-- Read a block scalar after its indicator. -/
def blockScalar (lexer : Lexer) (style : Style) : Except Error Lexer := do
  let lexer := dedentToBlock ((← lexer.markKey).allowKey true)
  let parent := lexer.indents.head?.map (·.column)
  let read ← readBlock (style == .folded) parent lexer.cursor.next
  return { lexer.addScalar read style with lineIsBlank := true }

/-- Whether something may follow a quoted scalar that started on a line: the end of its own line,
a colon, or in a flow collection what goes on or ends there. -/
def mayFollowQuoted (lexer : Lexer) (startLine : Nat) : Bool :=
  lexer.cursor.atLineEnd ||
    lexer.cursor.rest.head?.any fun c =>
      if c = ':' then lexer.inFlow || lexer.cursor.line = startLine
      else lexer.inFlow && (c == ',' || c == '}' || c == ']')

/-- Read a quoted scalar. A colon needs no blank after it. -/
def quotedScalar (lexer : Lexer) (style : Style) : Except Error Lexer := do
  let startLine := lexer.cursor.line
  let lexer := (← lexer.markKey).allowKey false
  let inside := lexer.cursor.next
  let bounds : QuotedBounds := ⟨lexer.indents.head?.map (·.column), lexer.inFlow⟩
  let read ← readQuoted bounds style [] .none 0 inside inside.rest
  let lexer ← skipBlanks { lexer.addScalar read style with lineIsBlank := false }
  if !mayFollowQuoted lexer startLine then throw .trailingContent
  let lexer ← skipFrom lexer lexer.cursor.rest false
  return { lexer with colonIndex := some lexer.cursor.index }

/-- Read a plain scalar. A key may start on the line that a plain scalar was given up for. -/
def plainScalar (lexer : Lexer) : Except Error Lexer := do
  let lexer := dedentToBlock ((← lexer.markKey).allowKey false)
  let cursor := lexer.cursor
  if lexer.inFlow && cursor.column < lexer.innerColumn then throw .badIndentation
  if lexer.lineIsBlank && Edition.v12.atDocumentMark cursor.rest then throw .badPlainScalar
  let read ← readPlain lexer.inFlow lexer.innerColumn [] .none 0 cursor cursor.rest
  if read.text.isEmpty then throw .badPlainScalar
  let lexer := { lexer.addScalar read .plain with lineIsBlank := read.brokeLine }
  if read.brokeLine then return lexer.allowKey true
  let isCut := !lexer.inFlow && lexer.cursor.rest.head? == some '#'
  return { lexer with cutLine := if isCut then some lexer.cursor.line else none }

/-- Read a token that starts with a character. -/
def readToken (lexer : Lexer) (c : Char) (rest : List Char) : Except Error Lexer :=
  let standsApart := Edition.v12.atGap rest
  let mayJoin := rest.head?.any isFlowIndicator || lexer.colonIndex == some lexer.cursor.index
  if c = '[' then flowStart lexer .flowSequenceStart
  else if c = '{' then flowStart lexer .flowMappingStart
  else if c = ']' then flowEnd lexer .flowSequenceEnd
  else if c = '}' then flowEnd lexer .flowMappingEnd
  else if c = ',' then flowSeparator lexer
  else if c = '-' && standsApart then blockDash lexer
  else if c = '?' && standsApart then explicitKey lexer
  else if c = ':' && standsApart then valueColon lexer
  else if c = ':' && lexer.inFlow && mayJoin then flowColon lexer
  else if c = '*' then name lexer .alias
  else if c = '&' then name lexer .anchor
  else if c = '!' then tag lexer
  else if c = '|' && !lexer.inFlow then blockScalar lexer .literal
  else if c = '>' && !lexer.inFlow then blockScalar lexer .folded
  else if c = '\'' then quotedScalar lexer .singleQuoted
  else if c = '"' then quotedScalar lexer .doubleQuoted
  else if c = '%' || c = '@' || c = '`' then .error (.strayCharacter c)
  else plainScalar lexer

/-- A comment must not come between the lines of a plain scalar. -/
def checkCut (lexer : Lexer) : Except Error Lexer :=
  let isBelow := lexer.cutLine.any (· + 1 == lexer.cursor.line)
  let isOver := lexer.cursor.rest.isEmpty || lexer.column < lexer.innerColumn ||
    (lexer.column = 0 && Edition.v12.atDocumentMark lexer.cursor.rest)
  if isBelow && !isOver then .error .badPlainScalar
  else .ok { lexer with cutLine := none }

/-- Read the end of a text. -/
def streamEnd (lexer : Lexer) : Except Error Lexer := do
  if lexer.inFlow then throw .unclosedCollection
  return (← lexer.closeAllBlocks.dropKey).emit .streamEnd

/-- Read the next token, and those that its indentation implies. -/
def step (lexer : Lexer) : Except Error Lexer := do
  let lexer ← (← skipFrom lexer lexer.cursor.rest false).dropStaleKeys
  let lexer ← checkCut lexer
  let lexer := lexer.closeBlocks (lexer.column < ·)
  let column := lexer.column
  match lexer.cursor.rest with
  | [] => streamEnd lexer
  | c :: rest =>
    let read ←
      if column = 0 && c == '%' then directive lexer
      else if column = 0 && Edition.v12.atDocumentStart (c :: rest) then
        documentMark lexer .documentStart
      else if column = 0 && Edition.v12.atDocumentEnd (c :: rest) then documentEnd lexer
      else if lexer.isOutside column && !(c == ']' || c == '}' || c == ',') then
        throw .badIndentation
      else readToken lexer c rest
    return { read with lastColumn := column }

/-- The tokens of a text. Every step but the last consumes a character. -/
def tokens (characters : List Char) : Array Token :=
  Lexer.run step { cursor := { edition := .v12, rest := characters } } (characters.length + 2)

end SpnegoRealm.Yaml.Edition12
