import SpnegoRealm.Yaml.Scalar

/-! # Scalars in the edition 1.2

The lines of a plain scalar and of a quoted one have to keep to the indentation of their
surroundings. A tab indents nothing: it may stand in front of a line that holds nothing else.
The last line of a block scalar ends with a line break even where the text does not.
-/

namespace SpnegoRealm.Yaml.Edition12

/-- Whether nothing follows on a line but blanks and a comment. -/
def isIdle (rest : List Char) : Bool :=
  let content := rest.dropWhile isSpace
  Edition.v12.atLineEnd content || content.head? == some '#'

/-- Whether a plain scalar ends before this character. -/
def endsPlain (inFlow : Bool) (c : Char) (rest : List Char) : Bool :=
  (c == ':' && (Edition.v12.atGap rest || (inFlow && rest.head?.any isFlowIndicator))) ||
    (inFlow && isFlowIndicator c)

/-- Whether a hyphen stands alone in a flow collection. -/
def isLoneHyphen (inFlow : Bool) (c : Char) (rest : List Char) : Bool :=
  inFlow && c == '-' && rest.head?.any isFlowIndicator

/-- Read a plain scalar. `indent` is the least column at which it may go on in a block.
`pending` characters count for nothing. -/
def readPlain (inFlow : Bool) (indent : Nat) (reversed : List Char) (gap : Gap) (pending : Nat)
    (place : Cursor) : List Char → Except Error ScalarRead
  | [] => .ok ⟨String.ofList reversed.reverse, { place with rest := [] }, gap.breaksLine⟩
  | c :: rest =>
    let here : Cursor := { place with rest := c :: rest }
    let beyond := here.past c rest
    let done : ScalarRead := ⟨String.ofList reversed.reverse, here, gap.breaksLine⟩
    match pending with
    | further + 1 => readPlain inFlow indent reversed gap further beyond rest
    | 0 =>
      if here.isBreak c then
        readPlain inFlow indent reversed (gap.addBreak c) 0 beyond rest
      else if isSpace c then
        if gap.breaksLine && here.column < indent && c == '\t' then
          if isIdle rest then
            readPlain inFlow indent reversed gap (rest.takeWhile (!here.isBreak ·)).length beyond
              rest
          else .error .tabIndentation
        else
          readPlain inFlow indent reversed (gap.addBlank c) 0 beyond rest
      else if gap.breaksLine && !inFlow && here.column < indent then .ok done
      else if gap.breaksLine && Edition.v12.atDocumentMark (c :: rest) then .ok done
      else if c = '#' && !gap.isEmpty then .ok done
      else if (reversed.isEmpty || !gap.isEmpty) && isLoneHyphen inFlow c rest then
        .error .badPlainScalar
      else if endsPlain inFlow c rest then .ok done
      else
        readPlain inFlow indent (c :: gap.join reversed) .none 0 beyond rest

/-- Where the lines of a quoted scalar have to stay: right of an indentation, if there is one.
In a flow collection they may start at its column. -/
structure QuotedBounds where
  indent : Option Nat
  inFlow : Bool

/-- Whether a line of a quoted scalar may start at a place. A quote may stand at the column of the
indentation, or right after an escaped line break. -/
def QuotedBounds.admits (bounds : QuotedBounds) (gap : Gap) (atQuote : Bool) (here : Cursor) :
    Bool :=
  match gap with
  | .breaks first further =>
    let isRight := bounds.indent.all fun column =>
      if bounds.inFlow || atQuote then column ≤ here.column else column < here.column
    (atQuote && first.isNone && further.isEmpty && here.column = 0) ||
      (isRight && !(here.column = 0 && Edition.v12.atDocumentMark here.rest))
  | _ => true

/-- Read a quoted scalar after its first quote. In single quotes a quote is written twice; in
double quotes a backslash starts an escape. `pending` characters have been read already. -/
def readQuoted (bounds : QuotedBounds) (style : Style) (reversed : List Char) (gap : Gap)
    (pending : Nat) (place : Cursor) : List Char → Except Error ScalarRead
  | [] => .error .unclosedScalar
  | c :: rest =>
    let here : Cursor := { place with rest := c :: rest }
    let beyond := here.past c rest
    match pending with
    | further + 1 => readQuoted bounds style reversed gap further beyond rest
    | 0 =>
      if here.isBreak c then
        readQuoted bounds style reversed (gap.addBreak c) 0 beyond rest
      else if isSpace c then
        if gap.breaksLine && c == '\t' && bounds.indent.any (here.column < ·) then
          .error .tabIndentation
        else
          readQuoted bounds style reversed (gap.addBlank c) 0 beyond rest
      else
        let joined := gap.join reversed
        let done : ScalarRead := ⟨String.ofList joined.reverse, beyond, false⟩
        match style with
        | .singleQuoted =>
          if !bounds.admits gap (c == '\'') here then .error .badIndentation
          else if c != '\'' then readQuoted bounds style (c :: joined) .none 0 beyond rest
          else if rest.head? = some '\'' then
            readQuoted bounds style (c :: joined) .none 1 beyond rest
          else .ok done
        | _ =>
          if !bounds.admits gap (c == '"') here then .error .badIndentation
          else if c = '"' then .ok done
          else if c = '\\' then
            if rest.head?.any here.isBreak then
              readQuoted bounds style joined (.breaks none []) 1 beyond rest
            else
              match escape? rest with
              | some (escaped, width) =>
                readQuoted bounds style (escaped :: joined) .none width beyond rest
              | none => .error .badEscape
          else readQuoted bounds style (c :: joined) .none 0 beyond rest

/-- The place after the blanks and the comment on a line. A comment has to follow a blank. -/
def afterBlanks (cursor : Cursor) : Except Error Cursor :=
  let after := cursor.skipWhile isSpace
  if after.rest.head? = some '#' then
    if after.index = cursor.index then .error .missingBlank else .ok after.lineEnd
  else
    .ok after

/-- The text of a block scalar without content, of which some lines are empty. The line after
the header counts only where no other one does. -/
def emptyBlock (chomping : Chomping) (endsAtHeader : Bool) (breaks : List Char) : List Char :=
  match chomping with
  | .strip => []
  | .clip => if endsAtHeader then [] else ['\n']
  | .keep => if endsAtHeader then [] else if breaks.isEmpty then ['\n'] else breaks

/-- Lines of a block scalar whose last line ends with a line break, where the text ended in
it. -/
def closedLines (indent : Nat) (lines : BlockLines) : BlockLines :=
  if lines.cursor.rest.isEmpty && max indent 1 ≤ lines.cursor.column then
    { lines with
      reversed := lines.pendingBreak.toList ++ lines.reversed
      pendingBreak := some '\n' }
  else
    lines

/-- Read a block scalar after its indicator. `parent` is the indentation of the collection that
holds it, if there is one. -/
def readBlock (folds : Bool) (parent : Option Nat) (start : Cursor) :
    Except Error ScalarRead := do
  let (header, cursor) ← readBlockSigns start
  let cursor ← afterBlanks cursor
  if !cursor.atLineEnd then throw .badBlockHeader
  let cursor := cursor.next
  if cursor.rest.head? = some '\t' then throw .tabIndentation
  let given := header.increment.map ((parent.getD 0) + ·)
  let gap ← skipBlockGap given { cursor := cursor } cursor.rest
  let least := (parent.map (· + 1)).getD 0
  let indent := given.getD (max gap.greatest least)
  let found := gap.cursor
  if found.rest.isEmpty then
    let text := emptyBlock header.chomping (found.line = start.line) gap.breaks
    return ⟨String.ofList text, found, true⟩
  else if found.column < indent && parent.all (· < found.column) then
    throw .badIndentation
  else
    let lines ← readBlockLines folds indent (cursor.rest.length + 2)
      { waiting := gap.breaks, cursor := found }
    let lines := if header.chomping = .strip then lines else closedLines indent lines
    return ⟨String.ofList (lines.chomped header.chomping).reverse, lines.cursor, true⟩

end SpnegoRealm.Yaml.Edition12
