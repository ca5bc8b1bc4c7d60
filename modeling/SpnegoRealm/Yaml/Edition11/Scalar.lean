import SpnegoRealm.Yaml.Scalar

/-! # Scalars in the edition 1.1

A plain scalar goes on over the lines that are indented further than its surroundings, a quoted
scalar over all lines up to the mark of a document.
-/

namespace SpnegoRealm.Yaml.Edition11

/-- Whether a plain scalar ends before this character. -/
def endsPlain (inFlow : Bool) (c : Char) (rest : List Char) : Bool :=
  (c == ':' && Edition.v11.atGap rest) || (inFlow && isFlowIndicator c)

/-- Read a plain scalar. `indent` is the least column at which it may go on in a block. -/
def readPlain (inFlow : Bool) (indent : Nat) (reversed : List Char) (gap : Gap) (place : Cursor) :
    List Char → Except Error ScalarRead
  | [] => .ok ⟨String.ofList reversed.reverse, { place with rest := [] }, gap.breaksLine⟩
  | c :: rest =>
    let here : Cursor := { place with rest := c :: rest }
    let done : ScalarRead := ⟨String.ofList reversed.reverse, here, gap.breaksLine⟩
    if here.isBreak c then
      readPlain inFlow indent reversed (gap.addBreak c) (here.past c rest) rest
    else if isSpace c then
      if gap.breaksLine && here.column < indent && c == '\t' then
        .error .tabIndentation
      else
        readPlain inFlow indent reversed (gap.addBlank c) (here.past c rest) rest
    else if gap.breaksLine && !inFlow && here.column < indent then .ok done
    else if here.column = 0 && Edition.v11.atDocumentMark (c :: rest) then .ok done
    else if c = '#' && !gap.isEmpty then .ok done
    else if inFlow && c == ':' && (rest.head?.any fun d => isFlowIndicator d || d == '?') then
      .error .badPlainScalar
    else if endsPlain inFlow c rest then .ok done
    else
      readPlain inFlow indent (c :: gap.join reversed) .none (here.past c rest) rest

/-- Read a quoted scalar after its first quote. In single quotes a quote is written twice; in
double quotes a backslash starts an escape. `pending` characters have been read already. -/
def readQuoted (style : Style) (reversed : List Char) (gap : Gap) (pending : Nat)
    (place : Cursor) : List Char → Except Error ScalarRead
  | [] => .error .unclosedScalar
  | c :: rest =>
    let here : Cursor := { place with rest := c :: rest }
    let beyond := here.past c rest
    match pending with
    | further + 1 => readQuoted style reversed gap further beyond rest
    | 0 =>
      if here.column = 0 && Edition.v11.atDocumentMark (c :: rest) then .error .unclosedScalar
      else if here.isBreak c then
        readQuoted style reversed (gap.addBreak c) 0 beyond rest
      else if isSpace c then
        readQuoted style reversed (gap.addBlank c) 0 beyond rest
      else
        let joined := gap.join reversed
        let done : ScalarRead := ⟨String.ofList joined.reverse, beyond, false⟩
        match style with
        | .singleQuoted =>
          if c = '\'' then
            if rest.head? = some '\'' then readQuoted style (c :: joined) .none 1 beyond rest
            else .ok done
          else readQuoted style (c :: joined) .none 0 beyond rest
        | _ =>
          if c = '"' then .ok done
          else if c = '\\' then
            if rest.head?.any here.isBreak then
              readQuoted style joined (.breaks none []) 1 beyond rest
            else
              match escape? rest with
              | some (escaped, width) =>
                readQuoted style (escaped :: joined) .none width beyond rest
              | none => .error .badEscape
          else readQuoted style (c :: joined) .none 0 beyond rest

/-- Read the header of a block scalar up to the end of its line. -/
def readBlockHeader (cursor : Cursor) : Except Error (BlockHeader × Cursor) := do
  let (header, cursor) ← readBlockSigns cursor
  let cursor := cursor.skipWhile isSpace
  let cursor := if cursor.rest.head? = some '#' then cursor.lineEnd else cursor
  if cursor.atLineEnd then return (header, cursor.next) else throw .badBlockHeader

/-- Read a block scalar after its indicator. `parent` is the indentation of the collection that
holds it, if there is one. -/
def readBlock (folds : Bool) (parent : Option Nat) (cursor : Cursor) :
    Except Error ScalarRead := do
  let (header, cursor) ← readBlockHeader cursor
  let given := header.increment.map ((parent.getD 0) + ·)
  let gap ← skipBlockGap given { cursor := cursor } cursor.rest
  let least := (parent.map (· + 1)).getD 0
  let indent := given.getD (max gap.greatest (max least 1))
  let lines ← readBlockLines folds indent (cursor.rest.length + 2)
    { waiting := gap.breaks, cursor := gap.cursor }
  return ⟨String.ofList (lines.chomped header.chomping).reverse, lines.cursor, true⟩

end SpnegoRealm.Yaml.Edition11
