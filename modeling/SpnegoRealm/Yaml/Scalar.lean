import SpnegoRealm.Yaml.Escape

/-! # Scalars of a YAML text

What both editions make of the gaps between the words of a scalar, and of the lines of a block
scalar. In plain and quoted scalars a line break between words counts as one blank, and further
breaks count as themselves. A block scalar keeps its lines, or folds them in the same way where
neither neighbour is indented further.
-/

namespace SpnegoRealm.Yaml

/-- The blanks and line breaks met since the last character that was kept. -/
inductive Gap where
  | none
  /-- Blanks within a line, last first. -/
  | blanks (reversed : List Char)
  /-- Line breaks: the first one, unless it was escaped, and the further ones, last first. -/
  | breaks (first : Option Char) (further : List Char)

namespace Gap

/-- Whether anything was met. -/
def isEmpty : Gap → Bool
  | none => true
  | _ => false

/-- Whether a line break was met. -/
def breaksLine : Gap → Bool
  | breaks .. => true
  | _ => false

/-- Meet a blank. Blanks after a line break count for nothing. -/
def addBlank (c : Char) : Gap → Gap
  | none => blanks [c]
  | blanks reversed => blanks (c :: reversed)
  | gap => gap

/-- Meet a line break. Blanks before it count for nothing. -/
def addBreak (c : Char) : Gap → Gap
  | breaks first further => breaks first (c :: further)
  | _ => breaks (some c) []

/-- Keep what the gap stands for, in front of reversed text. Only a line feed folds. -/
def join (reversed : List Char) : Gap → List Char
  | none => reversed
  | blanks gap => gap ++ reversed
  | breaks first further =>
    if first = some '\n' then
      if further.isEmpty then ' ' :: reversed else further ++ reversed
    else
      further ++ (first.toList ++ reversed)

end Gap

/-- A scalar with the place after it, and whether a line break was met since its last
character. -/
structure ScalarRead where
  text : String
  cursor : Cursor
  brokeLine : Bool := false

/-- What becomes of the line breaks at the end of a block scalar. -/
inductive Chomping where
  | strip
  | clip
  | keep
  deriving DecidableEq

/-- The header of a block scalar. -/
structure BlockHeader where
  chomping : Chomping := .clip
  increment : Option Nat := none

/-- Read the signs after the indicator of a block scalar, in either order. -/
def readBlockSigns (cursor : Cursor) : Except Error (BlockHeader × Cursor) :=
  let chomping? (c : Char) : Option Chomping :=
    if c = '+' then some .keep else if c = '-' then some .strip else none
  let increment? (c : Char) : Option Nat :=
    if c.isDigit then some (c.toNat - 0x30) else none
  let signs := cursor.rest.takeWhile fun c => c == '+' || c == '-' || c.isDigit
  let header : Option BlockHeader :=
    match signs with
    | [] => some {}
    | [c] =>
      match chomping? c with
      | some chomping => some { chomping := chomping }
      | none => some { increment := increment? c }
    | [c, d] =>
      match chomping? c, chomping? d with
      | some chomping, none => some { chomping := chomping, increment := increment? d }
      | none, some chomping => some { chomping := chomping, increment := increment? c }
      | _, _ => none
    | _ => none
  match header with
  | none => .error .badBlockHeader
  | some header =>
    if header.increment = some 0 then .error .badBlockHeader
    else .ok (header, cursor.skip signs.length)

/-- The indentation and the empty lines before a line of a block scalar: the line breaks, last
first, the greatest column reached, and the place after them. -/
structure BlockGap where
  breaks : List Char := []
  greatest : Nat := 0
  cursor : Cursor

/-- Skip the indentation and the empty lines before a line of a block scalar. With no
indentation known yet, every leading blank is indentation. A tab is none, and the edition 1.1
does not take one where indentation could go on. -/
def skipBlockGap (indent : Option Nat) (sofar : BlockGap) : List Char → Except Error BlockGap
  | [] =>
    .ok { sofar with
      greatest := max sofar.greatest sofar.cursor.column
      cursor := { sofar.cursor with rest := [] } }
  | c :: rest =>
    let here : Cursor := { sofar.cursor with rest := c :: rest }
    let reached := { sofar with greatest := max sofar.greatest here.column, cursor := here }
    let inside : Bool := indent.all fun limit => here.column < limit
    if c = ' ' && inside then
      skipBlockGap indent { sofar with cursor := here.past c rest } rest
    else if c = '\t' && inside && here.edition == .v11 then .error .tabIndentation
    else if here.isBreak c then
      skipBlockGap indent
        { reached with breaks := c :: sofar.breaks, cursor := here.past c rest } rest
    else
      .ok reached

/-- Lines of a block scalar: the text so far, last character first, the line break that waits to
be written, the breaks of empty lines that follow it, and whether the last line started with a
blank. -/
structure BlockLines where
  reversed : List Char := []
  pendingBreak : Option Char := none
  waiting : List Char := []
  isIndented : Bool := false
  cursor : Cursor

/-- Add a line that starts with a blank or not. -/
def BlockLines.join (lines : BlockLines) (folds startsBlank : Bool) : List Char :=
  let isFolded :=
    folds && lines.pendingBreak == some '\n' && !lines.isIndented && !startsBlank
  if isFolded then
    if lines.waiting.isEmpty then ' ' :: lines.reversed else lines.waiting ++ lines.reversed
  else
    lines.waiting ++ (lines.pendingBreak.toList ++ lines.reversed)

/-- Read the lines of a block scalar at an indentation. In the edition 1.2 the mark for the end
of a document ends a scalar without indentation. -/
def readBlockLines (folds : Bool) (indent : Nat) : Nat → BlockLines → Except Error BlockLines
  | 0, _ => .error .nestingTooDeep
  | steps + 1, lines => do
    let cursor := lines.cursor
    let isEnded := indent = 0 && cursor.edition == .v12 && Edition.v12.atDocumentEnd cursor.rest
    if cursor.column = indent && !cursor.rest.isEmpty && !isEnded then
      let startsBlank := cursor.rest.head?.any isSpace
      let line := cursor.rest.takeWhile (!cursor.isBreak ·)
      let reversed := line.reverse ++ lines.join folds startsBlank
      let atEnd := cursor.lineEnd
      match atEnd.rest with
      | [] =>
        return {
          reversed := reversed
          isIndented := startsBlank
          cursor := atEnd }
      | c :: rest =>
        let gap ← skipBlockGap (some indent) { cursor := atEnd.past c rest } rest
        readBlockLines folds indent steps {
          reversed := reversed
          pendingBreak := some c
          waiting := gap.breaks
          isIndented := startsBlank
          cursor := gap.cursor }
    else
      return lines

/-- The text of some lines, without what chomping takes away. -/
def BlockLines.chomped (lines : BlockLines) (chomping : Chomping) : List Char :=
  match chomping with
  | .strip => lines.reversed
  | .clip => lines.pendingBreak.toList ++ lines.reversed
  | .keep => lines.waiting ++ (lines.pendingBreak.toList ++ lines.reversed)

end SpnegoRealm.Yaml
