import SpnegoRealm.Yaml.Edition11.Lexer
import SpnegoRealm.Yaml.Edition12.Lexer
import SpnegoRealm.Yaml.Node

/-! # The document of a YAML text

A text is a stream of documents, of which a reader here takes one. In the edition 1.1 the whole
stream has to make sense. In the edition 1.2 what follows the document only matters if it is
the start of another one.
-/

namespace SpnegoRealm.Yaml

namespace Reading

/-- Read the directives in front of a document. In the edition 1.1 the handles of all of them
count; in the edition 1.2 only that of the last one does. -/
def directives (versioned : Bool) : Nat → Reading Bool
  | 0 => return false
  | steps + 1 => do
    let edition := (← get).edition
    let handles := (← get).handles
    match ← peek with
    | .version major minor =>
      skip
      if versioned then throw .repeatedDirective
      if edition = .v11 then
        if major != 1 || (minor != 1 && minor != 2) then throw .badDirective
      else
        modify fun reader => { reader with handles := [] }
      let _ ← directives true steps
      return true
    | .handle name start =>
      skip
      if (handles.lookup name).isSome then throw .repeatedDirective
      let others := if edition = .v11 then handles else []
      modify fun reader => { reader with handles := (name, start) :: others }
      let _ ← directives versioned steps
      return true
    | _ => return false

/-- Skip the marks at which documents end. -/
def documentEnds : Nat → Reading Unit
  | 0 => return
  | steps + 1 => do
    if (← peek) = .documentEnd then
      skip
      documentEnds steps

/-- Whether a token cannot be part of the content of a document. -/
def endsDocument : Token → Bool
  | .version .. | .handle .. | .documentStart | .documentEnd | .streamEnd => true
  | _ => false

/-- Read the content of a document after the mark at which it starts. -/
def markedContent (steps : Nat) : Reading Node := do
  if endsDocument (← peek) then absent else node true false steps

/-- Read the first document of a stream, if there is one. In the edition 1.2 marks at which
documents end may stand in front of it. -/
def firstDocument (steps : Nat) : Reading (Option Node) := do
  if (← get).edition = .v12 then documentEnds steps
  let directed ← directives false steps
  match ← peek with
  | .documentStart =>
    skip
    some <$> markedContent steps
  | token =>
    if directed then throw .missingDocumentStart
    else if token = .streamEnd then return none
    else some <$> node true false steps

/-- Make sure that a node starts here. -/
def expectNode : Reading Unit := do
  match ← peek with
  | .alias name => throw (.unknownAnchor name)
  | _ =>
    let properties ← properties
    match ← peek with
    | .scalar .. | .flowSequenceStart | .flowMappingStart | .blockSequenceStart
    | .blockMappingStart => return
    | _ => if !properties.isSome then throw .missingContent

/-- Whether another document starts after the one that was read. Without a mark at its end it
needs one at its start. -/
def anotherDocument (isClosed : Bool) (steps : Nat) : Reading Bool := do
  modify fun reader => { reader with handles := [] }
  documentEnds steps
  let directed ← directives false steps
  match ← peek with
  | .documentStart =>
    skip
    if !endsDocument (← peek) then expectNode
    return true
  | token =>
    if directed then throw .missingDocumentStart
    else if token = .streamEnd then return false
    else if isClosed then
      expectNode
      return true
    else
      throw .missingDocumentStart

/-- Read the end of the only document. In the edition 1.2 directives have to follow a mark, and
anything that makes no sense is left alone. -/
def closing (steps : Nat) : Reading Unit := do
  let next ← peek
  match (← get).edition with
  | .v11 =>
    documentEnds steps
    if (← peek) != .streamEnd then throw .severalDocuments
  | .v12 =>
    let isClosed := next = .documentEnd
    if isClosed then skip
    else
      match next with
      | .version .. | .handle .. => throw .missingDocumentEnd
      | _ => pure ()
    match (anotherDocument isClosed steps).run (← get) with
    | .ok (true, _) => throw .severalDocuments
    | _ => return

end Reading

/-- The greatest number of times that aliases may be followed in a text of the edition 1.1, for
each part of it. -/
def jumpsPerPart : Nat := 100

/-- From this number on the aliases in a text of the edition 1.2 have to be few for the anchors in
it. -/
def manyAliases : Nat := 100

/-- The greatest number of aliases for an anchor, where there are many. -/
def aliasesPerAnchor : Nat := 10

/-- The greatest number of parts that aliases may stand for in a text of the edition 1.2. -/
def replacementLimit : Nat := 1000000

/-- Whether the aliases of a text stand for more than its length allows. -/
def Tally.isExcessive (tally : Tally) : Edition → Bool
  | .v11 => jumpsPerPart * tally.written < tally.jumps
  | .v12 =>
    (manyAliases ≤ tally.aliases && aliasesPerAnchor * tally.anchors < tally.aliases) ||
      replacementLimit < tally.replaced - (tally.written - tally.aliases)

namespace Edition

/-- The tokens of a text. -/
def tokens : Edition → List Char → Array Token
  | v11 => Edition11.tokens
  | v12 => Edition12.tokens

/-- Read the content of the only document of a text, if it has one. -/
def read (edition : Edition) (text : String) : Except Error (Option Node) :=
  match edition.characters? text with
  | none => .error .badCharacter
  | some characters => do
    let tokens := (edition.tokens characters).toList
    let steps := 8 * tokens.length + 8
    let reading := do
      let content ← Reading.firstDocument steps
      if content.isSome then Reading.closing steps
      return content
    let (content, reader) ← reading.run { edition := edition, tokens := tokens }
    if reader.tally.isExcessive edition then .error .tooManyAliases else .ok content

end Edition

end SpnegoRealm.Yaml
