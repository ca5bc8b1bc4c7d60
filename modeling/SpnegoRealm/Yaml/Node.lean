import SpnegoRealm.Yaml.Token

/-! # The nodes of a YAML text

The content of a document is one node: a scalar, a sequence or a mapping. A mapping keeps its
pairs in the order in which they are written, repeated keys included. An alias stands for the
node that its anchor named before. A value or key that is left out is an empty plain scalar.

A tally says how long a text is and how much longer it gets when every alias is replaced by its
node, so that a reader can refuse a short text that stands for a long one.
-/

namespace SpnegoRealm.Yaml

/-- The content of a YAML document. A tag is written out in full. -/
inductive Node where
  | scalar (text : String) (style : Style) (tag : Option String)
  | sequence (items : List Node) (tag : Option String)
  | mapping (pairs : List (Node × Node)) (tag : Option String)
  deriving Inhabited

namespace Node

/-- What stands for content that is left out. -/
def absent : Node := scalar "" .plain none

end Node

/-- The start of every tag of the core schema. -/
def coreTagStart : String := "tag:yaml.org,2002:"

/-- How long a text is: its scalars, its aliases, and the starts and ends of its collections;
the aliases and the anchors among them; and what there is of either once each alias is replaced
by its node, an alias counting whenever its place is reached. -/
structure Tally where
  written : Nat := 0
  aliases : Nat := 0
  anchors : Nat := 0
  replaced : Nat := 0
  jumps : Nat := 0

/-- The node that an anchor names, and its share of the tally. -/
structure Anchored where
  node : Node
  replaced : Nat
  jumps : Nat

/-- How far the tokens of a stream have been read. Every anchor has a number of its own; its node
is known once it has been read to its end. -/
structure Reader where
  edition : Edition
  tokens : List Token
  names : List (String × Nat) := []
  anchored : List (Nat × Anchored) := []
  handles : List (String × Bytes) := []
  tally : Tally := {}
  depth : Nat := 0

/-- A step of reading a stream. -/
abbrev Reading := StateT Reader (Except Error)

namespace Reading

/-- The next token. -/
def peek : Reading Token := do
  match (← get).tokens with
  | [] => return .streamEnd
  | .broken error :: _ => throw error
  | token :: _ => return token

/-- Move past the next token. -/
def skip : Reading Unit :=
  modify fun reader => { reader with tokens := reader.tokens.tail }

/-- Change the tally. -/
def count (change : Tally → Tally) : Reading Unit :=
  modify fun reader => { reader with tally := change reader.tally }

/-- Count a scalar, or an end of a collection. -/
def countOne : Reading Unit :=
  count fun tally =>
    { tally with written := tally.written + 1, replaced := tally.replaced + 1 }

/-- The greatest number of collections inside each other in a text of the edition 1.2. -/
def depthLimit : Nat := 2000

/-- Read what is inside a collection. -/
def inCollection {α : Type} (content : Reading α) : Reading α := do
  countOne
  let depth := (← get).depth
  if depth = depthLimit && (← get).edition = .v12 then throw .nestingTooDeep
  modify fun reader => { reader with depth := depth + 1 }
  let inside ← content
  modify fun reader => { reader with depth := depth }
  countOne
  return inside

/-- Content that is left out. -/
def absent : Reading Node := do
  countOne
  return .absent

/-- What some bytes are as a tag. Bytes that are no text make no local tag, and any other tag
says nothing but that it is there. -/
def tagOfBytes? (bytes : Bytes) : Option String :=
  match Text.ofUtf8? bytes with
  | some tag => some tag
  | none => if bytes.head? = some 0x21 then none else some ""

/-- The tag that a handle and its suffix stand for. -/
def resolveTag (text : TagText) : Reading (Option String) := do
  match (← get).handles.lookup text.handle with
  | some start => return tagOfBytes? (start ++ text.suffix)
  | none =>
    if text.handle = "" then return tagOfBytes? text.suffix
    else if text.handle = "!" then return tagOfBytes? (0x21 :: text.suffix)
    else if text.handle = "!!" then
      return tagOfBytes? (Text.utf8 coreTagStart ++ text.suffix)
    else throw .badTag

/-- The number of the anchor and the tag in front of a node, and whether there is either. -/
structure Properties where
  anchor : Option Nat := none
  tag : Option String := none
  hasTag : Bool := false

/-- Whether a node has properties. -/
def Properties.isSome (properties : Properties) : Bool :=
  properties.anchor.isSome || properties.hasTag

/-- Read one property, if it is there and has not been read yet. An anchor takes its name from
every anchor before it. -/
def property (sofar : Properties) : Reading Properties := do
  match ← peek with
  | .anchor name =>
    if sofar.anchor.isSome then
      return sofar
    else
      skip
      let number := (← get).tally.anchors
      modify fun reader => { reader with names := (name, number) :: reader.names }
      count fun tally => { tally with anchors := number + 1 }
      return { sofar with anchor := some number }
  | .tag text =>
    if sofar.hasTag then
      return sofar
    else
      skip
      return { sofar with tag := ← resolveTag text, hasTag := true }
  | _ => return sofar

/-- Read the properties in front of a node. -/
def properties : Reading Properties := do
  property (← property {})

/-- Read the node after its properties, and remember it if an anchor names it. -/
def remember (properties : Properties) (content : Reading Node) : Reading Node := do
  let before := (← get).tally
  let node ← content
  match properties.anchor with
  | none => return node
  | some number =>
    let after := (← get).tally
    let anchored : Anchored :=
      ⟨node, after.replaced - before.replaced, after.jumps - before.jumps⟩
    modify fun reader => { reader with anchored := (number, anchored) :: reader.anchored }
    return node

/-- The node that an alias stands for. A node cannot hold itself. -/
def followAlias (name : String) : Reading Node := do
  let reader ← get
  let anchored? := (reader.names.lookup name).bind fun number => reader.anchored.lookup number
  match anchored? with
  | none => throw (.unknownAnchor name)
  | some anchored =>
    count fun tally =>
      { tally with
        written := tally.written + 1
        aliases := tally.aliases + 1
        replaced := tally.replaced + anchored.replaced
        jumps := tally.jumps + anchored.jumps + 1 }
    return anchored.node

/-- The scalar that a token and the properties in front of it make. In the edition 1.1 a tag that
is only an exclamation mark does not count; in the edition 1.2 an empty scalar with an anchor is
plain. -/
def scalarOf (properties : Properties) (text : String) (style : Style) : Reading Node := do
  countOne
  match (← get).edition with
  | .v11 =>
    return .scalar text style (if properties.tag = some "!" then none else properties.tag)
  | .v12 =>
    let isPlain := text = "" && style.isQuoted && properties.anchor.isSome
    return .scalar text (if isPlain then .plain else style) properties.tag

/-- Content that is left out after properties. -/
def absentWith (properties : Properties) : Reading Node := do
  if !properties.isSome then throw .missingContent
  remember properties do
    countOne
    return .scalar "" .plain properties.tag

/-- Whether nothing stands before a token in a block sequence without indentation of its own,
or in a block mapping. -/
def endsBlockContent : Token → Bool
  | .key | .value | .blockEnd => true
  | _ => false

/-- Whether a token opens a pair. In the edition 1.2 the key may be left out. -/
def opensPair (token : Token) : Reading Bool := do
  return token = .key || (token = .value && (← get).edition = .v12)

/-- Skip the token that opens a pair; the colon of a pair without a key stays. -/
def skipKey (token : Token) : Reading Unit :=
  if token = .key then skip else pure ()

mutual

/-- Read a node. In a `block` it may be a block collection. Where `indentless` is allowed, a
sequence needs no indentation of its own. -/
def node (block indentless : Bool) : Nat → Reading Node
  | 0 => throw .nestingTooDeep
  | steps + 1 => do
    match ← peek with
    | .alias name =>
      skip
      followAlias name
    | _ =>
      let properties ← properties
      match ← peek with
      | .blockEntry =>
        if indentless then
          remember properties do
            return .sequence (← inCollection (indentlessItems steps)) properties.tag
        else
          absentWith properties
      | .scalar text style =>
        skip
        remember properties (scalarOf properties text style)
      | .flowSequenceStart =>
        skip
        remember properties do
          return .sequence (← inCollection (flowItems true steps)) properties.tag
      | .flowMappingStart =>
        skip
        remember properties do
          return .mapping (← inCollection (flowPairs true steps)) properties.tag
      | .blockSequenceStart =>
        if !block then throw .missingContent
        skip
        remember properties do
          return .sequence (← inCollection (blockItems steps)) properties.tag
      | .blockMappingStart =>
        if !block then throw .missingContent
        skip
        remember properties do
          return .mapping (← inCollection (blockPairs steps)) properties.tag
      | _ => absentWith properties

/-- Read the items of a block sequence. -/
def blockItems : Nat → Reading (List Node)
  | 0 => throw .nestingTooDeep
  | steps + 1 => do
    match ← peek with
    | .blockEntry =>
      skip
      let item ←
        match ← peek with
        | .blockEntry | .blockEnd => absent
        | _ => node true false steps
      return item :: (← blockItems steps)
    | .blockEnd =>
      skip
      return []
    | _ => throw .missingSeparator

/-- Read the items of a block sequence without indentation of its own. -/
def indentlessItems : Nat → Reading (List Node)
  | 0 => throw .nestingTooDeep
  | steps + 1 => do
    match ← peek with
    | .blockEntry =>
      skip
      let next ← peek
      let item ←
        if next = .blockEntry || endsBlockContent next then absent
        else node true false steps
      return item :: (← indentlessItems steps)
    | _ => return []

/-- Read the pairs of a block mapping. -/
def blockPairs : Nat → Reading (List (Node × Node))
  | 0 => throw .nestingTooDeep
  | steps + 1 => do
    let first ← peek
    if ← opensPair first then
      skipKey first
      let key ← if endsBlockContent (← peek) then absent else node true true steps
      let value ← blockValue steps
      return (key, value) :: (← blockPairs steps)
    else if first = .blockEnd then
      skip
      return []
    else
      throw .missingSeparator

/-- Read the value of a pair of a block mapping. -/
def blockValue : Nat → Reading Node
  | 0 => throw .nestingTooDeep
  | steps + 1 => do
    if (← peek) = .value then
      skip
      if endsBlockContent (← peek) then absent else node true true steps
    else
      absent

/-- Read the items of a flow sequence. A pair without braces is a mapping of one pair; if its key
is left out, so is the token after it. -/
def flowItems (first : Bool) : Nat → Reading (List Node)
  | 0 => throw .nestingTooDeep
  | steps + 1 => do
    match ← peek with
    | .flowSequenceEnd =>
      skip
      return []
    | token =>
      if !first then
        if token = .flowEntry then skip else throw .missingSeparator
      match ← peek with
      | .flowSequenceEnd =>
        skip
        return []
      | .key =>
        skip
        let pair ← inCollection do
          let key ←
            match ← peek with
            | .value | .flowEntry | .flowSequenceEnd =>
              skip
              absent
            | _ => node false false steps
          return (key, ← flowValue .flowSequenceEnd steps)
        return .mapping [pair] none :: (← flowItems false steps)
      | _ =>
        let item ← node false false steps
        return item :: (← flowItems false steps)

/-- Read the pairs of a flow mapping. -/
def flowPairs (first : Bool) : Nat → Reading (List (Node × Node))
  | 0 => throw .nestingTooDeep
  | steps + 1 => do
    match ← peek with
    | .flowMappingEnd =>
      skip
      return []
    | token =>
      if !first then
        if token = .flowEntry then skip else throw .missingSeparator
      let token ← peek
      if token = .flowMappingEnd then
        skip
        return []
      else if ← opensPair token then
        skipKey token
        let key ←
          match ← peek with
          | .value | .flowEntry | .flowMappingEnd => absent
          | _ => node false false steps
        let value ← flowValue .flowMappingEnd steps
        return (key, value) :: (← flowPairs false steps)
      else
        let key ← node false false steps
        let value ← absent
        return (key, value) :: (← flowPairs false steps)

/-- Read the value of a pair in a flow collection that ends with a token. -/
def flowValue (closing : Token) : Nat → Reading Node
  | 0 => throw .nestingTooDeep
  | steps + 1 => do
    if (← peek) = .value then
      skip
      let next ← peek
      if next = .flowEntry || next = closing then absent else node false false steps
    else
      absent

end

end Reading

end SpnegoRealm.Yaml
