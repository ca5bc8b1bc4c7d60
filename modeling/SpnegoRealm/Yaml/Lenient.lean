import SpnegoRealm.Base64
import SpnegoRealm.Text.Blank
import SpnegoRealm.Text.Numeral
import SpnegoRealm.Yaml.Document

/-! # Reading a YAML text for what is asked

Here the type that is asked for decides what a scalar stands for. A truth value or a number may
be quoted or tagged in any way. A text must not be tagged as something else; one that is tagged
as binary stands for the text that its base 64 encodes. A mapping has each key once, where keys
with different tags are different, and the pairs under a merge key `<<` count where their keys
are not given.
-/

namespace SpnegoRealm.Yaml.Lenient

/-- What a tag says about a node. -/
inductive TagKind where
  | none
  /-- The tag that asks for no particular type. -/
  | nonspecific
  | null
  | bool
  | integer
  | real
  | sequence
  | mapping
  | time
  | binary
  | text
  | degrees
  | radians
  | other
  deriving DecidableEq, Repr

/-- The kinds of the tags with a known name. -/
def TagKind.named : List (String × TagKind) :=
  [("null", .null), ("bool", .bool), ("int", .integer), ("float", .real), ("seq", .sequence),
    ("map", .mapping), ("time", .time), ("timestamp", .time), ("binary", .binary),
    ("str", .text), ("degrees", .degrees), ("radians", .radians)]

/-- The kind of a tag. A known name may stand in the core schema or be local. -/
def TagKind.ofTag : Option String → TagKind
  | .none => .none
  | some tag =>
    if tag = "!" then .nonspecific
    else
      let known := named.find? fun entry =>
        tag == coreTagStart ++ entry.1 || tag == "!" ++ entry.1
      (known.map (·.2)).getD .other

/-- Whether a scalar with a tag of this kind can be a text as it is written. -/
def TagKind.admitsText : TagKind → Bool
  | .none | .nonspecific | .text | .other => true
  | _ => false

/-- Whether a scalar is written like null. -/
def isNullish (text : String) (style : Style) : Bool :=
  style == .plain && ["", "~", "null"].contains (String.ofList (text.toList.map Char.toLower))

/-- Whether a node is absent where it may be: it is tagged or written like null, or it is empty
and has no quotes. -/
def isAbsent : Node → Bool
  | .scalar text style tag =>
    TagKind.ofTag tag == .null || isNullish text style || (text == "" && !style.isQuoted)
  | _ => false

/-- The bytes that a binary scalar stands for. -/
def binary? (text : String) : Option Bytes :=
  match Base64.decode (Text.utf8 (String.ofList (text.toList.filter (!Text.isBlank ·)))) with
  | .ok bytes => some bytes
  | .error _ => none

/-- The text of a scalar that is not null. -/
def text? : Node → Option String
  | .scalar text style tag =>
    let kind := TagKind.ofTag tag
    if isNullish text style && kind != .text then none
    else if kind = .binary then (binary? text).bind Text.ofUtf8?
    else if kind.admitsText then some text
    else none
  | _ => none

/-- The truth value of a scalar. -/
def bool? : Node → Option Bool
  | .scalar text _ _ =>
    let word := String.ofList ((Text.trim text).toList.map Char.toLower)
    if ["true", "yes", "y", "on"].contains word then some true
    else if ["false", "no", "n", "off"].contains word then some false
    else none
  | _ => none

/-- The radix that a numeral names with a letter of either case, and the digits after it. -/
def radixAndDigits (characters : List Char) : Nat × List Char :=
  match characters with
  | '0' :: letter :: digits => Text.Numeral.radixAndDigits ('0' :: letter.toLower :: digits)
  | _ => Text.Numeral.radixAndDigits characters

/-- The natural number below a limit that a scalar writes; underscores between its digits do
not count. -/
def natural? (limit : Nat) : Node → Option Nat
  | .scalar text _ _ => do
    let characters := Text.trimChars Text.isBlank text.toList
    let (radix, digits) := radixAndDigits (Text.Numeral.unsigned characters)
    let value ← Text.Numeral.whole? radix (digits.filter (· != '_'))
    if value < limit then some value else none
  | _ => none

/-- The items of a sequence. What is written like null is a sequence without items, and so is a
binary scalar without bytes. -/
def items? : Node → Option (List Node)
  | .sequence items _ => some items
  | .scalar text style tag =>
    if isNullish text style then some []
    else if TagKind.ofTag tag = .binary && (binary? text).any (·.isEmpty) then some []
    else none
  | .mapping .. => none

/-- Whether a node is the key that merges mappings. -/
def isMergeKey : Node → Bool
  | .scalar text style tag => text == "<<" && style == .plain && tag.isNone
  | _ => false

/-- What tells keys apart: the text as written and the kind of the tag. -/
structure Key where
  text : String
  kind : TagKind
  deriving DecidableEq, Repr

/-- A pair of a mapping, with the name that its key stands for. -/
structure Entry where
  key : Key
  name : String
  value : Node

/-- The pair of a key and a value. -/
def keyedPair? (key value : Node) : Option Entry :=
  match key with
  | .scalar text _ tag =>
    (text? key).map fun name => ⟨⟨text, TagKind.ofTag tag⟩, name, value⟩
  | _ => none

/-- Keep the first of the pairs with a key. -/
def firstOfEach (entries : List Entry) : List Entry :=
  entries.foldl (fun kept entry =>
    if kept.any (·.key == entry.key) then kept else kept ++ [entry]) []

/-- The pairs that are given in a mapping, and after them those merged into it. -/
structure Entries where
  given : List Entry := []
  merged : List Entry := []

/-- The pairs of a mapping, the given ones first. -/
def Entries.all (entries : Entries) : List Entry := entries.given ++ entries.merged

mutual

/-- The pairs that a node under a merge key stands for: those of a mapping, or of the mappings in
a sequence, the last of which comes first. -/
def merged? : Node → Option (List Entry)
  | .mapping pairs _ => (collect? pairs).map Entries.all
  | .sequence items _ => mergedItems? items
  | .scalar text style _ => if isNullish text style then some [] else none

/-- The pairs that some nodes stand for, those of the last one first. -/
def mergedItems? : List Node → Option (List Entry)
  | [] => some []
  | node :: rest => do
    let first ← merged? node
    let others ← mergedItems? rest
    return others ++ first

/-- Sort out the pairs of a mapping. What is merged last comes first. -/
def collect? : List (Node × Node) → Option Entries
  | [] => some {}
  | pair :: rest => do
    let first ← collectPair? pair
    let others ← collect? rest
    return ⟨first.given ++ others.given, others.merged ++ first.merged⟩

/-- Sort out one pair of a mapping. -/
def collectPair? : Node × Node → Option Entries
  | (key, value) =>
    if isMergeKey key then (merged? value).map fun merged => { merged := merged }
    else (keyedPair? key value).map fun entry => { given := [entry] }

end

/-- The pairs of a mapping, in the order in which they count. What is written like null is a
mapping without pairs. A key may be given once; merged pairs count where their keys are not
there yet. -/
def entries? : Node → Option (List (String × Node))
  | .mapping pairs _ => do
    let entries ← collect? pairs
    if (entries.given.map (·.key)).Nodup then
      some ((firstOfEach entries.all).map fun entry => (entry.name, entry.value))
    else
      none
  | .scalar text style _ => if isNullish text style then some [] else none
  | .sequence .. => none

/-- The fields of a record. No two keys may stand for the same name. -/
def fields? (node : Node) : Option (List (String × Node)) := do
  let entries ← entries? node
  if (entries.map (·.1)).Nodup then some entries else none

/-- The content of a text. A text without content is null. -/
def read? (text : String) : Option Node :=
  match Edition.v12.read text with
  | .ok content => some (content.getD .absent)
  | .error _ => none

end SpnegoRealm.Yaml.Lenient
