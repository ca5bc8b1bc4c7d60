import SpnegoRealm.Text.CasingTable

/-! # Full lowercasing

Every character has one lowercase image, with two exceptions: the dotted capital I becomes an
`i` followed by a combining dot, and a capital sigma becomes the final form where it ends a
word. A sigma ends a word when, past the case-ignorable characters next to it, a cased
character stands before it and none after it.
-/

namespace SpnegoRealm.Text

namespace Casing

/-- The image of a code point under one run of mappings. -/
def Run.image? (run : Run) (code : Nat) : Option Nat :=
  if run.first ≤ code ∧ code ≤ run.last ∧ (code - run.first) % run.step = 0 then
    some (Int.toNat (code + run.offset))
  else
    none

/-- Whether a code point lies in a range. -/
def Span.contains (span : Span) (code : Nat) : Bool :=
  span.first ≤ code && code ≤ span.last

/-- The simple lowercase image of a character. -/
def simpleLower (c : Char) : Char :=
  if c.toNat < 0x80 then
    c.toLower
  else
    match lowercaseRuns.findSome? (·.image? c.toNat) with
    | some code => Char.ofNat code
    | none => c

/-- Whether a character has the property `Cased`. -/
def isCased (c : Char) : Bool :=
  casedSpans.any (·.contains c.toNat)

/-- Whether a character has the property `Case_Ignorable`. -/
def isIgnorable (c : Char) : Bool :=
  ignorableSpans.any (·.contains c.toNat)

/-- Whether the first character that is not case-ignorable is cased. -/
def startsCased (characters : List Char) : Bool :=
  match characters.dropWhile isIgnorable with
  | [] => false
  | c :: _ => isCased c

/-- The lowercase image of a character between what stands `before` it, nearest first, and
what stands `after` it. -/
def lowerImage (before : List Char) (c : Char) (after : List Char) : List Char :=
  if c = 'Σ' then
    if startsCased before && !startsCased after then ['ς'] else ['σ']
  else if c = 'İ' then
    ['i', '\u0307']
  else
    [simpleLower c]

/-- Lowercase the characters that follow `before`, nearest first. -/
def lowerAfter (before : List Char) : List Char → List Char
  | [] => []
  | c :: after => lowerImage before c after ++ lowerAfter (c :: before) after

end Casing

/-- Lowercase a text in full. -/
def lowercase (text : String) : String :=
  String.ofList (Casing.lowerAfter [] text.toList)

/-- Whether two texts agree up to the case of ASCII letters. -/
def eqIgnoringAsciiCase (left right : String) : Bool :=
  left.toList.map Char.toLower == right.toList.map Char.toLower

end SpnegoRealm.Text
