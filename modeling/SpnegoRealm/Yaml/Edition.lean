/-! # Editions of YAML

The two editions agree on what a text means wherever nobody looks closely. They differ in the
characters that a text may hold and in those that break its lines, which is told here, and in
how strictly the parts of a text have to stand apart, which their lexers tell.
-/

namespace SpnegoRealm.Yaml

/-- An edition of YAML. -/
inductive Edition where
  /-- The edition 1.1. -/
  | v11
  /-- The edition 1.2. -/
  | v12
  deriving DecidableEq, Repr

/-- A blank or a tab. -/
def isSpace (c : Char) : Bool := c == ' ' || c == '\t'

/-- A character that structures flow collections. -/
def isFlowIndicator (c : Char) : Bool :=
  c == ',' || c == '[' || c == ']' || c == '{' || c == '}'

/-- A character of a word: a letter, a digit, a hyphen or an underscore. -/
def isWordChar (c : Char) : Bool := c.isAlphanum || c == '-' || c == '_'

namespace Edition

/-- A character that breaks a line, where all breaks that mean a line feed are line feeds. -/
def isBreak : Edition → Char → Bool
  | v11, c => c == '\n' || c == '\u2028' || c == '\u2029'
  | v12, c => c == '\n'

/-- Write as a line feed every line break that means one. -/
def unifyBreaks (edition : Edition) : List Char → List Char
  | '\r' :: '\n' :: rest => '\n' :: edition.unifyBreaks rest
  | '\r' :: rest => '\n' :: edition.unifyBreaks rest
  | c :: rest =>
    (if edition = v11 && c == '\u0085' then '\n' else c) :: edition.unifyBreaks rest
  | [] => []

/-- A character that a text of the edition 1.1 can hold. -/
def isPrintable (c : Char) : Bool :=
  let code := c.toNat
  code == 0x09 || code == 0x0A || code == 0x0D || (0x20 ≤ code && code ≤ 0x7E) ||
    code == 0x85 || (0xA0 ≤ code && code ≤ 0xD7FF) || (0xE000 ≤ code && code ≤ 0xFFFD) ||
    0x10000 ≤ code

/-- The characters of a text, if it can hold them. In the edition 1.2 a byte order mark in front
of them does not count, and a null character ends them. -/
def characters? : Edition → String → Option (List Char)
  | v11, text =>
    if text.toList.all isPrintable then some (v11.unifyBreaks text.toList) else none
  | v12, text =>
    let characters :=
      match text.toList with
      | '\uFEFF' :: rest => rest
      | characters => characters
    some (v12.unifyBreaks (characters.takeWhile (· != '\x00')))

/-- Whether a text ends here or goes on with a blank, a tab or a line break. -/
def atGap (edition : Edition) : List Char → Bool
  | [] => true
  | c :: _ => isSpace c || edition.isBreak c

/-- Whether a line ends here. -/
def atLineEnd (edition : Edition) : List Char → Bool
  | [] => true
  | c :: _ => edition.isBreak c

/-- Whether a mark for the start of a document stands here. -/
def atDocumentStart (edition : Edition) : List Char → Bool
  | '-' :: '-' :: '-' :: rest => edition.atGap rest
  | _ => false

/-- Whether a mark for the end of a document stands here. -/
def atDocumentEnd (edition : Edition) : List Char → Bool
  | '.' :: '.' :: '.' :: rest => edition.atGap rest
  | _ => false

/-- Whether a mark for the border of a document stands here. -/
def atDocumentMark (edition : Edition) (characters : List Char) : Bool :=
  edition.atDocumentStart characters || edition.atDocumentEnd characters

end Edition

end SpnegoRealm.Yaml
