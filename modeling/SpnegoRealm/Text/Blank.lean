/-! # Blank characters and trimming

A blank is a character with the property `White_Space`. Trimming removes the characters of a
class from both ends of a text and nothing from its middle.
-/

namespace SpnegoRealm.Text

/-- The characters with the property `White_Space`. -/
def isBlank (c : Char) : Bool :=
  let code := c.toNat
  (0x09 ≤ code && code ≤ 0x0D) || code == 0x20 || code == 0x85 || code == 0xA0 ||
    code == 0x1680 || (0x2000 ≤ code && code ≤ 0x200A) || code == 0x2028 || code == 0x2029 ||
    code == 0x202F || code == 0x205F || code == 0x3000

/-- Remove the characters of a class from both ends. -/
def trimChars (inClass : Char → Bool) (characters : List Char) : List Char :=
  ((characters.dropWhile inClass).reverse.dropWhile inClass).reverse

/-- Remove the characters of a class from both ends of a text. -/
def trimBy (inClass : Char → Bool) (text : String) : String :=
  String.ofList (trimChars inClass text.toList)

/-- Remove the blanks at both ends of a text. -/
def trim (text : String) : String :=
  trimBy isBlank text

/-- Whether a text has no character but blanks. -/
def isBlankText (text : String) : Bool :=
  text.toList.all isBlank

end SpnegoRealm.Text
