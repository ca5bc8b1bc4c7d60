import SpnegoRealm.Base64

/-! # Tokens

A token is the bytes that one side of a negotiation hands to the other. An acceptor's tokens
are binary; a rehearsal's tokens are plain text, which a header may carry as it is.
-/

namespace SpnegoRealm

/-- The bytes of one round of a negotiation. -/
structure Token where
  bytes : Bytes
  isPlainText : Bool
  deriving DecidableEq, Repr

namespace Token

/-- A token made by an acceptor. -/
def binary (bytes : Bytes) : Token := ⟨bytes, false⟩

/-- A readable token. -/
def plainText (text : String) : Token := ⟨Text.utf8 text, true⟩

/-- The token in base 64. -/
def base64 (token : Token) : String := Base64.encode token.bytes

/-- A description that keeps the bytes secret. -/
def description (token : Token) : String := s!"NegotiationToken({token.bytes.length} bytes)"

/-- Whether a byte may stand in a header value: a tab, or anything from the blank on except
the delete character. -/
def isHeaderByte (byte : UInt8) : Bool :=
  byte == 0x09 || (0x20 ≤ byte && byte != 0x7F)

/-- Whether a byte may stand in a header value that is made of text: a tab, the blank or a visible
ASCII character. -/
def isTextByte (byte : UInt8) : Bool :=
  byte == 0x09 || (0x20 ≤ byte && byte < 0x7F)

/-- The header value that a text makes, if all of its bytes may stand there. -/
def textValue? (text : String) : Option Bytes :=
  let bytes := Text.utf8 text
  if bytes.all isTextByte then some bytes else none

/-- The header value for a text that holds a token in base 64; it is empty if the text makes
none. -/
def encodedValue (text : String) : Bytes := (textValue? text).getD []

/-- The value of the header that carries the token alone: verbatim if it is plain text and may
stand in a header, else base 64. -/
def outHeaderValue (token : Token) : Bytes :=
  if token.isPlainText && token.bytes.all isHeaderByte then
    token.bytes
  else
    encodedValue token.base64

/-- The text of the challenge header that carries the token. -/
def challenge (token : Token) : String := "Negotiate " ++ token.base64

/-- The value of the challenge header that carries the token. -/
def challengeValue (token : Token) : Bytes := encodedValue token.challenge

end Token

end SpnegoRealm
