import SpnegoRealm.Base64
import SpnegoRealm.Error
import SpnegoRealm.Text.Blank

/-! # The credential header

A credential is the word `Negotiate`, in any case of its letters, one blank, and a token in
base 64. Blanks around the whole and around the token count for nothing.
-/

namespace SpnegoRealm.Negotiation

/-- What is wrong with a credential header. -/
inductive HeaderFault where
  | noScheme
  | emptyToken
  | notBase64 (error : Base64.Error)
  deriving DecidableEq, Repr

/-- The wording of a fault. -/
def HeaderFault.message : HeaderFault → String
  | noScheme => "expected 'Negotiate <token>'"
  | emptyToken => "empty negotiation token"
  | notBase64 error => "token is not base64: " ++ error.message

/-- The scheme with the blank that ends it. -/
def schemeStart : List Char := "negotiate ".toList

/-- What follows the scheme, if the header starts with it. -/
def afterScheme? (characters : List Char) : Option (List Char) :=
  if (characters.take schemeStart.length).map Char.toLower = schemeStart then
    some (characters.drop schemeStart.length)
  else
    none

/-- Read the token of a credential header. -/
def readHeader (header : String) : Except HeaderFault Bytes :=
  match afterScheme? (Text.trimChars Text.isBlank header.toList) with
  | none => .error .noScheme
  | some payload =>
    let payload := Text.trimChars Text.isBlank payload
    if payload.isEmpty then
      .error .emptyToken
    else
      (Base64.decode (Text.utf8 (String.ofList payload))).mapError .notBase64

/-- Read the token of a credential header, or refuse the negotiation. -/
def decodeHeader (header : String) : Except NegotiationError Bytes :=
  (readHeader header).mapError fun fault => .malformedHeader fault.message

end SpnegoRealm.Negotiation
