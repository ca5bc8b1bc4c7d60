import SpnegoRealm.Negotiation.Token

/-! # Outcomes of a negotiation and the headers they put on a response -/

namespace SpnegoRealm

/-- Who a completed negotiation established. -/
structure Identity where
  principal : String
  token : Option Token
  directGroups : List String
  deriving DecidableEq, Repr

/-- The result of one round. -/
inductive Outcome where
  /-- No credential was presented. -/
  | absent
  /-- The peer has to answer this token. -/
  | pending (token : Token)
  /-- The peer is known. -/
  | authenticated (identity : Identity)
  deriving DecidableEq, Repr

namespace Outcome

/-- The header that carries an outbound token alone. -/
def tokenHeader : String := "kerberos_out_token"

/-- The header that challenges the peer. -/
def challengeHeader : String := "www-authenticate"

/-- The token that an outcome sends to the peer. -/
def token? : Outcome → Option Token
  | absent => none
  | pending token => some token
  | authenticated identity => identity.token

/-- The headers for the response, each name once. A token stands in both headers; an absent
credential is answered with a bare challenge. -/
def responseHeaders : Outcome → List (String × Bytes)
  | absent => [(challengeHeader, Text.utf8 "Negotiate")]
  | outcome =>
    match outcome.token? with
    | some token =>
      [(tokenHeader, token.outHeaderValue), (challengeHeader, token.challengeValue)]
    | none => []

end Outcome

end SpnegoRealm
