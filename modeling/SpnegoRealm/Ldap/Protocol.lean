import SpnegoRealm.Text.Utf8

/-! # Requests and replies of a directory server

A connection carries at most three requests: a bind, a search and an unbind. The server may
refuse the connection, and it may close it in place of any answer.
-/

namespace SpnegoRealm.Ldap

/-- How far below its base a search looks. -/
inductive Scope where
  | object
  | subtree
  deriving DecidableEq, Repr

/-- A search. -/
structure Search where
  base : String
  scope : Scope
  filter : String
  attributes : List String
  deriving DecidableEq, Repr

/-- A request on a connection. -/
inductive Request where
  | bind (dn password : String)
  | search (search : Search)
  | unbind
  deriving DecidableEq, Repr

/-- How a request ended. -/
structure Result where
  code : Nat := 0
  matched : String := ""
  text : String := ""
  deriving DecidableEq, Repr

namespace Result

/-- The code of a request that succeeded. -/
def successCode : Nat := 0

/-- The code of a search whose base does not exist. -/
def noSuchObjectCode : Nat := 32

/-- The names of the result codes. -/
def names : List (Nat × String) :=
  [(0, "success"), (1, "operationsError"), (2, "protocolError"), (3, "timeLimitExceeded"),
    (4, "sizeLimitExceeded"), (5, "compareFalse"), (6, "compareTrue"),
    (7, "authMethodNotSupported"), (8, "strongerAuthRequired"), (10, "referral"),
    (11, "adminLimitExceeded"), (12, "unavailableCriticalExtension"),
    (13, "confidentialityRequired"), (14, "saslBindInProgress"), (16, "noSuchAttribute"),
    (17, "undefinedAttributeType"), (18, "inappropriateMatching"), (19, "constraintViolation"),
    (20, "attributeOrValueExists"), (21, "invalidAttributeSyntax"), (32, "noSuchObject"),
    (33, "aliasProblem"), (34, "invalidDNSyntax"), (36, "aliasDereferencingProblem"),
    (48, "inappropriateAuthentication"), (49, "invalidCredentials"),
    (50, "insufficientAccessRights"), (51, "busy"), (52, "unavailable"),
    (53, "unwillingToPerform"), (54, "loopDetect"), (64, "namingViolation"),
    (65, "objectClassViolation"), (66, "notAllowedOnNonLeaf"), (67, "notAllowedOnRDN"),
    (68, "entryAlreadyExists"), (69, "objectClassModsProhibited"), (71, "affectsMultipleDSAs"),
    (80, "other")]

/-- The name of a result. -/
def name (result : Result) : String := (names.lookup result.code).getD "unknown"

/-- The wording of a result that is no success. -/
def message (result : Result) : String :=
  s!"LDAP operation result: rc={result.code} ({result.name}), dn: \"{result.matched}\", text: " ++
    "\"" ++ result.text ++ "\""

/-- Whether a request succeeded. -/
def isSuccess (result : Result) : Bool := result.code == successCode

end Result

/-- An object as a server sends it. -/
structure RawEntry where
  dn : String
  attributes : List (String × List Bytes) := []
  deriving DecidableEq, Repr

/-- A server. An answer that does not come is a connection that the server closed. -/
structure Server where
  /-- The reason for refusing a connection. -/
  refusal : Option String
  bind : String → String → Option Result
  search : Search → Option (List RawEntry × Result)

namespace Server

/-- A server that nobody can reach. -/
def unreachable (reason : String) : Server where
  refusal := some reason
  bind _ _ := none
  search _ := none

end Server

end SpnegoRealm.Ldap
