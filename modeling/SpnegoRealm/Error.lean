/-! # What can go wrong, and how it is told

Three layers of errors. Negotiation and directory errors say what failed. A realm error is one
of these, or a failure to load or to watch the role mapping. What a client is told is narrower:
negotiation errors pass unchanged, and everything else is an internal error that carries the
text of its cause.
-/

namespace SpnegoRealm

/-- Why a negotiation was refused. -/
inductive NegotiationError where
  | malformedHeader (detail : String)
  | credentialFailure (detail : String)
  | tokenFailure (detail : String)
  | principalExtractionFailure (detail : String)
  deriving DecidableEq, Repr

/-- The wording of a refused negotiation. -/
def NegotiationError.message : NegotiationError → String
  | .malformedHeader detail => "malformed negotiation header: " ++ detail
  | .credentialFailure detail => "acceptor credential failure: " ++ detail
  | .tokenFailure detail => "negotiation token rejected: " ++ detail
  | .principalExtractionFailure detail => "could not extract principal: " ++ detail

/-- Why a directory query has no answer. -/
inductive DirectoryError where
  | connection (detail : String)
  | query (detail : String)
  deriving DecidableEq, Repr

/-- The wording of a failed directory query. -/
def DirectoryError.message : DirectoryError → String
  | .connection detail => "directory connection failed: " ++ detail
  | .query detail => "directory query failed: " ++ detail

/-- Why a call into the realm failed. -/
inductive RealmError where
  | negotiation (error : NegotiationError)
  | directory (error : DirectoryError)
  | mappingLoad (path reason : String)
  | watchRegistration (path reason : String)
  deriving DecidableEq, Repr

/-- The wording of a failed call. -/
def RealmError.message : RealmError → String
  | .negotiation error => error.message
  | .directory error => error.message
  | .mappingLoad path reason => s!"role mapping load failed for {path}: {reason}"
  | .watchRegistration path reason => s!"watch registration failed for {path}: {reason}"

/-- What a client of the realm is told. -/
inductive ClientError where
  | negotiation (error : NegotiationError)
  | internal (detail : String)
  deriving DecidableEq, Repr

/-- The wording of what a client is told. -/
def ClientError.message : ClientError → String
  | .negotiation error => error.message
  | .internal detail => "internal error: " ++ detail

/-- Only negotiation errors reach a client as they are. -/
def RealmError.toClient : RealmError → ClientError
  | .negotiation error => .negotiation error
  | error => .internal error.message

end SpnegoRealm
