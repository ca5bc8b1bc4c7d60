import SpnegoRealm.Event
import SpnegoRealm.Negotiation.Header
import SpnegoRealm.Negotiation.Rehearsal
import SpnegoRealm.Principal

/-! # Rounds of a negotiation

A round takes the credential of one request. The acceptor opens a context of its own for it,
feeds the context the token, and disposes of the context before anything else happens, however
the token was taken. Only then are the principal's direct groups read; a directory that cannot
tell them leaves the principal without groups.
-/

namespace SpnegoRealm.Negotiation

/-- How tokens are judged. -/
inductive Mode where
  | rehearsal
  | acceptor (mechanism : Mechanism)

/-- What a context made of a token. -/
inductive Verdict where
  | pending (out : Bytes)
  | established (name : String) (out : Option Bytes)
  deriving DecidableEq, Repr

/-- Note a step of a security context. -/
def note (event : ContextEvent) : Activity Unit := Timed.record (.context event)

/-- The name of the peer, which may not be empty. -/
def sourceName (answer : Except NegotiationError (Option String)) :
    Except NegotiationError String := do
  match ← answer with
  | some name =>
    if name = "" then throw (.principalExtractionFailure "security context has no source name")
    else return name
  | none => throw (.principalExtractionFailure "security context has no source name")

/-- Feed a token to an open context. -/
def judge (context : SecurityContext) (token : Bytes) :
    Activity (Except NegotiationError Verdict) := do
  note (.accepted token)
  match context.accept token with
  | .error error => return .error error
  | .ok (.pending out) => return .ok (.pending out)
  | .ok (.established out name) =>
    note .askedForName
    return (sourceName name).map (Verdict.established · out)

/-- Dispose of a context; a failure is a warning. -/
def dispose (context : SecurityContext) : Activity Unit := do
  note .disposed
  match context.dispose with
  | .ok _ => return ()
  | .error _ => Activity.warn .disposalFailed

/-- Open a context, feed it a token and dispose of it. -/
def establish (mechanism : Mechanism) (token : Bytes) :
    Activity (Except NegotiationError Verdict) :=
  match mechanism.openContext with
  | .error error => return .error error
  | .ok context => do
    note .opened
    let verdict ← judge context token
    dispose context
    return verdict

/-- The groups that a principal is a direct member of. -/
def directGroups (directory : Directory) (principal : String) : Activity (List String) := do
  let answer ← Activity.ask (.userGroups principal) (directory.userGroups principal)
  match answer with
  | .ok groups => return groups
  | .error _ =>
    Activity.warn .groupMembershipsUnreadable
    return []

/-- What a round depends on. -/
structure Engine where
  mode : Mode
  stripRealm : Bool
  directory : Directory

namespace Engine

/-- The outcome of a verdict. -/
def conclude (engine : Engine) : Verdict → Activity Outcome
  | .pending out => return .pending (Token.binary out)
  | .established name out => do
    let principal := Principal.stripRealm engine.stripRealm name
    let groups ← directGroups engine.directory principal
    return .authenticated ⟨principal, out.map Token.binary, groups⟩

/-- Let the acceptor answer a credential. -/
def accept (engine : Engine) (mechanism : Mechanism) (header : String) :
    Activity (Except NegotiationError Outcome) :=
  match decodeHeader header with
  | .error error => return .error error
  | .ok token => do
    match ← establish mechanism token with
    | .error error => return .error error
    | .ok verdict => return .ok (← engine.conclude verdict)

/-- Run one round for the credential header of a request, if it has one. -/
def negotiate (engine : Engine) : Option String → Activity (Except NegotiationError Outcome)
  | none => return .ok .absent
  | some header =>
    match engine.mode with
    | .rehearsal => return rehearse header
    | .acceptor mechanism => engine.accept mechanism header

end Engine

end SpnegoRealm.Negotiation
