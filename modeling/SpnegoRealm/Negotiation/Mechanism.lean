import SpnegoRealm.Error
import SpnegoRealm.Text.Utf8

/-! # Acceptor mechanisms

A mechanism opens security contexts. A context accepts one token, may then be asked for the
name of its peer, and is disposed of at the end. Each of these steps can fail.
-/

namespace SpnegoRealm

/-- What a context answers to a token that it does not refuse. -/
inductive Acceptance where
  /-- The peer has to answer these bytes. -/
  | pending (out : Bytes)
  /-- The peer is known; the name is what the context answers when asked for it. -/
  | established (out : Option Bytes) (name : Except NegotiationError (Option String))

/-- A security context. -/
structure SecurityContext where
  accept : Bytes → Except NegotiationError Acceptance
  dispose : Except NegotiationError Unit

/-- A source of security contexts, bound to the acceptor's key. -/
structure Mechanism where
  openContext : Except NegotiationError SecurityContext

/-- What happened to a security context. -/
inductive ContextEvent where
  | opened
  | accepted (token : Bytes)
  | askedForName
  | disposed
  deriving DecidableEq, Repr

namespace ContextEvent

/-- The tokens that contexts were fed, in order. -/
def received (steps : List ContextEvent) : List Bytes :=
  steps.filterMap fun step =>
    match step with
    | accepted token => some token
    | _ => none

/-- The number of contexts that were disposed of. -/
def disposals (steps : List ContextEvent) : Nat := steps.count disposed

end ContextEvent

namespace Mechanism

/-- A mechanism whose key cannot be used. -/
def withoutCredentials : Mechanism :=
  ⟨.error (.credentialFailure "keytab rejected")⟩

/-- A mechanism whose contexts all answer the same. -/
def answering (answer : Except NegotiationError Acceptance) (failsDisposal : Bool) : Mechanism :=
  ⟨.ok {
    accept := fun _ => answer
    dispose := if failsDisposal then .error (.tokenFailure "dispose failed") else .ok () }⟩

end Mechanism

end SpnegoRealm
