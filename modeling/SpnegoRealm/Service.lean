import SpnegoRealm.Authorization
import SpnegoRealm.Mapping.Rebuild
import SpnegoRealm.Negotiation.Round

/-! # The service of a realm

The service negotiates, tells who a credential stands for, answers membership questions and
rebuilds the role mapping. It is the same service with every call; the snapshot that a call uses
is the one that is current when the call is made.
-/

namespace SpnegoRealm

/-- A service: how it judges tokens, and how it maps roles. -/
structure Service where
  mode : Negotiation.Mode
  mapping : Mapping.Settings

namespace Service

/-- What runs the rounds of a negotiation. -/
def engine (service : Service) : Negotiation.Engine where
  mode := service.mode
  stripRealm := service.mapping.stripRealm
  directory := service.mapping.directory

/-- Run one round of a negotiation. -/
def negotiate (service : Service) (header : Option String) :
    Activity (Except RealmError Outcome) := do
  return (← service.engine.negotiate header).mapError .negotiation

/-- Run one round for a client of the realm, which is told less of what went wrong. -/
def negotiateForClient (service : Service) (header : Option String) :
    Activity (Except ClientError Outcome) := do
  return (← service.negotiate header).mapError RealmError.toClient

/-- Whether a principal belongs to a group through any chain of groups. -/
def isMember (service : Service) (principal group : String) :
    Activity (Except RealmError Bool) := do
  let account := Principal.stripRealm service.mapping.stripRealm principal
  let answer ←
    Activity.ask (.isMember group account) (service.mapping.directory.isMember group account)
  return answer.mapError .directory

/-- Rebuild the role mapping from the content of its file. -/
def rebuild (service : Service) (content : Option Bytes) :
    Activity (Except RealmError Snapshot) :=
  service.mapping.rebuild content

end Service

end SpnegoRealm
