import SpnegoRealm.Proofs.Mapping.Load
import SpnegoRealm.Service

/-! # Calls that leave the snapshot alone

A service publishes snapshots only when it rebuilds. Its rounds of negotiation and its answers about
memberships go by in silence, so the snapshot that is current stays so
(`SpnegoRealm.Service.published_negotiate` and `SpnegoRealm.Service.published_isMember`).
-/

namespace SpnegoRealm

namespace Negotiation

private theorem keepsTo_note (event : ContextEvent) : (note event).KeepsTo Event.Silent :=
  Timed.keepsTo_record trivial

private theorem keepsTo_judge (context : SecurityContext) (token : Bytes) :
    (judge context token).KeepsTo Event.Silent := by
  refine (keepsTo_note _).bind fun _ => ?_
  split
  next => exact Timed.keepsTo_pure _
  next => exact Timed.keepsTo_pure _
  next => exact (keepsTo_note _).bind fun _ => Timed.keepsTo_pure _

private theorem keepsTo_dispose (context : SecurityContext) :
    (dispose context).KeepsTo Event.Silent := by
  refine (keepsTo_note _).bind fun _ => ?_
  split
  next => exact Timed.keepsTo_pure _
  next => exact Activity.keepsTo_warn trivial

private theorem keepsTo_establish (mechanism : Mechanism) (token : Bytes) :
    (establish mechanism token).KeepsTo Event.Silent := by
  unfold establish
  split
  next => exact Timed.keepsTo_pure _
  next context _ =>
    exact (keepsTo_note _).bind fun _ => (keepsTo_judge context token).bind fun _ =>
      (keepsTo_dispose context).bind fun _ => Timed.keepsTo_pure _

private theorem keepsTo_directGroups (directory : Directory) (principal : String) :
    (directGroups directory principal).KeepsTo Event.Silent := by
  refine (Activity.keepsTo_ask trivial trivial _).bind fun answer => ?_
  split
  next => exact Timed.keepsTo_pure _
  next => exact (Activity.keepsTo_warn trivial).bind fun _ => Timed.keepsTo_pure _

namespace Engine

variable (engine : Engine)

private theorem keepsTo_conclude (verdict : Verdict) :
    (engine.conclude verdict).KeepsTo Event.Silent := by
  cases verdict with
  | pending out => exact Timed.keepsTo_pure _
  | established name out =>
      exact (keepsTo_directGroups _ _).bind fun _ => Timed.keepsTo_pure _

private theorem keepsTo_accept (mechanism : Mechanism) (header : String) :
    (engine.accept mechanism header).KeepsTo Event.Silent := by
  unfold accept
  split
  next => exact Timed.keepsTo_pure _
  next token _ =>
    refine (keepsTo_establish mechanism token).bind fun verdict => ?_
    split
    next => exact Timed.keepsTo_pure _
    next verdict => exact (engine.keepsTo_conclude verdict).bind fun _ => Timed.keepsTo_pure _

private theorem keepsTo_negotiate (header : Option String) :
    (engine.negotiate header).KeepsTo Event.Silent := by
  cases header with
  | none => exact Timed.keepsTo_pure _
  | some header =>
      unfold negotiate
      cases engine.mode with
      | rehearsal => exact Timed.keepsTo_pure _
      | acceptor mechanism => exact engine.keepsTo_accept mechanism header

end Engine

end Negotiation

namespace Service

variable {service : Service} {start : Instant}

/-- The snapshot that is current before a round of negotiation is current after it. -/
theorem published_negotiate {header : Option String}
    {trace : Trace Event (Except RealmError Outcome)}
    (run : service.negotiate header start = .ok trace) (current : Snapshot) :
    Mapping.published current trace.events = current := by
  have keeps : (service.negotiate header).KeepsTo Event.Silent :=
    (service.engine.keepsTo_negotiate header).bind fun _ => Timed.keepsTo_pure _
  exact Mapping.published_of_silent (keeps start trace run).allowed current

/-- The snapshot that is current before a question for membership is current after it. -/
theorem published_isMember {principal group : String} {trace : Trace Event (Except RealmError Bool)}
    (run : service.isMember principal group start = .ok trace) (current : Snapshot) :
    Mapping.published current trace.events = current := by
  have keeps : (service.isMember principal group).KeepsTo Event.Silent :=
    (Activity.keepsTo_ask trivial trivial _).bind fun _ => Timed.keepsTo_pure _
  exact Mapping.published_of_silent (keeps start trace run).allowed current

end Service

end SpnegoRealm
