import SpnegoRealm.Negotiation.Round
import SpnegoRealm.Proofs.Time.Yields

/-! # What a round decides and does

A round of an acceptor takes no time. What it decides hangs on the header and on the mechanism alone
(`SpnegoRealm.Negotiation.decision`); what it does is to lead a context through its life and, if a
principal is established, to ask the directory for the principal's groups
(`SpnegoRealm.Negotiation.negotiate_eq_atOnce`).
-/

namespace SpnegoRealm.Negotiation

/-- What an open context makes of a token. -/
def verdict (context : SecurityContext) (token : Bytes) : Except NegotiationError Verdict :=
  match context.accept token with
  | .error error => .error error
  | .ok (.pending out) => .ok (.pending out)
  | .ok (.established out name) => (sourceName name).map (Verdict.established · out)

/-- What the credential of a request comes to, whatever the directory says. -/
def decision (mechanism : Mechanism) (header : String) : Except NegotiationError Verdict := do
  let token ← decodeHeader header
  let context ← mechanism.openContext
  verdict context token

/-- The groups that a round gives to a principal. -/
def groupsOf (directory : Directory) (principal : String) : List String :=
  ((directory.userGroups principal).toOption).getD []

/-- What a verdict comes to with the groups that the directory tells. -/
def outcomeOf (stripRealm : Bool) (directory : Directory) : Verdict → Outcome
  | .pending out => .pending (Token.binary out)
  | .established name out =>
    .authenticated ⟨Principal.stripRealm stripRealm name, out.map Token.binary,
      groupsOf directory (Principal.stripRealm stripRealm name)⟩

/-- What a round answers to a header, or to none. -/
def answerOf (mechanism : Mechanism) (stripRealm : Bool) (directory : Directory) :
    Option String → Except NegotiationError Outcome
  | none => .ok .absent
  | some header => (decision mechanism header).map (outcomeOf stripRealm directory)

/-! ## What happens -/

/-- Whether an open context takes a token as the last one that it needs. -/
def establishes (context : SecurityContext) (token : Bytes) : Bool :=
  match context.accept token with
  | .ok (.established _ _) => true
  | .ok (.pending _) => false
  | .error _ => false

/-- The steps of an open context that is fed a token. -/
def judging (context : SecurityContext) (token : Bytes) : List Event :=
  .context (.accepted token) ::
    if establishes context token then [.context .askedForName] else []

/-- The disposal of a context, with a warning if it fails. -/
def disposal (context : SecurityContext) : List Event :=
  match context.dispose with
  | .ok _ => [.context .disposed]
  | .error _ => [.context .disposed, .warned .disposalFailed]

/-- The life of the context that a credential brings about, if one is opened. -/
def lifeOfContext (mechanism : Mechanism) (header : String) : List Event :=
  match decodeHeader header with
  | .error _ => []
  | .ok token =>
    match mechanism.openContext with
    | .error _ => []
    | .ok context => .context .opened :: (judging context token ++ disposal context)

/-- The question for the groups of a principal. -/
def groupQuestion (directory : Directory) (principal : String) : List Event :=
  .asked (.userGroups principal) :: .answered (.userGroups principal) ::
    match directory.userGroups principal with
    | .ok _ => []
    | .error _ => [.warned .groupMembershipsUnreadable]

/-- What is asked of the directory once a round is decided. -/
def questions (stripRealm : Bool) (directory : Directory) :
    Except NegotiationError Verdict → List Event
  | .ok (.established name _) => groupQuestion directory (Principal.stripRealm stripRealm name)
  | .ok (.pending _) => []
  | .error _ => []

/-- What happens in a round: the life of a context, and then the questions. -/
def eventsOf (mechanism : Mechanism) (stripRealm : Bool) (directory : Directory) :
    Option String → List Event
  | none => []
  | some header =>
    lifeOfContext mechanism header ++
      questions stripRealm directory (decision mechanism header)

/-! ## Rounds take no time -/

variable {mechanism : Mechanism} {context : SecurityContext}

private theorem note_eq_atOnce (event : ContextEvent) :
    note event = .atOnce () [.context event] := rfl

private theorem judge_eq_atOnce (context : SecurityContext) (token : Bytes) :
    judge context token = .atOnce (verdict context token) (judging context token) := by
  unfold judge verdict judging establishes
  rw [note_eq_atOnce]
  refine Timed.atOnce_bind ?_
  cases answer : context.accept token with
  | error error => rfl
  | ok acceptance =>
      cases acceptance with
      | pending out => rfl
      | established out name =>
          simp only [note_eq_atOnce]
          exact Timed.atOnce_bind rfl

private theorem dispose_eq_atOnce (context : SecurityContext) :
    dispose context = .atOnce () (disposal context) := by
  unfold dispose disposal
  rw [note_eq_atOnce]
  cases context.dispose with
  | ok _ => exact Timed.atOnce_bind rfl
  | error _ => exact Timed.atOnce_bind rfl

private theorem establish_of_closed {error : NegotiationError}
    (closed : mechanism.openContext = .error error) (token : Bytes) :
    establish mechanism token = .atOnce (.error error) [] := by
  unfold establish
  rw [closed]
  rfl

private theorem establish_of_open (opened : mechanism.openContext = .ok context) (token : Bytes) :
    establish mechanism token = .atOnce (verdict context token)
      (.context .opened :: (judging context token ++ disposal context)) := by
  unfold establish
  rw [opened]
  simp only [note_eq_atOnce, judge_eq_atOnce, dispose_eq_atOnce]
  exact Timed.atOnce_bind (Timed.atOnce_bind (Timed.atOnce_bind_pure _ _ _))

private theorem directGroups_eq_atOnce (directory : Directory) (principal : String) :
    directGroups directory principal =
      .atOnce (groupsOf directory principal) (groupQuestion directory principal) := by
  unfold directGroups groupsOf groupQuestion
  rw [Activity.ask_eq_atOnce]
  cases directory.userGroups principal with
  | ok groups => exact Timed.atOnce_bind rfl
  | error error => exact Timed.atOnce_bind rfl

private theorem Engine.conclude_eq_atOnce (engine : Engine) (verdict : Verdict) :
    engine.conclude verdict = .atOnce (outcomeOf engine.stripRealm engine.directory verdict)
      (questions engine.stripRealm engine.directory (.ok verdict)) := by
  cases verdict with
  | pending out => rfl
  | established name out =>
      unfold Engine.conclude
      simp only [directGroups_eq_atOnce]
      exact Timed.atOnce_bind_pure _ _ _

private theorem establish_eq_atOnce (mechanism : Mechanism) {header : String} {token : Bytes}
    (decoded : decodeHeader header = .ok token) :
    establish mechanism token =
      .atOnce (decision mechanism header) (lifeOfContext mechanism header) := by
  unfold decision lifeOfContext
  rw [decoded]
  cases opened : mechanism.openContext with
  | error error => exact establish_of_closed opened token
  | ok context => exact establish_of_open opened token

private theorem Engine.accept_eq_atOnce (engine : Engine) (mechanism : Mechanism)
    (header : String) :
    engine.accept mechanism header =
      .atOnce ((decision mechanism header).map (outcomeOf engine.stripRealm engine.directory))
        (lifeOfContext mechanism header ++
          questions engine.stripRealm engine.directory (decision mechanism header)) := by
  unfold Engine.accept
  cases decoded : decodeHeader header with
  | error error =>
      have decided : decision mechanism header = .error error := by
        unfold decision
        rw [decoded]
        rfl
      have nothing : lifeOfContext mechanism header = [] := by
        unfold lifeOfContext
        rw [decoded]
      rw [decided, nothing]
      rfl
  | ok token =>
      simp only [establish_eq_atOnce mechanism decoded]
      refine Timed.atOnce_bind ?_
      cases decision mechanism header with
      | error error => rfl
      | ok verdict =>
          simp only [Engine.conclude_eq_atOnce]
          exact Timed.atOnce_bind_pure _ _ _

/-- **A round of an acceptor.** It decides without the directory, and asks the directory once the
context is disposed of. -/
theorem negotiate_eq_atOnce (mechanism : Mechanism) (stripRealm : Bool) (directory : Directory)
    (header : Option String) :
    Engine.negotiate ⟨.acceptor mechanism, stripRealm, directory⟩ header =
      .atOnce (answerOf mechanism stripRealm directory header)
        (eventsOf mechanism stripRealm directory header) := by
  cases header with
  | none => rfl
  | some header => exact Engine.accept_eq_atOnce _ mechanism header

end SpnegoRealm.Negotiation
