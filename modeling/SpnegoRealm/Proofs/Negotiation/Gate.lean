import SpnegoRealm.Proofs.Except
import SpnegoRealm.Proofs.Negotiation.Round
import SpnegoRealm.Service

/-! # Who passes the gate

A request is authenticated if and only if its credential decodes to a token that an open context
takes as the last one, and the context then tells a name that is not empty
(`SpnegoRealm.Negotiation.decision_eq_established_iff`). Every refusal has one of five causes
(`SpnegoRealm.Negotiation.Refused`). Neither the answers of the directory nor a failed disposal make
a difference to who passes (`SpnegoRealm.Negotiation.round_decided_by_context`).
-/

namespace SpnegoRealm.Negotiation

/-! ## Names -/

/-- What a round is refused with when its context tells no name. -/
def nameless : NegotiationError :=
  .principalExtractionFailure "security context has no source name"

variable {answer : Except NegotiationError (Option String)} {name : String}
  {error : NegotiationError}

private theorem sourceName_eq_ok_iff :
    sourceName answer = .ok name ↔ answer = .ok (some name) ∧ name ≠ "" := by
  unfold sourceName
  rw [bind_eq_ok_iff]
  constructor
  · rintro ⟨told, rfl, named⟩
    cases told with
    | none => cases named
    | some told =>
        by_cases empty : told = ""
        · simp only [empty, ↓reduceIte] at named
          cases named
        · simp only [empty, ↓reduceIte] at named
          obtain rfl := Except.ok.inj named
          exact ⟨rfl, empty⟩
  · rintro ⟨rfl, filled⟩
    refine ⟨some name, rfl, ?_⟩
    simp only [filled, ↓reduceIte]
    rfl

private theorem sourceName_eq_error_iff :
    sourceName answer = .error error ↔
      answer = .error error ∨ (answer = .ok none ∨ answer = .ok (some "")) ∧ error = nameless := by
  unfold sourceName
  rw [bind_eq_error_iff]
  refine or_congr_right ?_
  constructor
  · rintro ⟨told, rfl, failed⟩
    cases told with
    | none => exact ⟨Or.inl rfl, (Except.error.inj failed).symm⟩
    | some told =>
        by_cases empty : told = ""
        · subst empty
          exact ⟨Or.inr rfl, (Except.error.inj failed).symm⟩
        · simp only [empty, ↓reduceIte] at failed
          cases failed
  · rintro ⟨rfl | rfl, rfl⟩
    · exact ⟨none, rfl, rfl⟩
    · exact ⟨some "", rfl, rfl⟩

/-! ## Decisions -/

variable {mechanism : Mechanism} {header : String} {context : SecurityContext} {token : Bytes}
  {out : Option Bytes}

/-- A token establishes a principal if and only if the context takes it as the last one and tells a
name. -/
theorem verdict_eq_established_iff :
    verdict context token = .ok (.established name out) ↔
      context.accept token = .ok (.established out (.ok (some name))) ∧ name ≠ "" := by
  unfold verdict
  cases accepted : context.accept token with
  | error error => simp
  | ok acceptance =>
      cases acceptance with
      | pending bytes => simp
      | established bytes told =>
          simp only [map_eq_ok_iff, sourceName_eq_ok_iff, Verdict.established.injEq,
            Except.ok.injEq, Acceptance.established.injEq]
          constructor
          · rintro ⟨other, ⟨rfl, filled⟩, rfl, rfl⟩
            exact ⟨⟨rfl, rfl⟩, filled⟩
          · rintro ⟨⟨rfl, rfl⟩, filled⟩
            exact ⟨name, ⟨rfl, filled⟩, rfl, rfl⟩

/-- A token leaves a context pending if and only if the mechanism says so. -/
theorem verdict_eq_pending_iff {bytes : Bytes} :
    verdict context token = .ok (.pending bytes) ↔ context.accept token = .ok (.pending bytes) := by
  unfold verdict
  cases accepted : context.accept token with
  | error error => simp
  | ok acceptance =>
      cases acceptance with
      | pending other => simp
      | established other told => simp [map_eq_ok_iff]

private theorem verdict_eq_error_iff :
    verdict context token = .error error ↔
      context.accept token = .error error ∨ ∃ out told,
        context.accept token = .ok (.established out told) ∧ sourceName told = .error error := by
  unfold verdict
  cases accepted : context.accept token with
  | error error => simp
  | ok acceptance =>
      cases acceptance with
      | pending other => simp
      | established other told =>
          rw [map_eq_error_iff]
          constructor
          · intro untold
            exact Or.inr ⟨other, told, rfl, untold⟩
          · rintro (impossible | ⟨_, _, same, untold⟩)
            · cases impossible
            · obtain ⟨rfl, rfl⟩ := Acceptance.established.inj (Except.ok.inj same)
              exact untold

/-- A credential comes to a verdict if and only if it decodes, a context is opened and that context
comes to it. -/
theorem decision_eq_ok_iff {judgement : Verdict} :
    decision mechanism header = .ok judgement ↔ ∃ token context,
      decodeHeader header = .ok token ∧ mechanism.openContext = .ok context ∧
        verdict context token = .ok judgement := by
  unfold decision
  simp only [bind_eq_ok_iff]
  constructor
  · rintro ⟨token, decoded, context, opened, judged⟩
    exact ⟨token, context, decoded, opened, judged⟩
  · rintro ⟨token, context, decoded, opened, judged⟩
    exact ⟨token, decoded, context, opened, judged⟩

/-- A credential stands for a principal when its token completes a context that tells a name. -/
theorem decision_eq_established_iff :
    decision mechanism header = .ok (.established name out) ↔ ∃ token context,
      decodeHeader header = .ok token ∧ mechanism.openContext = .ok context ∧
        context.accept token = .ok (.established out (.ok (some name))) ∧ name ≠ "" := by
  simp only [decision_eq_ok_iff, verdict_eq_established_iff]

/-- Why a credential is refused. -/
inductive Refused (mechanism : Mechanism) (header : String) : NegotiationError → Prop
  | malformed {detail : String} (undecoded : decodeHeader header = .error (.malformedHeader detail)) :
    Refused mechanism header (.malformedHeader detail)
  | unopened {token : Bytes} {error : NegotiationError} (decoded : decodeHeader header = .ok token)
    (closed : mechanism.openContext = .error error) : Refused mechanism header error
  | rejected {token : Bytes} {context : SecurityContext} {error : NegotiationError}
    (decoded : decodeHeader header = .ok token) (opened : mechanism.openContext = .ok context)
    (rejects : context.accept token = .error error) : Refused mechanism header error
  | untold {token : Bytes} {context : SecurityContext} {out : Option Bytes}
    {error : NegotiationError} (decoded : decodeHeader header = .ok token)
    (opened : mechanism.openContext = .ok context)
    (establishes : context.accept token = .ok (.established out (.error error))) :
    Refused mechanism header error
  | nameless {token : Bytes} {context : SecurityContext} {out : Option Bytes}
    {told : Option String} (decoded : decodeHeader header = .ok token)
    (opened : mechanism.openContext = .ok context)
    (establishes : context.accept token = .ok (.established out (.ok told)))
    (missing : told = none ∨ told = some "") : Refused mechanism header nameless

/-- A header that does not decode is malformed. -/
theorem decodeHeader_error (failed : decodeHeader header = .error error) :
    ∃ detail, error = .malformedHeader detail := by
  unfold decodeHeader at failed
  cases read : readHeader header with
  | error fault =>
      rw [read] at failed
      exact ⟨fault.message, (Except.error.inj failed).symm⟩
  | ok token =>
      rw [read] at failed
      cases failed

/-- A credential comes to an error if and only if it is refused for it. -/
theorem decision_eq_error_iff : decision mechanism header = .error error ↔
    Refused mechanism header error := by
  unfold decision
  simp only [bind_eq_error_iff, verdict_eq_error_iff, sourceName_eq_error_iff]
  constructor
  · rintro (undecoded | ⟨token, decoded, closed | ⟨context, opened, rejects |
      ⟨out, told, establishes, untold | ⟨missing, rfl⟩⟩⟩⟩)
    · obtain ⟨detail, rfl⟩ := decodeHeader_error undecoded
      exact .malformed undecoded
    · exact .unopened decoded closed
    · exact .rejected decoded opened rejects
    · subst untold
      exact .untold decoded opened establishes
    · rcases missing with rfl | rfl
      · exact .nameless decoded opened establishes (Or.inl rfl)
      · exact .nameless decoded opened establishes (Or.inr rfl)
  · intro refused
    cases refused with
    | malformed undecoded => exact Or.inl undecoded
    | unopened decoded closed => exact Or.inr ⟨_, decoded, Or.inl closed⟩
    | rejected decoded opened rejects =>
        exact Or.inr ⟨_, decoded, Or.inr ⟨_, opened, Or.inl rejects⟩⟩
    | untold decoded opened establishes =>
        exact Or.inr ⟨_, decoded, Or.inr ⟨_, opened, Or.inr ⟨_, _, establishes, Or.inl rfl⟩⟩⟩
    | nameless decoded opened establishes missing =>
        refine Or.inr ⟨_, decoded, Or.inr ⟨_, opened, Or.inr ⟨_, _, establishes, Or.inr ⟨?_, rfl⟩⟩⟩⟩
        exact missing.imp (congrArg _) (congrArg _)

/-! ## Rounds -/

/-- An outcome without the groups of the principal. -/
def withoutGroups : Outcome → Outcome
  | .absent => .absent
  | .pending token => .pending token
  | .authenticated identity => .authenticated { identity with directGroups := [] }

private theorem withoutGroups_outcomeOf (stripRealm : Bool) (directory other : Directory)
    (judgement : Verdict) : withoutGroups (outcomeOf stripRealm directory judgement) =
      withoutGroups (outcomeOf stripRealm other judgement) := by
  cases judgement <;> rfl

/-- A mechanism whose contexts are disposed of in another way. -/
def disposingBy (disposed : Except NegotiationError Unit) (mechanism : Mechanism) : Mechanism :=
  ⟨mechanism.openContext.map ({ · with dispose := disposed })⟩

private theorem decision_disposingBy (disposed : Except NegotiationError Unit)
    (mechanism : Mechanism)
    (header : String) : decision (disposingBy disposed mechanism) header =
      decision mechanism header := by
  unfold decision disposingBy
  cases mechanism.openContext <;> rfl

/-- A round of an acceptor always comes to its answer. -/
theorem yields_negotiate (mechanism : Mechanism) (stripRealm : Bool) (directory : Directory)
    (header : Option String) :
    (Engine.negotiate ⟨.acceptor mechanism, stripRealm, directory⟩ header).Yields
      (answerOf mechanism stripRealm directory header) := by
  rw [negotiate_eq_atOnce]
  exact Timed.yields_atOnce _ _

/-- A round authenticates an identity if and only if its credential establishes a name that comes
to it. -/
theorem answerOf_eq_authenticated_iff {stripRealm : Bool} {directory : Directory}
    {header : Option String} {identity : Identity} :
    answerOf mechanism stripRealm directory header = .ok (.authenticated identity) ↔
      ∃ text name out, header = some text ∧
        decision mechanism text = .ok (.established name out) ∧
        identity = ⟨Principal.stripRealm stripRealm name, out.map Token.binary,
          groupsOf directory (Principal.stripRealm stripRealm name)⟩ := by
  cases header with
  | none => simp [answerOf]
  | some text =>
      simp only [answerOf, map_eq_ok_iff]
      constructor
      · rintro ⟨judgement, decided, concluded⟩
        cases judgement with
        | pending bytes => cases concluded
        | established name out =>
            exact ⟨text, name, out, rfl, decided, (Outcome.authenticated.inj concluded).symm⟩
      · rintro ⟨_, name, out, same, decided, rfl⟩
        obtain rfl := Option.some.inj same
        exact ⟨_, decided, rfl⟩

/-- A round is to be continued if and only if its credential leaves the context pending. -/
theorem answerOf_eq_pending_iff {stripRealm : Bool} {directory : Directory}
    {header : Option String} {answer : Token} :
    answerOf mechanism stripRealm directory header = .ok (.pending answer) ↔
      ∃ text bytes, header = some text ∧ decision mechanism text = .ok (.pending bytes) ∧
        answer = Token.binary bytes := by
  cases header with
  | none => simp [answerOf]
  | some text =>
      simp only [answerOf, map_eq_ok_iff]
      constructor
      · rintro ⟨judgement, decided, concluded⟩
        cases judgement with
        | established name out => cases concluded
        | pending bytes =>
            exact ⟨text, bytes, rfl, decided, (Outcome.pending.inj concluded).symm⟩
      · rintro ⟨_, bytes, same, decided, rfl⟩
        obtain rfl := Option.some.inj same
        exact ⟨_, decided, rfl⟩

private theorem answerOf_eq_absent_iff {stripRealm : Bool} {directory : Directory}
    {header : Option String} :
    answerOf mechanism stripRealm directory header = .ok .absent ↔ header = none := by
  cases header with
  | none => simp [answerOf]
  | some text =>
      simp only [answerOf, map_eq_ok_iff, reduceCtorEq, iff_false]
      rintro ⟨judgement, _, concluded⟩
      cases judgement <;> cases concluded

/-- A round fails if and only if its credential is refused. -/
theorem answerOf_eq_error_iff {stripRealm : Bool} {directory : Directory}
    {header : Option String} :
    answerOf mechanism stripRealm directory header = .error error ↔
      ∃ text, header = some text ∧ Refused mechanism text error := by
  cases header with
  | none => simp [answerOf]
  | some text =>
      simp only [answerOf, map_eq_error_iff, decision_eq_error_iff, Option.some.injEq,
        exists_eq_left']

/-- Up to the groups of the principal, the directory makes no difference to an answer. -/
theorem map_withoutGroups_answerOf (mechanism : Mechanism) (stripRealm : Bool)
    (directory other : Directory) (header : Option String) :
    (answerOf mechanism stripRealm directory header).map withoutGroups =
      (answerOf mechanism stripRealm other header).map withoutGroups := by
  cases header with
  | none => rfl
  | some text =>
      simp only [answerOf]
      cases decision mechanism text with
      | error error => rfl
      | ok judgement =>
          exact congrArg Except.ok (withoutGroups_outcomeOf stripRealm directory other judgement)

/-- How the disposal ends makes no difference to an answer. -/
theorem answerOf_disposingBy (disposed : Except NegotiationError Unit) (mechanism : Mechanism)
    (stripRealm : Bool) (directory : Directory) (header : Option String) :
    answerOf (disposingBy disposed mechanism) stripRealm directory header =
      answerOf mechanism stripRealm directory header := by
  cases header with
  | none => rfl
  | some text =>
      simp only [answerOf, decision_disposingBy]

/-! ## What a client is told -/

/-- A round always comes to an answer. -/
theorem exists_yields_negotiate (engine : Engine) (header : Option String) :
    ∃ answer, (engine.negotiate header).Yields answer := by
  obtain ⟨mode, stripRealm, directory⟩ := engine
  cases mode with
  | acceptor mechanism => exact ⟨_, yields_negotiate mechanism stripRealm directory header⟩
  | rehearsal =>
      cases header with
      | none => exact ⟨_, Timed.yields_pure _⟩
      | some header => exact ⟨_, Timed.yields_pure _⟩

/-- A client hears of refused negotiations, and of nothing else. -/
theorem exists_yields_negotiateForClient (service : Service) (header : Option String) :
    ∃ answer : Except NegotiationError Outcome,
      (service.negotiateForClient header).Yields (answer.mapError ClientError.negotiation) := by
  obtain ⟨answer, yields⟩ := exists_yields_negotiate service.engine header
  have told : (answer.mapError RealmError.negotiation).mapError RealmError.toClient =
      answer.mapError ClientError.negotiation := by
    cases answer <;> rfl
  refine ⟨answer, ?_⟩
  rw [← told]
  have served : (service.negotiate header).Yields (answer.mapError RealmError.negotiation) :=
    yields.bind (Timed.yields_pure _)
  exact served.bind (Timed.yields_pure _)

/-- **The context decides a round.** A round of an acceptor always comes to an answer. It
authenticates exactly the name that a context tells for the token of the credential, and asks for
another round exactly if the context does; every refusal is a malformed header, an error of the
mechanism as it is, or a missing or empty name. The directory decides on nothing but the groups of
the principal, and a failed disposal on nothing at all. A client never hears of an internal
error. -/
theorem round_decided_by_context (mechanism : Mechanism) (stripRealm : Bool)
    (directory : Directory) (header : Option String) (start : Instant) :
    ∃ trace,
      Engine.negotiate ⟨.acceptor mechanism, stripRealm, directory⟩ header start = .ok trace ∧
      (∀ identity, trace.value = .ok (.authenticated identity) ↔
        ∃ text token context out name, header = some text ∧ decodeHeader text = .ok token ∧
          mechanism.openContext = .ok context ∧
          context.accept token = .ok (.established out (.ok (some name))) ∧ name ≠ "" ∧
          identity = ⟨Principal.stripRealm stripRealm name, out.map Token.binary,
            groupsOf directory (Principal.stripRealm stripRealm name)⟩) ∧
      (∀ answer, trace.value = .ok (.pending answer) ↔
        ∃ text token context bytes, header = some text ∧ decodeHeader text = .ok token ∧
          mechanism.openContext = .ok context ∧ context.accept token = .ok (.pending bytes) ∧
          answer = Token.binary bytes) ∧
      (trace.value = .ok .absent ↔ header = none) ∧
      (∀ error, trace.value = .error error ↔
        ∃ text, header = some text ∧ Refused mechanism text error) ∧
      (∀ other later, ∃ trace',
        Engine.negotiate ⟨.acceptor mechanism, stripRealm, other⟩ header later = .ok trace' ∧
          trace'.value.map withoutGroups = trace.value.map withoutGroups) ∧
      (∀ disposed later, ∃ trace',
        Engine.negotiate ⟨.acceptor (disposingBy disposed mechanism), stripRealm, directory⟩
            header later = .ok trace' ∧
          trace'.value = trace.value) ∧
      ∀ service : Service, ∃ told, service.negotiateForClient header start = .ok told ∧
        ∀ detail, told.value ≠ .error (.internal detail) := by
  obtain ⟨trace, run, value⟩ := yields_negotiate mechanism stripRealm directory header start
  refine ⟨trace, run, ?authenticated, ?pending, ?absent, ?refused, ?directories, ?disposals,
    ?client⟩
  case authenticated =>
    intro identity
    rw [value, answerOf_eq_authenticated_iff]
    simp only [decision_eq_established_iff]
    constructor
    · rintro ⟨text, name, out, presented, ⟨token, context, decoded, opened, told, filled⟩, same⟩
      exact ⟨text, token, context, out, name, presented, decoded, opened, told, filled, same⟩
    · rintro ⟨text, token, context, out, name, presented, decoded, opened, told, filled, same⟩
      exact ⟨text, name, out, presented, ⟨token, context, decoded, opened, told, filled⟩, same⟩
  case pending =>
    intro answer
    rw [value, answerOf_eq_pending_iff]
    simp only [decision_eq_ok_iff, verdict_eq_pending_iff]
    constructor
    · rintro ⟨text, bytes, presented, ⟨token, context, decoded, opened, told⟩, same⟩
      exact ⟨text, token, context, bytes, presented, decoded, opened, told, same⟩
    · rintro ⟨text, token, context, bytes, presented, decoded, opened, told, same⟩
      exact ⟨text, bytes, presented, ⟨token, context, decoded, opened, told⟩, same⟩
  case absent =>
    rw [value]
    exact answerOf_eq_absent_iff
  case refused =>
    intro error
    rw [value]
    exact answerOf_eq_error_iff
  case directories =>
    intro other later
    obtain ⟨trace', run', value'⟩ := yields_negotiate mechanism stripRealm other header later
    refine ⟨trace', run', ?_⟩
    rw [value', value]
    exact map_withoutGroups_answerOf mechanism stripRealm other directory header
  case disposals =>
    intro disposed later
    obtain ⟨trace', run', value'⟩ :=
      yields_negotiate (disposingBy disposed mechanism) stripRealm directory header later
    refine ⟨trace', run', ?_⟩
    rw [value', value]
    exact answerOf_disposingBy disposed mechanism stripRealm directory header
  case client =>
    intro service
    obtain ⟨answer, yields⟩ := exists_yields_negotiateForClient service header
    obtain ⟨told, asked, heard⟩ := yields start
    refine ⟨told, asked, fun detail internal => ?_⟩
    rw [heard] at internal
    cases answer <;> cases internal

end SpnegoRealm.Negotiation
