import Mathlib.Data.List.Forall2
import SpnegoRealm.Proofs.Negotiation.Round
import SpnegoRealm.Questions

/-! # The life of security contexts

Calls of an acceptor come one after the other, and its mechanism may behave differently at each. A
call whose header decodes opens at most one context, which accepts the token once, may be asked for
a name, and is disposed of once, all before the directory is asked
(`SpnegoRealm.Negotiation.Call.Disciplined`). So the tokens that a mechanism received and the
contexts that were disposed of tell which headers were well formed
(`SpnegoRealm.Negotiation.contexts_are_disciplined`).
-/

namespace SpnegoRealm.Negotiation

/-- A call of an acceptor: how the mechanism and the directory behave at this call, and the header
that it is for. -/
structure Call where
  mechanism : Mechanism
  stripRealm : Bool
  directory : Directory
  header : Option String

/-- The token of a header, if there is one and it is well formed. -/
def token? (header : Option String) : Option Bytes :=
  header.bind fun text => (decodeHeader text).toOption

/-- Calls one after the other, with the answers of all. -/
def callAll : List Call → Activity (List (Except NegotiationError Outcome))
  | [] => return []
  | call :: rest => do
    let first ←
      Engine.negotiate ⟨.acceptor call.mechanism, call.stripRealm, call.directory⟩ call.header
    let others ← callAll rest
    return first :: others

namespace Call

/-- What happens in a call. -/
def events (call : Call) : List Event :=
  eventsOf call.mechanism call.stripRealm call.directory call.header

/-- The token that a context of a call is fed, if the header decodes and a context is opened. -/
def admitted? (call : Call) : Option Bytes :=
  (token? call.header).bind fun token =>
    (call.mechanism.openContext.toOption).map fun _ => token

/-- The events of a call keep to the life of a context. -/
structure Disciplined (call : Call) (events : List (Instant × Event)) : Prop where
  /-- Without a token or without a context nothing happens to any context. -/
  unopened : call.admitted? = none → contextSteps events = []
  /-- An open context accepts the decoded token, is asked for a name at most once and only after it
  took the token as the last one, and is disposed of at the end. -/
  opened : ∀ token context, token? call.header = some token →
    call.mechanism.openContext = .ok context →
      ∃ asked, contextSteps events = .opened :: .accepted token :: (asked ++ [.disposed]) ∧
        (asked = [] ∨ asked = [.askedForName] ∧
          ∃ out name, context.accept token = .ok (.established out name))
  /-- Nothing is asked of the directory before the last step of a context. -/
  ordered : ∃ before after, events = before ++ after ∧ Questions.asked before = [] ∧
    contextSteps after = []

end Call

/-! ## The steps of one call -/

section Steps

variable {mechanism : Mechanism} {context : SecurityContext} {header : String} {token : Bytes}

/-- The steps of contexts among events at one instant are those among the events. -/
theorem contextSteps_atOnce (happens : List Event) (start : Instant) :
    contextSteps (happens.map (start, ·)) = happens.filterMap Event.contextStep? :=
  List.filterMap_map

private theorem asked_atOnce (happens : List Event) (start : Instant) :
    Questions.asked (happens.map (start, ·)) = happens.filterMap Questions.asked? :=
  List.filterMap_map

/-- A context that is fed a token accepts it, and is asked for a name if it took the token as the
last one. -/
theorem filterMap_contextStep_judging (context : SecurityContext) (token : Bytes) :
    (judging context token).filterMap Event.contextStep? =
      .accepted token :: if establishes context token then [.askedForName] else [] := by
  unfold judging
  split <;> rfl

/-- A disposal is one step of a context, whether or not it succeeds. -/
theorem filterMap_contextStep_disposal (context : SecurityContext) :
    (disposal context).filterMap Event.contextStep? = [.disposed] := by
  unfold disposal
  split <;> rfl

/-- Questions to a directory are no steps of a context. -/
theorem filterMap_contextStep_questions (stripRealm : Bool) (directory : Directory)
    (judgement : Except NegotiationError Verdict) :
    (questions stripRealm directory judgement).filterMap Event.contextStep? = [] := by
  unfold questions groupQuestion
  split
  next =>
    split <;> rfl
  next => rfl
  next => rfl

private theorem filterMap_asked_lifeOfContext (mechanism : Mechanism) (header : String) :
    (lifeOfContext mechanism header).filterMap Questions.asked? = [] := by
  unfold lifeOfContext
  split
  next => rfl
  next token _ =>
    split
    next => rfl
    next context _ =>
      have judged : (judging context token).filterMap Questions.asked? = [] := by
        unfold judging
        split <;> rfl
      have disposed : (disposal context).filterMap Questions.asked? = [] := by
        unfold disposal
        split <;> rfl
      rw [List.filterMap_cons_none rfl, List.filterMap_append, judged, disposed,
        List.append_nil]

/-- A context that is opened for a decoded token is fed it and disposed of. -/
theorem lifeOfContext_of_open (decoded : decodeHeader header = .ok token)
    (opened : mechanism.openContext = .ok context) : lifeOfContext mechanism header =
      .context .opened :: (judging context token ++ disposal context) := by
  unfold lifeOfContext
  rw [decoded]
  simp only [opened]

end Steps

namespace Call

/-- A call has no context, or leads one through its whole life. -/
theorem filterMap_contextStep_events (call : Call) :
    (call.admitted? = none ∧ call.events.filterMap Event.contextStep? = []) ∨
      ∃ token context, token? call.header = some token ∧ call.mechanism.openContext = .ok context ∧
        call.admitted? = some token ∧ call.events.filterMap Event.contextStep? =
          .opened :: .accepted token ::
            ((if establishes context token then [.askedForName] else []) ++ [.disposed]) := by
  obtain ⟨mechanism, stripRealm, directory, header⟩ := call
  unfold events eventsOf admitted?
  cases header with
  | none => exact Or.inl ⟨rfl, rfl⟩
  | some header =>
      simp only [List.filterMap_append, filterMap_contextStep_questions, List.append_nil]
      cases decoded : decodeHeader header with
      | error error =>
          refine Or.inl ⟨?_, ?_⟩
          · simp [token?, decoded, Except.toOption]
          · simp [lifeOfContext, decoded]
      | ok token =>
          have given : token? (some header) = some token := by
            simp [token?, decoded, Except.toOption]
          cases opened : mechanism.openContext with
          | error error =>
              refine Or.inl ⟨?_, ?_⟩
              · simp [given, Except.toOption]
              · simp [lifeOfContext, decoded, opened]
          | ok context =>
              refine Or.inr ⟨token, context, given, rfl, ?_, ?_⟩
              · simp [given, Except.toOption]
              · have opening : (Event.context .opened).contextStep? = some .opened := rfl
                rw [lifeOfContext_of_open decoded opened, List.filterMap_cons_some opening,
                  List.filterMap_append, filterMap_contextStep_judging,
                  filterMap_contextStep_disposal]
                rfl

/-- In a call, a context receives the token that it is fed. -/
theorem received_events (call : Call) :
    ContextEvent.received (call.events.filterMap Event.contextStep?) =
      call.admitted?.toList := by
  rcases call.filterMap_contextStep_events with ⟨none, nothing⟩ | ⟨token, _, _, _, some, steps⟩
  · rw [none, nothing]
    rfl
  · rw [some, steps]
    split <;> rfl

/-- In a call, a context that is fed a token is disposed of once. -/
theorem disposals_events (call : Call) :
    ContextEvent.disposals (call.events.filterMap Event.contextStep?) =
      call.admitted?.toList.length := by
  rcases call.filterMap_contextStep_events with ⟨none, nothing⟩ | ⟨token, _, _, _, some, steps⟩
  · rw [none, nothing]
    rfl
  · rw [some, steps]
    split <;> rfl

/-- Every call keeps to the life of a context. -/
theorem disciplined (call : Call) (start : Instant) :
    call.Disciplined (call.events.map (start, ·)) where
  unopened none := by
    rw [contextSteps_atOnce]
    rcases call.filterMap_contextStep_events with ⟨_, nothing⟩ | ⟨token, _, _, _, some, _⟩
    · exact nothing
    · rw [none] at some
      cases some
  opened token context given opened := by
    rw [contextSteps_atOnce]
    rcases call.filterMap_contextStep_events with ⟨none, _⟩ | ⟨_, _, given', opened', _, steps⟩
    · simp [admitted?, given, opened, Except.toOption] at none
    · obtain rfl := Option.some.inj (given.symm.trans given')
      obtain rfl := Except.ok.inj (opened.symm.trans opened')
      refine ⟨_, steps, ?_⟩
      cases establishes : establishes context token with
      | false => exact Or.inl rfl
      | true =>
          refine Or.inr ⟨rfl, ?_⟩
          unfold Negotiation.establishes at establishes
          cases accepted : context.accept token with
          | error error => simp [accepted] at establishes
          | ok acceptance =>
              cases acceptance with
              | pending out => simp [accepted] at establishes
              | established out name => exact ⟨out, name, rfl⟩
  ordered := by
    unfold events eventsOf
    cases call.header with
    | none => exact ⟨[], [], rfl, rfl, rfl⟩
    | some header =>
        refine ⟨_, _, List.map_append, ?_, ?_⟩
        · rw [asked_atOnce]
          exact filterMap_asked_lifeOfContext _ _
        · rw [contextSteps_atOnce]
          exact filterMap_contextStep_questions _ _ _

end Call

/-! ## Calls one after the other -/

/-- Calls one after the other take no time and do what each of them does. -/
theorem callAll_eq_atOnce (calls : List Call) :
    callAll calls = .atOnce
      (calls.map fun call => answerOf call.mechanism call.stripRealm call.directory call.header)
      (calls.flatMap Call.events) := by
  induction calls with
  | nil => rfl
  | cons call rest ih =>
      unfold callAll
      simp only [negotiate_eq_atOnce, ih]
      exact Timed.atOnce_bind (Timed.atOnce_bind_pure _ _ _)

private theorem received_calls (calls : List Call) :
    ContextEvent.received ((calls.flatMap Call.events).filterMap Event.contextStep?) =
      calls.filterMap Call.admitted? := by
  unfold ContextEvent.received
  rw [List.filterMap_flatMap, List.filterMap_flatMap, List.filterMap_eq_flatMap_toList]
  exact congrArg calls.flatMap (funext Call.received_events)

private theorem disposals_calls (calls : List Call) :
    ContextEvent.disposals ((calls.flatMap Call.events).filterMap Event.contextStep?) =
      (calls.filterMap Call.admitted?).length := by
  unfold ContextEvent.disposals
  rw [List.filterMap_flatMap, List.filterMap_eq_flatMap_toList, List.count_flatMap,
    List.length_flatMap]
  exact congrArg (fun disposals => (calls.map disposals).sum) (funext Call.disposals_events)

private theorem exists_callAll (calls : List Call) (start : Instant) :
    ∃ trace, callAll calls start = .ok trace ∧
      trace.events = (calls.map fun call => call.events.map (start, ·)).flatten ∧
      ContextEvent.received (contextSteps trace.events) = calls.filterMap Call.admitted? ∧
      ContextEvent.disposals (contextSteps trace.events) =
        (calls.filterMap Call.admitted?).length := by
  refine ⟨_, congrFun (callAll_eq_atOnce calls) start, ?_, ?_, ?_⟩
  · rw [List.map_flatMap, ← List.flatMap_def]
  · rw [contextSteps_atOnce]
    exact received_calls calls
  · rw [contextSteps_atOnce]
    exact disposals_calls calls

private theorem filterMap_admitted_of_open {mechanism : Mechanism} {context : SecurityContext}
    (opened : mechanism.openContext = .ok context) (stripRealm : Bool) (directory : Directory)
    (headers : List (Option String)) :
    (headers.map (Call.mk mechanism stripRealm directory)).filterMap Call.admitted? =
      headers.filterMap token? := by
  rw [List.filterMap_map]
  refine congrFun (congrArg _ (funext fun header => ?_)) headers
  simp [Call.admitted?, opened, Except.toOption]

private theorem filterMap_admitted_of_closed {mechanism : Mechanism} {error : NegotiationError}
    (closed : mechanism.openContext = .error error) (stripRealm : Bool) (directory : Directory)
    (headers : List (Option String)) :
    (headers.map (Call.mk mechanism stripRealm directory)).filterMap Call.admitted? = [] := by
  rw [List.filterMap_map, List.filterMap_eq_nil_iff]
  intro header _
  simp [Call.admitted?, closed, Except.toOption]

/-- **Contexts live and are disposed of in order.** The events of calls fall into segments, one for
each call, that keep to the life of a context. A mechanism whose contexts all answer the same
receives the tokens of the well-formed headers, in the order of the calls, and as many contexts are
disposed of; a mechanism without credentials receives nothing and has nothing to dispose of. -/
theorem contexts_are_disciplined (calls : List Call) (start : Instant) :
    (∃ trace segments, callAll calls start = .ok trace ∧ trace.events = segments.flatten ∧
      List.Forall₂ Call.Disciplined calls segments ∧
      ContextEvent.received (contextSteps trace.events) = calls.filterMap Call.admitted? ∧
      ContextEvent.disposals (contextSteps trace.events) =
        (ContextEvent.received (contextSteps trace.events)).length) ∧
    (∀ (answer : Except NegotiationError Acceptance) (failsDisposal stripRealm : Bool)
        (directory : Directory) (headers : List (Option String)), ∃ trace,
      callAll (headers.map
          (Call.mk (Mechanism.answering answer failsDisposal) stripRealm directory)) start =
        .ok trace ∧
      ContextEvent.received (contextSteps trace.events) = headers.filterMap token? ∧
      ContextEvent.disposals (contextSteps trace.events) =
        (ContextEvent.received (contextSteps trace.events)).length) ∧
    ∀ (stripRealm : Bool) (directory : Directory) (headers : List (Option String)), ∃ trace,
      callAll (headers.map (Call.mk Mechanism.withoutCredentials stripRealm directory)) start =
        .ok trace ∧
      ContextEvent.received (contextSteps trace.events) = [] ∧
      ContextEvent.disposals (contextSteps trace.events) = 0 := by
  refine ⟨?calls, ?answering, ?withoutCredentials⟩
  case calls =>
    obtain ⟨trace, run, segmented, received, disposed⟩ := exists_callAll calls start
    refine ⟨trace, _, run, segmented, ?_, received, ?_⟩
    · rw [List.forall₂_map_right_iff, List.forall₂_same]
      exact fun call _ => call.disciplined start
    · rw [received, disposed]
  case answering =>
    intro answer failsDisposal stripRealm directory headers
    obtain ⟨trace, run, -, received, disposed⟩ := exists_callAll (headers.map
      (Call.mk (Mechanism.answering answer failsDisposal) stripRealm directory)) start
    refine ⟨trace, run, ?_, ?_⟩
    · rw [received]
      exact filterMap_admitted_of_open rfl stripRealm directory headers
    · rw [received, disposed]
  case withoutCredentials =>
    intro stripRealm directory headers
    obtain ⟨trace, run, -, received, disposed⟩ := exists_callAll (headers.map
      (Call.mk Mechanism.withoutCredentials stripRealm directory)) start
    have closed : Mechanism.withoutCredentials.openContext =
        .error (.credentialFailure "keytab rejected") := rfl
    rw [filterMap_admitted_of_closed closed] at received disposed
    exact ⟨trace, run, received, disposed⟩

end SpnegoRealm.Negotiation
