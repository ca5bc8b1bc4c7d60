import SpnegoRealm.Proofs.Except
import SpnegoRealm.Proofs.Refresh.Round
import SpnegoRealm.Refresh.Watch

/-! # Refreshing on notice

A watch takes its notices in turns. A turn starts when its notice has come and the turn before is over;
it makes a round if the report concerns the mapping file, and is over at once if not
(`SpnegoRealm.Refresh.Turns`). What a watch does is what happens in these turns until it is cancelled
(`SpnegoRealm.Refresh.Account`).
-/

namespace SpnegoRealm.Refresh

open Mapping Questions

/-- A notice that is taken, and the round that it calls for, if any. -/
structure Turn where
  notice : Notice
  start : Instant
  round? : Option Round

namespace Turn

/-- When a turn ended: with its round, if it made one. -/
def finish (turn : Turn) : Instant :=
  match turn.round? with
  | some round => round.finish
  | none => turn.start

/-- The snapshot that the round of a turn came to, if there is one. -/
def snapshot? (turn : Turn) : Option Snapshot := turn.round?.bind Round.snapshot?

/-- What happens in a turn. -/
def events (turn : Turn) : List (Instant × Event) :=
  match turn.round?, turn.notice.report with
  | some round, _ => round.trace.events
  | none, .fault => [(turn.start, .warned .watchFailed)]
  | none, .change _ _ => []

/-- A turn makes a round at once if its report concerns the mapping file, and otherwise none. -/
inductive Fits (settings : Settings) (file : FileHistory) : Turn → Prop
  | refresh {notice : Notice} {round : Round}
    (concerns : notice.report.concerns settings.path = true) (reads : round.Reads settings file) :
    Fits settings file ⟨notice, round.start, some round⟩
  | ignore {notice : Notice} {start : Instant}
    (other : notice.report.concerns settings.path = false) :
    Fits settings file ⟨notice, start, none⟩

end Turn

/-- The turns in which some notices are taken from an instant on. -/
inductive Turns (settings : Settings) (file : FileHistory) : Instant → List Turn → Prop
  | nil {now : Instant} : Turns settings file now []
  | cons {now : Instant} {turn : Turn} {rest : List Turn}
    (starts : turn.start = max now turn.notice.instant) (fits : turn.Fits settings file)
    (later : Turns settings file turn.finish rest) : Turns settings file now (turn :: rest)

variable {settings : Settings} {file : FileHistory} {turn : Turn} {turns : List Turn}
  {now : Instant} {path : Bytes} {attempt : Activity Unit} {report : Report}

/-! ## Reports -/

/-- **The reports that concern a mapping file** are those of something created or modified at paths
among which one ends in the name of this file. -/
theorem Report.concerns_iff : report.concerns path = true ↔ ∃ kind paths name,
    report = .change kind paths ∧ (kind = .created ∨ kind = .modified) ∧
      Path.fileName? path = some name ∧ ∃ changed ∈ paths, Path.fileName? changed = some name := by
  cases report with
  | fault => simp [Report.concerns]
  | change kind paths =>
      cases named : Path.fileName? path with
      | none => simp [Report.concerns, named]
      | some name => cases kind <;> simp [Report.concerns, named, ChangeKind.bringsContent]

/-! ## One turn -/

private theorem react_of_concerns (concerns : report.concerns path = true)
    (attempt : Activity Unit) :
    react path attempt report = attempt := by
  cases report with
  | fault => cases concerns
  | change kind paths => exact if_pos concerns

private theorem react_of_other {kind : ChangeKind} {paths : List Bytes}
    (other : (Report.change kind paths).concerns path = false) (attempt : Activity Unit) :
    react path attempt (.change kind paths) = pure () :=
  if_neg (Bool.eq_false_iff.mp other)

private theorem exists_turn {notice : Notice} {trace : Trace Event Unit}
    (run : react settings.path (refreshFrom settings file) notice.report now = .ok trace) :
    ∃ turn : Turn, turn.notice = notice ∧ turn.start = now ∧ turn.Fits settings file ∧
      turn.finish = trace.finish ∧ turn.events = trace.events := by
  cases concerns : notice.report.concerns settings.path with
  | true =>
      rw [react_of_concerns concerns] at run
      obtain ⟨round, rfl, reads, rfl⟩ := of_refreshFrom run
      exact ⟨_, rfl, rfl, .refresh concerns reads, rfl, rfl⟩
  | false =>
      obtain ⟨instant, report⟩ := notice
      cases report with
      | fault =>
          obtain rfl := Except.ok.inj run
          exact ⟨_, rfl, rfl, .ignore concerns, rfl, rfl⟩
      | change kind paths =>
          rw [react_of_other concerns] at run
          obtain rfl := Except.ok.inj run
          exact ⟨_, rfl, rfl, .ignore concerns, rfl, rfl⟩

namespace Turn.Fits

private theorem forward (fits : turn.Fits settings file) : turn.start ≤ turn.finish := by
  cases fits with
  | refresh _ reads => exact reads.forward
  | ignore => exact Nat.le_refl _

private theorem window (fits : turn.Fits settings file) :
    ∀ event ∈ turn.events, turn.start ≤ event.1 ∧ event.1 ≤ turn.finish := by
  intro event happens
  cases fits with
  | refresh _ reads => exact reads.window event happens
  | @ignore notice start =>
      obtain ⟨instant, report⟩ := notice
      cases report with
      | fault =>
          obtain rfl := List.mem_singleton.mp happens
          exact ⟨Nat.le_refl _, Nat.le_refl _⟩
      | change => cases happens

/-- A turn for another report asks the directory nothing. -/
theorem concerns_of_asked (fits : turn.Fits settings file) {instant : Instant}
    {request : Directory.Request} (asked : (instant, .asked request) ∈ turn.events) :
    turn.notice.report.concerns settings.path = true := by
  cases fits with
  | refresh concerns => exact concerns
  | @ignore notice start =>
      obtain ⟨instant, report⟩ := notice
      cases report with
      | fault => cases (Prod.mk.inj (List.mem_singleton.mp asked)).2
      | change => cases asked

/-- Of a turn, its end decides whether it publishes. -/
theorem published_filter (fits : turn.Fits settings file) (kept : Instant → Bool)
    (current : Snapshot) :
    published current (turn.events.filter fun event => kept event.1) =
      if kept turn.finish then turn.snapshot?.getD current else current := by
  cases fits with
  | refresh _ reads => exact reads.published_filter kept current
  | @ignore notice start =>
      refine (published_of_silent (fun event happens => ?_) current).trans (ite_self _).symm
      obtain ⟨instant, report⟩ := notice
      cases report with
      | fault =>
          obtain rfl := List.mem_singleton.mp (List.mem_filter.mp happens).1
          trivial
      | change => cases happens

end Turn.Fits

/-! ## The turns of a watch -/

/-- Whether something that happens at an instant comes before a watch is cancelled. -/
def inTime (cancelled : Option Instant) (instant : Instant) : Bool := cancelled.all (instant < ·)

private theorem inTime_of_le {cancelled : Option Instant} {earlier later : Instant}
    (order : earlier ≤ later)
    (soon : inTime cancelled later = true) : inTime cancelled earlier = true := by
  cases cancelled with
  | none => rfl
  | some instant => exact decide_eq_true (Nat.lt_of_le_of_lt order (of_decide_eq_true soon))

namespace Turns

private theorem of_mem (made : Turns settings file now turns) (taken : turn ∈ turns) :
    turn.Fits settings file ∧ now ≤ turn.start := by
  induction made with
  | nil => cases taken
  | cons starts fits _ ih =>
      have begun := starts ▸ Nat.le_max_left _ _
      rcases List.mem_cons.mp taken with rfl | further
      · exact ⟨fits, begun⟩
      · obtain ⟨fits', behind⟩ := ih further
        exact ⟨fits', begun.trans (fits.forward.trans behind)⟩

private theorem le_of_mem_events (made : Turns settings file now turns) {event : Instant × Event}
    (happens : event ∈ turns.flatMap Turn.events) : now ≤ event.1 := by
  obtain ⟨turn, taken, part⟩ := List.mem_flatMap.mp happens
  obtain ⟨fits, begun⟩ := made.of_mem taken
  exact begun.trans (fits.window event part).1

/-- When a watch was cancelled, it takes no turn and does nothing any more. -/
theorem eq_nil_of_late (made : Turns settings file now turns) {cancelled : Option Instant}
    (late : inTime cancelled now = false) :
    (turns.filter fun turn => inTime cancelled turn.start) = [] ∧
      ((turns.flatMap Turn.events).filter fun event => inTime cancelled event.1) = [] := by
  have behind {instant : Instant} (order : now ≤ instant) : ¬ inTime cancelled instant = true :=
    fun soon => Bool.eq_false_iff.mp late (inTime_of_le order soon)
  exact ⟨List.filter_eq_nil_iff.mpr fun _ taken => behind (made.of_mem taken).2,
    List.filter_eq_nil_iff.mpr fun _ happens => behind (made.le_of_mem_events happens)⟩

/-- **What is published is what the last round came to that had ended and did not fail.** -/
theorem published_filter (made : Turns settings file now turns) (kept : Instant → Bool)
    (current : Snapshot) :
    published current ((turns.flatMap Turn.events).filter fun event => kept event.1) =
      (((turns.filter fun turn => kept turn.finish).filterMap Turn.snapshot?).getLast?).getD
        current := by
  induction made generalizing current with
  | nil => rfl
  | @cons _ turn rest _ fits _ ih =>
      rw [List.flatMap_cons, List.filter_append, published_append, ih, fits.published_filter]
      cases ended : kept turn.finish with
      | false => rw [List.filter_cons_of_neg (by simp [ended]), if_neg Bool.false_ne_true]
      | true =>
          rw [List.filter_cons_of_pos (by simp [ended]), getD_getLast?_filterMap_cons, if_pos rfl]

end Turns

/-- What a watch does about some notices are turns for them, in their order. -/
theorem exists_turns {notices : List Notice} {trace : Trace Event Unit}
    (run : takeNotices settings.path (refreshFrom settings file) notices now = .ok trace) :
    ∃ turns, Turns settings file now turns ∧ turns.map Turn.notice = notices ∧
      trace.events = turns.flatMap Turn.events := by
  induction notices generalizing now trace with
  | nil =>
      obtain rfl := Except.ok.inj run
      exact ⟨[], .nil, rfl, rfl⟩
  | cons notice rest ih =>
      obtain ⟨waited, acted, waits, acts, rfl⟩ := Timed.of_bind_eq_ok run
      obtain rfl := Except.ok.inj waits
      obtain ⟨reacted, later, reacts, goesOn, rfl⟩ := Timed.of_bind_eq_ok acts
      obtain ⟨turn, rfl, starts, fits, finish, events⟩ := exists_turn reacts
      obtain ⟨turns, made, rfl, same⟩ := ih (finish ▸ goesOn)
      refine ⟨turn :: turns, .cons starts fits made, rfl, ?_⟩
      rw [List.flatMap_cons, events, ← same]
      rfl

/-- The turns that account for what a watch did with some notices until it was cancelled. -/
structure Account (settings : Settings) (file : FileHistory) (notices : List Notice)
    (start : Instant) (cancelled : Option Instant) (events : List (Instant × Event))
    (turns : List Turn) : Prop where
  made : Turns settings file start turns
  /-- Every notice has its turn, in their order. -/
  notices : turns.map Turn.notice = notices
  /-- Until the watch is cancelled, it does what happens in the turns. Then it gives up the questions
  that are in flight, and does nothing more. -/
  events : ∃ drops,
    events = ((turns.flatMap Turn.events).filter fun event => inTime cancelled event.1) ++ drops ∧
      ∀ event ∈ drops, cancelled = some event.1 ∧ ∃ request, event.2 = .dropped request

/-- For all that a watch did there is an account. -/
theorem exists_account_of_watch {notices : List Notice} {start : Instant}
    {cancelled : Option Instant} {events : List (Instant × Event)}
    (run : watch settings.path (refreshFrom settings file) notices start cancelled = .ok events) :
    ∃ turns, Account settings file notices start cancelled events turns := by
  obtain ⟨trace, takes, ends⟩ := bind_eq_ok_iff.mp run
  obtain ⟨turns, made, same, happens⟩ := exists_turns takes
  cases cancelled with
  | none =>
      obtain rfl := Except.ok.inj ends
      refine ⟨turns, made, same, [], ?_, fun _ none => (List.not_mem_nil none).elim⟩
      rw [List.append_nil, happens]
      exact (List.filter_eq_self.mpr fun _ _ => rfl).symm
  | some instant =>
      obtain rfl := Except.ok.inj ends
      refine ⟨turns, made, same, _, congrArg₂ (· ++ ·) (happens ▸ rfl) rfl, fun event dropped => ?_⟩
      obtain ⟨request, -, rfl⟩ := List.mem_map.mp dropped
      exact ⟨rfl, request, rfl⟩

namespace Account

variable {notices : List Notice} {start : Instant} {cancelled : Option Instant}
  {events : List (Instant × Event)}
  (account : Account settings file notices start cancelled events turns)

include account

/-- Only in turns for reports that concern the mapping file is the directory asked. -/
theorem exists_turn_of_asked {instant : Instant} {request : Directory.Request}
    (asked : (instant, .asked request) ∈ events) : ∃ turn ∈ turns,
      turn.notice.report.concerns settings.path = true ∧ turn.start ≤ instant ∧
        instant ≤ turn.finish ∧ inTime cancelled instant = true := by
  obtain ⟨drops, rfl, dropped⟩ := account.events
  rcases List.mem_append.mp asked with kept | drop
  · obtain ⟨happens, soon⟩ := List.mem_filter.mp kept
    obtain ⟨turn, taken, part⟩ := List.mem_flatMap.mp happens
    obtain ⟨fits, -⟩ := account.made.of_mem taken
    obtain ⟨begun, ended⟩ := fits.window _ part
    exact ⟨turn, taken, fits.concerns_of_asked part, begun, ended, soon⟩
  · obtain ⟨-, _, other⟩ := dropped _ drop
    cases other

private theorem exists_silent_drops : ∃ drops : List (Instant × Event),
    events = ((turns.flatMap Turn.events).filter fun event => inTime cancelled event.1) ++ drops ∧
      ∀ event ∈ drops, event.2.Silent := by
  obtain ⟨drops, rfl, dropped⟩ := account.events
  refine ⟨drops, rfl, fun event drop => ?_⟩
  obtain ⟨-, request, same⟩ := dropped event drop
  rw [same]
  trivial

/-- What a watch publishes is what its turns published in time. -/
theorem published_events (current : Snapshot) : published current events =
    published current ((turns.flatMap Turn.events).filter fun event => inTime cancelled event.1) := by
  obtain ⟨drops, rfl, silent⟩ := account.exists_silent_drops
  rw [published_append, published_of_silent silent]

/-- **What is published at any instant is what the last round came to that had ended in time and did
not fail.** -/
theorem published_upTo (now : Instant) (current : Snapshot) :
    published current (upTo now events) =
      (((turns.filter fun turn => turn.finish ≤ now ∧ inTime cancelled turn.finish).filterMap
        Turn.snapshot?).getLast?).getD current := by
  obtain ⟨drops, rfl, silent⟩ := account.exists_silent_drops
  have still : ∀ event ∈ upTo now drops, event.2.Silent :=
    fun event drop => silent event (List.mem_filter.mp drop).1
  have told := account.made.published_filter
    (fun instant => decide (instant ≤ now ∧ inTime cancelled instant)) current
  rw [upTo_append, published_append, published_of_silent still, upTo, List.filter_filter, ← told]
  simp only [Bool.decide_and, Bool.decide_eq_true]

end Account

/-! ## Watches that run -/

private theorem exists_react (permitted : settings.limits.maxWorkers ≤ Groups.permitLimit)
    (file : FileHistory) (report : Report) (start : Instant) :
    ∃ trace, react settings.path (refreshFrom settings file) report start = .ok trace := by
  cases concerns : report.concerns settings.path with
  | true =>
      rw [react_of_concerns concerns]
      exact exists_refreshFrom permitted file start
  | false =>
      cases report with
      | fault => exact ⟨_, rfl⟩
      | change kind paths =>
          rw [react_of_other concerns]
          exact ⟨_, rfl⟩

private theorem exists_takeNotices (permitted : settings.limits.maxWorkers ≤ Groups.permitLimit)
    (file : FileHistory) (notices : List Notice) (start : Instant) :
    ∃ trace, takeNotices settings.path (refreshFrom settings file) notices start = .ok trace := by
  induction notices generalizing start with
  | nil => exact ⟨_, rfl⟩
  | cons notice rest ih =>
      obtain ⟨reacted, reacts⟩ := exists_react permitted file notice.report (max start notice.instant)
      obtain ⟨later, goesOn⟩ := ih reacted.finish
      exact ⟨_, Timed.bind_eq_ok rfl (Timed.bind_eq_ok reacts goesOn)⟩

/-- Where there are permits for all workers, every watch comes to its end. -/
theorem exists_watch (permitted : settings.limits.maxWorkers ≤ Groups.permitLimit)
    (file : FileHistory) (notices : List Notice) (start : Instant) (cancelled : Option Instant) :
    ∃ events, watch settings.path (refreshFrom settings file) notices start cancelled =
      .ok events := by
  obtain ⟨trace, takes⟩ := exists_takeNotices permitted file notices start
  cases cancelled with
  | none => exact ⟨_, bind_eq_ok_iff.mpr ⟨trace, takes, rfl⟩⟩
  | some instant => exact ⟨_, bind_eq_ok_iff.mpr ⟨trace, takes, rfl⟩⟩

end SpnegoRealm.Refresh
