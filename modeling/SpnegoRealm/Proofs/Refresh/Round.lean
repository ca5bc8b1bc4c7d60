import SpnegoRealm.Proofs.Mapping.Load
import SpnegoRealm.Refresh.Timer

/-! # Rounds of refreshing

A refresh is a load of the mapping file whose failure is a warning. A round tells when a refresh
started and how its load went (`SpnegoRealm.Refresh.of_refreshFrom`). A round that is given up
publishes what its load answered if the load had ended by then, and otherwise nothing
(`SpnegoRealm.Refresh.Round.Reads.published_abandonedAt`).
-/

namespace SpnegoRealm

open Mapping

namespace Mapping

/-- What is current after all events is what the later ones make of the snapshot after the earlier
ones. -/
theorem published_append (current : Snapshot) (events later : List (Instant × Event)) :
    published current (events ++ later) = published (published current events) later :=
  List.foldl_append

end Mapping

namespace Questions

variable {α : Type} {trace : Trace Event α} {now horizon : Instant}

/-- What happens up to an instant, happens up to it among the earlier events and among the later
ones. -/
theorem upTo_append (now : Instant) (events later : List (Instant × Event)) :
    upTo now (events ++ later) = upTo now events ++ upTo now later :=
  List.filter_append _ _

private theorem upTo_abandonedAt (now horizon : Instant) (trace : Trace Event α) :
    ∃ drops : List (Instant × Event), (∀ event ∈ drops, event.1 = horizon ∧ event.2.Silent) ∧
      upTo now (abandonedAt horizon trace) =
        trace.events.filter (fun event => event.1 ≤ now ∧ event.1 < horizon) ++ upTo now drops := by
  refine ⟨(pending (trace.before horizon)).map fun request => (horizon, .dropped request), ?_, ?_⟩
  · intro event dropped
    obtain ⟨request, -, rfl⟩ := List.mem_map.mp dropped
    exact ⟨rfl, trivial⟩
  · unfold abandonedAt
    rw [upTo_append, upTo, Trace.before, List.filter_filter]
    simp only [Bool.decide_and]

/-- Before it is given up, a run does what it does. -/
theorem upTo_abandonedAt_of_lt (before : now < horizon) :
    upTo now (abandonedAt horizon trace) = upTo now trace.events := by
  obtain ⟨drops, dropped, same⟩ := upTo_abandonedAt now horizon trace
  have late : upTo now drops = [] := by
    refine List.filter_eq_nil_iff.mpr fun event drop => ?_
    rw [(dropped event drop).1, decide_eq_true_eq]
    exact Nat.not_le_of_lt before
  rw [same, late, List.append_nil]
  refine List.filter_congr fun event _ => ?_
  exact decide_eq_decide.mpr (and_iff_left_of_imp fun soon => Nat.lt_of_le_of_lt soon before)

/-- A run that is given up does nothing after that instant. -/
theorem le_of_mem_abandonedAt {event : Instant × Event} (happens : event ∈ abandonedAt horizon trace) :
    event.1 ≤ horizon := by
  rcases List.mem_append.mp happens with kept | dropped
  · exact Nat.le_of_lt (of_decide_eq_true (List.mem_filter.mp kept).2)
  · obtain ⟨request, -, rfl⟩ := List.mem_map.mp dropped
    exact Nat.le_refl _

end Questions

namespace Refresh

/-- Of some results the last one counts, and before there is any, an initial one. -/
theorem getD_getLast?_filterMap_cons {α β : Type} (result? : α → Option β) (first : α)
    (rest : List α) (initial : β) : (((first :: rest).filterMap result?).getLast?).getD initial =
      ((rest.filterMap result?).getLast?).getD ((result? first).getD initial) := by
  rw [List.filterMap_cons]
  cases result? first with
  | none => rfl
  | some result => simp only [List.getLast?_cons, Option.getD_some]

/-- A refresh that was made: when it started, and how its load went. -/
structure Round where
  start : Instant
  load : Trace Event (Except RealmError Snapshot)

variable {settings : Settings} {file : FileHistory} {start : Instant}

namespace Round

variable {round : Round}

/-- When a round ended. -/
def finish (round : Round) : Instant := round.load.finish

/-- The snapshot that the load came to, unless it failed. -/
def snapshot? (round : Round) : Option Snapshot := round.load.value.toOption

/-- The warning about a round whose load failed. -/
def complaint (round : Round) : List (Instant × Event) :=
  match round.load.value with
  | .ok _ => []
  | .error _ => [(round.finish, .warned .refreshFailed)]

/-- What happens in a round. -/
def trace (round : Round) : Trace Event Unit :=
  ⟨(), round.finish, round.load.events ++ round.complaint⟩

/-- The round loads the mapping file as it is when the round starts. -/
def Reads (settings : Settings) (file : FileHistory) (round : Round) : Prop :=
  settings.rebuild (file round.start) round.start = .ok round.load

/-- A round fails at once with a warning, or ends with the publication of its snapshot. -/
theorem Reads.cases (reads : round.Reads settings file) :
    (round.snapshot? = none ∧
      round.trace.events = [(round.finish, .warned .refreshFailed)] ∧ round.finish = round.start) ∨
    ∃ snapshot events, round.snapshot? = some snapshot ∧ round.start ≤ round.finish ∧
      (∀ event ∈ events, round.start ≤ event.1 ∧ event.1 ≤ round.finish ∧ event.2.Silent) ∧
        round.trace.events = events ++ [(round.finish, .published snapshot)] := by
  obtain ⟨start, load⟩ := round
  have loads : settings.rebuild (file start) start = .ok load := reads
  obtain ⟨fault, -, rfl⟩ | ⟨definitions, events, finish, -, forward, silent, rfl⟩ :=
    Settings.rebuild_cases loads
  · exact Or.inl ⟨rfl, rfl, rfl⟩
  · exact Or.inr ⟨_, events, rfl, forward, silent, List.append_nil _⟩

/-- No round ends before it starts. -/
theorem Reads.forward (reads : round.Reads settings file) : round.start ≤ round.finish := by
  obtain ⟨-, -, same⟩ | ⟨_, _, -, forward, -⟩ := reads.cases
  · exact Nat.le_of_eq same.symm
  · exact forward

/-- What happens in a round happens between its start and its end. -/
theorem Reads.window (reads : round.Reads settings file) :
    ∀ event ∈ round.trace.events, round.start ≤ event.1 ∧ event.1 ≤ round.finish := by
  intro event happens
  obtain ⟨-, events, same⟩ | ⟨snapshot, silent, -, forward, window, events⟩ := reads.cases
  · rw [events] at happens
    obtain rfl := List.mem_singleton.mp happens
    exact ⟨Nat.le_of_eq same.symm, Nat.le_refl _⟩
  · rw [events] at happens
    rcases List.mem_append.mp happens with before | last
    · obtain ⟨begun, ended, -⟩ := window event before
      exact ⟨begun, ended⟩
    · obtain rfl := List.mem_singleton.mp last
      exact ⟨forward, Nat.le_refl _⟩

/-- Of a round, its end decides whether it publishes. -/
theorem Reads.published_filter (reads : round.Reads settings file) (kept : Instant → Bool)
    (current : Snapshot) :
    published current (round.trace.events.filter fun event => kept event.1) =
      if kept round.finish then round.snapshot?.getD current else current := by
  obtain ⟨failed, events, -⟩ | ⟨snapshot, silent, came, -, window, events⟩ := reads.cases
  · rw [events, failed]
    have still : published current ([(round.finish, .warned .refreshFailed)].filter
        fun event => kept event.1) = current := by
      refine published_of_silent (fun event happens => ?_) current
      obtain rfl := List.mem_singleton.mp (List.mem_filter.mp happens).1
      trivial
    rw [still, Option.getD_none, ite_self]
  · have still : published current (silent.filter fun event => kept event.1) = current :=
      published_of_silent (fun event happens => (window event (List.mem_filter.mp happens).1).2.2)
        current
    rw [events, came, List.filter_append, published_append, still, List.filter_singleton]
    cases kept round.finish <;> rfl

/-- A round that is given up publishes nothing unless it had ended. -/
theorem Reads.published_abandonedAt (reads : round.Reads settings file) (now horizon : Instant)
    (current : Snapshot) :
    published current (Questions.upTo now (Questions.abandonedAt horizon round.trace)) =
      if round.finish ≤ now ∧ round.finish < horizon then round.snapshot?.getD current
      else current := by
  obtain ⟨drops, dropped, same⟩ := Questions.upTo_abandonedAt now horizon round.trace
  rw [same, published_append,
    reads.published_filter fun instant => decide (instant ≤ now ∧ instant < horizon),
    published_of_silent]
  · simp only [decide_eq_true_eq]
  · exact fun event happens => (dropped event (List.mem_filter.mp happens).1).2

end Round

/-- A refresh that was made is a round that starts with it. -/
theorem of_refreshFrom {trace : Trace Event Unit}
    (run : refreshFrom settings file start = .ok trace) :
    ∃ round : Round, round.start = start ∧ round.Reads settings file ∧ trace = round.trace := by
  obtain ⟨load, later, loads, ends, rfl⟩ := Timed.of_bind_eq_ok run
  refine ⟨⟨start, load⟩, rfl, loads, ?_⟩
  unfold Round.trace Round.complaint
  cases answered : load.value with
  | ok snapshot =>
      rw [answered] at ends
      obtain rfl := Except.ok.inj ends
      rfl
  | error fault =>
      rw [answered] at ends
      obtain rfl := Except.ok.inj ends
      rfl

/-- Where there are permits for all workers, every refresh comes to its end. -/
theorem exists_refreshFrom (permitted : settings.limits.maxWorkers ≤ Groups.permitLimit)
    (file : FileHistory) (start : Instant) :
    ∃ trace, refreshFrom settings file start = .ok trace := by
  have yields : (settings.refresh (file start)).Yields () :=
    (settings.yieldsUnless_refresh (file start)).yields
      (Settings.not_overstepsWith permitted (file start))
  obtain ⟨trace, run, -⟩ := yields start
  exact ⟨trace, run⟩

end Refresh

end SpnegoRealm
