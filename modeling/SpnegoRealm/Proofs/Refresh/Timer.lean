import SpnegoRealm.Proofs.Except
import SpnegoRealm.Proofs.Refresh.Round

/-! # Refreshing on schedule

The rounds of a timer are determined by their loads: the first one starts one interval after the timer,
every other one an interval after the end of the one before it, and the last one is followed by nothing
before the horizon (`SpnegoRealm.Refresh.Schedule`). What is published at any instant is what the last
round came to that had ended by then and did not fail
(`SpnegoRealm.Refresh.Schedule.published_events`).
-/

namespace SpnegoRealm.Refresh

open Mapping Questions

/-- The rounds that start before a horizon, the first of them one interval after some instant, every
other one an interval after the end of the one before it. -/
inductive Schedule (settings : Settings) (file : FileHistory) (interval : ℕ) (horizon : Instant) :
    Instant → List Round → Prop
  | late {since : Instant} (late : horizon ≤ since + interval) :
    Schedule settings file interval horizon since []
  | next {since : Instant} {round : Round} {rest : List Round} (starts : round.start = since + interval)
    (early : round.start < horizon) (reads : round.Reads settings file)
    (later : Schedule settings file interval horizon round.finish rest) :
    Schedule settings file interval horizon since (round :: rest)

variable {settings : Settings} {file : FileHistory} {interval : ℕ} {since horizon now : Instant}
  {rounds : List Round}

/-- What happens in some rounds until a horizon, at which the one that is under way is given up. -/
def eventsOf (horizon : Instant) (rounds : List Round) : List (Instant × Event) :=
  rounds.flatMap fun round => abandonedAt horizon round.trace

/-! ## The rounds of a timer -/

private theorem attempts_of_ahead (attempt : Activity Unit) (positive : 0 < interval)
    {first : Instant}
    (early : first < horizon) : attempts attempt interval horizon first = (do
      let trace ← attempt first
      let later ← attempts attempt interval horizon (max first trace.finish + interval)
      return trace :: later) := by
  rw [attempts, dif_pos ⟨positive, early⟩]

private theorem attempts_of_late (attempt : Activity Unit) {first : Instant}
    (late : horizon ≤ first) :
    attempts attempt interval horizon first = .ok [] := by
  rw [attempts, dif_neg fun ahead => Nat.not_lt_of_le late ahead.2]
  rfl

/-- The attempts of a timer are rounds on schedule. -/
theorem schedule_of_attempts {traces : List (Trace Event Unit)} (positive : 0 < interval)
    (first : Instant) (starts : first = since + interval)
    (run : attempts (refreshFrom settings file) interval horizon first = .ok traces) :
    ∃ rounds, traces = rounds.map Round.trace ∧
      Schedule settings file interval horizon since rounds := by
  induction first using attempts.induct interval horizon generalizing since traces with
  | case1 first ahead ih =>
      rw [attempts_of_ahead _ positive ahead.2] at run
      obtain ⟨trace, begins, run⟩ := bind_eq_ok_iff.mp run
      obtain ⟨later, goesOn, run⟩ := bind_eq_ok_iff.mp run
      obtain rfl := Except.ok.inj run
      obtain ⟨round, same, reads, rfl⟩ := of_refreshFrom begins
      have forward : max first round.finish = round.finish := max_eq_right (same ▸ reads.forward)
      obtain ⟨rest, rfl, schedule⟩ := ih round.trace (congrArg (· + interval) forward) goesOn
      exact ⟨round :: rest, rfl, .next (same.trans starts) (same ▸ ahead.2) reads schedule⟩
  | case2 first notAhead =>
      have late : horizon ≤ first := not_lt.mp fun early => notAhead ⟨positive, early⟩
      rw [attempts_of_late _ late] at run
      obtain rfl := Except.ok.inj run
      exact ⟨[], rfl, .late (starts ▸ late)⟩

/-- Attempts that come to their ends can be made up to any horizon. -/
theorem exists_attempts {attempt : Activity Unit} (total : ∀ start, ∃ trace, attempt start = .ok trace)
    (positive : 0 < interval) (first : Instant) :
    ∃ traces, attempts attempt interval horizon first = .ok traces := by
  induction first using attempts.induct interval horizon with
  | case1 first ahead ih =>
      obtain ⟨trace, begins⟩ := total first
      obtain ⟨later, goesOn⟩ := ih trace
      refine ⟨trace :: later, ?_⟩
      rw [attempts_of_ahead _ positive ahead.2]
      exact bind_eq_ok_iff.mpr ⟨trace, begins, bind_eq_ok_iff.mpr ⟨later, goesOn, rfl⟩⟩
  | case2 first notAhead =>
      exact ⟨[], attempts_of_late _ (not_lt.mp fun early => notAhead ⟨positive, early⟩)⟩

/-- What a timer does until a horizon is what happens in rounds on schedule. -/
theorem of_timer {start : Instant} {events : List (Instant × Event)} (positive : 0 < interval)
    (run : timer (refreshFrom settings file) interval start horizon = .ok events) :
    ∃ rounds, Schedule settings file interval horizon start rounds ∧
      events = eventsOf horizon rounds := by
  obtain ⟨traces, makes, ends⟩ := bind_eq_ok_iff.mp run
  obtain ⟨rounds, rfl, schedule⟩ := schedule_of_attempts positive _ rfl makes
  refine ⟨rounds, schedule, (Except.ok.inj ends).symm.trans ?_⟩
  rw [List.flatMap_map]
  rfl

namespace Schedule

variable (schedule : Schedule settings file interval horizon since rounds)

include schedule

private theorem start_of_head {first : Round} (first_mem : first ∈ rounds.head?) :
    first.start = since + interval := by
  cases schedule with
  | late => cases first_mem
  | next starts => exact Option.some.inj first_mem ▸ starts

/-- Every other round starts an interval after the end of the one before it. -/
theorem isChain :
    rounds.IsChain fun earlier later => later.start = earlier.finish + interval := by
  induction schedule with
  | late => exact .nil
  | next _ _ _ later ih =>
      refine List.isChain_cons.mpr ⟨fun first first_mem => ?_, ih⟩
      exact later.start_of_head first_mem

private theorem of_mem {round : Round} (made : round ∈ rounds) :
    round.start < horizon ∧ round.Reads settings file := by
  induction schedule with
  | late => cases made
  | next _ early reads _ ih =>
      rcases List.mem_cons.mp made with rfl | later
      · exact ⟨early, reads⟩
      · exact ih later

/-- There is no time for another round. -/
theorem horizon_le : horizon ≤ ((rounds.getLast?.map Round.finish).getD since) + interval := by
  induction schedule with
  | late late => exact late
  | @next _ round rest _ _ _ _ ih =>
      rw [List.getLast?_cons]
      cases last : rest.getLast? with
      | none =>
          rw [last] at ih
          exact ih
      | some final =>
          rw [last] at ih
          exact ih

/-- **What is published is what the last round came to that had ended and did not fail.** -/
theorem published_events (now : Instant) (initial : Snapshot) :
    published initial (upTo now (eventsOf horizon rounds)) =
      (((rounds.filter fun round => round.finish ≤ now ∧ round.finish < horizon).filterMap
        Round.snapshot?).getLast?).getD initial := by
  induction schedule generalizing initial with
  | late => rfl
  | @next _ round rest _ _ reads _ ih =>
      unfold eventsOf at ih ⊢
      rw [List.flatMap_cons, upTo_append, published_append, ih, reads.published_abandonedAt]
      by_cases ended : round.finish ≤ now ∧ round.finish < horizon
      · rw [if_pos ended, List.filter_cons_of_pos (by simpa using ended),
          getD_getLast?_filterMap_cons]
      · rw [if_neg ended, List.filter_cons_of_neg (by simpa using ended)]

private theorem le_start {round : Round} (made : round ∈ rounds) :
    since + interval ≤ round.start := by
  induction schedule with
  | late => cases made
  | next starts _ reads _ ih =>
      rcases List.mem_cons.mp made with rfl | later
      · exact Nat.le_of_eq starts.symm
      · exact starts ▸ reads.forward.trans (Nat.le_trans (Nat.le_add_right _ _) (ih later))

end Schedule

/-! ## Longer and shorter runs -/

private theorem upTo_eventsOf (before : now < horizon) (rounds : List Round) :
    upTo now (eventsOf horizon rounds) = rounds.flatMap fun round => upTo now round.trace.events := by
  have split : upTo now (eventsOf horizon rounds) =
      rounds.flatMap fun round => upTo now (abandonedAt horizon round.trace) := List.filter_flatMap
  simp only [split, upTo_abandonedAt_of_lt before]

/-- Before the first round nothing happens. -/
theorem Schedule.flatMap_upTo_eq_nil (schedule : Schedule settings file interval horizon since rounds)
    (before : now < since + interval) :
    (rounds.flatMap fun round => upTo now round.trace.events) = [] := by
  refine List.flatMap_eq_nil_iff.mpr fun round made => List.filter_eq_nil_iff.mpr ?_
  intro event happens soon
  have starts := schedule.le_start made
  have behind := ((schedule.of_mem made).2.window event happens).1
  have reached : event.1 ≤ now := of_decide_eq_true soon
  exact Nat.not_le_of_lt before (starts.trans (behind.trans reached))

/-- What happens before a horizon does not hang on it. -/
theorem Schedule.upTo_eventsOf_eq {longer : Instant} {others : List Round}
    (schedule : Schedule settings file interval horizon since rounds)
    (schedule' : Schedule settings file interval longer since others) (further : horizon ≤ longer)
    (before : now < horizon) :
    upTo now (eventsOf longer others) = upTo now (eventsOf horizon rounds) := by
  rw [upTo_eventsOf (Nat.lt_of_lt_of_le before further), upTo_eventsOf before]
  induction schedule generalizing others with
  | late late => exact schedule'.flatMap_upTo_eq_nil (Nat.lt_of_lt_of_le before late)
  | @next since round rest starts early reads _ ih =>
      cases schedule' with
      | late late => exact (Nat.not_le_of_lt early (starts ▸ Nat.le_trans further late)).elim
      | @next _ other others starts' _ reads' later =>
          obtain ⟨start, load⟩ := round
          obtain ⟨start', load'⟩ := other
          obtain rfl : start' = start := starts'.trans starts.symm
          obtain rfl : load' = load := Except.ok.inj (reads'.symm.trans reads)
          rw [List.flatMap_cons, List.flatMap_cons, ih later]

/-! ## The timer -/

/-- **A timer keeps its schedule.** Let a timer with a positive interval run until a horizon: the
instant at which it is cancelled, or any instant until which a timer is watched that is not cancelled.
It runs unless more workers are asked for than there can be permits. Its first refresh starts one
interval after the timer, every other one an interval after the end of the one before it, as long as
the horizon is not reached. Each loads the mapping file as it is when the refresh starts. At every
instant the snapshot is what the last refresh answered that had ended by then, before the horizon, and
did not fail; if there is none, it is the initial one. Nothing happens after the horizon, so the
snapshot stays as it is then; and what happens before does not hang on the horizon. -/
theorem timer_keeps_schedule (settings : Settings) (file : FileHistory) (interval : ℕ)
    (positive : 0 < interval) (start horizon : Instant) (initial : Snapshot) :
    (settings.limits.maxWorkers ≤ Groups.permitLimit →
      ∃ events, timer (refreshFrom settings file) interval start horizon = .ok events) ∧
    ∀ events, timer (refreshFrom settings file) interval start horizon = .ok events →
      ∃ rounds : List Round,
        (∀ first ∈ rounds.head?, first.start = start + interval) ∧
        rounds.IsChain (fun earlier later => later.start = earlier.finish + interval) ∧
        (∀ round ∈ rounds, round.start < horizon ∧ round.start ≤ round.finish ∧
          settings.rebuild (file round.start) round.start = .ok round.load ∧
          round.load.value = settings.answer (file round.start)) ∧
        horizon ≤ ((rounds.getLast?.map Round.finish).getD start) + interval ∧
        events = rounds.flatMap (fun round => abandonedAt horizon round.trace) ∧
        (∀ now, published initial (upTo now events) =
          (((rounds.filter fun round => round.finish ≤ now ∧ round.finish < horizon).filterMap
            Round.snapshot?).getLast?).getD initial) ∧
        (∀ now, horizon ≤ now → upTo now events = events) ∧
        ∀ longer others, horizon ≤ longer →
          timer (refreshFrom settings file) interval start longer = .ok others →
          ∀ now < horizon, upTo now others = upTo now events := by
  refine ⟨?runs, ?keeps⟩
  case runs =>
    intro permitted
    obtain ⟨traces, makes⟩ :=
      exists_attempts (exists_refreshFrom permitted file) positive (start + interval)
    exact ⟨_, bind_eq_ok_iff.mpr ⟨traces, makes, rfl⟩⟩
  case keeps =>
    intro events run
    obtain ⟨rounds, schedule, rfl⟩ := of_timer positive run
    refine ⟨rounds, fun first => schedule.start_of_head, schedule.isChain, ?made, schedule.horizon_le,
      rfl, fun now => schedule.published_events now initial, ?finished, ?longer⟩
    case made =>
      intro round made
      obtain ⟨early, reads⟩ := schedule.of_mem made
      exact ⟨early, reads.forward, reads, settings.tells_rebuild _ _ _ reads⟩
    case finished =>
      intro now reached
      refine List.filter_eq_self.mpr fun event happens => ?_
      obtain ⟨round, -, part⟩ := List.mem_flatMap.mp happens
      exact decide_eq_true (Nat.le_trans (le_of_mem_abandonedAt part) reached)
    case longer =>
      intro longer others further run' now before
      obtain ⟨others, schedule', rfl⟩ := of_timer positive run'
      exact schedule.upTo_eventsOf_eq schedule' further before

/-- A realm whose directory is empty. -/
def desert : Settings := ⟨({} : Directory.Catalog).toDirectory, [], true, ⟨1, 1⟩⟩

/-- There is no mapping file at first; then there is one that lists nothing. -/
def lateFile : FileHistory := fun instant => if instant < 15 then none else some []

/-- Of two refreshes before the horizon, the first one finds no file, and the second one publishes a
mapping without roles. -/
theorem timer_keeps_schedule_of_late_file :
    0 < 10 ∧ ∃ initial events, initial ≠ Snapshot.empty ∧
      timer (refreshFrom desert lateFile) 10 0 25 = .ok events ∧
      published initial (upTo 15 events) = initial ∧
      published initial (upTo 22 events) = .empty := by
  let initial := Snapshot.ofGrants [.principal "u" "ops"]
  obtain ⟨runs, keeps⟩ := timer_keeps_schedule desert lateFile 10 (by decide) 0 25 initial
  obtain ⟨events, run⟩ := runs (by decide)
  obtain ⟨rounds, head, chain, made, last, -, snapshots, -, -⟩ := keeps events run
  have missing : desert.rebuild none 10 = .ok _ := rfl
  have blank : desert.rebuild (some []) 20 = .ok ⟨.ok .empty, 20, [(20, .published .empty)]⟩ := rfl
  refine ⟨by decide, initial, events, by decide, run, ?_⟩
  -- The horizon is too late for fewer than two rounds.
  match rounds with
  | [] => exact (Nat.not_le_of_lt (by decide) last).elim
  | [⟨start, load⟩] =>
      obtain rfl : start = 10 := head _ rfl
      obtain rfl := Except.ok.inj ((made _ List.mem_cons_self).2.2.1.symm.trans missing)
      exact (Nat.not_le_of_lt (by decide) last).elim
  | ⟨start, load⟩ :: ⟨later, reload⟩ :: rest =>
      obtain rfl : start = 10 := head _ rfl
      obtain rfl := Except.ok.inj ((made _ List.mem_cons_self).2.2.1.symm.trans missing)
      obtain ⟨follows, chain⟩ := List.isChain_cons_cons.mp chain
      obtain rfl : later = 20 := follows
      have second := made _ (List.mem_cons_of_mem _ List.mem_cons_self)
      obtain rfl := Except.ok.inj (second.2.2.1.symm.trans blank)
      cases rest with
      | nil => exact ⟨snapshots 15, snapshots 22⟩
      | cons third _ =>
          have after := (List.isChain_cons_cons.mp chain).1
          have early := (made third (by simp)).1
          rw [after] at early
          exact (Nat.not_le_of_lt early (by decide)).elim

end SpnegoRealm.Refresh
