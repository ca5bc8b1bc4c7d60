import Mathlib.Data.Multiset.AddSub
import Mathlib.Data.Prod.Lex
import Mathlib.Order.OrderIsoNat
import SpnegoRealm.Proofs.Groups.Schedule

/-! # Searches that are dropped

A search on a clock is always a stage of the visits of the search
(`SpnegoRealm.Groups.Progress.StageOf.of_reaches`), it can be completed
(`SpnegoRealm.Groups.Progress.StageOf.exists_complete`), and whatever it then does, it does from now
on (`SpnegoRealm.Groups.Progress.StageOf.exists_rest`). So the questions asked so far are those that
come before the present instant in the visits, and a search that is dropped leaves exactly these
behind (`SpnegoRealm.Groups.Progress.StageOf.abandoned`). Releasing its tasks changes nothing about
that (`SpnegoRealm.Groups.Progress.Abandoned.release`). **A search that is dropped asks nothing
more** is `SpnegoRealm.Groups.dropped_searches_ask_nothing_more`.
-/

namespace SpnegoRealm

namespace Questions

variable {events others : List (Instant × Event)}

private theorem pending_eq_diff (events : List (Instant × Event)) :
    pending events = (asked events).diff (ended events) :=
  (List.diff_eq_foldl ..).symm

/-- What is pending does not depend on the order of the events, up to its own order. -/
theorem pending_perm (perm : events.Perm others) : (pending events).Perm (pending others) := by
  have questions : (asked events).Perm (asked others) := perm.filterMap _
  have ends : (ended events).Perm (ended others) := perm.filterMap _
  rw [pending_eq_diff, pending_eq_diff, ends.diff_left]
  exact questions.diff_right _

/-- A question is pending if it was asked and is not among those that ended. -/
theorem pending_perm_of_ended {first second : List Directory.Request}
    (questions : asked events = first ++ second) (ends : (ended events).Perm first) :
    (pending events).Perm second := by
  rw [pending_eq_diff, questions, ends.diff_left, ← Multiset.coe_eq_coe, ← Multiset.coe_sub,
    ← Multiset.coe_add, add_tsub_cancel_left]

end Questions

namespace Groups

/-- The event by which a question is given up. -/
def Question.drop (instant : Instant) (question : Question) : Instant × Event :=
  (instant, .dropped question.task.request)

namespace Progress

/-- A search is somewhere on its way through some visits. -/
def StageOf (search : Search) (visits : List Visit) (progress : Progress) : Prop :=
  ∃ done remaining tickets, done ++ remaining = visits ∧
    progress.Follows search done remaining tickets

/-- What is left of a search: its steps, and how long the first question may take. -/
def rank (search : Search) (visits : List Visit) (progress : Progress) : ℕ ×ₗ ℕ :=
  toLex (progress.load visits, progress.patience search)

variable {search : Search} {visits : List Visit} {progress next : Progress}

private theorem stageOf_initial (search : Search) (seed : String) (start : Instant) :
    StageOf search (search.visits 1 [Text.lowercase seed] [] [] [⟨seed, start⟩])
      (initial search seed start) :=
  ⟨_, _, _, List.nil_append _, follows_initial search seed start⟩

/-- A step leaves a search on its way. -/
theorem StageOf.step (stage : progress.StageOf search visits) (step : progress.Step search next) :
    next.StageOf search visits := by
  obtain ⟨done, remaining, tickets, rfl, follows⟩ := stage
  obtain ⟨done', remaining', tickets', same, follows'⟩ := follows.step step
  exact ⟨done', remaining', tickets', same.symm, follows'⟩

/-- A search stays on its way through its visits. -/
theorem StageOf.of_reaches (stage : progress.StageOf search visits)
    (reaches : Reaches search progress next) : next.StageOf search visits := by
  induction reaches with
  | refl => exact stage
  | tail _ step ih => exact ih.step step

private theorem IsComplete.step (complete : progress.IsComplete)
    (step : progress.Step search next) :
    next.IsComplete := by
  cases step with
  | start waits free => cases complete.waiting.symm.trans waits
  | answer asks due => cases complete.asking.symm.trans asks
  | join idle ended => cases complete.finished.symm.trans ended
  | submit hands => cases complete.handing.symm.trans hands
  | tick quiet passes early => exact { complete with }

/-- When nothing can be done at the present instant, time passes. -/
theorem Quiet.now_lt (quiet : progress.Quiet search) (step : progress.Step search next) :
    progress.now < next.now := by
  cases step with
  | start waits free =>
      rcases quiet.waiting with empty | busy
      · cases empty.symm.trans waits
      · exact absurd busy free.ne'
  | answer asks due => exact absurd due (not_le.mpr (quiet.asking _ (by simp [asks])))
  | join idle ended => cases quiet.finished.symm.trans ended
  | submit hands => cases quiet.handing.symm.trans hands
  | tick _ passes early => exact passes

/-- When time has passed, nothing can be done unless a question is due. -/
theorem Step.quiet (step : progress.Step search next) (passes : next.now ≠ progress.now)
    (undue : ∀ question ∈ next.asking, next.now < question.since + search.directory.latency) :
    next.Quiet search := by
  cases step with
  | tick quiet _ early => exact { quiet with asking := undue }
  | _ => exact absurd rfl passes

namespace StageOf

private theorem exists_finish_of_due (stage : progress.StageOf search visits) {question : Question}
    (asks : question ∈ progress.asking)
    (due : question.since + search.directory.latency ≤ progress.now) :
    ∃ visit ∈ visits, visit.finish = progress.now := by
  obtain ⟨done, remaining, tickets, rfl, follows⟩ := stage
  obtain ⟨visit, member, finish⟩ := follows.exists_finish_of_due asks due
  exact ⟨visit, List.mem_append_right _ member, finish⟩

private theorem counts (stage : progress.StageOf search visits) : progress.Counts search := by
  obtain ⟨_, _, _, _, follows⟩ := stage
  exact follows.counts

/-- A search that is complete has told the events of its visits, and asked its questions in their
order. -/
theorem events_of_isComplete (stage : progress.StageOf search visits)
    (complete : progress.IsComplete) : progress.events.Perm (visits.flatMap Visit.events) ∧
      Questions.asks progress.events = visits.map Visit.ask := by
  obtain ⟨done, remaining, tickets, rfl, follows⟩ := stage
  have events := follows.events
  have asks := follows.asks
  rw [complete.asking, List.map_nil, List.append_nil] at events asks
  rw [follows.of_isComplete complete, List.append_nil]
  exact ⟨events, asks⟩

private theorem exists_step (stage : progress.StageOf search visits) :
    ∃ next, progress.Step search next ∧ next.now ≤ progress.now + 1 := by
  obtain ⟨_, _, _, _, follows⟩ := stage
  exact follows.exists_step

private theorem load_lt (stage : progress.StageOf search visits) (some : 0 < search.lanes)
    (step : progress.Step search next) :
    next.now = progress.now ∧ next.load visits < progress.load visits ∨
      progress.now < next.now ∧ next.load visits = progress.load visits ∧
        (progress.IsComplete ∨ next.patience search < progress.patience search) := by
  obtain ⟨_, _, _, rfl, follows⟩ := stage
  exact follows.load_lt some step

/-- Every step leaves less of a search that is not complete. -/
theorem rank_lt (stage : progress.StageOf search visits) (some : 0 < search.lanes)
    (step : progress.Step search next) :
    progress.IsComplete ∨ next.rank search visits < progress.rank search visits := by
  rcases stage.load_lt some step with ⟨-, less⟩ | ⟨-, same, complete | sooner⟩
  · exact .inr (Prod.Lex.toLex_lt_toLex.mpr (.inl less))
  · exact .inl complete
  · exact .inr (Prod.Lex.toLex_lt_toLex.mpr (.inr ⟨same, sooner⟩))

/-- Every search can be completed. -/
theorem exists_complete (stage : progress.StageOf search visits) (some : 0 < search.lanes) :
    ∃ last, Reaches search progress last ∧ last.IsComplete := by
  induction rank : progress.rank search visits using WellFoundedLT.induction
    generalizing progress with
  | ind rank ih =>
      subst rank
      obtain ⟨next, step, -⟩ := stage.exists_step
      rcases stage.rank_lt some step with complete | less
      · exact ⟨progress, .refl, complete⟩
      · obtain ⟨last, reaches, complete⟩ := ih _ less (stage.step step) rfl
        exact ⟨last, .head step reaches, complete⟩

/-- What a search still does, if it is left alone, it does from now on. -/
theorem exists_rest (stage : progress.StageOf search visits) (some : 0 < search.lanes) :
    ∃ added, (progress.events ++ added).Perm (visits.flatMap Visit.events) ∧
      Questions.asks progress.events ++ Questions.asks added = visits.map Visit.ask ∧
      ∀ event ∈ added, progress.now ≤ event.1 := by
  obtain ⟨last, reaches, complete⟩ := stage.exists_complete some
  obtain ⟨added, events, later, -⟩ := reaches.exists_events
  obtain ⟨perm, asks⟩ := (stage.of_reaches reaches).events_of_isComplete complete
  rw [events] at perm asks
  rw [Questions.asks_append] at asks
  exact ⟨added, perm, asks, later⟩

end StageOf

/-! ## What a search that is dropped leaves behind -/

/-- A search was dropped at a deadline. What it asked is what it would have asked before the
deadline if it had been left alone, and once its questions are released, its events are those of a
run that is abandoned then. -/
structure Abandoned (search : Search) (deadline : Instant) (trace : Trace Event (List String))
    (progress : Progress) : Prop where
  asks : Questions.asks progress.events = Questions.asks (trace.before deadline)
  begun : Questions.asks progress.events <+: Questions.asks trace.events
  events : (progress.events ++ progress.asking.map (Question.drop deadline)).Perm
    (Questions.abandonedAt deadline trace)
  counts : progress.Counts search
  handing : progress.handing = []
  reached : deadline ≤ progress.now
  present : progress.asking ≠ [] → progress.now = deadline

variable {deadline : Instant} {trace : Trace Event (List String)}

/-- Before a deadline that is not past, a search does what it has done so far. -/
theorem StageOf.before (stage : progress.StageOf search visits) (some : 0 < search.lanes)
    (told : trace.events = visits.flatMap Visit.events)
    (early : ∀ event ∈ progress.events, event.1 < deadline) (reached : deadline ≤ progress.now) :
    progress.events.Perm (trace.before deadline) ∧
      Questions.asks (trace.before deadline) = Questions.asks progress.events := by
  obtain ⟨added, perm, asks, later⟩ := stage.exists_rest some
  have kept : progress.events.filter (·.1 < deadline) = progress.events :=
    List.filter_eq_self.mpr fun event member => decide_eq_true (early event member)
  have gone : added.filter (·.1 < deadline) = [] := by
    refine List.filter_eq_nil_iff.mpr fun event member less => ?_
    exact not_lt.mpr (reached.trans (later event member)) (of_decide_eq_true less)
  constructor
  · have filtered := perm.filter (·.1 < deadline)
    rw [List.filter_append, kept, gone, List.append_nil, ← told] at filtered
    exact filtered
  · rw [Trace.before, told, Questions.asks_filter, asks_visits, ← asks, List.filter_append,
      ← Questions.asks_filter, ← Questions.asks_filter, kept, gone]
    exact List.append_nil _

/-- A search that is dropped at its deadline keeps its books. -/
theorem StageOf.abandoned (stage : progress.StageOf search visits) (some : 0 < search.lanes)
    (told : trace.events = visits.flatMap Visit.events)
    (early : ∀ event ∈ progress.events, event.1 < deadline) (reached : deadline ≤ progress.now)
    (present : progress.asking ≠ [] → progress.now = deadline) :
    Abandoned search deadline trace { progress with handing := [] } := by
  obtain ⟨perm, asks⟩ := stage.before some told early reached
  have pending : (Questions.pending (trace.before deadline)).Perm
      (progress.asking.map (·.task.request)) := by
    obtain ⟨done, remaining, tickets, -, follows⟩ := stage
    exact (Questions.pending_perm perm.symm).trans
      (Questions.pending_perm_of_ended follows.asked follows.ended_perm)
  exact
    { asks := asks.symm
      begun := by
        obtain ⟨added, -, all, -⟩ := stage.exists_rest some
        rw [told, asks_visits, ← all]
        exact List.prefix_append _ _
      events := by
        refine perm.append ?_
        have drops := pending.symm.map fun request => (deadline, Event.dropped request)
        rw [List.map_map] at drops
        exact drops
      counts := { stage.counts with }
      handing := rfl
      reached := reached
      present := present }

/-- To release a task changes nothing about what was asked before the deadline. -/
theorem Abandoned.release (abandoned : progress.Abandoned search deadline trace)
    (release : progress.Release next) : next.Abandoned search deadline trace := by
  cases release with
  | waiting waits => exact { abandoned with counts := { abandoned.counts with } }
  | @asking before after question asks =>
      obtain ⟨permits, inFlight⟩ := abandoned.counts
      have now := abandoned.present (by simp [asks])
      have events := abandoned.events
      rw [asks] at permits inFlight events
      simp only [List.length_append, List.length_cons] at permits inFlight
      have silent : Questions.asks (progress.events ++
          [(progress.now, .dropped question.task.request)]) = Questions.asks progress.events := by
        rw [Questions.asks_append]
        exact List.append_nil _
      exact
        { abandoned with
          asks := by
            rw [silent]
            exact abandoned.asks
          begun := by
            rw [silent]
            exact abandoned.begun
          events := by
            refine List.Perm.trans ?_ events
            rw [List.append_assoc, List.singleton_append, List.map_append, List.map_append,
              List.map_cons, now]
            exact List.perm_middle.symm.append_left _
          counts := by
            constructor <;> simp only [List.length_append] <;> omega
          present := fun _ => now }
  | finished ended => exact { abandoned with counts := { abandoned.counts with } }
  | tick complete passes =>
      exact
        { abandoned with
          counts := { abandoned.counts with }
          reached := abandoned.reached.trans passes.le
          present := fun asks => absurd complete.asking asks }

end Progress

namespace Attempt

/-! ## Searches with a deadline -/

/-- A search with a deadline is on its way through its visits and has done nothing at the deadline,
or it was dropped then. -/
inductive Sound (search : Search) (deadline : Instant) (visits : List Visit)
    (trace : Trace Event (List String)) : Attempt → Prop
  | going {progress : Progress} (stage : progress.StageOf search visits)
    (intime : progress.now ≤ deadline) (early : ∀ event ∈ progress.events, event.1 < deadline)
    (quiet : progress.now = deadline → progress.Quiet search) :
    Sound search deadline visits trace (.going progress)
  | dropped {progress : Progress} (abandoned : progress.Abandoned search deadline trace) :
    Sound search deadline visits trace (.dropped progress)

variable {search : Search} {visits : List Visit} {deadline : Instant}
  {trace : Trace Event (List String)} {attempt next : Attempt}

private theorem sound_initial {seed : String} {start : Instant}
    (stage : (Progress.initial search seed start).StageOf search visits) (some : 0 < search.lanes)
    (told : trace.events = visits.flatMap Visit.events) :
    Sound search deadline visits trace (initial search seed start deadline) := by
  have nothing : ∀ event ∈ (Progress.initial search seed start).events, event.1 < deadline := by
    simp [Progress.initial]
  unfold initial
  by_cases early : start < deadline
  · rw [if_pos early]
    exact .going stage early.le nothing fun late => absurd late early.ne
  · rw [if_neg early]
    exact .dropped (stage.abandoned some told nothing (Nat.le_of_not_lt early)
      fun asks => absurd rfl asks)

/-- A search that goes on comes to its deadline by waiting, and then it cannot go on, because no
question is answered at the deadline. -/
theorem Sound.go {progress next : Progress}
    (apart : ∀ request, (deadline, .answered request) ∉ trace.events)
    (told : trace.events = visits.flatMap Visit.events)
    (sound : Sound search deadline visits trace (.going progress))
    (step : progress.Step search next) (intime : next.now ≤ deadline) :
    Sound search deadline visits trace (.going next) := by
  cases sound with
  | going stage within early quiet =>
      by_cases present : progress.now = deadline
      · exact absurd ((quiet present).now_lt step) (not_lt.mpr (present ▸ intime))
      refine .going (stage.step step) intime ?_ ?_
      · obtain ⟨added, events, instants⟩ := step.exists_events
        intro event member
        rw [events] at member
        rcases List.mem_append.mp member with old | new
        · exact early event old
        · rw [instants event new]
          exact lt_of_le_of_ne within present
      · intro reached
        refine step.quiet (fun same => present (same.symm.trans reached)) fun question asks => ?_
        by_contra due
        obtain ⟨visit, visited, finish⟩ :=
          (stage.step step).exists_finish_of_due asks (not_lt.mp due)
        refine apart visit.request (told ▸ List.mem_flatMap.mpr ⟨visit, visited, ?_⟩)
        rw [Visit.events, finish, reached]
        simp [Visit.request]

section Reached

variable (some : 0 < search.lanes) (told : trace.events = visits.flatMap Visit.events)
  (apart : ∀ request, (deadline, .answered request) ∉ trace.events)
include some told apart

/-- A step leaves a search with a deadline sound. -/
theorem Sound.step (sound : Sound search deadline visits trace attempt)
    (step : Step search deadline attempt next) : Sound search deadline visits trace next := by
  cases step with
  | go step intime => exact sound.go apart told step intime
  | drop reached =>
      cases sound with
      | going stage within early quiet =>
          exact .dropped (stage.abandoned some told early reached.ge fun _ => reached)
  | release release =>
      cases sound with
      | dropped abandoned => exact .dropped (abandoned.release release)

/-- Every search with a deadline is sound. -/
theorem Sound.of_reaches (sound : Sound search deadline visits trace attempt)
    (reaches : Reaches search deadline attempt next) :
    Sound search deadline visits trace next := by
  induction reaches with
  | refl => exact sound
  | tail _ step ih => exact ih.step some told apart step

end Reached

/-- A search with a deadline keeps its books, even after it was dropped. -/
theorem Sound.counts (sound : Sound search deadline visits trace attempt) :
    attempt.progress.Counts search := by
  cases sound with
  | going stage within early quiet => exact stage.counts
  | dropped abandoned => exact abandoned.counts

/-- No search with a deadline gets stuck. -/
theorem Sound.exists_step (sound : Sound search deadline visits trace attempt) :
    ∃ next, Step search deadline attempt next := by
  cases sound with
  | @going progress stage within early quiet =>
      by_cases present : progress.now = deadline
      · exact ⟨_, .drop present⟩
      · obtain ⟨next, step, soon⟩ := stage.exists_step
        exact ⟨_, .go step (soon.trans (lt_of_le_of_ne within present))⟩
  | @dropped progress abandoned =>
      by_cases started : progress.waiting = []
      case neg =>
        obtain ⟨task, rest, waits⟩ := List.exists_cons_of_ne_nil started
        exact ⟨_, .release (@Progress.Release.waiting progress [] rest task waits)⟩
      by_cases answered : progress.asking = []
      case neg =>
        obtain ⟨question, rest, asks⟩ := List.exists_cons_of_ne_nil answered
        exact ⟨_, .release (@Progress.Release.asking progress [] rest question asks)⟩
      by_cases joined : progress.finished = []
      case neg =>
        obtain ⟨finding, rest, ended⟩ := List.exists_cons_of_ne_nil joined
        exact ⟨_, .release (@Progress.Release.finished progress [] rest finding ended)⟩
      have complete : progress.IsComplete := ⟨started, answered, joined, abandoned.handing⟩
      exact ⟨_, .release (.tick complete (Nat.lt_succ_self _))⟩

/-! ## How long a search with a deadline goes on -/

/-- What is left of a search with a deadline until the deadline is past: whether it is still to be
dropped, the time, and its steps at the present instant. -/
def rank (deadline : Instant) (visits : List Visit) : Attempt → ℕ ×ₗ ℕ ×ₗ ℕ
  | going progress => toLex (1, toLex (deadline - progress.now, progress.load visits))
  | dropped progress =>
    toLex (0, toLex (deadline + 1 - progress.now,
      progress.waiting.length + progress.asking.length + progress.finished.length))

private theorem rank_lt_of_release {progress next : Progress} (release : progress.Release next)
    (present : progress.now ≤ deadline) :
    rank deadline visits (.dropped next) < rank deadline visits (.dropped progress) := by
  refine Prod.Lex.toLex_lt_toLex.mpr (.inr ⟨rfl, Prod.Lex.toLex_lt_toLex.mpr ?_⟩)
  cases release with
  | waiting waits =>
      refine .inr ⟨rfl, ?_⟩
      simp only [waits, List.length_append, List.length_cons]
      omega
  | asking asks =>
      refine .inr ⟨rfl, ?_⟩
      simp only [asks, List.length_append, List.length_cons]
      omega
  | finished ended =>
      refine .inr ⟨rfl, ?_⟩
      simp only [ended, List.length_append, List.length_cons]
      omega
  | tick complete passes => exact .inl (Nat.sub_lt_sub_left (Nat.lt_succ_of_le present) passes)

/-- Until the deadline is past, every step leaves less to do. -/
theorem Sound.rank_lt (some : 0 < search.lanes)
    (sound : Sound search deadline visits trace attempt)
    (step : Step search deadline attempt next) :
    (∃ progress, attempt = .dropped progress ∧ deadline < progress.now) ∨
      next.rank deadline visits < attempt.rank deadline visits := by
  cases step with
  | go step intime =>
      cases sound with
      | going stage within early quiet =>
          refine .inr (Prod.Lex.toLex_lt_toLex.mpr
            (.inr ⟨rfl, Prod.Lex.toLex_lt_toLex.mpr ?_⟩))
          rcases stage.load_lt some step with ⟨present, less⟩ | ⟨passes, -⟩
          · exact .inr ⟨by rw [present], less⟩
          · exact .inl (Nat.sub_lt_sub_left (passes.trans_le intime) passes)
  | drop reached => exact .inr (Prod.Lex.toLex_lt_toLex.mpr (.inl Nat.zero_lt_one))
  | @release progress next release =>
      by_cases past : deadline < progress.now
      · exact .inl ⟨progress, rfl, past⟩
      · exact .inr (rank_lt_of_release release (not_lt.mp past))

end Attempt

/-- States that get smaller until something holds come to where it holds. -/
theorem exists_of_rank_lt {σ α : Type} [Preorder α] [WellFoundedLT α] (rank : σ → α)
    (holds : σ → Prop) {states : ℕ → σ}
    (less : ∀ index, holds (states index) ∨ rank (states (index + 1)) < rank (states index)) :
    ∃ index, holds (states index) := by
  by_contra never
  refine not_strictAnti_of_wellFoundedLT (rank ∘ states) (strictAnti_nat_of_succ_lt fun index => ?_)
  exact (less index).resolve_left (not_exists.mp never index)

private theorem visitsFrom_of_latency {directory : Directory} (slow : 0 < directory.latency)
    (limits : Limits) (seed : String) (start : Instant) : visitsFrom directory limits seed start =
      (limits.search directory).visits 1 [Text.lowercase seed] [] [] [⟨seed, start⟩] := by
  unfold visitsFrom
  rw [if_neg slow.ne']
  rfl

/-- **A search that is dropped asks nothing more.** Left alone, a search of a directory that takes
its time has at least none and at most as many questions in flight as it has workers, never gets
stuck, and comes to an end as `resolve` tells it, with all permits back and no question in flight.
Dropped at a deadline at which no question is answered, it has asked exactly what it would have
asked before the deadline, at the same instants, and it never asks again. The questions in flight
keep to the same bounds. The clock passes the deadline in every run, and then no question is in
flight and all permits are back. -/
theorem dropped_searches_ask_nothing_more (directory : Directory) (limits : Limits) (seed : String)
    (start deadline : Instant) (slow : 0 < directory.latency)
    (permitted : limits.maxWorkers ≤ permitLimit) :
    ∃ trace, resolve directory limits seed start = .ok trace ∧
      (∀ progress : Progress, Progress.Reaches (limits.search directory)
          (Progress.initial (limits.search directory) seed start) progress →
        0 ≤ progress.inFlight ∧ progress.inFlight ≤ (max limits.maxWorkers 1 : ℕ) ∧
        (∃ next, progress.Step (limits.search directory) next) ∧
        (progress.IsComplete → progress.inFlight = 0 ∧
          progress.permits = max limits.maxWorkers 1 ∧ progress.events.Perm trace.events ∧
          Questions.asks progress.events = Questions.asks trace.events)) ∧
      (∀ states : ℕ → Progress,
        states 0 = Progress.initial (limits.search directory) seed start →
        (∀ index, (states index).Step (limits.search directory) (states (index + 1))) →
        ∃ index, ∀ later ≥ index, (states later).IsComplete) ∧
      ((∀ request, (deadline, .answered request) ∉ trace.events) →
        (∀ attempt, Attempt.Reaches (limits.search directory) deadline
            (.initial (limits.search directory) seed start deadline) attempt →
          0 ≤ attempt.progress.inFlight ∧
          attempt.progress.inFlight ≤ (max limits.maxWorkers 1 : ℕ) ∧
          (∃ next, Attempt.Step (limits.search directory) deadline attempt next) ∧
          ∀ progress, attempt = .dropped progress →
            Questions.asks progress.events = Questions.asks (trace.before deadline) ∧
            (Questions.asks progress.events <+: Questions.asks trace.events) ∧
            (deadline < progress.now → progress.inFlight = 0 ∧
              progress.permits = max limits.maxWorkers 1 ∧
              progress.events.Perm (Questions.abandonedAt deadline trace))) ∧
        ∀ attempts : ℕ → Attempt,
          attempts 0 = .initial (limits.search directory) seed start deadline →
          (∀ index, Attempt.Step (limits.search directory) deadline (attempts index)
            (attempts (index + 1))) →
          ∃ index progress, attempts index = .dropped progress ∧ deadline < progress.now) := by
  have lanes : 0 < (limits.search directory).lanes :=
    Nat.lt_of_lt_of_le Nat.one_pos (le_max_right _ _)
  have first := Progress.stageOf_initial (limits.search directory) seed start
  rw [← visitsFrom_of_latency slow] at first
  obtain ⟨trace, resolved, told⟩ : ∃ trace, resolve directory limits seed start = .ok trace ∧
      trace.events = (visitsFrom directory limits seed start).flatMap Visit.events :=
    ⟨_, resolve_of_permitted permitted, rfl⟩
  refine ⟨trace, resolved, ?states, ?ending, fun apart => ⟨?attempts, ?past⟩⟩
  case states =>
    intro progress reaches
    have stage := first.of_reaches reaches
    obtain ⟨next, step, -⟩ := stage.exists_step
    refine ⟨stage.counts.nonneg, stage.counts.le_lanes, ⟨next, step⟩, fun complete => ?_⟩
    obtain ⟨inFlight, permits⟩ := stage.counts.of_asking_eq_nil complete.asking
    obtain ⟨events, asks⟩ := stage.events_of_isComplete complete
    rw [told, Progress.asks_visits]
    exact ⟨inFlight, permits, events, asks⟩
  case ending =>
    intro states launched steps
    have stages : ∀ index, (states index).StageOf (limits.search directory)
        (visitsFrom directory limits seed start) := by
      intro index
      induction index with
      | zero => exact launched ▸ first
      | succ index ih => exact ih.step (steps index)
    obtain ⟨index, complete⟩ := exists_of_rank_lt (Progress.rank _ _) _ fun index =>
      (stages index).rank_lt lanes (steps index)
    refine ⟨index, fun later follows => ?_⟩
    induction later, follows using Nat.le_induction with
    | base => exact complete
    | succ later _ ih => exact ih.step (steps later)
  case attempts =>
    intro attempt reaches
    have sound := (Attempt.sound_initial first lanes told).of_reaches lanes told apart reaches
    refine ⟨sound.counts.nonneg, sound.counts.le_lanes, sound.exists_step, ?_⟩
    rintro progress rfl
    cases sound with
    | dropped abandoned =>
        refine ⟨abandoned.asks, abandoned.begun, fun past => ?_⟩
        have silent : progress.asking = [] := by
          by_contra asks
          exact past.ne' (abandoned.present asks)
        obtain ⟨inFlight, permits⟩ := abandoned.counts.of_asking_eq_nil silent
        have events := abandoned.events
        rw [silent, List.map_nil, List.append_nil] at events
        exact ⟨inFlight, permits, events⟩
  case past =>
    intro attempts launched steps
    have sound : ∀ index, Attempt.Sound (limits.search directory) deadline
        (visitsFrom directory limits seed start) trace (attempts index) := by
      intro index
      induction index with
      | zero => exact launched ▸ Attempt.sound_initial first lanes told
      | succ index ih => exact ih.step lanes told apart (steps index)
    exact exists_of_rank_lt (Attempt.rank deadline (visitsFrom directory limits seed start))
      (fun attempt => ∃ progress, attempt = .dropped progress ∧ deadline < progress.now)
      fun index => (sound index).rank_lt lanes (steps index)

/-- A group with three members, in a directory that takes its time. -/
def wide : Directory.Catalog :=
  ({ latency := 200 } : Directory.Catalog).withNested "CN=W" ["CN=A", "CN=B", "CN=C"]

private theorem visitsFrom_wide : visitsFrom wide.toDirectory ⟨2, 2⟩ "CN=W" 0 =
    [⟨"CN=W", 1, 0, 200, false, ["CN=A", "CN=B", "CN=C"]⟩, ⟨"CN=A", 2, 200, 400, false, []⟩,
      ⟨"CN=B", 2, 200, 400, false, []⟩, ⟨"CN=C", 2, 400, 600, false, []⟩] := by
  have latency : wide.toDirectory.latency = 200 := rfl
  have root : wide.toDirectory.memberGroups "CN=W" = .ok ["CN=A", "CN=B", "CN=C"] := by rfl
  have first : wide.toDirectory.memberGroups "CN=A" = .ok [] := by rfl
  have second : wide.toDirectory.memberGroups "CN=B" = .ok [] := by rfl
  have third : wide.toDirectory.memberGroups "CN=C" = .ok [] := by rfl
  have claimed : claim [Text.lowercase "CN=W"] ["CN=A", "CN=B", "CN=C"] =
      ["CN=A", "CN=B", "CN=C"] := by decide
  simp [visitsFrom, Search.visits, Search.visit, Search.laneFree, Search.members, latency, root,
    first, second, third, claimed, claim, Except.isOk, Except.toBool, Except.toOption]

/-- Two workers ask about three members. Between the answers, one member waits for a permit and two
wait for their answers; then all are released. -/
theorem dropped_searches_ask_nothing_more_of_wide :
    0 < wide.toDirectory.latency ∧ 2 ≤ permitLimit ∧
      ∃ trace, resolve wide.toDirectory ⟨2, 2⟩ "CN=W" 0 = .ok trace ∧
        (∀ request, (300, .answered request) ∉ trace.events) ∧
        ∀ progress, Attempt.Reaches (Limits.search ⟨2, 2⟩ wide.toDirectory) 300
            (.initial (Limits.search ⟨2, 2⟩ wide.toDirectory) "CN=W" 0 300) (.dropped progress) →
          Questions.asks progress.events = [(0, .asked (.memberGroups "CN=W")),
            (200, .asked (.memberGroups "CN=A")), (200, .asked (.memberGroups "CN=B"))] ∧
          (300 < progress.now → progress.inFlight = 0 ∧ progress.permits = 2) := by
  have slow : 0 < wide.toDirectory.latency := by decide
  have permitted : 2 ≤ permitLimit := by decide
  obtain ⟨trace, resolved, -, -, dropped⟩ :=
    dropped_searches_ask_nothing_more wide.toDirectory ⟨2, 2⟩ "CN=W" 0 300 slow permitted
  have events : trace.events =
      (visitsFrom wide.toDirectory ⟨2, 2⟩ "CN=W" 0).flatMap Visit.events := by
    rw [resolve_of_permitted permitted] at resolved
    exact (congrArg Trace.events (Except.ok.inj resolved)).symm
  rw [visitsFrom_wide] at events
  have apart : ∀ request, (300, .answered request) ∉ trace.events := by
    intro request
    rw [events]
    simp [Visit.events]
  refine ⟨slow, permitted, trace, resolved, apart, fun progress reaches => ?_⟩
  obtain ⟨-, -, -, left⟩ := (dropped apart).1 _ reaches
  obtain ⟨asks, -, late⟩ := left progress rfl
  refine ⟨?_, fun past => ⟨(late past).1, (late past).2.1⟩⟩
  rw [asks, Trace.before, events]
  rfl

end Groups

end SpnegoRealm
