import SpnegoRealm.Proofs.Refresh.Timer
import SpnegoRealm.Proofs.Refresh.Turns
import SpnegoRealm.Refresh.Upkeep

/-! # Upkeep until a realm is stopped

The upkeep of a realm runs its timer and its watch side by side. It runs to its end whatever the
mapping file is, and the end is the instant at which the realm is stopped: nothing happens later, and
nothing is published at this instant either (`SpnegoRealm.Refresh.exists_upkeep`).
-/

namespace SpnegoRealm.Refresh

open Mapping Questions

variable {settings : Settings} {horizon : Instant}

/-- An event not after an instant, and before it if it is a publication. -/
def InTime (horizon : Instant) (event : Instant × Event) : Prop :=
  event.1 ≤ horizon ∧ ∀ snapshot, event.2 = .published snapshot → event.1 < horizon

private theorem inTime_of_mem_abandonedAt {α : Type} {trace : Trace Event α}
    {event : Instant × Event}
    (happens : event ∈ abandonedAt horizon trace) : InTime horizon event := by
  refine ⟨le_of_mem_abandonedAt happens, fun snapshot publishes => ?_⟩
  rcases List.mem_append.mp happens with kept | dropped
  · exact of_decide_eq_true (List.mem_filter.mp kept).2
  · obtain ⟨request, -, rfl⟩ := List.mem_map.mp dropped
    cases publishes

private theorem exists_timer {attempt : Activity Unit}
    (total : ∀ start, ∃ trace, attempt start = .ok trace)
    (interval : ℕ) (start horizon : Instant) :
    ∃ events, timer attempt interval start horizon = .ok events ∧
      ∀ event ∈ events, InTime horizon event := by
  have makes : ∃ traces, attempts attempt interval horizon (start + interval) = .ok traces := by
    rcases Nat.eq_zero_or_pos interval with rfl | positive
    · refine ⟨[], ?_⟩
      rw [attempts, dif_neg fun ahead => Nat.lt_irrefl 0 ahead.1]
      rfl
    · exact exists_attempts total positive (start + interval)
  obtain ⟨traces, makes⟩ := makes
  refine ⟨_, bind_eq_ok_iff.mpr ⟨traces, makes, rfl⟩, fun event happens => ?_⟩
  obtain ⟨trace, -, part⟩ := List.mem_flatMap.mp happens
  exact inTime_of_mem_abandonedAt part

private theorem exists_watching (permitted : settings.limits.maxWorkers ≤ Groups.permitLimit)
    (file : FileLife) {start stopped : Instant} (forward : start ≤ stopped) :
    ∃ events, watching settings file start stopped = .ok events ∧
      ∀ event ∈ events, InTime stopped event := by
  unfold watching
  cases file.notices with
  | none =>
      refine ⟨_, rfl, fun event happens => ?_⟩
      obtain rfl := List.mem_singleton.mp happens
      exact ⟨forward, nofun⟩
  | some notices =>
      obtain ⟨events, run⟩ := exists_watch permitted file.content notices start (some stopped)
      obtain ⟨trace, -, ends⟩ := bind_eq_ok_iff.mp run
      obtain rfl := Except.ok.inj ends
      exact ⟨_, run, fun event happens => inTime_of_mem_abandonedAt happens⟩

/-- **Upkeep ends when the realm is stopped**, and never publishes from then on. -/
theorem exists_upkeep (permitted : settings.limits.maxWorkers ≤ Groups.permitLimit) (interval : ℕ)
    (file : FileLife) {start stopped : Instant} (forward : start ≤ stopped) :
    ∃ events, upkeep settings interval file start stopped = .ok events ∧
      ∀ event ∈ events, InTime stopped event := by
  obtain ⟨byClock, ticks, clockInTime⟩ :=
    exists_timer (exists_refreshFrom permitted file.content) interval start stopped
  obtain ⟨byChange, watches, changeInTime⟩ := exists_watching permitted file forward
  refine ⟨_, bind_eq_ok_iff.mpr ⟨byClock, ticks, bind_eq_ok_iff.mpr ⟨byChange, watches, rfl⟩⟩, ?_⟩
  intro event happens
  rcases List.mem_append.mp (List.mem_mergeSort.mp happens) with ticked | changed
  · exact clockInTime event ticked
  · exact changeInTime event changed

end SpnegoRealm.Refresh
