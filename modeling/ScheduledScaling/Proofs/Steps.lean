import ScheduledScaling.Proofs.Traces
/-!
# The steps of a pass

A pass over a schedule whose spec is in order scales, cleans up, writes the status if one of the
two succeeded, and plans the next pass. `runs_runSteps` takes a run of a pass apart into these
steps.
-/
namespace ScheduledScaling

open Program

section Pass
variable {zones : Zone.Lookup} {registry : Registry} {settings : Settings} {s : Schedule}
  {ns : String} {z : Zone} {now : Instant}

/-- A spec in order leads to the steps of a pass. -/
theorem reconcile_eq (hns : s.metadata.ns = some ns) (hv : s.spec.validate zones = .ok ())
    (hz : Zone.parse s.spec.timeZone zones = .ok z) :
    reconcile registry settings s now zones = Pass.runSteps registry settings s ns z now := by
  unfold reconcile
  simp only [hns, hv, hz]

/-- A pass over a spec in order that fails for its zone does not come to an action. -/
theorem zone_of_runs {trace : List Exchange} {action : Action} (hns : s.metadata.ns = some ns)
    (hv : s.spec.validate zones = .ok ())
    (h : Runs (reconcile registry settings s now zones).run trace (.ok (.ok action))) :
    ∃ z, Zone.parse s.spec.timeZone zones = .ok z := by
  cases hz : Zone.parse s.spec.timeZone zones with
  | ok z => exact ⟨z, rfl⟩
  | error e =>
    unfold reconcile at h
    simp only [hns, hv, hz] at h
    have := (runs_done.1 h).2
    cases this

namespace Pass

theorem runSteps_run (registry : Registry) (settings : Settings) (s : Schedule) (ns : String)
    (z : Zone) (now : Instant) :
    (runSteps registry settings s ns z now).run = (do
      let scaled ← runScaling s.spec z s.recorded now .start
      let progress ← runCleanup registry s.spec z ns s.recorded now scaled
      match ← (writeStatus s ns progress).run with
      | .error e => return .error e
      | .ok () =>
        let wake ← Program.lift (nextWake s.spec z now)
        return .ok (actionOf settings wake progress.transientFailure)) := by
  unfold runSteps
  simp only [ExceptT.run_bind, ExceptT.run_lift, ExceptT.run_pure, bind_map_left]
  congr 1
  funext scaled
  congr 1
  funext progress
  congr 1
  funext written
  cases written <;> rfl

/-- The status is written by one call, if a step succeeded. -/
theorem runs_writeStatus {progress : Progress} {trace : List Exchange}
    {r : Except Overflow (Except Failure Unit)} :
    Runs (writeStatus s ns progress).run trace r ↔
      (progress.succeeded = 0 ∧ trace = [] ∧ r = .ok (.ok ())) ∨
      (0 < progress.succeeded ∧ ∃ answer,
        trace = [⟨.patchStatus ns s.name (finalPatch s progress).toJson, answer⟩] ∧
          r = .ok answer) := by
  unfold writeStatus
  split
  · rename_i hpos
    constructor
    · intro h
      cases h with
      | call answer h =>
        cases h
        exact .inr ⟨hpos, answer, rfl, rfl⟩
    · rintro (⟨h0, -⟩ | ⟨-, answer, rfl, rfl⟩)
      · omega
      · exact .call answer (.done answer)
  · rename_i h
    change Runs (.done _) trace r ↔ _
    rw [runs_done]
    constructor
    · exact fun hr => .inl ⟨by omega, hr⟩
    · rintro (⟨-, hr⟩ | ⟨h0, -⟩)
      · exact hr
      · exact absurd h0 h

/-- A run of a pass, step by step: it breaks off in the scaling or in the cleanup, or it gets to the
status and to the plan of the next pass. -/
theorem runs_runSteps {trace : List Exchange} {r : Except Overflow (Except Failure Action)}
    (h : Runs (runSteps registry settings s ns z now).run trace r) :
    (∃ e, r = .error e ∧ Runs (runScaling s.spec z s.recorded now .start) trace (.error e)) ∨
    ∃ scaled first rest, trace = first ++ rest ∧
      Runs (runScaling s.spec z s.recorded now .start) first (.ok scaled) ∧
      ((∃ e, r = .error e ∧
          Runs (runCleanup registry s.spec z ns s.recorded now scaled) rest (.error e)) ∨
        ∃ progress middle last written, rest = middle ++ last ∧
          Runs (runCleanup registry s.spec z ns s.recorded now scaled) middle (.ok progress) ∧
          Runs (writeStatus s ns progress).run last (.ok written) ∧
          r = match written with
            | .error e => .ok (.error e)
            | .ok () => (nextWake s.spec z now).map fun wake =>
                .ok (actionOf settings wake progress.transientFailure)) := by
  rw [runSteps_run] at h
  rcases runs_bind.1 h with ⟨scaled, first, rest, rfl, hscaled, h⟩ | ⟨e, rfl, he⟩
  rotate_left
  · exact .inl ⟨e, rfl, he⟩
  refine .inr ⟨scaled, first, rest, rfl, hscaled, ?_⟩
  rcases runs_bind.1 h with ⟨progress, middle, last, rfl, hprogress, h⟩ | ⟨e, rfl, he⟩
  rotate_left
  · exact .inl ⟨e, rfl, he⟩
  refine .inr ⟨progress, middle, last, ?_⟩
  rcases runs_bind.1 h with ⟨written, t, t', rfl, hwritten, h⟩ | ⟨e, -, he⟩
  rotate_left
  · rcases runs_writeStatus.1 he with ⟨-, -, hr⟩ | ⟨-, answer, -, hr⟩ <;> cases hr
  cases written with
  | error e =>
    obtain ⟨rfl, rfl⟩ := runs_pure.1 h
    rw [List.append_nil]
    exact ⟨_, rfl, hprogress, hwritten, rfl⟩
  | ok u =>
    rcases runs_lift_bind.1 h with ⟨wake, hwake, h⟩ | ⟨e, hwake, rfl, rfl⟩
    · obtain ⟨rfl, rfl⟩ := runs_pure.1 h
      rw [List.append_nil]
      exact ⟨_, rfl, hprogress, hwritten, by rw [hwake]; rfl⟩
    · rw [List.append_nil]
      exact ⟨_, rfl, hprogress, hwritten, by rw [hwake]; rfl⟩

/-- A pass that makes a call goes through the steps. -/
theorem steps_of_mem {trace : List Exchange} {x : Exchange}
    {r : Except Overflow (Except Failure Action)}
    (h : Runs (reconcile registry settings s now zones).run trace r) (hx : x ∈ trace) :
    ∃ ns z, s.metadata.ns = some ns ∧ s.spec.validate zones = .ok () ∧
      Zone.parse s.spec.timeZone zones = .ok z ∧
      Runs (runSteps registry settings s ns z now).run trace r := by
  unfold reconcile at h
  split at h
  · cases h
    cases hx
  · rename_i ns hns
    split at h
    · cases h
      cases hx
    · rename_i hv
      split at h
      · cases h
        cases hx
      · rename_i z hz
        exact ⟨ns, z, hns, hv, hz, h⟩

/-- The action of a pass follows from the next occurrences and from what failed. -/
theorem action_of_runs {trace : List Exchange} {action : Action}
    (h : Runs (runSteps registry settings s ns z now).run trace (.ok (.ok action))) :
    ∃ wake transientFailure, nextWake s.spec z now = .ok wake ∧
      action = actionOf settings wake transientFailure := by
  rcases runs_runSteps h with ⟨e, he, -⟩ | ⟨scaled, _, _, -, -, ⟨e, he, -⟩ | ⟨progress, _, _, written,
    -, -, -, hr⟩⟩
  · cases he
  · cases he
  · cases written with
    | error e => cases hr
    | ok u =>
      cases hwake : nextWake s.spec z now with
      | error e =>
        rw [hwake] at hr
        cases hr
      | ok wake =>
        rw [hwake] at hr
        cases hr
        exact ⟨wake, _, rfl, rfl⟩

end Pass
end Pass

end ScheduledScaling
