import ScheduledScaling.Proofs.CleanupStep
import ScheduledScaling.Proofs.Plans
import ScheduledScaling.Proofs.TruthfulStatus
/-!
# Passes in turn

A schedule is passed over again and again; each pass finds the status with what the passes before have
written (`InTurn`). `recorded_of_nothingFailed` and `cleanup_of_nothingFailed` tell what a pass in
which nothing failed has recorded of its scaling and of its cleanup.
-/
namespace ScheduledScaling

open Pass Program

/-- One of several passes: the status that it finds, its instant, its calls, and what it comes to. -/
structure PassRecord where
  status : ScheduleStatus
  now : Instant
  trace : List Exchange
  result : Except Overflow (Except Failure Action)

/-- Passes over a schedule, from a status on, whatever the store answers and whatever they come to. -/
inductive InTurn (zones : Zone.Lookup) (registry : Registry) (settings : Settings) (s : Schedule) :
    ScheduleStatus → List PassRecord → Prop
  | nil {status} : InTurn zones registry settings s status []
  | cons {status now trace r later} :
    Runs (reconcile registry settings { s with status := some status } now zones).run trace r →
    InTurn zones registry settings s (status.after trace) later →
    InTurn zones registry settings s status (⟨status, now, trace, r⟩ :: later)

/-- Each of several passes is a run of the program. -/
theorem InTurn.runs_of_mem {zones : Zone.Lookup} {registry : Registry} {settings : Settings}
    {s : Schedule} {status : ScheduleStatus} {passes : List PassRecord}
    (h : InTurn zones registry settings s status passes) :
    ∀ p ∈ passes,
      Runs (reconcile registry settings { s with status := some p.status } p.now zones).run p.trace
        p.result := by
  induction h with
  | nil => exact fun p hp => absurd hp List.not_mem_nil
  | cons hrun _ ih => exact List.forall_mem_cons.2 ⟨hrun, ih⟩

/-- A write of the status that failed. -/
def Exchange.isRefusedWrite : Exchange → Bool
  | ⟨.patchStatus _ _ _, .error _⟩ => true
  | _ => false

/-- Before the first pass no time is recorded. -/
theorem ScheduleStatus.hasNamedTimes_empty : ScheduleStatus.empty.HasNamedTimes := by
  constructor <;> intro t ht <;> cases ht

/-- The pass over a store in memory. -/
def passOver (zones : Zone.Lookup) (registry : Registry) (s : Schedule) (status : ScheduleStatus)
    (now : Instant) (store : MemoryStore) : PassRecord where
  status := status
  now := now
  trace := (reconcile registry .default { s with status := some status } now zones).run.trace
    MemoryStore.handler store
  result := ((reconcile registry .default { s with status := some status } now zones).run.run
    MemoryStore.handler store).1

@[simp] theorem now_passOver (zones : Zone.Lookup) (registry : Registry) (s : Schedule)
    (status : ScheduleStatus) (now : Instant) (store : MemoryStore) :
    (passOver zones registry s status now store).now = now := rfl

/-- A pass over a store and then others are passes in turn. -/
theorem InTurn.passOver {zones : Zone.Lookup} {registry : Registry} {s : Schedule}
    {status : ScheduleStatus} {now : Instant} {store : MemoryStore} {later : List PassRecord}
    (h : InTurn zones registry .default s
      (status.after (passOver zones registry s status now store).trace) later) :
    InTurn zones registry .default s status (passOver zones registry s status now store :: later) :=
  .cons (runs_trace MemoryStore.handler _ store) h

theorem isOrdinary_evening : evening.IsOrdinary :=
  ⟨by decide, by decide, by rw [Instant.maxSecond_eq]; decide⟩

theorem isOrdinary_morning : morning.IsOrdinary :=
  ⟨by decide, by decide, by rw [Instant.maxSecond_eq]; decide⟩

namespace Pass
variable {zones : Zone.Lookup} {registry : Registry} {settings : Settings} {s : Schedule}
  {spec : ScheduleSpec} {ns : String} {z : Zone} {status : ScheduleStatus} {now : Instant}
  {trace : List Exchange} {target : Target} {direction : Direction} {supersedes : Bool}

/-- A pass over a schedule with a spec in order goes through its steps, whatever the status. -/
theorem reconcile_status (hns : s.metadata.ns = some ns) (hv : s.spec.validate zones = .ok ())
    (hparse : Zone.parse s.spec.timeZone zones = .ok z) (status : ScheduleStatus) :
    reconcile registry settings { s with status := some status } now zones =
      runSteps registry settings { s with status := some status } ns z now :=
  reconcile_eq hns hv hparse

/-! ## What is planned -/

/-- A scaling that is planned is one that the plan asks for. -/
theorem plans_of_planScaling {plan : ScalingPlan} (htarget : spec.target = some target)
    (hplan : planScaling spec.scaleDown spec.scaleUp z status.lastScaleDown status.lastScaleUp now =
      .ok plan) (hidle : plan ≠ .idle) :
    ∃ direction supersedes, Plans spec z status now target direction supersedes := by
  cases plan with
  | idle => exact absurd rfl hidle
  | scaleDown supersedes => exact ⟨.down, supersedes, htarget, _, hplan, rfl⟩
  | scaleUp supersedes => exact ⟨.up, supersedes, htarget, _, hplan, rfl⟩

/-- A scaling step over a target that does not break off has made a plan. -/
theorem plan_of_runScaling {progress scaled : Progress} (htarget : spec.target = some target)
    (h : Runs (runScaling spec z status now progress) trace (.ok scaled)) :
    ∃ plan, planScaling spec.scaleDown spec.scaleUp z status.lastScaleDown status.lastScaleUp now =
      .ok plan := by
  unfold runScaling at h
  rw [htarget] at h
  rcases runs_lift_bind.1 h with ⟨plan, hplan, -⟩ | ⟨x, -, -, hx⟩
  · exact ⟨plan, hplan⟩
  · cases hx

/-- The times of a scaling are those of the actions that were due. -/
theorem scaleTimes_of_plan {plan : ScalingPlan} {patch : StatusPatch}
    (h : directionOf plan = some (direction, supersedes)) :
    scaleTimes direction supersedes status now patch =
      { patch with
        lastScaleDown :=
          if plan.downDue then some (advance status.lastScaleDown now) else patch.lastScaleDown
        lastScaleUp :=
          if plan.upDue then some (advance status.lastScaleUp now) else patch.lastScaleUp } := by
  cases plan with
  | idle => cases h
  | scaleDown supersedes =>
    cases h
    cases supersedes <;> rfl
  | scaleUp supersedes =>
    cases h
    cases supersedes <;> rfl

/-! ## What a pass has recorded -/

/-- The status after a pass whose status was not refused: the patch is in it if a step succeeded. -/
theorem after_of_written {scaled progress : Progress} {first middle last : List Exchange}
    (hs : s.recorded.HasNamedTimes) (hnow : now.IsNamed)
    (hscaled : Runs (runScaling s.spec z s.recorded now .start) first (.ok scaled))
    (hprogress : Runs (runCleanup registry s.spec z ns s.recorded now scaled) middle (.ok progress))
    (hwritten : Runs (writeStatus s ns progress).run last (.ok (.ok ()))) :
    s.recorded.after (first ++ (middle ++ last)) =
      if 0 < progress.succeeded then (finalPatch s progress).apply s.recorded else s.recorded := by
  have hquiet : ∀ x ∈ first ++ middle, x.patch? = none := by
    intro x hx
    rcases List.mem_append.1 hx with hx | hx
    · exact patch?_of_scaling hscaled x hx
    · exact patch?_of_cleanup hprogress x hx
  rw [← List.append_assoc, ScheduleStatus.after_append, ScheduleStatus.after_eq_self hquiet]
  rcases runs_writeStatus.1 hwritten with ⟨hzero, rfl, -⟩ | ⟨hpos, answer, rfl, hanswer⟩
  · rw [hzero]
    rfl
  · obtain rfl := Except.ok.inj hanswer
    have hnamed := (times_of_finalPatch hs hnow hscaled hprogress).1
    rw [if_pos hpos, ← ScheduleStatus.merge_toJson hs hnamed]
    rfl

/-! ## A pass in which nothing failed -/

/-- No write of the status has failed. -/
def KeepsStatus (trace : List Exchange) : Prop := ∀ x ∈ trace, x.isRefusedWrite = false

instance (trace : List Exchange) : Decidable (KeepsStatus trace) := List.decidableBAll _ _

theorem written_of_keepsStatus {progress : Progress} {written : Except Failure Unit}
    (h : Runs (writeStatus s ns progress).run trace (.ok written)) (hkeeps : KeepsStatus trace) :
    written = .ok () := by
  rcases runs_writeStatus.1 h with ⟨-, -, hr⟩ | ⟨-, answer, rfl, hr⟩
  · exact Except.ok.inj hr
  · obtain rfl := Except.ok.inj hr
    cases written with
    | ok u => rfl
    | error e => cases hkeeps _ (List.mem_singleton_self _)

/-- Neither step of a pass with these calls has failed or broken off, nor has the write of its status
failed. -/
structure NothingFailed (spec : ScheduleSpec) (z : Zone) (ns : String) (status : ScheduleStatus)
    (now : Instant) (trace : List Exchange) : Prop where
  plans : ∀ target ∈ spec.target, ∃ plan, planScaling spec.scaleDown spec.scaleUp z
    status.lastScaleDown status.lastScaleUp now = .ok plan
  scales : ∀ direction supersedes e,
    ¬ Attempts spec z status now trace direction supersedes (.error e)
  cleans : ¬ CleanupOverruns spec z ns status now trace
  writes : KeepsStatus trace

/-- A scaling step whose plan is made comes to a result. -/
theorem exists_scaled_of_plan {progress : Progress} {r : Except Overflow Progress}
    (hplan : ∀ target ∈ spec.target, ∃ plan, planScaling spec.scaleDown spec.scaleUp z
      status.lastScaleDown status.lastScaleUp now = .ok plan)
    (h : Runs (runScaling spec z status now progress) trace r) : ∃ scaled, r = .ok scaled := by
  cases htarget : spec.target with
  | none =>
    unfold runScaling at h
    rw [htarget] at h
    exact ⟨progress, (runs_pure.1 h).2⟩
  | some target =>
    obtain ⟨plan, hplan⟩ := hplan target htarget
    exact h.ok_of_completes (completes_runScaling progress hplan)

/-- The steps of a pass in which nothing failed, and the status after it. It need not come to an
action: planning the next pass may break off. -/
theorem steps_of_nothingFailed {r : Except Overflow (Except Failure Action)}
    (hs : s.recorded.HasNamedTimes) (hnow : now.IsNamed)
    (h : Runs (runSteps registry settings s ns z now).run trace r)
    (hdone : NothingFailed s.spec z ns s.recorded now trace) :
    ∃ scaled progress first middle last, trace = first ++ (middle ++ last) ∧
      Runs (runScaling s.spec z s.recorded now .start) first (.ok scaled) ∧
      Runs (runCleanup registry s.spec z ns s.recorded now scaled) middle (.ok progress) ∧
      s.recorded.after trace =
        if 0 < progress.succeeded then (finalPatch s progress).apply s.recorded
        else s.recorded := by
  rcases runs_runSteps h with ⟨x, -, hx⟩ | ⟨scaled, first, rest, rfl, hscaled, ⟨x, -, hx⟩ |
    ⟨progress, middle, last, written, rfl, hprogress, hwritten, -⟩⟩
  · obtain ⟨scaled, hscaled⟩ := exists_scaled_of_plan hdone.plans hx
    cases hscaled
  · have hover := (breaks_runCleanup_iff hx).1 ⟨x, rfl⟩
    exact absurd (hover.mono (List.subset_append_right _ _)) hdone.cleans
  · obtain rfl := written_of_keepsStatus hwritten fun x hx =>
      hdone.writes x (List.mem_append_right _ (List.mem_append_right _ hx))
    exact ⟨scaled, progress, first, middle, last, rfl, hscaled, hprogress,
      after_of_written hs hnow hscaled hprogress hwritten⟩

/-- A pass in which nothing failed records what was due of its scaling. -/
theorem recorded_of_nothingFailed {r : Except Overflow (Except Failure Action)}
    (hs : s.recorded.HasNamedTimes) (hnow : now.IsNamed) (htarget : s.spec.target = some target)
    (h : Runs (runSteps registry settings s ns z now).run trace r)
    (hdone : NothingFailed s.spec z ns s.recorded now trace) :
    ∃ plan, planScaling s.spec.scaleDown s.spec.scaleUp z s.recorded.lastScaleDown
        s.recorded.lastScaleUp now = .ok plan ∧
      (s.recorded.after trace).lastScaleDown = (if plan.downDue then
        some (advance s.recorded.lastScaleDown now) else s.recorded.lastScaleDown) ∧
      (s.recorded.after trace).lastScaleUp = (if plan.upDue then
        some (advance s.recorded.lastScaleUp now) else s.recorded.lastScaleUp) := by
  obtain ⟨scaled, progress, first, middle, last, rfl, hscaled, hprogress, hafter⟩ :=
    steps_of_nothingFailed hs hnow h hdone
  obtain ⟨plan, hplan⟩ := plan_of_runScaling htarget hscaled
  refine ⟨plan, hplan, ?_⟩
  -- cleanup leaves the times of scaling in the patch alone
  have hpatch : progress.patch.lastScaleDown = scaled.patch.lastScaleDown ∧
      progress.patch.lastScaleUp = scaled.patch.lastScaleUp := by
    rcases (progress_of_runCleanup hprogress).2 with hsame | ⟨count, hsame⟩ <;> rw [hsame] <;>
      exact ⟨rfl, rfl⟩
  rw [hafter]
  rcases runs_runScaling hscaled with ⟨rfl, hnot⟩ | ⟨target', direction, supersedes, f, observed,
    hplans, rfl, ⟨e, hrun, -, -⟩ | ⟨outcome, replicas, hrun, -, rfl⟩⟩
  · -- nothing was due
    have hidle : plan = .idle := by
      by_contra hidle
      obtain ⟨direction, supersedes, hplans⟩ := plans_of_planScaling htarget hplan hidle
      exact hnot _ _ _ hplans
    subst hidle
    split
    · simp [StatusPatch.apply, finalPatch, hpatch, Progress.start, StatusPatch.empty,
        ScalingPlan.downDue, ScalingPlan.upDue]
    · exact ⟨rfl, rfl⟩
  · exact absurd ⟨target', f, _, hplans, List.append_assoc .., hrun⟩
      (hdone.scales direction supersedes e)
  · have hpos : 0 < progress.succeeded :=
      Nat.lt_of_lt_of_le (Nat.succ_pos _) (progress_of_runCleanup hprogress).1
    obtain ⟨-, plan', hplan', hdirection⟩ := hplans
    obtain rfl := Except.ok.inj (hplan.symm.trans hplan')
    rw [if_pos hpos, StatusPatch.apply, finalPatch, hpatch.1, hpatch.2,
      scaleTimes_of_plan hdirection]
    cases plan.downDue <;> cases plan.upDue <;> exact ⟨rfl, rfl⟩

/-- A pass in which nothing failed records its cleanup if that was due and had somewhere to look. -/
theorem cleanup_of_nothingFailed {r : Except Overflow (Except Failure Action)}
    (hs : s.recorded.HasNamedTimes) (hnow : now.IsNamed)
    (h : Runs (runSteps registry settings s ns z now).run trace r)
    (hdone : NothingFailed s.spec z ns s.recorded now trace) :
    ∃ due, isDue s.spec.cleanup z s.recorded.lastCleanup now = .ok due ∧
      (due = false → (s.recorded.after trace).lastCleanup = s.recorded.lastCleanup) ∧
      (due = true → ∀ config ∈ s.spec.cleanupConfig,
        (∃ e, Cleanup.namespacesOf config ns = .error e) ∨
          (s.recorded.after trace).lastCleanup = some (advance s.recorded.lastCleanup now)) := by
  obtain ⟨scaled, progress, first, middle, last, rfl, hscaled, hprogress, hafter⟩ :=
    steps_of_nothingFailed hs hnow h hdone
  -- the scaling has put nothing about the cleanup into the patch
  have hstart : scaled.patch.lastCleanup = none := by
    rcases patch_of_runScaling hscaled with hsame | ⟨direction, supersedes, replicas, -, hsame⟩
    · rw [hsame]
      rfl
    · rw [hsame]
      cases direction <;> rfl
  obtain ⟨result, hresult, hnoted⟩ := runs_runCleanup.1 hprogress
  rw [hafter]
  rcases runs_cleanupResult hresult with ⟨x, -, -, rfl⟩ | ⟨due, hdue, hnone, -, rfl⟩ |
    ⟨config, r, hdue, hconfig, hrun, rfl⟩
  · cases hnoted
  · obtain rfl := Except.ok.inj hnoted
    refine ⟨due, hdue, fun _ => ?_, fun hdue config hconfig => ?_⟩
    · split
      · simp [StatusPatch.apply, finalPatch, hstart]
      · rfl
    · rw [hnone hdue] at hconfig
      cases hconfig
  · refine ⟨true, hdue, fun hnot => Bool.noConfusion hnot, fun _ config' hconfig' => ?_⟩
    obtain rfl := Option.some.inj (hconfig.symm.trans hconfig')
    cases r with
    | error x => cases hnoted
    | ok result =>
      obtain rfl := Except.ok.inj hnoted
      cases result with
      | error e => exact .inl ⟨e, (Cleanup.namespacesOf_of_run hrun).1⟩
      | ok report =>
        have hpos : 0 < (noted s.recorded now scaled (some (.ok report))).succeeded := Nat.succ_pos _
        rw [if_pos hpos]
        exact .inr rfl

end Pass

end ScheduledScaling
