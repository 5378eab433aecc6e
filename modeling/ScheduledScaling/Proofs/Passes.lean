import ScheduledScaling.Proofs.Calls
import ScheduledScaling.Proofs.Statuses
import ScheduledScaling.Proofs.Steps
/-!
# What a pass leaves in the status

The status after a pass is what was recorded before, with the patches merged into it that were
written (`ScheduleStatus.after`). Its times of scaling are those from before, or the pass has
carried out a scaling and records it: `recorded_after`.
-/
namespace ScheduledScaling

open Program

/-- The patch that a call has written into the status of a schedule. -/
def Exchange.patch? : Exchange → Option Json
  | ⟨.patchStatus _ _ patch, .ok _⟩ => some patch
  | _ => none

/-- The status after the patches that were written. -/
def ScheduleStatus.after (status : ScheduleStatus) (trace : List Exchange) : ScheduleStatus :=
  (trace.filterMap Exchange.patch?).foldl merge status

theorem ScheduleStatus.after_append (status : ScheduleStatus) (first rest : List Exchange) :
    status.after (first ++ rest) = (status.after first).after rest := by
  simp [after, List.filterMap_append, List.foldl_append]

/-- Calls that are not about the status leave it alone. -/
theorem ScheduleStatus.after_eq_self {status : ScheduleStatus} {trace : List Exchange}
    (h : ∀ x ∈ trace, x.patch? = none) : status.after trace = status := by
  rw [after, List.filterMap_eq_nil_iff.2 h]
  rfl

theorem Exchange.patch?_of_workloadCall {x : Exchange} (h : x.call.IsWorkloadCall) :
    x.patch? = none := by
  obtain ⟨c, answer⟩ := x
  cases c <;> first | rfl | cases h

theorem Exchange.patch?_of_resourceCall {x : Exchange} (h : x.call.IsResourceCall) :
    x.patch? = none := by
  obtain ⟨c, answer⟩ := x
  cases c <;> first | rfl | cases h

namespace Pass
variable {zones : Zone.Lookup} {registry : Registry} {settings : Settings} {s : Schedule}
  {spec : ScheduleSpec} {ns : String} {z : Zone} {status : ScheduleStatus} {now : Instant}
  {trace : List Exchange}

/-- A pass with these calls carries out a scaling: its plan asks for it, and the calls begin with a
run of it that succeeds. -/
def Scales (spec : ScheduleSpec) (z : Zone) (status : ScheduleStatus) (now : Instant)
    (trace : List Exchange) (direction : Direction) (supersedes : Bool) : Prop :=
  ∃ target plan outcome first rest, spec.target = some target ∧
    planScaling spec.scaleDown spec.scaleUp z status.lastScaleDown status.lastScaleUp now =
      .ok plan ∧
    directionOf plan = some (direction, supersedes) ∧ trace = first ++ rest ∧
    Runs (direction.scale target).run first (.ok (.ok outcome))

/-- A scaling is planned: the spec has a target, and the plan asks for that direction. -/
def Plans (spec : ScheduleSpec) (z : Zone) (status : ScheduleStatus) (now : Instant)
    (target : Target) (direction : Direction) (supersedes : Bool) : Prop :=
  spec.target = some target ∧ ∃ plan,
    planScaling spec.scaleDown spec.scaleUp z status.lastScaleDown status.lastScaleUp now =
      .ok plan ∧ directionOf plan = some (direction, supersedes)

/-- A scaling step in its three cases: nothing is planned; what is planned fails, and leaves a note
only; or it succeeds, and its times and the replicas that are seen after it are in the patch. -/
theorem runs_runScaling {progress scaled : Progress}
    (h : Runs (runScaling spec z status now progress) trace (.ok scaled)) :
    (scaled = progress ∧ ∀ target direction supersedes,
      ¬ Plans spec z status now target direction supersedes) ∨
    ∃ target direction supersedes first rest, Plans spec z status now target direction supersedes ∧
      trace = first ++ rest ∧
      ((∃ e, Runs (direction.scale target).run first (.ok (.error e)) ∧ rest = [] ∧
          scaled = progress.fail direction.step e) ∨
        ∃ outcome replicas, Runs (direction.scale target).run first (.ok (.ok outcome)) ∧
          Runs (observedReplicas target outcome) rest (.ok replicas) ∧
          scaled = progress.succeed (scaleNote direction outcome)
            { scaleTimes direction supersedes status now progress.patch with
              replicas := some replicas }) := by
  unfold runScaling at h
  cases htarget : spec.target with
  | none =>
    rw [htarget] at h
    cases (runs_pure.1 h).2
    refine .inl ⟨rfl, ?_⟩
    rintro target direction supersedes ⟨hsome, -⟩
    rw [htarget] at hsome
    cases hsome
  | some target =>
    rw [htarget] at h
    rcases runs_lift_bind.1 h with ⟨plan, hplan, h⟩ | ⟨e, -, -, he⟩
    rotate_left
    · cases he
    cases hdirection : directionOf plan with
    | none =>
      rw [hdirection] at h
      cases (runs_pure.1 h).2
      refine .inl ⟨rfl, ?_⟩
      rintro target direction supersedes ⟨-, plan', hplan', hsome⟩
      obtain rfl := Except.ok.inj (hplan.symm.trans hplan')
      rw [hdirection] at hsome
      cases hsome
    | some found =>
      obtain ⟨direction, supersedes⟩ := found
      rw [hdirection] at h
      rcases runs_bind.1 h with ⟨result, first, rest, rfl, hscale, h⟩ | ⟨e, he, -⟩
      rotate_left
      · cases he
      refine .inr ⟨target, direction, supersedes, first, rest,
        ⟨htarget, plan, hplan, hdirection⟩, rfl, ?_⟩
      cases result with
      | error e =>
        obtain ⟨rfl, hr⟩ := runs_pure.1 h
        cases hr
        exact .inl ⟨e, hscale, rfl, rfl⟩
      | ok outcome =>
        rcases runs_bind.1 h with ⟨replicas, before, after, rfl, hobserved, h⟩ | ⟨e, he, -⟩
        rotate_left
        · cases he
        obtain ⟨rfl, hr⟩ := runs_pure.1 h
        cases hr
        rw [List.append_nil]
        exact .inr ⟨outcome, replicas, hscale, hobserved, rfl⟩

/-- The scaling of a pass changes the patch only if it was carried out. -/
theorem patch_of_runScaling {progress scaled : Progress}
    (h : Runs (runScaling spec z status now progress) trace (.ok scaled)) :
    scaled.patch = progress.patch ∨ ∃ direction supersedes replicas,
      Scales spec z status now trace direction supersedes ∧
      scaled.patch = { scaleTimes direction supersedes status now progress.patch with
        replicas := some replicas } := by
  rcases runs_runScaling h with ⟨rfl, -⟩ | ⟨target, direction, supersedes, first, rest,
    ⟨htarget, plan, hplan, hdirection⟩, rfl, ⟨e, -, -, rfl⟩ | ⟨outcome, replicas, hscale, -, rfl⟩⟩
  · exact .inl rfl
  · exact .inl rfl
  · exact .inr ⟨direction, supersedes, replicas,
      ⟨target, plan, outcome, first, rest, htarget, hplan, hdirection, rfl, hscale⟩, rfl⟩

/-- The cleanup of a pass adds to the patch only what it is about. -/
theorem progress_of_runCleanup {scaled progress : Progress}
    (h : Runs (runCleanup registry spec z ns status now scaled) trace (.ok progress)) :
    scaled.succeeded ≤ progress.succeeded ∧
    (progress.patch = scaled.patch ∨ ∃ count : Int,
      progress.patch = { scaled.patch with
        lastCleanup := some (advance status.lastCleanup now), cleanedUp := some count }) := by
  rcases runs_lift_bind.1 h with ⟨due, -, h⟩ | ⟨e, -, -, he⟩
  rotate_left
  · cases he
  split at h
  · split at h
    · cases (runs_pure.1 h).2
      exact ⟨Nat.le_refl _, .inl rfl⟩
    · rcases runs_bind.1 h with ⟨result, first, rest, rfl, -, h⟩ | ⟨e, he, -⟩
      rotate_left
      · cases he
      cases result with
      | error e =>
        cases (runs_pure.1 h).2
        exact ⟨Nat.le_refl _, .inl rfl⟩
      | ok report =>
        cases (runs_pure.1 h).2
        exact ⟨Nat.le_succ _, .inr ⟨report.count, rfl⟩⟩
  · cases (runs_pure.1 h).2
    exact ⟨Nat.le_refl _, .inl rfl⟩

/-- The later of two instants that can be written can be written. -/
theorem isNamed_advance {previous : Option Instant} (hp : ∀ t ∈ previous, t.IsNamed)
    (hnow : now.IsNamed) : (advance previous now).IsNamed := by
  cases previous with
  | none => exact hnow
  | some t =>
    change (t.latest now).IsNamed
    unfold Instant.latest
    split
    · exact hnow
    · exact hp t rfl

/-- A recorded time is not before the pass that has recorded it. -/
theorem le_advance (previous : Option Instant) (now : Instant) : now ≤ advance previous now := by
  cases previous with
  | none => exact Instant.le_refl now
  | some t => exact Instant.le_latest_right t now

theorem hasNamedTimes_scaleTimes {patch : StatusPatch} (direction : Direction) (supersedes : Bool)
    (hs : status.HasNamedTimes) (hp : patch.HasNamedTimes) (hnow : now.IsNamed) :
    (scaleTimes direction supersedes status now patch).HasNamedTimes := by
  have hdown : ∀ t ∈ some (advance status.lastScaleDown now), t.IsNamed := by
    simpa using isNamed_advance hs.scaleDown hnow
  have hup : ∀ t ∈ some (advance status.lastScaleUp now), t.IsNamed := by
    simpa using isNamed_advance hs.scaleUp hnow
  cases direction with
  | down =>
    cases supersedes with
    | false => exact ⟨hdown, hp.scaleUp, hp.cleanup⟩
    | true => exact ⟨hdown, hup, hp.cleanup⟩
  | up =>
    cases supersedes with
    | false => exact ⟨hp.scaleDown, hup, hp.cleanup⟩
    | true => exact ⟨hdown, hup, hp.cleanup⟩

/-- Calls after those of a scaling do not undo it. -/
theorem Scales.append {direction : Direction} {supersedes : Bool}
    (h : Scales spec z status now trace direction supersedes) (rest : List Exchange) :
    Scales spec z status now (trace ++ rest) direction supersedes := by
  obtain ⟨target, plan, outcome, first, middle, htarget, hplan, hdirection, rfl, hscale⟩ := h
  exact ⟨target, plan, outcome, first, middle ++ rest, htarget, hplan, hdirection,
    List.append_assoc .., hscale⟩

/-- The times of scaling in a status are those from before, or the pass has scaled and they are the
ones of its patch. -/
def Records (spec : ScheduleSpec) (z : Zone) (status : ScheduleStatus) (now : Instant)
    (trace : List Exchange) (status' : ScheduleStatus) : Prop :=
  (status'.lastScaleDown = status.lastScaleDown ∧ status'.lastScaleUp = status.lastScaleUp) ∨
  ∃ direction supersedes, Scales spec z status now trace direction supersedes ∧
    status'.lastScaleDown = (scaleTimes direction supersedes status now .empty).lastScaleDown.or
      status.lastScaleDown ∧
    status'.lastScaleUp = (scaleTimes direction supersedes status now .empty).lastScaleUp.or
      status.lastScaleUp

theorem patch?_of_scaling {progress : Progress} {r : Except Overflow Progress}
    (h : Runs (runScaling spec z status now progress) trace r) : ∀ x ∈ trace, x.patch? = none :=
  fun x hx => Exchange.patch?_of_workloadCall (h.call_of_mem (onlyCalls_runScaling ..) x hx)

theorem patch?_of_cleanup {progress : Progress} {r : Except Overflow Progress}
    (h : Runs (runCleanup registry spec z ns status now progress) trace r) :
    ∀ x ∈ trace, x.patch? = none :=
  fun x hx => Exchange.patch?_of_resourceCall (h.call_of_mem (onlyCalls_runCleanup ..) x hx)

/-- The times of scaling that a pass writes: none, or those of a scaling that it has carried out. -/
theorem times_of_finalPatch {scaled progress : Progress} {first middle : List Exchange}
    (hs : s.recorded.HasNamedTimes) (hnow : now.IsNamed)
    (hscaled : Runs (runScaling s.spec z s.recorded now .start) first (.ok scaled))
    (hprogress : Runs (runCleanup registry s.spec z ns s.recorded now scaled) middle
      (.ok progress)) :
    (finalPatch s progress).HasNamedTimes ∧
      Records s.spec z s.recorded now first ((finalPatch s progress).apply s.recorded) := by
  have hempty : StatusPatch.empty.HasNamedTimes := by
    constructor <;> intro t ht <;> cases ht
  have hcleanup : ∀ t ∈ some (advance s.recorded.lastCleanup now), t.IsNamed := by
    simpa using isNamed_advance hs.cleanup hnow
  have hfinal : scaled.patch.HasNamedTimes → (finalPatch s progress).HasNamedTimes ∧
      (finalPatch s progress).lastScaleDown = scaled.patch.lastScaleDown ∧
      (finalPatch s progress).lastScaleUp = scaled.patch.lastScaleUp := by
    intro hp
    unfold finalPatch
    rcases (progress_of_runCleanup hprogress).2 with h | ⟨count, h⟩
    · rw [h]
      exact ⟨⟨hp.scaleDown, hp.scaleUp, hp.cleanup⟩, rfl, rfl⟩
    · rw [h]
      exact ⟨⟨hp.scaleDown, hp.scaleUp, hcleanup⟩, rfl, rfl⟩
  rcases patch_of_runScaling hscaled with h | ⟨direction, supersedes, replicas, hscales, h⟩
  · -- No time of scaling is in the patch, so both stay.
    have hp : scaled.patch.HasNamedTimes := by
      rw [h]
      exact hempty
    obtain ⟨hnamed, hdown, hup⟩ := hfinal hp
    refine ⟨hnamed, .inl ⟨?_, ?_⟩⟩
    · rw [StatusPatch.apply, hdown, h]
      rfl
    · rw [StatusPatch.apply, hup, h]
      rfl
  · have htimes := hasNamedTimes_scaleTimes direction supersedes hs hempty hnow
    have hp : scaled.patch.HasNamedTimes := by
      rw [h]
      exact ⟨htimes.scaleDown, htimes.scaleUp, htimes.cleanup⟩
    obtain ⟨hnamed, hdown, hup⟩ := hfinal hp
    refine ⟨hnamed, .inr ⟨direction, supersedes, hscales, ?_, ?_⟩⟩
    · rw [StatusPatch.apply, hdown, h]
      rfl
    · rw [StatusPatch.apply, hup, h]
      rfl

theorem patch?_of_steps {scaled progress : Progress} {r : Except Overflow Progress}
    {first middle : List Exchange}
    (hscaled : Runs (runScaling spec z status now .start) first (.ok scaled))
    (hcleanup : Runs (runCleanup registry spec z ns status now progress) middle r) :
    ∀ x ∈ first ++ middle, x.patch? = none := by
  intro x hx
  rcases List.mem_append.1 hx with hx | hx
  · exact patch?_of_scaling hscaled x hx
  · exact patch?_of_cleanup hcleanup x hx

/-- The status after a pass that has written it. -/
theorem after_of_steps {scaled progress : Progress} {first middle : List Exchange}
    {u : (StoreCall.patchStatus ns s.name (finalPatch s progress).toJson).Result}
    (hs : s.recorded.HasNamedTimes) (hnow : now.IsNamed)
    (hscaled : Runs (runScaling s.spec z s.recorded now .start) first (.ok scaled))
    (hprogress : Runs (runCleanup registry s.spec z ns s.recorded now scaled) middle
      (.ok progress)) :
    s.recorded.after (first ++ (middle ++
        [⟨.patchStatus ns s.name (finalPatch s progress).toJson, .ok u⟩])) =
      (finalPatch s progress).apply s.recorded := by
  obtain ⟨hpatch, -⟩ := times_of_finalPatch hs hnow hscaled hprogress
  rw [← List.append_assoc, ScheduleStatus.after_append,
    ScheduleStatus.after_eq_self (patch?_of_steps hscaled hprogress),
    ← ScheduleStatus.merge_toJson hs hpatch]
  rfl

theorem Records.append {status' : ScheduleStatus} (h : Records spec z status now trace status')
    (rest : List Exchange) : Records spec z status now (trace ++ rest) status' := by
  rcases h with h | ⟨direction, supersedes, hscales, h⟩
  · exact .inl h
  · exact .inr ⟨direction, supersedes, hscales.append rest, h⟩

/-- What a pass leaves in the status, wherever it breaks off or fails. -/
theorem recorded_after {r : Except Overflow (Except Failure Action)}
    (hs : s.recorded.HasNamedTimes) (hnow : now.IsNamed)
    (h : Runs (runSteps registry settings s ns z now).run trace r) :
    (s.recorded.after trace).HasNamedTimes ∧
      Records s.spec z s.recorded now trace (s.recorded.after trace) := by
  have hsame {trace : List Exchange} (h : ∀ x ∈ trace, x.patch? = none) :
      (s.recorded.after trace).HasNamedTimes ∧
        Records s.spec z s.recorded now trace (s.recorded.after trace) := by
    rw [ScheduleStatus.after_eq_self h]
    exact ⟨hs, .inl ⟨rfl, rfl⟩⟩
  rcases runs_runSteps h with ⟨e, -, he⟩ | ⟨scaled, first, rest, rfl, hscaled, hrest⟩
  · exact hsame (patch?_of_scaling he)
  rcases hrest with ⟨e, -, he⟩ | ⟨progress, middle, last, written, rfl, hprogress, hwritten, -⟩
  · exact hsame (patch?_of_steps hscaled he)
  have hquiet := patch?_of_steps hscaled hprogress
  -- The status changes with the last call only, if that succeeds.
  rcases runs_writeStatus.1 hwritten with ⟨-, rfl, -⟩ | ⟨-, answer, rfl, -⟩
  · rw [List.append_nil]
    exact hsame hquiet
  · cases answer with
    | error e =>
      refine hsame fun x hx => ?_
      rw [← List.append_assoc] at hx
      rcases List.mem_append.1 hx with hx | hx
      · exact hquiet x hx
      · obtain rfl := List.mem_singleton.1 hx
        rfl
    | ok u =>
      obtain ⟨hpatch, hrecords⟩ := times_of_finalPatch hs hnow hscaled hprogress
      rw [after_of_steps hs hnow hscaled hprogress]
      exact ⟨StatusPatch.hasNamedTimes_apply hpatch hs, hrecords.append _⟩

/-- What a pass over a schedule whose spec is in order leaves in its status. -/
theorem records_of_reconcile {r : Except Overflow (Except Failure Action)}
    (hv : s.spec.validate zones = .ok ()) (hz : Zone.parse s.spec.timeZone zones = .ok z)
    (hs : status.HasNamedTimes) (hnow : now.IsNamed)
    (h : Runs (reconcile registry settings { s with status := some status } now zones).run trace r) :
    (status.after trace).HasNamedTimes ∧ Records s.spec z status now trace (status.after trace) := by
  cases hns : s.metadata.ns with
  | none =>
    unfold reconcile at h
    simp only [hns] at h
    obtain ⟨rfl, -⟩ := runs_done.1 h
    exact ⟨hs, .inl ⟨rfl, rfl⟩⟩
  | some ns =>
    have hsteps : reconcile registry settings { s with status := some status } now zones =
        runSteps registry settings { s with status := some status } ns z now :=
      reconcile_eq hns hv hz
    have hrecorded : ({ s with status := some status } : Schedule).recorded.HasNamedTimes := hs
    rw [hsteps] at h
    exact recorded_after hrecorded hnow h

end Pass

end ScheduledScaling
