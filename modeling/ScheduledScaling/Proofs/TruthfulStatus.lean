import ScheduledScaling.Proofs.FinalState
import ScheduledScaling.Proofs.Undisturbed
/-!
# The status tells the truth about scaling

While nobody else edits the target, the patch of a pass tells what its scaling has done: it has a
time of scaling exactly if that scaling counts as done, and a count of replicas exactly if the
planned scaling succeeded; then this count is stored. After a scaling that failed, wherever that
was, it has none of the three: `status_tells_scaling`.
-/
namespace ScheduledScaling

open Program MemoryStore

namespace Pass
variable {registry : Registry} {settings : Settings} {s : Schedule} {spec : ScheduleSpec}
  {ns : String} {z : Zone} {status : ScheduleStatus} {now : Instant} {trace : List Exchange}
  {target : Target} {direction : Direction} {supersedes : Bool}

/-! ## What is planned, and what it comes to -/

/-- A pass with these calls has planned a scaling, and they begin with a run of it that ends with
this result. -/
def Attempts (spec : ScheduleSpec) (z : Zone) (status : ScheduleStatus) (now : Instant)
    (trace : List Exchange) (direction : Direction) (supersedes : Bool)
    (result : Except Failure ScaleOutcome) : Prop :=
  ∃ target first rest, Plans spec z status now target direction supersedes ∧
    trace = first ++ rest ∧ Runs (direction.scale target).run first (.ok result)

/-- A scaling counts as done if it was carried out, or if the other one was and supersedes it. -/
def CountsAsDone (spec : ScheduleSpec) (z : Zone) (status : ScheduleStatus) (now : Instant)
    (trace : List Exchange) : Direction → Prop
  | .down => (∃ supersedes, Scales spec z status now trace .down supersedes) ∨
      Scales spec z status now trace .up true
  | .up => (∃ supersedes, Scales spec z status now trace .up supersedes) ∨
      Scales spec z status now trace .down true

theorem scales_iff_attempts :
    Scales spec z status now trace direction supersedes ↔
      ∃ outcome, Attempts spec z status now trace direction supersedes (.ok outcome) := by
  constructor
  · rintro ⟨target, plan, outcome, first, rest, htarget, hplan, hdirection, htrace, hrun⟩
    exact ⟨outcome, target, first, rest, ⟨htarget, plan, hplan, hdirection⟩, htrace, hrun⟩
  · rintro ⟨outcome, target, first, rest, ⟨htarget, plan, hplan, hdirection⟩, htrace, hrun⟩
    exact ⟨target, plan, outcome, first, rest, htarget, hplan, hdirection, htrace, hrun⟩

/-- At most one scaling is planned. -/
theorem Plans.unique {target' : Target} {direction' : Direction} {supersedes' : Bool}
    (h : Plans spec z status now target direction supersedes)
    (h' : Plans spec z status now target' direction' supersedes') :
    target = target' ∧ direction = direction' ∧ supersedes = supersedes' := by
  obtain ⟨htarget, plan, hplan, hdirection⟩ := h
  obtain ⟨htarget', plan', hplan', hdirection'⟩ := h'
  obtain rfl := Except.ok.inj (hplan.symm.trans hplan')
  obtain ⟨rfl, rfl⟩ := Prod.mk.inj (Option.some.inj (hdirection.symm.trans hdirection'))
  exact ⟨Option.some.inj (htarget.symm.trans htarget'), rfl, rfl⟩

/-- The planned scaling comes to one result. -/
theorem Attempts.unique {direction' : Direction} {supersedes' : Bool}
    {result result' : Except Failure ScaleOutcome}
    (h : Attempts spec z status now trace direction supersedes result)
    (h' : Attempts spec z status now trace direction' supersedes' result') :
    direction = direction' ∧ supersedes = supersedes' ∧ result = result' := by
  obtain ⟨target, first, rest, hplans, rfl, hrun⟩ := h
  obtain ⟨target', first', rest', hplans', htrace, hrun'⟩ := h'
  obtain ⟨rfl, rfl, rfl⟩ := hplans.unique hplans'
  obtain ⟨-, hresult⟩ := hrun.unique hrun' htrace
  exact ⟨rfl, rfl, Except.ok.inj hresult⟩

/-! ## The fields of the patch -/

/-- The fields of a patch that tell about a scaling. -/
structure HasFields (patch : Json) (fields : StatusPatch) : Prop where
  down : patch.get? "lastScaleDownTime" = fields.lastScaleDown.map .time
  up : patch.get? "lastScaleUpTime" = fields.lastScaleUp.map .time
  replicas : patch.get? "currentReplicas" = fields.replicas.map .int

/-- Cleanup and the summary leave the fields alone that tell about a scaling. -/
theorem hasFields_finalPatch {scaled progress : Progress}
    (h : Runs (runCleanup registry spec z ns status now scaled) trace (.ok progress)) :
    HasFields (finalPatch s progress).toJson scaled.patch := by
  have hmember (key : String) : (finalPatch s progress).toJson.get? key =
      ((finalPatch s progress).members.get? key).join := Json.get?_record (nodup_statusMembers ..)
  have hsame : progress.patch.lastScaleDown = scaled.patch.lastScaleDown ∧
      progress.patch.lastScaleUp = scaled.patch.lastScaleUp ∧
      progress.patch.replicas = scaled.patch.replicas := by
    rcases (progress_of_runCleanup h).2 with h | ⟨count, h⟩
    · rw [h]
      exact ⟨rfl, rfl, rfl⟩
    · rw [h]
      exact ⟨rfl, rfl, rfl⟩
  obtain ⟨hdown, hup, hreplicas⟩ := hsame
  refine ⟨(hmember _).trans ?_, (hmember _).trans ?_, (hmember _).trans ?_⟩
  · rw [← hdown]
    rfl
  · rw [← hup]
    rfl
  · rw [← hreplicas]
    rfl

/-- What the fields of a patch tell about the scaling of a pass with these calls, from one store to
another. -/
structure TellsScaling (spec : ScheduleSpec) (z : Zone) (status : ScheduleStatus) (now : Instant)
    (trace : List Exchange) (before after : MemoryStore) (patch : Json) : Prop where
  /-- The time of scaling down is there exactly if scaling down counts as done. -/
  down : ∀ v, patch.get? "lastScaleDownTime" = some v ↔
    CountsAsDone spec z status now trace .down ∧ v = .time (advance status.lastScaleDown now)
  up : ∀ v, patch.get? "lastScaleUpTime" = some v ↔
    CountsAsDone spec z status now trace .up ∧ v = .time (advance status.lastScaleUp now)
  /-- The count of replicas is there exactly if the planned scaling succeeded. -/
  replicas : (patch.get? "currentReplicas").isSome ↔
    ∃ direction supersedes, Scales spec z status now trace direction supersedes
  /-- Then it is the count that is stored at the end, and the workload is left as it has to be. -/
  stored : ∀ target direction supersedes, spec.target = some target →
    Scales spec z status now trace direction supersedes →
    ∃ found w, before.workload? target.ns target.name = some found ∧
      after.workload? target.ns target.name = some w ∧ Leaves found w direction ∧
      patch.get? "currentReplicas" = some (.int w.replicas)
  /-- A scaling that failed leaves no trace in the patch. -/
  failed : ∀ direction supersedes e, Attempts spec z status now trace direction supersedes (.error e) →
    patch.get? "lastScaleDownTime" = none ∧ patch.get? "lastScaleUpTime" = none ∧
      patch.get? "currentReplicas" = none

variable {before after : MemoryStore} {patch : Json} {fields : StatusPatch}

/-- A patch without the fields is right where no scaling succeeded. -/
theorem tellsScaling_of_not_scales (h : HasFields patch .empty)
    (hnot : ∀ direction supersedes, ¬ Scales spec z status now trace direction supersedes) :
    TellsScaling spec z status now trace before after patch where
  down v := by
    rw [h.down]
    simp [StatusPatch.empty, CountsAsDone, hnot]
  up v := by
    rw [h.up]
    simp [StatusPatch.empty, CountsAsDone, hnot]
  replicas := by
    rw [h.replicas]
    simp [StatusPatch.empty, hnot]
  stored target direction supersedes _ hscales := absurd hscales (hnot direction supersedes)
  failed direction supersedes e _ := ⟨h.down, h.up, h.replicas⟩

/-- After a scaling that succeeded, a patch is right that has its times and the replicas that are
stored. -/
theorem tellsScaling_of_attempts {outcome : ScaleOutcome} {found w : Workload}
    (htarget : spec.target = some target)
    (hattempts : Attempts spec z status now trace direction supersedes (.ok outcome))
    (hfound : before.workload? target.ns target.name = some found)
    (hstored : after.workload? target.ns target.name = some w) (hleaves : Leaves found w direction)
    (h : HasFields patch { scaleTimes direction supersedes status now .empty with
      replicas := some w.replicas }) :
    TellsScaling spec z status now trace before after patch := by
  have hscales (direction' : Direction) (supersedes' : Bool) :
      Scales spec z status now trace direction' supersedes' ↔
        direction' = direction ∧ supersedes' = supersedes := by
    rw [scales_iff_attempts]
    constructor
    · rintro ⟨outcome', h'⟩
      obtain ⟨rfl, rfl, -⟩ := hattempts.unique h'
      exact ⟨rfl, rfl⟩
    · rintro ⟨rfl, rfl⟩
      exact ⟨outcome, hattempts⟩
  refine ⟨fun v => ?_, fun v => ?_, ?_, ?_, ?_⟩
  · rw [h.down]
    cases direction <;> cases supersedes <;>
      simp [CountsAsDone, hscales, scaleTimes, StatusPatch.empty, eq_comm]
  · rw [h.up]
    cases direction <;> cases supersedes <;>
      simp [CountsAsDone, hscales, scaleTimes, StatusPatch.empty, eq_comm]
  · rw [h.replicas]
    simp [hscales]
  · intro target' direction' supersedes' htarget' hscales'
    obtain ⟨rfl, rfl⟩ := (hscales _ _).1 hscales'
    obtain rfl := Option.some.inj (htarget.symm.trans htarget')
    exact ⟨found, w, hfound, hstored, hleaves, h.replicas⟩
  · intro direction' supersedes' e hfails
    obtain ⟨-, -, hresult⟩ := hattempts.unique hfails
    cases hresult

/-! ## The pass -/

/-- The replicas that are seen after a scaling are those that are stored, also if the workload cannot
be read again. -/
theorem observed_eq {outcome : ScaleOutcome} {replicas : Int} {w : Workload}
    (h : Runs (observedReplicas target outcome) trace (.ok replicas))
    (hcalls : Undisturbed (workloadKey target.ns target.name) before trace after)
    (hstored : before.workload? target.ns target.name = some w)
    (houtcome : w.replicas = outcome.replicas) : replicas = w.replicas := by
  obtain ⟨answer, rest, rfl, hrest⟩ := runs_call.1 h
  cases answer with
  | error e =>
    obtain ⟨-, hr⟩ := runs_done.1 hrest
    cases hr
    exact houtcome.symm
  | ok seen =>
    obtain ⟨-, hr⟩ := runs_done.1 hrest
    cases hr
    obtain ⟨hseen, -⟩ := hcalls.of_fetch
    rw [Option.some.inj (hseen.symm.trans hstored)]

theorem not_replace_of_observed {outcome : ScaleOutcome} {replicas : Int}
    (h : Runs (observedReplicas target outcome) trace (.ok replicas)) :
    ∀ x ∈ trace, ¬ x.call.IsReplace := by
  have honly : OnlyCalls (fun c => ¬ c.IsReplace) (observedReplicas target outcome) := by
    refine ⟨id, fun answer => ?_⟩
    cases answer <;> trivial
  exact h.call_of_mem honly

theorem not_replace_of_resourceCall {c : StoreCall} (h : c.IsResourceCall) : ¬ c.IsReplace := by
  cases c <;> first | exact id | exact h.elim

/-- What a scaling step and a cleanup step have put into the patch is right, if what comes after them
replaces no workload. -/
theorem tellsScaling_of_steps {scaled progress : Progress} {first middle last : List Exchange}
    (hscaled : Runs (runScaling spec z status now .start) first (.ok scaled))
    (hprogress : Runs (runCleanup registry spec z ns status now scaled) middle (.ok progress))
    (hlast : ∀ x ∈ last, ¬ x.call.IsReplace)
    (hcalls : ∀ target ∈ spec.target,
      Undisturbed (workloadKey target.ns target.name) before (first ++ (middle ++ last)) after) :
    TellsScaling spec z status now (first ++ (middle ++ last)) before after
      (finalPatch s progress).toJson := by
  have hfields : HasFields (finalPatch s progress).toJson scaled.patch :=
    hasFields_finalPatch hprogress
  rcases runs_runScaling hscaled with ⟨rfl, hnot⟩ | ⟨target, direction, supersedes, f, observed, hplans,
    rfl, ⟨e, hrun, -, rfl⟩ | ⟨outcome, replicas, hrun, hobserved, rfl⟩⟩
  · -- nothing is planned
    refine tellsScaling_of_not_scales hfields fun direction supersedes hscales => ?_
    obtain ⟨_, target, _, _, hplans, -⟩ := scales_iff_attempts.1 hscales
    exact hnot target direction supersedes hplans
  · -- the planned scaling fails
    have hattempts : Attempts spec z status now (f ++ observed ++ (middle ++ last)) direction
        supersedes (.error e) := ⟨target, f, _, hplans, List.append_assoc .., hrun⟩
    refine tellsScaling_of_not_scales hfields fun direction' supersedes' hscales => ?_
    obtain ⟨outcome, hsucceeds⟩ := scales_iff_attempts.1 hscales
    cases (hattempts.unique hsucceeds).2.2
  · -- the planned scaling succeeds
    have hattempts : Attempts spec z status now (f ++ observed ++ (middle ++ last)) direction
        supersedes (.ok outcome) := ⟨target, f, _, hplans, List.append_assoc .., hrun⟩
    have hall := hcalls target hplans.1
    rw [List.append_assoc] at hall
    obtain ⟨store, hscale, hrest⟩ := hall.of_append
    obtain ⟨found, w, hfound, hw, hreplicas, hleaves⟩ := Scaling.stored_of_scale hrun hscale
    obtain ⟨_, hobserve, -⟩ := hrest.of_append
    obtain rfl := observed_eq hobserved hobserve hw hreplicas
    have hkeep : ∀ x ∈ observed ++ (middle ++ last), ¬ x.call.IsReplace := by
      intro x hx
      rcases List.mem_append.1 hx with hx | hx
      · exact not_replace_of_observed hobserved x hx
      rcases List.mem_append.1 hx with hx | hx
      · exact not_replace_of_resourceCall (hprogress.call_of_mem (onlyCalls_runCleanup ..) x hx)
      · exact hlast x hx
    exact tellsScaling_of_attempts hplans.1 hattempts hfound ((hrest.stored_eq hkeep).trans hw)
      hleaves hfields

/-- A call that writes the status is none of the calls about workloads and resources. -/
theorem not_patch_of_scaling {progress : Progress} {r : Except Overflow Progress}
    (h : Runs (runScaling spec z status now progress) trace r) {ns name : String} {patch : Json}
    {answer : Except Failure Unit} : (⟨.patchStatus ns name patch, answer⟩ : Exchange) ∉ trace :=
  fun hx => h.call_of_mem (onlyCalls_runScaling ..) _ hx

theorem not_patch_of_cleanup {progress : Progress} {r : Except Overflow Progress}
    (h : Runs (runCleanup registry spec z ns status now progress) trace r) {ns name : String}
    {patch : Json} {answer : Except Failure Unit} :
    (⟨.patchStatus ns name patch, answer⟩ : Exchange) ∉ trace :=
  fun hx => h.call_of_mem (onlyCalls_runCleanup ..) _ hx

/-- In a pass, only what comes after scaling and cleanup writes the status. -/
theorem patch_mem_last {scaled : Progress} {r : Except Overflow Progress}
    {first middle last : List Exchange}
    (hscaled : Runs (runScaling spec z status now .start) first (.ok scaled))
    (hcleanup : Runs (runCleanup registry spec z ns status now scaled) middle r)
    {ns name : String} {patch : Json} {answer : Except Failure Unit}
    (hx : ⟨.patchStatus ns name patch, answer⟩ ∈ first ++ (middle ++ last)) :
    ⟨.patchStatus ns name patch, answer⟩ ∈ last := by
  rcases List.mem_append.1 hx with hx | hx
  · exact absurd hx (not_patch_of_scaling hscaled)
  rcases List.mem_append.1 hx with hx | hx
  · exact absurd hx (not_patch_of_cleanup hcleanup)
  · exact hx

/-- A scaling that was carried out counts as a step that succeeded. -/
theorem succeeded_of_scales {scaled : Progress} {first rest : List Exchange}
    (hscaled : Runs (runScaling spec z status now .start) first (.ok scaled))
    (h : Scales spec z status now (first ++ rest) direction supersedes) : 0 < scaled.succeeded := by
  obtain ⟨outcome, hattempts⟩ := scales_iff_attempts.1 h
  rcases runs_runScaling hscaled with ⟨-, hnot⟩ | ⟨target, direction', supersedes', f, observed,
    hplans, rfl, ⟨e, hrun, -, -⟩ | ⟨_, _, -, -, rfl⟩⟩
  · obtain ⟨target, _, _, hplans, -⟩ := hattempts
    exact absurd hplans (hnot target direction supersedes)
  · have hfails : Attempts spec z status now (f ++ observed ++ rest) direction' supersedes'
        (.error e) := ⟨target, f, _, hplans, List.append_assoc .., hrun⟩
    cases (hattempts.unique hfails).2.2
  · exact Nat.succ_pos _

/-- A scaling makes a call. -/
theorem not_scales_nil : ¬ Scales spec z status now [] direction supersedes := by
  rintro ⟨target, plan, outcome, first, rest, -, -, -, htrace, hrun⟩
  obtain ⟨rfl, -⟩ := List.append_eq_nil_iff.1 htrace.symm
  rw [Scaling.scale_run] at hrun
  cases hrun

end Pass

open Pass

/-- A pass over a schedule with a spec in order, during which nobody else edits the target, writes
only the truth about its scaling, whatever fails in it. It writes if the scaling has succeeded and
the pass does not break off. -/
theorem status_tells_scaling {zones : Zone.Lookup} {registry : Registry} {settings : Settings}
    {s : Schedule} {now : Instant} {trace : List Exchange}
    {r : Except Overflow (Except Failure Action)} {before after : MemoryStore}
    (hv : s.spec.validate zones = .ok ())
    (h : Runs (reconcile registry settings s now zones).run trace r)
    (hcalls : ∀ target ∈ s.spec.target,
      Undisturbed (workloadKey target.ns target.name) before trace after) :
    ∃ z, Zone.parse s.spec.timeZone zones = .ok z ∧
      (∀ ns name patch answer, ⟨.patchStatus ns name patch, answer⟩ ∈ trace →
        TellsScaling s.spec z s.recorded now trace before after patch) ∧
      ∀ result direction supersedes, r = .ok result →
        Scales s.spec z s.recorded now trace direction supersedes →
        ∃ ns name patch answer, ⟨.patchStatus ns name patch, answer⟩ ∈ trace := by
  obtain ⟨z, hz⟩ := ScheduleSpec.zone_of_validate hv
  refine ⟨z, hz, ?_⟩
  cases hns : s.metadata.ns with
  | none =>
    -- a schedule outside namespaces makes no call
    unfold reconcile at h
    simp only [hns] at h
    obtain ⟨rfl, -⟩ := runs_done.1 h
    exact ⟨fun ns name patch answer hx => absurd hx List.not_mem_nil,
      fun result direction supersedes _ hscales => absurd hscales not_scales_nil⟩
  | some ns =>
    rw [reconcile_eq hns hv hz] at h
    rcases runs_runSteps h with ⟨e, rfl, he⟩ | ⟨scaled, first, rest, rfl, hscaled, hrest⟩
    · exact ⟨fun ns name patch answer hx => absurd hx (not_patch_of_scaling he),
        fun result direction supersedes hr => nomatch hr⟩
    rcases hrest with ⟨e, rfl, he⟩ | ⟨progress, middle, last, written, rfl, hprogress, hwritten, hr⟩
    · refine ⟨fun ns name patch answer hx => ?_, fun result direction supersedes hr => nomatch hr⟩
      rw [← List.append_nil rest] at hx
      exact absurd (patch_mem_last hscaled he hx) List.not_mem_nil
    rcases runs_writeStatus.1 hwritten with ⟨hzero, rfl, -⟩ | ⟨-, answer, rfl, -⟩
    · -- nothing succeeded, so nothing is written
      refine ⟨fun ns name patch answer hx => ?_, fun result direction supersedes _ hscales => ?_⟩
      · exact absurd (patch_mem_last hscaled hprogress hx) List.not_mem_nil
      · have hpos := succeeded_of_scales hscaled hscales
        have hle := (progress_of_runCleanup hprogress).1
        omega
    · have hlast : ∀ x ∈ [(⟨.patchStatus ns s.name (finalPatch s progress).toJson, answer⟩ : Exchange)],
          ¬ x.call.IsReplace := by
        intro x hx
        obtain rfl := List.mem_singleton.1 hx
        exact id
      refine ⟨fun ns' name patch answer' hx => ?_, fun result direction supersedes _ _ => ?_⟩
      · cases List.mem_singleton.1 (patch_mem_last hscaled hprogress hx)
        exact tellsScaling_of_steps hscaled hprogress hlast hcalls
      · exact ⟨_, _, _, _, List.mem_append_right _ (List.mem_append_right _ List.mem_cons_self)⟩

/-- The store of the night, in which the workload is not read again after the first fetch. -/
def blindStore : MemoryStore := { nightlyStore with fetchBudget := some 1 }

/-- The pass in the evening over that store writes a count of replicas, and it is the one stored. -/
theorem status_tells_scaling_blind :
    ∃ patch ∈ (eveningPass.trace handler blindStore).filterMap Exchange.patch?,
      (patch.get? "currentReplicas").isSome ∧
      TellsScaling nightly.spec .utc .empty evening (eveningPass.trace handler blindStore) blindStore
        (eveningPass.run handler blindStore).2 patch := by
  have hcalls : ∀ target ∈ nightly.spec.target,
      Undisturbed (workloadKey target.ns target.name) blindStore
        (eveningPass.trace handler blindStore) (eveningPass.run handler blindStore).2 :=
    fun target _ => undisturbed_trace eveningPass fun e he => nomatch he
  obtain ⟨z, hz, htells, -⟩ := status_tells_scaling (s := { nightly with status := some .empty })
    validate_nightly (runs_trace handler eveningPass blindStore) hcalls
  obtain rfl := Except.ok.inj (parse_utc.symm.trans hz)
  have hwritten : ((eveningPass.trace handler blindStore).filterMap Exchange.patch?).any
      (fun patch => (patch.get? "currentReplicas").isSome) = true := by decide +kernel
  obtain ⟨patch, hpatch, hreplicas⟩ := List.any_eq_true.1 hwritten
  obtain ⟨⟨c, answer⟩, hx, hc⟩ := List.mem_filterMap.1 hpatch
  refine ⟨patch, hpatch, hreplicas, ?_⟩
  cases c with
  | patchStatus ns name written =>
    cases answer with
    | error e => cases hc
    | ok u =>
      cases hc
      exact htells _ _ _ _ hx
  | _ => cases hc

end ScheduledScaling
