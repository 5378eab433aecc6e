import ScheduledScaling.Proofs.Clearance
import ScheduledScaling.Proofs.Footprints
/-!
# Scaling and cleanup do not influence each other

What the scaling of a pass does, leaves and records is the same whatever the cleanup finds, does and
fails at, and the other way round: `scaling_and_cleanup_are_independent`. Only a cleanup that breaks
off keeps the pass from recording its scaling (`scaling_is_not_recorded`).
-/
namespace ScheduledScaling

open Pass Program MemoryStore

/-! ## Two passes -/

section
variable {zones : Zone.Lookup} {registry registry' : Registry} {settings : Settings} {s : Schedule}
  {z : Zone} {now : Instant} {store store' : MemoryStore}

/-- A pass with these calls cleans up: after those of its scaling come those of a cleanup that gives a
report. -/
def CleansUp (registry : Registry) (s : Schedule) (z : Zone) (now : Instant)
    (trace : List Exchange) : Prop :=
  ∃ ns scaled report first middle last, s.metadata.ns = some ns ∧
    trace = first ++ (middle ++ last) ∧ Runs (scalingOf s z now) first (.ok scaled) ∧
    Runs (cleanupOf registry s ns z now) middle (.ok (some (.ok report)))

/-- The cleanup of a schedule does not break off at a resource that is listed in these calls. -/
def DecidesListed (s : Schedule) (now : Instant) (trace : List Exchange) : Prop :=
  ∀ config policy, s.spec.cleanupConfig = some config → CleanupPolicy.ofConfig config = .ok policy →
    ∀ x ∈ trace, ¬ Cleanup.Undecided policy now x

/-- Two passes have cleaned up alike: the same calls about resources, the same resources left, and
the same record of it; and if they have cleaned up, both have written it. -/
structure CleanAlike (registry : Registry) (s : Schedule) (z : Zone) (now : Instant)
    (a b : Footprint) : Prop where
  calls : resourceCalls a.calls = resourceCalls b.calls
  listers : a.store.listers = b.store.listers
  time : written? "lastCleanupTime" a.calls = written? "lastCleanupTime" b.calls
  count : written? "lastCleanupResourceCount" a.calls = written? "lastCleanupResourceCount" b.calls
  written : CleansUp registry s z now a.calls →
    writtenPatches a.calls ≠ [] ∧ writtenPatches b.calls ≠ []

/-- Two passes have scaled alike: the same calls about workloads, the same workloads left, and the
same record of it; and if they have scaled, both have written it, unless the cleanup breaks off before
its first call. -/
structure ScaleAlike (s : Schedule) (z : Zone) (now : Instant) (a b : Footprint) : Prop where
  calls : workloadCalls a.calls = workloadCalls b.calls
  workloads : a.store.workloadSide = b.store.workloadSide
  down : written? "lastScaleDownTime" a.calls = written? "lastScaleDownTime" b.calls
  up : written? "lastScaleUpTime" a.calls = written? "lastScaleUpTime" b.calls
  replicas : written? "currentReplicas" a.calls = written? "currentReplicas" b.calls
  written : ∀ ns direction supersedes, s.metadata.ns = some ns →
    Scales s.spec z s.recorded now a.calls direction supersedes →
    (CleanupOverruns s.spec z ns s.recorded now [] ∧
        writtenPatches a.calls = [] ∧ writtenPatches b.calls = []) ∨
      ¬ CleanupOverruns s.spec z ns s.recorded now [] ∧
        writtenPatches a.calls ≠ [] ∧ writtenPatches b.calls ≠ []

/-- A pass breaks off before its first call, or it is one over a namespaced schedule that has its
parts, whatever the store. -/
theorem footprint_cases (settings : Settings) (hv : s.spec.validate zones = .ok ())
    (hz : Zone.parse s.spec.timeZone zones = .ok z) :
    (∀ registry store trace, footprint zones registry settings s now store = ⟨[], store⟩ ∧
      ¬ CleansUp registry s z now trace) ∨
    ∃ ns, s.metadata.ns = some ns ∧ ∀ registry store, store.patchesFail = false →
      ∃ scaled, HasParts registry s ns z now store scaled
        (footprint zones registry settings s now store) := by
  cases hns : s.metadata.ns with
  | none =>
    refine .inl fun registry store trace => ⟨?_, ?_⟩
    · unfold footprint reconcile
      rw [hns]
      rfl
    · rintro ⟨ns, _, _, _, _, _, hns', -⟩
      rw [hns] at hns'
      cases hns'
  | some ns =>
    rcases scalingOf_cases s z now with ⟨x, hbreaks⟩ | hplan
    · refine .inl fun registry store trace => ⟨?_, ?_⟩
      · unfold footprint
        rw [reconcile_eq hns hv hz, runSteps_eq, hbreaks]
        rfl
      · rintro ⟨_, _, _, _, _, _, -, -, hscaling, -⟩
        rw [hbreaks] at hscaling
        cases hscaling
    · refine .inr ⟨ns, rfl, fun registry store hwrites => ?_⟩
      obtain ⟨scaled, hscaled⟩ := (runs_trace handler _ store).ok_of_completes hplan
      exact ⟨scaled, hasParts_of_scaled hns hv hz hscaled hwrites⟩

namespace Pass.HasParts
variable {ns : String} {scaled : Progress} {f : Footprint}
  (h : HasParts registry s ns z now store scaled f)
include h

theorem runs_scaling :
    Runs (scalingOf s z now) ((scalingOf s z now).trace handler store) (.ok scaled) := by
  have hrun := runs_trace handler (scalingOf s z now) store
  rwa [h.scales] at hrun

/-- A cleanup that is in the calls of a pass is the one of the pass. -/
theorem report_of_cleansUp (hns : s.metadata.ns = some ns)
    (hcleans : CleansUp registry s z now f.calls) :
    ∃ report, ((cleanupOf registry s ns z now).run handler store).1 = .ok (some (.ok report)) := by
  obtain ⟨ns', scaled', report, first, middle, last, hns', hcalls, hscaling, hcleanup⟩ := hcleans
  obtain rfl := Option.some.inj (hns.symm.trans hns')
  rw [h.calls] at hcalls
  obtain ⟨rfl, -⟩ := h.runs_scaling.unique hscaling hcalls
  obtain ⟨-, hresult⟩ := (runs_trace handler _ store).unique hcleanup
    (List.append_cancel_left hcalls)
  exact ⟨report, hresult⟩

/-- What a pass has written about its cleanup follows from the report of the cleanup. -/
theorem written?_cleanup :
    (written? "lastCleanupTime" f.calls =
        (report? ((cleanupOf registry s ns z now).run handler store).1).map
          fun _ => .time (advance s.recorded.lastCleanup now)) ∧
      written? "lastCleanupResourceCount" f.calls =
        (report? ((cleanupOf registry s ns z now).run handler store).1).map
          fun report => .int report.count := by
  obtain ⟨htime, hcount, -⟩ := patch_of_scalingOf h.runs_scaling
  rw [h.written?_eq, h.written?_eq]
  exact get?_patchAfter_cleanup s now _ htime hcount

/-- What a pass whose cleanup comes to something has written about its scaling is what the scaling has
put there. -/
theorem written?_scaling {result : Option (Except Failure CleanupReport)}
    (hresult : ((cleanupOf registry s ns z now).run handler store).1 = .ok result) :
    (written? "lastScaleDownTime" f.calls = scaled.patch.lastScaleDown.map .time) ∧
      (written? "lastScaleUpTime" f.calls = scaled.patch.lastScaleUp.map .time) ∧
      written? "currentReplicas" f.calls = scaled.patch.replicas.map .int := by
  obtain ⟨-, -, hnothing⟩ := patch_of_scalingOf h.runs_scaling
  rw [h.written?_eq, h.written?_eq, h.written?_eq, hresult]
  exact get?_patchAfter_scaling s now result hnothing

/-- A pass whose cleanup breaks off has written nothing. -/
theorem writtenPatches_of_error {x : Overflow}
    (hresult : ((cleanupOf registry s ns z now).run handler store).1 = .error x) :
    writtenPatches f.calls = [] := by
  rw [h.writtenPatches_eq, hresult]
  rfl

/-- The status is written if a step has succeeded and the cleanup does not break off. -/
theorem patches_ne_nil {result : Option (Except Failure CleanupReport)}
    (hresult : ((cleanupOf registry s ns z now).run handler store).1 = .ok result)
    (hpos : 0 < (noted s.recorded now scaled result).succeeded) : writtenPatches f.calls ≠ [] := by
  rw [h.writtenPatches_eq, hresult, patchAfter, patchOf, if_pos hpos]
  exact List.cons_ne_nil _ _

/-- If no resource that is listed breaks the cleanup off, only what is there before its first call
does. -/
theorem breaks_iff (hlisted : DecidesListed s now f.calls) :
    (∃ x, ((cleanupOf registry s ns z now).run handler store).1 = .error x) ↔
      CleanupOverruns s.spec z ns s.recorded now [] := by
  rw [breaks_iff_cleanupOverruns (runs_trace handler _ store)]
  refine ⟨fun hover => ?_, fun hover => hover.mono (List.nil_subset _)⟩
  cases hover with
  | due hdue => exact .due hdue
  | age hdue hconfig hnamespaces hpolicy => exact .age hdue hconfig hnamespaces hpolicy
  | deadline _ hconfig _ hpolicy hmem hundecided =>
    refine absurd hundecided (hlisted _ _ hconfig hpolicy _ ?_)
    rw [h.calls]
    exact List.mem_append_right _ (List.mem_append_left _ hmem)

end Pass.HasParts

theorem cleanAlike_of_listers (hv : s.spec.validate zones = .ok ())
    (hz : Zone.parse s.spec.timeZone zones = .ok z) (h : store.listers = store'.listers)
    (hwrites : store.patchesFail = false) (hwrites' : store'.patchesFail = false) :
    CleanAlike registry s z now (footprint zones registry settings s now store)
      (footprint zones registry settings s now store') := by
  rcases footprint_cases settings hv hz with hstill | ⟨ns, hns, hparts⟩
  · rw [(hstill registry store []).1, (hstill registry store' []).1]
    exact ⟨rfl, h, rfl, rfl, fun hcleans => absurd hcleans (hstill registry store _).2⟩
  obtain ⟨scaled, ha⟩ := hparts registry store hwrites
  obtain ⟨scaled', hb⟩ := hparts registry store' hwrites'
  obtain ⟨hcalls, hresult, hlisters⟩ :=
    run_congr_listers (onlyCalls_cleanupOf registry s ns z now) h
  obtain ⟨htime, hcount⟩ := ha.written?_cleanup
  obtain ⟨htime', hcount'⟩ := hb.written?_cleanup
  constructor
  · rw [ha.resourceCalls_eq, hb.resourceCalls_eq, hcalls]
  · rw [ha.listers, hb.listers, hlisters]
  · rw [htime, htime', hresult]
  · rw [hcount, hcount', hresult]
  · intro hcleans
    obtain ⟨report, hreport⟩ := ha.report_of_cleansUp hns hcleans
    exact ⟨ha.patches_ne_nil hreport (Nat.succ_pos _),
      hb.patches_ne_nil (hresult.symm.trans hreport) (Nat.succ_pos _)⟩

theorem scaleAlike_of_workloads (hv : s.spec.validate zones = .ok ())
    (hz : Zone.parse s.spec.timeZone zones = .ok z) (h : store.workloadSide = store'.workloadSide)
    (hwrites : store.patchesFail = false) (hwrites' : store'.patchesFail = false)
    (hlisted : DecidesListed s now (footprint zones registry settings s now store).calls)
    (hlisted' : DecidesListed s now (footprint zones registry' settings s now store').calls) :
    ScaleAlike s z now (footprint zones registry settings s now store)
      (footprint zones registry' settings s now store') := by
  rcases footprint_cases settings hv hz with hstill | ⟨ns, hns, hparts⟩
  · rw [(hstill registry store []).1, (hstill registry' store' []).1]
    exact ⟨rfl, h, rfl, rfl, rfl, fun _ _ _ _ hscales => absurd hscales not_scales_nil⟩
  obtain ⟨scaled, ha⟩ := hparts registry store hwrites
  obtain ⟨scaled', hb⟩ := hparts registry' store' hwrites'
  obtain ⟨hcalls, hscaled, hworkloads⟩ := run_congr_workloads (onlyCalls_scalingOf s z now) h
  obtain rfl : scaled = scaled' := Except.ok.inj (ha.scales.symm.trans (hscaled.trans hb.scales))
  have hcalls : workloadCalls (footprint zones registry settings s now store).calls =
      workloadCalls (footprint zones registry' settings s now store').calls := by
    rw [ha.workloadCalls_eq, hb.workloadCalls_eq, hcalls]
  have hworkloads := ha.workloads.trans (hworkloads.trans hb.workloads.symm)
  have hbreaks := ha.breaks_iff hlisted
  have hbreaks' := hb.breaks_iff hlisted'
  by_cases hover : CleanupOverruns s.spec z ns s.recorded now []
  · -- both cleanups break off, so neither pass writes anything
    obtain ⟨x, hx⟩ := hbreaks.2 hover
    obtain ⟨x', hx'⟩ := hbreaks'.2 hover
    have hnone := ha.writtenPatches_of_error hx
    have hnone' := hb.writtenPatches_of_error hx'
    have hmember (key : String) : written? key (footprint zones registry settings s now store).calls =
        written? key (footprint zones registry' settings s now store').calls := by
      rw [written?, written?, hnone, hnone']
    refine ⟨hcalls, hworkloads, hmember _, hmember _, hmember _, fun ns' _ _ hns' _ => .inl ?_⟩
    obtain rfl := Option.some.inj (hns.symm.trans hns')
    exact ⟨hover, hnone, hnone'⟩
  · have hok {r : Except Overflow (Option (Except Failure CleanupReport))}
        (hr : (∃ x, r = .error x) ↔ CleanupOverruns s.spec z ns s.recorded now []) :
        ∃ result, r = .ok result := by
      cases r with
      | ok result => exact ⟨result, rfl⟩
      | error x => exact absurd (hr.1 ⟨x, rfl⟩) hover
    obtain ⟨result, hresult⟩ := hok hbreaks
    obtain ⟨result', hresult'⟩ := hok hbreaks'
    obtain ⟨hdown, hup, hreplicas⟩ := ha.written?_scaling hresult
    obtain ⟨hdown', hup', hreplicas'⟩ := hb.written?_scaling hresult'
    refine ⟨hcalls, hworkloads, ?_, ?_, ?_, fun ns' _ _ hns' hscales => .inr ?_⟩
    · rw [hdown, hdown']
    · rw [hup, hup']
    · rw [hreplicas, hreplicas']
    · obtain rfl := Option.some.inj (hns.symm.trans hns')
      rw [ha.calls] at hscales
      have hpos := succeeded_of_scales ha.runs_scaling hscales
      exact ⟨hover, ha.patches_ne_nil hresult (hpos.trans_le (succeeded_le_noted ..)),
        hb.patches_ne_nil hresult' (hpos.trans_le (succeeded_le_noted ..))⟩

/-- Scaling and cleanup do not influence each other. Passes over stores with the same resources clean
up alike, whatever workloads are there and whatever fails about them; and passes over stores with the
same workloads scale alike, whatever resources are there, as long as none that is listed breaks the
cleanup off. -/
theorem scaling_and_cleanup_are_independent (settings : Settings) (now : Instant)
    (hv : s.spec.validate zones = .ok ())
    (hz : Zone.parse s.spec.timeZone zones = .ok z) :
    (∀ registry store store', store.listers = store'.listers → store.patchesFail = false →
      store'.patchesFail = false →
      CleanAlike registry s z now (footprint zones registry settings s now store)
        (footprint zones registry settings s now store')) ∧
    ∀ registry registry' store store', store.workloadSide = store'.workloadSide →
      store.patchesFail = false → store'.patchesFail = false →
      DecidesListed s now (footprint zones registry settings s now store).calls →
      DecidesListed s now (footprint zones registry' settings s now store').calls →
      ScaleAlike s z now (footprint zones registry settings s now store)
        (footprint zones registry' settings s now store') :=
  ⟨fun _ _ _ => cleanAlike_of_listers hv hz, fun _ _ _ _ => scaleAlike_of_workloads hv hz⟩

end

/-! ## A night with a config map that is to go -/

/-- A config map beside the workload that is scaled, to go at once. -/
def dust : Candidate := { stale with ns := some "shop" }

def dustyStore : MemoryStore :=
  { nightlyStore with listers := [⟨"ConfigMap", .namespaced, [dust], [], [], [], []⟩] }

/-- What the pass in the evening leaves of that store, -/
def dustyPass : Footprint :=
  footprint Zone.find? dustyStore.registry .default tidied evening dustyStore

/-- and of the one without the config map. -/
def cleanPass : Footprint :=
  footprint Zone.find? nightlyStore.registry .default tidied evening nightlyStore

theorem decidesListed_tidied {trace : List Exchange}
    (h : ∀ x ∈ trace, ¬ Cleanup.Undecided ⟨tidy.annotationKey, none⟩ evening x) :
    DecidesListed tidied evening trace := by
  intro config policy hconfig hpolicy
  obtain rfl : tidy = config := Option.some.inj hconfig
  have hrules : CleanupPolicy.ofConfig tidy = .ok ⟨tidy.annotationKey, none⟩ := by decide +kernel
  obtain rfl := Except.ok.inj (hrules.symm.trans hpolicy)
  exact h

/-- Without the workload, the pass in the evening removes and records the config map as it does beside
it; and without the config map, the workload is scaled to zero and recorded as it is beside it. -/
theorem scaling_and_cleanup_are_independent_tidied :
    (written? "lastCleanupResourceCount" (footprint Zone.find? dustyStore.registry .default tidied
        evening { dustyStore with workloads := [] }).calls).bind Json.asInt? = some 1 ∧
      (written? "currentReplicas" cleanPass.calls).bind Json.asInt? = some 0 := by
  obtain ⟨hdusty, hcount, hreplicas⟩ :
      (∀ x ∈ dustyPass.calls, ¬ Cleanup.Undecided ⟨tidy.annotationKey, none⟩ evening x) ∧
        (written? "lastCleanupResourceCount" dustyPass.calls).bind Json.asInt? = some 1 ∧
        (written? "currentReplicas" dustyPass.calls).bind Json.asInt? = some 0 := by
    decide +kernel
  have hclean : ∀ x ∈ cleanPass.calls, ¬ Cleanup.Undecided ⟨tidy.annotationKey, none⟩ evening x := by
    decide +kernel
  obtain ⟨hcleaned, hscaled⟩ :=
    scaling_and_cleanup_are_independent .default evening validate_tidied parse_utc
  have hsame : CleanAlike _ _ _ _ dustyPass _ :=
    hcleaned dustyStore.registry dustyStore { dustyStore with workloads := [] } rfl rfl rfl
  have hsame' : ScaleAlike _ _ _ dustyPass cleanPass :=
    hscaled dustyStore.registry nightlyStore.registry dustyStore nightlyStore rfl rfl rfl
      (decidesListed_tidied hdusty) (decidesListed_tidied hclean)
  rw [← hsame.count, ← hsame'.replicas]
  exact ⟨hcount, hreplicas⟩

/-! ## An age of orphans that is no duration -/

/-- The schedule that scales at night, with such an age. -/
def overfilled : Schedule :=
  { tidied with spec := { tidied.spec with cleanupConfig := some overfull } }

/-- A scaling step that has succeeded has carried out a scaling. -/
theorem Pass.exists_scales_of_succeeded {s : Schedule} {z : Zone} {now : Instant} {scaled : Progress}
    {first rest : List Exchange} (h : Runs (scalingOf s z now) first (.ok scaled))
    (hpos : 0 < scaled.succeeded) :
    ∃ direction supersedes, Scales s.spec z s.recorded now (first ++ rest) direction supersedes := by
  rcases runs_runScaling h with ⟨rfl, -⟩ | ⟨target, direction, supersedes, f, observed, hplans, rfl,
    ⟨e, -, -, rfl⟩ | ⟨outcome, replicas, hrun, -, -⟩⟩
  · cases hpos
  · cases hpos
  · exact ⟨direction, supersedes,
      scales_iff_attempts.2 ⟨outcome, target, f, _, hplans, List.append_assoc .., hrun⟩⟩

/-- The workload is scaled in both passes, and no resource breaks the cleanup off; but the age of
orphans does, so neither pass records its scaling. -/
theorem scaling_is_not_recorded :
    overfilled.spec.validate = .ok () ∧ dustyStore.workloadSide = nightlyStore.workloadSide ∧
      dustyStore.patchesFail = false ∧ nightlyStore.patchesFail = false ∧
      DecidesListed overfilled evening
        (footprint Zone.find? dustyStore.registry .default overfilled evening dustyStore).calls ∧
      DecidesListed overfilled evening
        (footprint Zone.find? nightlyStore.registry .default overfilled evening nightlyStore).calls ∧
      (∃ direction supersedes, Scales overfilled.spec .utc overfilled.recorded evening
        (footprint Zone.find? dustyStore.registry .default overfilled evening dustyStore).calls
        direction supersedes) ∧
      writtenPatches (footprint Zone.find? dustyStore.registry .default overfilled evening
        dustyStore).calls = [] ∧
      writtenPatches (footprint Zone.find? nightlyStore.registry .default overfilled evening
        nightlyStore).calls = [] := by
  have hvalid : overfilled.spec.validate = .ok () := by decide +kernel
  have hlisted (trace : List Exchange) : DecidesListed overfilled evening trace := by
    intro config policy hconfig hpolicy
    obtain rfl : overfull = config := Option.some.inj hconfig
    rw [ofConfig_overfull] at hpolicy
    cases hpolicy
  have hsucceeds : ((scalingOf overfilled .utc evening).run handler dustyStore).1.toOption.map
      (·.succeeded) = some 1 := by decide +kernel
  refine ⟨hvalid, rfl, rfl, rfl, hlisted _, hlisted _, ?_, by decide +kernel, by decide +kernel⟩
  cases hscaled : ((scalingOf overfilled .utc evening).run handler dustyStore).1 with
  | error x =>
    rw [hscaled] at hsucceeds
    cases hsucceeds
  | ok scaled =>
    rw [hscaled] at hsucceeds
    have hparts : HasParts dustyStore.registry overfilled "shop" .utc evening dustyStore scaled
        (footprint Zone.find? dustyStore.registry .default overfilled evening dustyStore) :=
      hasParts_of_scaled rfl hvalid parse_utc hscaled rfl
    rw [hparts.calls]
    exact exists_scales_of_succeeded hparts.runs_scaling
      (Nat.pos_of_ne_zero fun hzero => by simp [Except.toOption, hzero] at hsucceeds)

end ScheduledScaling
