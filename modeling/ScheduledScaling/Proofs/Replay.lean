import ScheduledScaling.Proofs.Recleaning
import ScheduledScaling.Proofs.Rescaling
import ScheduledScaling.Proofs.Validation
/-!
# A pass whose status is lost

A pass that cannot write its status has still scaled and cleaned up (`isLost_of_failed`). It is run
again as of the same instant, with the status of before, so it plans the same; and what it plans is
there already. So it changes nothing more, and writes what the first pass would have written:
`lost_status_is_made_up_for`.
-/
namespace ScheduledScaling

open Pass Program MemoryStore

/-! ## The pass that fails -/

namespace Pass
variable {zones : Zone.Lookup} {registry : Registry} {settings : Settings} {s : Schedule}
  {ns : String} {z : Zone} {now : Instant} {store : MemoryStore} {e : Failure}

/-- The end of a pass that fails over a store which takes no status: a step has succeeded, and nothing
is changed. -/
theorem conclude_of_failed {progress : Progress} (hrefuses : store.patchesFail = true)
    (h : ((conclude settings s ns z now progress).run handler store).1 = .ok (.error e)) :
    0 < progress.succeeded ∧ ((conclude settings s ns z now progress).run handler store).2 = store := by
  by_cases hpos : 0 < progress.succeeded
  · have hwrite : (writeStatus s ns progress).run.run handler store = (.ok (.error outage), store) := by
      have hanswer : handler (.patchStatus ns s.name (finalPatch s progress).toJson) store =
          (.error outage, store) := if_pos hrefuses
      unfold writeStatus
      rw [if_pos hpos]
      exact congrArg (fun a : Except Failure Unit × MemoryStore => (Except.ok a.1, a.2)) hanswer
    refine ⟨hpos, ?_⟩
    unfold conclude
    rw [run_bind_of_ok hwrite]
    rfl
  · unfold conclude writeStatus at h
    rw [if_neg hpos] at h
    change ((Program.lift (nextWake s.spec z now) >>= fun _ => _).run handler store).1 = _ at h
    cases hwake : nextWake s.spec z now with
    | error x =>
      rw [hwake] at h
      cases h
    | ok wake =>
      rw [hwake] at h
      cases h

/-- A pass whose status is lost: its scaling and its cleanup have come to something, one of them has
succeeded, and the store is as they have left it. -/
structure IsLost (registry : Registry) (s : Schedule) (ns : String) (z : Zone) (now : Instant)
    (store : MemoryStore) (scaled : Progress) (result : Option (Except Failure CleanupReport))
    (f : Footprint) : Prop where
  scales : ((scalingOf s z now).run handler store).1 = .ok scaled
  cleans : ((cleanupOf registry s ns z now).run handler store).1 = .ok result
  succeeded : 0 < (noted s.recorded now scaled result).succeeded
  workloads : f.store.workloadSide = ((scalingOf s z now).run handler store).2.workloadSide
  listers : f.store.listers = ((cleanupOf registry s ns z now).run handler store).2.listers
  scaling : (scalingOf s z now).trace handler store ⊆ f.calls
  cleanup : (cleanupOf registry s ns z now).trace handler store ⊆ f.calls

/-- A pass that fails over a store which takes no status has lost it. -/
theorem isLost_of_failed (hns : s.metadata.ns = some ns) (hv : s.spec.validate zones = .ok ())
    (hz : Zone.parse s.spec.timeZone zones = .ok z) (hrefuses : store.patchesFail = true)
    (hfails : ((reconcile registry settings s now zones).run.run handler store).1 = .ok (.error e)) :
    ∃ scaled result, IsLost registry s ns z now store scaled result
      (footprint zones registry settings s now store) := by
  have hrun : (reconcile registry settings s now zones).run.run handler store = (.ok (.error e), _) :=
    Prod.ext hfails rfl
  obtain ⟨htrace, after, hcleanup, hside, hlisters, hfail⟩ :=
    run_of_sides (onlyCalls_scalingOf s z now) (onlyCalls_cleanupOf registry s ns z now) store
  unfold footprint
  rw [reconcile_eq hns hv hz, runSteps_eq] at hrun ⊢
  obtain ⟨scaled, middle, hscaling, hrest⟩ := exists_of_run_bind hrun
  rw [hscaling] at htrace hcleanup hside
  rw [trace_bind_of_ok hscaling, run_bind_of_ok hscaling]
  obtain ⟨result, last, hcleaned, hend⟩ := exists_of_run_bind hrest
  obtain ⟨hresult, rfl⟩ := Prod.mk.inj (hcleanup.symm.trans hcleaned)
  rw [trace_bind_of_ok hcleaned, run_bind_of_ok hcleaned]
  obtain ⟨hpos, hsame⟩ := conclude_of_failed (hfail.trans hrefuses) (congrArg Prod.fst hend)
  refine ⟨scaled, result, congrArg Prod.fst hscaling, hresult, hpos, ?_, ?_, ?_, ?_⟩
  · rw [hsame, hscaling]
    exact hside
  · rw [hsame]
    exact hlisters
  · exact List.subset_append_left _ _
  · rw [htrace]
    exact List.subset_append_of_subset_right _ (List.subset_append_left _ _)

/-- The generation in the patch of a pass in which a step has succeeded. -/
theorem get?_patchAfter_generation {scaled : Progress} {result : Option (Except Failure CleanupReport)}
    (h : 0 < (noted s.recorded now scaled result).succeeded) :
    (patchAfter s now scaled (.ok result)).bind (·.get? "observedGeneration") =
      s.metadata.generation.map .int := by
  rw [patchAfter, patchOf, if_pos h]
  exact get?_finalPatch s _ _

end Pass

/-! ## Both passes -/

section
variable (zones : Zone.Lookup) (registry : Registry) (settings : Settings) (s : Schedule)
  (now : Instant) (store : MemoryStore)

/-- A pass over a store, with the status written, -/
def singlePass : Footprint :=
  footprint zones registry settings s now { store with patchesFail := false }

/-- one with the status lost, -/
def lostPass : Footprint :=
  footprint zones registry settings s now { store with patchesFail := true }

/-- and the one after it, with the status written. -/
def secondPass : Footprint :=
  singlePass zones registry settings s now (lostPass zones registry settings s now store).store

end

/-- A pass that is run again comes to what a single one does, and changes nothing itself. -/
structure MakesUpFor (single again : Footprint) : Prop where
  workloads : ∀ key, again.store.workloads.get? key = single.store.workloads.get? key
  /-- The listers differ in what was asked of them only. -/
  listers : again.store.listers.map (·.unasked) = single.store.listers.map (·.unasked)
  written : writtenPatches again.calls = [] ↔ writtenPatches single.calls = []
  down : written? "lastScaleDownTime" again.calls = written? "lastScaleDownTime" single.calls
  up : written? "lastScaleUpTime" again.calls = written? "lastScaleUpTime" single.calls
  cleanup : written? "lastCleanupTime" again.calls = written? "lastCleanupTime" single.calls
  replicas : written? "currentReplicas" again.calls = written? "currentReplicas" single.calls
  generation : written? "observedGeneration" again.calls =
    written? "observedGeneration" single.calls
  still : ∀ x ∈ again.calls, ¬ x.call.IsReplace ∧ ¬ x.call.IsDeletion

section
variable {zones : Zone.Lookup} {registry : Registry} {settings : Settings} {s : Schedule}
  {ns : String} {z : Zone} {now : Instant} {store before after : MemoryStore}
  {lost single again : Footprint} {scaled scaled' : Progress}
  {result result' : Option (Except Failure CleanupReport)}

theorem Pass.succeeded_noted_congr (hscaled : scaled'.succeeded = scaled.succeeded)
    (hresult : result'.map (Except.map fun _ => ()) = result.map (Except.map fun _ => ())) :
    (noted s.recorded now scaled' result').succeeded =
      (noted s.recorded now scaled result).succeeded := by
  rcases result with _ | _ | _ <;> rcases result' with _ | _ | _ <;> cases hresult
  · exact hscaled
  · exact hscaled
  · exact congrArg (· + 1) hscaled

theorem Pass.report?_congr {v : Json}
    (hresult : result'.map (Except.map fun _ => ()) = result.map (Except.map fun _ => ())) :
    (report? (.ok result')).map (fun _ => v) = (report? (.ok result)).map fun _ => v := by
  rcases result with _ | _ | _ <;> rcases result' with _ | _ | _ <;> cases hresult <;> rfl

/-- A pass after one whose status is lost makes up for it. The single pass is over a store with the
same workloads and resources as the lost one, and the other pass over one with what that has left. -/
theorem makesUpFor_of_isLost (h : IsLost registry s ns z now store scaled result lost)
    (hsingle : HasParts registry s ns z now before scaled single)
    (hagain : HasParts registry s ns z now after scaled' again)
    (hside : before.workloadSide = store.workloadSide) (hlisters : before.listers = store.listers)
    (hside' : after.workloadSide = lost.store.workloadSide)
    (hlisters' : after.listers = lost.store.listers) (hedits : Unedited s store)
    (hserved : ∀ x ∈ lost.calls, x.call.IsWorkloadCall ∨ x.call.IsResourceCall → x.failure? = none)
    (hserved' : ∀ x ∈ again.calls, x.call.IsWorkloadCall → x.failure? = none) :
    MakesUpFor single again := by
  -- the single pass does what the lost one has done
  obtain ⟨-, -, hleft⟩ := run_congr_workloads (onlyCalls_scalingOf s z now) hside
  obtain ⟨-, hresult, hlists⟩ := run_congr_listers (onlyCalls_cleanupOf registry s ns z now) hlisters
  rw [h.cleans] at hresult
  rw [← h.workloads, ← hside', ← hsingle.workloads] at hleft
  rw [← h.listers, ← hlisters', ← hsingle.listers] at hlists
  -- the other one finds it done
  obtain ⟨hpatch, hsucceeded, hreplaces, hworkloads⟩ := scales_again h.scales hedits
    (fun x hx => hserved x (h.scaling hx) (.inl (workloadCall_of_mem hx)))
    (hside'.trans h.workloads) hagain.scales fun x hx => by
      refine hserved' x ?_ (workloadCall_of_mem hx)
      rw [hagain.calls]
      exact List.mem_append_left _ hx
  obtain ⟨⟨result', last, hcleaned, hshape⟩, honly⟩ := cleans_again (Prod.ext h.cleans rfl)
    (fun x hx => hserved x (h.cleanup hx) (.inr (resourceCall_of_mem hx)))
    (hlisters'.trans h.listers)
  have hresult' := congrArg Prod.fst hcleaned
  have hpos := h.succeeded
  have hpos' : 0 < (noted s.recorded now scaled' result').succeeded := by
    rwa [succeeded_noted_congr hsucceeded hshape]
  obtain ⟨hdown, hup, hreplicas⟩ := hsingle.written?_scaling hresult
  obtain ⟨hdown', hup', hreplicas'⟩ := hagain.written?_scaling hresult'
  constructor
  · intro key
    have hagain := congrArg WorkloadSide.workloads hagain.workloads
    have hsingle := congrArg WorkloadSide.workloads hleft
    exact (congrArg (·.get? key) hagain).trans
      ((hworkloads key).trans (congrArg (·.get? key) hsingle.symm))
  · rw [hagain.listers, unasked_of_trace honly, hlists]
  · exact iff_of_false (hagain.patches_ne_nil hresult' hpos') (hsingle.patches_ne_nil hresult hpos)
  · rw [hdown, hdown', hpatch]
  · rw [hup, hup', hpatch]
  · rw [hsingle.written?_cleanup.1, hagain.written?_cleanup.1, hresult, hresult']
    exact report?_congr hshape
  · rw [hreplicas, hreplicas', hpatch]
  · rw [hsingle.written?_eq, hagain.written?_eq, hresult, hresult', get?_patchAfter_generation hpos,
      get?_patchAfter_generation hpos']
  · intro x hx
    rw [hagain.calls] at hx
    rcases List.mem_append.1 hx with hx | hx
    · refine ⟨hreplaces x hx, fun hdelete => ?_⟩
      exact hdelete.isResourceCall.not_workloadCall (workloadCall_of_mem hx)
    rcases List.mem_append.1 hx with hx | hx
    · exact ⟨not_replace_of_resourceCall (resourceCall_of_mem hx), (honly x hx).not_deletion⟩
    · obtain ⟨hworkload, hresource⟩ := call_of_mem_writeOf hx
      exact ⟨fun h => hworkload h.isWorkloadCall, fun h => hresource h.isResourceCall⟩

/-- Losing the status does no harm. If the status write of a pass fails, but no call about workloads and
resources, and nobody else edits the workload, the pass that is run again leaves and writes what a single
one does, and changes nothing itself. -/
theorem lost_status_is_made_up_for {e : Failure} (hv : s.spec.validate zones = .ok ())
    (hedits : Unedited s store)
    (hfails : ((reconcile registry settings s now zones).run.run handler
      { store with patchesFail := true }).1 = .ok (.error e))
    (hserved : ∀ x ∈ (lostPass zones registry settings s now store).calls,
      x.call.IsWorkloadCall ∨ x.call.IsResourceCall → x.failure? = none)
    (hserved' : ∀ x ∈ (secondPass zones registry settings s now store).calls,
      x.call.IsWorkloadCall → x.failure? = none) :
    MakesUpFor (singlePass zones registry settings s now store)
      (secondPass zones registry settings s now store) := by
  obtain ⟨z, hz⟩ := ScheduleSpec.zone_of_validate hv
  rcases footprint_cases settings hv hz with hstill | ⟨ns, hns, hparts⟩
  · -- the pass ends before its first call
    have hsame (store : MemoryStore) : footprint zones registry settings s now store = ⟨[], store⟩ :=
      (hstill registry store []).1
    unfold secondPass singlePass lostPass
    rw [hsame, hsame, hsame]
    exact ⟨fun _ => rfl, rfl, .rfl, rfl, rfl, rfl, rfl, rfl, fun x hx => absurd hx List.not_mem_nil⟩
  · obtain ⟨scaled, result, hlost⟩ : ∃ scaled result,
        IsLost registry s ns z now { store with patchesFail := true } scaled result
          (lostPass zones registry settings s now store) := isLost_of_failed hns hv hz rfl hfails
    have hside : ({ store with patchesFail := false } : MemoryStore).workloadSide =
        ({ store with patchesFail := true } : MemoryStore).workloadSide := rfl
    have hscaled := (run_congr_workloads (onlyCalls_scalingOf s z now) hside).2.1.trans hlost.scales
    have hsingle : HasParts registry s ns z now { store with patchesFail := false } scaled
        (singlePass zones registry settings s now store) := hasParts_of_scaled hns hv hz hscaled rfl
    obtain ⟨scaled', hagain⟩ := hparts registry
      { (lostPass zones registry settings s now store).store with patchesFail := false } rfl
    exact makesUpFor_of_isLost hlost hsingle hagain rfl rfl rfl rfl hedits hserved hserved'

end

/-- In the evening the workload is scaled and the config map removed, and the status is lost. The pass
that is run again does neither, and writes that no replicas are left, as a single pass does. -/
theorem lost_status_is_made_up_for_tidied :
    (∀ x ∈ (secondPass Zone.find? dustyStore.registry .default tidied evening dustyStore).calls,
        ¬ x.call.IsReplace ∧ ¬ x.call.IsDeletion) ∧
      (written? "currentReplicas" (secondPass Zone.find? dustyStore.registry .default tidied evening
        dustyStore).calls).bind Json.asInt? = some 0 := by
  have hfails : ((reconcile dustyStore.registry .default tidied evening).run.run handler
      { dustyStore with patchesFail := true }).1 = .ok (.error outage) := by decide +kernel
  have hmade := lost_status_is_made_up_for validate_tidied
    (fun _ _ _ he => by cases he) hfails (by decide +kernel) (by decide +kernel)
  refine ⟨hmade.still, ?_⟩
  rw [hmade.replicas]
  decide +kernel

end ScheduledScaling
