import ScheduledScaling.Proofs.StoreSides
import ScheduledScaling.Proofs.TruthfulStatus
/-!
# What a pass leaves

The scaling and the cleanup of a pass find the store as it was before the pass, each on its own side;
the patch follows from what both come to (`hasParts_of_scaled`). What is in it about the cleanup
follows from the report of the cleanup alone (`get?_patchAfter_cleanup`), and what is in it about the
scaling from the scaling alone (`get?_patchAfter_scaling`).
-/
namespace ScheduledScaling

open Pass Program MemoryStore

/-! ## Footprints -/

/-- What a pass leaves: its calls with their answers, and the store after it. -/
structure Footprint where
  calls : List Exchange
  store : MemoryStore

def footprint (zones : Zone.Lookup) (registry : Registry) (settings : Settings) (s : Schedule)
    (now : Instant) (store : MemoryStore) : Footprint where
  calls := (reconcile registry settings s now zones).run.trace handler store
  store := ((reconcile registry settings s now zones).run.run handler store).2

instance : DecidablePred StoreCall.IsWorkloadCall
  | .fetch _ | .replace _ _ => .isTrue trivial
  | .listSchedules | .getSchedule _ _ | .patchStatus _ _ _ | .list _ _ _ | .delete _ _ => .isFalse id

instance : DecidablePred StoreCall.IsResourceCall
  | .list _ _ _ | .delete _ _ => .isTrue trivial
  | .listSchedules | .getSchedule _ _ | .patchStatus _ _ _ | .fetch _ | .replace _ _ => .isFalse id

def workloadCalls (trace : List Exchange) : List Exchange :=
  trace.filter fun x => x.call.IsWorkloadCall

def resourceCalls (trace : List Exchange) : List Exchange :=
  trace.filter fun x => x.call.IsResourceCall

/-- The patches that were written. -/
def writtenPatches (trace : List Exchange) : List Json := trace.filterMap Exchange.patch?

/-- The member of a key in the patches that were written. -/
def written? (key : String) (trace : List Exchange) : Option Json :=
  (writtenPatches trace).findSome? (·.get? key)

theorem StoreCall.IsResourceCall.not_workloadCall {c : StoreCall} (h : c.IsResourceCall) :
    ¬ c.IsWorkloadCall := by
  cases c <;> first | exact id | exact h.elim

/-! ## The steps over a store -/

namespace Pass
variable {zones : Zone.Lookup} {registry : Registry} {settings : Settings} {s : Schedule}
  {ns : String} {z : Zone} {now : Instant} {store : MemoryStore} {scaled : Progress}

/-- The scaling of a pass. -/
abbrev scalingOf (s : Schedule) (z : Zone) (now : Instant) : Program Progress :=
  runScaling s.spec z s.recorded now .start

/-- The cleanup of a pass. -/
abbrev cleanupOf (registry : Registry) (s : Schedule) (ns : String) (z : Zone) (now : Instant) :
    Program (Option (Except Failure CleanupReport)) :=
  cleanupResult registry s.spec z ns s.recorded now

theorem onlyCalls_scalingOf (s : Schedule) (z : Zone) (now : Instant) :
    OnlyCalls StoreCall.IsWorkloadCall (scalingOf s z now) :=
  onlyCalls_runScaling s.spec z s.recorded now .start

theorem onlyCalls_cleanupOf (registry : Registry) (s : Schedule) (ns : String) (z : Zone)
    (now : Instant) : OnlyCalls StoreCall.IsResourceCall (cleanupOf registry s ns z now) :=
  onlyCalls_cleanupResult

/-- The end of a pass, after its scaling and its cleanup. -/
def conclude (settings : Settings) (s : Schedule) (ns : String) (z : Zone) (now : Instant)
    (progress : Progress) : Program (Except Failure Action) := do
  match ← (writeStatus s ns progress).run with
  | .error e => return .error e
  | .ok () =>
    let wake ← Program.lift (nextWake s.spec z now)
    return .ok (actionOf settings wake progress.transientFailure)

theorem runSteps_eq : (runSteps registry settings s ns z now).run = (do
    let scaled ← scalingOf s z now
    let result ← cleanupOf registry s ns z now
    conclude settings s ns z now (noted s.recorded now scaled result)) := by
  rw [runSteps_run]
  simp only [runCleanup_eq, bind_map_left]
  rfl

/-- The patch that a pass writes, if a step has succeeded. -/
def patchOf (s : Schedule) (progress : Progress) : Option Json :=
  if 0 < progress.succeeded then some (finalPatch s progress).toJson else none

/-- The write of a patch that gets through. -/
def writeOf (s : Schedule) (ns : String) : Option Json → List Exchange
  | none => []
  | some patch => [⟨.patchStatus ns s.name patch, .ok ()⟩]

theorem writeStatus_over (ns : String) (progress : Progress) (hwrites : store.patchesFail = false) :
    (writeStatus s ns progress).run.trace handler store = writeOf s ns (patchOf s progress) ∧
      ∃ store', (writeStatus s ns progress).run.run handler store = (.ok (.ok ()), store') ∧
        store'.listers = store.listers ∧ store'.workloadSide = store.workloadSide := by
  unfold writeStatus patchOf
  split
  · obtain ⟨_, _, _, _, _, _, _, written, fails, _⟩ := store
    obtain rfl : fails = false := hwrites
    exact ⟨rfl, _, rfl, rfl, rfl⟩
  · exact ⟨rfl, store, rfl, rfl, rfl⟩

/-- Over a store that takes the status, the end of a pass writes it, and changes nothing else. -/
theorem conclude_over (settings : Settings) (ns : String) (z : Zone) (now : Instant)
    (progress : Progress) (hwrites : store.patchesFail = false) :
    (conclude settings s ns z now progress).trace handler store = writeOf s ns (patchOf s progress) ∧
      ((conclude settings s ns z now progress).run handler store).2.listers = store.listers ∧
      ((conclude settings s ns z now progress).run handler store).2.workloadSide =
        store.workloadSide := by
  obtain ⟨htrace, store', hrun, hlisters, hside⟩ := writeStatus_over (s := s) ns progress hwrites
  unfold conclude
  rw [trace_bind_of_ok hrun, run_bind_of_ok hrun, htrace, ← hlisters, ← hside]
  cases nextWake s.spec z now <;> exact ⟨List.append_nil _, rfl, rfl⟩

/-- A scaling breaks off at once, in making its plan, or comes to a result. -/
theorem scalingOf_cases (s : Schedule) (z : Zone) (now : Instant) :
    (∃ x, scalingOf s z now = .abort x) ∨ Completes (scalingOf s z now) := by
  cases hplan : planScaling s.spec.scaleDown s.spec.scaleUp z s.recorded.lastScaleDown
      s.recorded.lastScaleUp now with
  | ok plan => exact .inr (completes_runScaling .start hplan)
  | error x =>
    unfold scalingOf runScaling
    cases s.spec.target with
    | none => exact .inr trivial
    | some target =>
      rw [hplan]
      exact .inl ⟨x, rfl⟩

/-- The patch of a pass whose scaling and cleanup have come to something. -/
def patchAfter (s : Schedule) (now : Instant) (scaled : Progress) :
    Except Overflow (Option (Except Failure CleanupReport)) → Option Json
  | .error _ => none
  | .ok result => patchOf s (noted s.recorded now scaled result)

/-- A pass over a store in its parts: its scaling and its cleanup do what each of them does over the
store of the beginning, and the patch follows from what they come to. -/
structure HasParts (registry : Registry) (s : Schedule) (ns : String) (z : Zone) (now : Instant)
    (store : MemoryStore) (scaled : Progress) (f : Footprint) : Prop where
  scales : ((scalingOf s z now).run handler store).1 = .ok scaled
  calls : f.calls = (scalingOf s z now).trace handler store ++
    ((cleanupOf registry s ns z now).trace handler store ++
      writeOf s ns (patchAfter s now scaled ((cleanupOf registry s ns z now).run handler store).1))
  workloads : f.store.workloadSide = ((scalingOf s z now).run handler store).2.workloadSide
  listers : f.store.listers = ((cleanupOf registry s ns z now).run handler store).2.listers

/-- A pass over a store that takes the status has its parts, unless its scaling breaks off. -/
theorem hasParts_of_scaled (hns : s.metadata.ns = some ns) (hv : s.spec.validate zones = .ok ())
    (hz : Zone.parse s.spec.timeZone zones = .ok z)
    (hscaled : ((scalingOf s z now).run handler store).1 = .ok scaled)
    (hwrites : store.patchesFail = false) :
    HasParts registry s ns z now store scaled (footprint zones registry settings s now store) := by
  obtain ⟨htrace, after, hcleanup, hside, hlisters, hfail⟩ :=
    run_of_sides (onlyCalls_scalingOf s z now) (onlyCalls_cleanupOf registry s ns z now) store
  have hscaling : (scalingOf s z now).run handler store = (.ok scaled, _) := Prod.ext hscaled rfl
  unfold footprint
  rw [reconcile_eq hns hv hz, runSteps_eq, trace_bind_of_ok hscaling, run_bind_of_ok hscaling]
  cases hresult : ((cleanupOf registry s ns z now).run handler store).1 with
  | error x =>
    rw [hresult] at hcleanup
    rw [trace_bind_of_error hcleanup, run_bind_of_error hcleanup, htrace]
    exact ⟨hscaled, by rw [hresult, patchAfter, writeOf, List.append_nil], hside, hlisters⟩
  | ok result =>
    rw [hresult] at hcleanup
    obtain ⟨hlast, hlisters', hside'⟩ := conclude_over settings ns z now
      (noted s.recorded now scaled result) (hfail.trans hwrites) (s := s)
    rw [trace_bind_of_ok hcleanup, run_bind_of_ok hcleanup, htrace, hlast]
    exact ⟨hscaled, by rw [hresult, patchAfter], hside'.trans hside, hlisters'.trans hlisters⟩

theorem call_of_mem_writeOf {patch : Option Json} {x : Exchange} (hx : x ∈ writeOf s ns patch) :
    ¬ x.call.IsWorkloadCall ∧ ¬ x.call.IsResourceCall := by
  cases patch with
  | none => cases hx
  | some patch =>
    obtain rfl := List.mem_singleton.1 hx
    exact ⟨id, id⟩

theorem workloadCall_of_mem {x : Exchange} (hx : x ∈ (scalingOf s z now).trace handler store) :
    x.call.IsWorkloadCall :=
  (runs_trace handler _ store).call_of_mem (onlyCalls_scalingOf s z now) x hx

theorem resourceCall_of_mem {x : Exchange}
    (hx : x ∈ (cleanupOf registry s ns z now).trace handler store) : x.call.IsResourceCall :=
  (runs_trace handler _ store).call_of_mem (onlyCalls_cleanupOf registry s ns z now) x hx

namespace HasParts
variable {f : Footprint} (h : HasParts registry s ns z now store scaled f)
include h

theorem workloadCalls_eq : workloadCalls f.calls = (scalingOf s z now).trace handler store := by
  rw [h.calls, workloadCalls, List.filter_append, List.filter_append,
    List.filter_eq_self.2 fun x hx => decide_eq_true (workloadCall_of_mem hx),
    List.filter_eq_nil_iff.2, List.filter_eq_nil_iff.2, List.append_nil, List.append_nil]
  · exact fun x hx => by simpa using (call_of_mem_writeOf hx).1
  · exact fun x hx => by simpa using (resourceCall_of_mem hx).not_workloadCall

theorem resourceCalls_eq : resourceCalls f.calls =
    (cleanupOf registry s ns z now).trace handler store := by
  rw [h.calls, resourceCalls, List.filter_append, List.filter_append, List.filter_eq_nil_iff.2,
    List.filter_eq_self.2 fun x hx => decide_eq_true (resourceCall_of_mem hx),
    List.filter_eq_nil_iff.2, List.nil_append, List.append_nil]
  · exact fun x hx => by simpa using (call_of_mem_writeOf hx).2
  · exact fun x hx => by simpa using fun hc => hc.not_workloadCall (workloadCall_of_mem hx)

theorem writtenPatches_eq : writtenPatches f.calls = (patchAfter s now scaled
    ((cleanupOf registry s ns z now).run handler store).1).toList := by
  rw [h.calls, writtenPatches, List.filterMap_append, List.filterMap_append, List.filterMap_eq_nil_iff.2,
    List.filterMap_eq_nil_iff.2, List.nil_append, List.nil_append]
  · cases patchAfter s now scaled _ <;> rfl
  · exact fun x hx => Exchange.patch?_of_resourceCall (resourceCall_of_mem hx)
  · exact fun x hx => Exchange.patch?_of_workloadCall (workloadCall_of_mem hx)

theorem written?_eq (key : String) : written? key f.calls = (patchAfter s now scaled
    ((cleanupOf registry s ns z now).run handler store).1).bind (·.get? key) := by
  rw [written?, h.writtenPatches_eq]
  cases patchAfter s now scaled _ with
  | none => rfl
  | some patch => simp

end HasParts

/-! ## The members of the patch -/

/-- The report of a cleanup that has given one. -/
def report? : Except Overflow (Option (Except Failure CleanupReport)) → Option CleanupReport
  | .ok (some (.ok report)) => some report
  | _ => none

theorem get?_finalPatch (s : Schedule) (progress : Progress) (key : String) :
    (finalPatch s progress).toJson.get? key = ((finalPatch s progress).members.get? key).join :=
  Json.get?_record (nodup_statusMembers ..)

/-- What is in a patch about the cleanup. -/
theorem get?_patchOf_cleanup (s : Schedule) (progress : Progress) :
    ((patchOf s progress).bind (·.get? "lastCleanupTime") =
        if 0 < progress.succeeded then progress.patch.lastCleanup.map .time else none) ∧
      (patchOf s progress).bind (·.get? "lastCleanupResourceCount") =
        if 0 < progress.succeeded then progress.patch.cleanedUp.map .int else none := by
  unfold patchOf
  split
  · exact ⟨get?_finalPatch s progress _, get?_finalPatch s progress _⟩
  · exact ⟨rfl, rfl⟩

/-- What is in the patch of a pass about the cleanup follows from its report only. -/
theorem get?_patchAfter_cleanup (s : Schedule) (now : Instant)
    (result : Except Overflow (Option (Except Failure CleanupReport)))
    (htime : scaled.patch.lastCleanup = none) (hcount : scaled.patch.cleanedUp = none) :
    ((patchAfter s now scaled result).bind (·.get? "lastCleanupTime") =
        (report? result).map fun _ => .time (advance s.recorded.lastCleanup now)) ∧
      (patchAfter s now scaled result).bind (·.get? "lastCleanupResourceCount") =
        (report? result).map fun report => .int report.count := by
  rcases result with x | _ | e | report
  · exact ⟨rfl, rfl⟩
  · -- there is no cleanup
    obtain ⟨htime', hcount'⟩ := get?_patchOf_cleanup s scaled
    rw [htime, Option.map_none, ite_self] at htime'
    rw [hcount, Option.map_none, ite_self] at hcount'
    exact ⟨htime', hcount'⟩
  · -- the cleanup fails
    obtain ⟨htime', hcount'⟩ := get?_patchOf_cleanup s (scaled.fail "cleanup" e)
    rw [Progress.fail, htime, Option.map_none, ite_self] at htime'
    rw [Progress.fail, hcount, Option.map_none, ite_self] at hcount'
    exact ⟨htime', hcount'⟩
  · exact get?_patchOf_cleanup s (noted s.recorded now scaled (some (.ok report)))

/-- A cleanup leaves to the patch what the scaling has put there. -/
theorem hasFields_noted (s : Schedule) (now : Instant) (scaled : Progress)
    (result : Option (Except Failure CleanupReport)) :
    HasFields (finalPatch s (noted s.recorded now scaled result)).toJson scaled.patch := by
  rcases result with _ | e | report <;>
    exact ⟨get?_finalPatch s _ _, get?_finalPatch s _ _, get?_finalPatch s _ _⟩

theorem succeeded_le_noted (status : ScheduleStatus) (now : Instant) (scaled : Progress)
    (result : Option (Except Failure CleanupReport)) :
    scaled.succeeded ≤ (noted status now scaled result).succeeded := by
  rcases result with _ | e | report
  · exact Nat.le_refl _
  · exact Nat.le_refl _
  · exact Nat.le_succ _

/-- What is in the patch of a pass about the scaling is what the scaling has put there. -/
theorem get?_patchAfter_scaling (s : Schedule) (now : Instant)
    (result : Option (Except Failure CleanupReport))
    (hnothing : scaled.succeeded = 0 → scaled.patch = .empty) :
    ((patchAfter s now scaled (.ok result)).bind (·.get? "lastScaleDownTime") =
        scaled.patch.lastScaleDown.map .time) ∧
      ((patchAfter s now scaled (.ok result)).bind (·.get? "lastScaleUpTime") =
        scaled.patch.lastScaleUp.map .time) ∧
      (patchAfter s now scaled (.ok result)).bind (·.get? "currentReplicas") =
        scaled.patch.replicas.map .int := by
  rw [patchAfter, patchOf]
  split
  · obtain ⟨hdown, hup, hreplicas⟩ := hasFields_noted s now scaled result
    exact ⟨hdown, hup, hreplicas⟩
  · have hle := succeeded_le_noted s.recorded now scaled result
    rw [hnothing (by omega)]
    exact ⟨rfl, rfl, rfl⟩

/-- The patch after the scaling of a pass: only a scaling that succeeded puts something there, and
nothing about the cleanup. -/
theorem patch_of_scalingOf {trace : List Exchange}
    (h : Runs (scalingOf s z now) trace (.ok scaled)) :
    scaled.patch.lastCleanup = none ∧ scaled.patch.cleanedUp = none ∧
      (scaled.succeeded = 0 → scaled.patch = .empty) := by
  rcases runs_runScaling h with ⟨rfl, -⟩ | ⟨target, direction, supersedes, first, rest, -, rfl,
    ⟨e, -, -, rfl⟩ | ⟨outcome, replicas, -, -, rfl⟩⟩
  · exact ⟨rfl, rfl, fun _ => rfl⟩
  · exact ⟨rfl, rfl, fun _ => rfl⟩
  · refine ⟨?_, ?_, fun hzero => absurd hzero (Nat.succ_ne_zero _)⟩
    · cases direction <;> rfl
    · cases direction <;> rfl

end Pass

end ScheduledScaling
