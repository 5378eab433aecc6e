import ScheduledScaling.Proofs.CleanupStep
/-!
# The two sides of a store

A store in memory keeps workloads on one side and resources on the other. Calls about workloads work
on the one and calls about resources on the other, and writing the status works on neither. So each
step of a pass makes the same calls over stores that agree on its own side (`run_congr_workloads`,
`run_congr_listers`), and leaves the other side as it is (`frame_of_workloadCalls`,
`frame_of_resourceCalls`).
-/
namespace ScheduledScaling

open Program MemoryStore

/-- What a store in memory has of workloads, with the failures that it is set to give. -/
structure WorkloadSide where
  workloads : Keyed Workload
  replaces : Nat
  fetchBudget : Option Nat
  replaceBudget : Option Nat
  race : Option Edit

namespace MemoryStore

def workloadSide (store : MemoryStore) : WorkloadSide where
  workloads := store.workloads
  replaces := store.replaces
  fetchBudget := store.fetchBudget
  replaceBudget := store.replaceBudget
  race := store.race

/-- A store with other workloads. -/
def withSide (side : WorkloadSide) (store : MemoryStore) : MemoryStore :=
  { store with
    workloads := side.workloads
    replaces := side.replaces
    fetchBudget := side.fetchBudget
    replaceBudget := side.replaceBudget
    race := side.race }

/-! ## Calls -/

variable {c : StoreCall}

/-- What a fetch gives and leaves of workloads depends on the workloads only. -/
theorem fetch_withSide (target : Target) (side : WorkloadSide) (store : MemoryStore) :
    fetch target (store.withSide side) =
      ((fetch target (empty.withSide side)).1,
        store.withSide (fetch target (empty.withSide side)).2.workloadSide) := by
  obtain ⟨workloads, replaces, fetchBudget, replaceBudget, race⟩ := side
  simp only [fetch, releaseRace, edit, workload?, withSide, workloadSide]
  cases spend fetchBudget with
  | none => rfl
  | some budget =>
    cases workloads.get? (workloadKey target.ns target.name) <;> cases race with
    | none => rfl
    | some e =>
      dsimp only
      cases workloads.get? (workloadKey e.ns e.name) <;> rfl

theorem replace_withSide (target : Target) (w : Workload) (side : WorkloadSide)
    (store : MemoryStore) :
    replace target w (store.withSide side) =
      ((replace target w (empty.withSide side)).1,
        store.withSide (replace target w (empty.withSide side)).2.workloadSide) := by
  obtain ⟨workloads, replaces, fetchBudget, replaceBudget, race⟩ := side
  simp only [replace, swap, workload?, withSide, workloadSide]
  cases spend replaceBudget with
  | none => rfl
  | some budget =>
    dsimp only
    cases workloads.get? (workloadKey target.ns target.name) with
    | none => rfl
    | some stored =>
      dsimp only
      split <;> rfl

/-- A call about workloads works on the workloads of a store, whatever else it has. -/
theorem handler_of_workloadCall (hc : c.IsWorkloadCall) (side : WorkloadSide) :
    ∃ answer side', ∀ store : MemoryStore,
      handler c (store.withSide side) = (answer, store.withSide side') := by
  cases c with
  | fetch target => exact ⟨_, _, fetch_withSide target side⟩
  | replace target w => exact ⟨_, _, replace_withSide target w side⟩
  | _ => exact hc.elim

/-- A call about resources works on the listers of a store, whatever else it has. -/
theorem handler_of_resourceCall (hc : c.IsResourceCall) (listers : List MemoryLister) :
    ∃ answer listers', ∀ store : MemoryStore,
      handler c { store with listers := listers } = (answer, { store with listers := listers' }) := by
  cases c with
  | list kind ns selector =>
    let asked := askLister kind (MemoryLister.list ns selector) listers
    exact ⟨asked.1, asked.2, fun store => rfl⟩
  | delete kind candidate =>
    let asked := askLister kind (MemoryLister.delete candidate) listers
    exact ⟨asked.1, asked.2, fun store => rfl⟩
  | _ => exact hc.elim

/-! ## Programs -/

variable {α : Type} {p : Program α} {store store' : MemoryStore}

theorem frame_of_workloadCalls (hp : OnlyCalls StoreCall.IsWorkloadCall p) (store : MemoryStore) :
    (p.run handler store).2.listers = store.listers ∧
      (p.run handler store).2.patchesFail = store.patchesFail := by
  have hview : ∀ c : StoreCall, c.IsWorkloadCall → ∀ store,
      ((handler c store).2.listers, (handler c store).2.patchesFail) =
        (store.listers, store.patchesFail) := by
    intro c hc store
    obtain ⟨answer, side', hanswer⟩ := handler_of_workloadCall hc store.workloadSide
    have hstore : handler c store = _ := hanswer store
    rw [hstore]
    rfl
  have hrun : ((p.run handler store).2.listers, (p.run handler store).2.patchesFail) = _ :=
    view_run_eq (fun store : MemoryStore => (store.listers, store.patchesFail)) hp hview
  exact Prod.ext_iff.1 hrun

theorem frame_of_resourceCalls (hp : OnlyCalls StoreCall.IsResourceCall p) (store : MemoryStore) :
    (p.run handler store).2.workloadSide = store.workloadSide ∧
      (p.run handler store).2.patchesFail = store.patchesFail := by
  have hview : ∀ c : StoreCall, c.IsResourceCall → ∀ store,
      ((handler c store).2.workloadSide, (handler c store).2.patchesFail) =
        (store.workloadSide, store.patchesFail) := by
    intro c hc store
    obtain ⟨answer, listers', hanswer⟩ := handler_of_resourceCall hc store.listers
    have hstore : handler c store = _ := hanswer store
    rw [hstore]
    rfl
  have hrun : ((p.run handler store).2.workloadSide, (p.run handler store).2.patchesFail) = _ :=
    view_run_eq (fun store : MemoryStore => (store.workloadSide, store.patchesFail)) hp hview
  exact Prod.ext_iff.1 hrun

/-- Calls about workloads are the same over stores with the same workloads. -/
theorem run_congr_workloads (hp : OnlyCalls StoreCall.IsWorkloadCall p)
    (h : store.workloadSide = store'.workloadSide) :
    p.trace handler store = p.trace handler store' ∧
      (p.run handler store).1 = (p.run handler store').1 ∧
      (p.run handler store).2.workloadSide = (p.run handler store').2.workloadSide := by
  refine run_congr_view hp (fun c hc store store' h => ?_) h
  obtain ⟨answer, side', hanswer⟩ := handler_of_workloadCall hc store.workloadSide
  have hstore : handler c store = _ := hanswer store
  have hstore' : handler c store' = (answer, store'.withSide side') := by
    rw [← hanswer store', h]
    rfl
  rw [hstore, hstore']
  exact ⟨rfl, rfl⟩

/-- Calls about resources are the same over stores with the same listers. -/
theorem run_congr_listers (hp : OnlyCalls StoreCall.IsResourceCall p)
    (h : store.listers = store'.listers) :
    p.trace handler store = p.trace handler store' ∧
      (p.run handler store).1 = (p.run handler store').1 ∧
      (p.run handler store).2.listers = (p.run handler store').2.listers := by
  refine run_congr_view hp (fun c hc store store' h => ?_) h
  obtain ⟨answer, listers', hanswer⟩ := handler_of_resourceCall hc store.listers
  have hstore : handler c store = _ := hanswer store
  have hstore' : handler c store' = (answer, { store' with listers := listers' }) := by
    rw [← hanswer store', h]
  rw [hstore, hstore']
  exact ⟨rfl, rfl⟩

/-! ## One program on each side -/

variable {β : Type} {q : Program β}

/-- The store after a program on the side of workloads and then one on the side of resources: each
of them does what it does over the store of the beginning. -/
theorem run_of_sides (hp : OnlyCalls StoreCall.IsWorkloadCall p)
    (hq : OnlyCalls StoreCall.IsResourceCall q) (store : MemoryStore) :
    q.trace handler (p.run handler store).2 = q.trace handler store ∧
      ∃ after : MemoryStore, q.run handler (p.run handler store).2 = ((q.run handler store).1, after) ∧
        after.workloadSide = (p.run handler store).2.workloadSide ∧
        after.listers = (q.run handler store).2.listers ∧ after.patchesFail = store.patchesFail := by
  obtain ⟨hlisters, hfail⟩ := frame_of_workloadCalls hp store
  obtain ⟨htrace, hresult, hafter⟩ := run_congr_listers hq hlisters
  obtain ⟨hside, hfail'⟩ := frame_of_resourceCalls hq (p.run handler store).2
  exact ⟨htrace, (q.run handler (p.run handler store).2).2, Prod.ext hresult rfl, hside, hafter,
    hfail'.trans hfail⟩

end MemoryStore

end ScheduledScaling
