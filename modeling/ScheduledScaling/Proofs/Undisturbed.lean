import ScheduledScaling.Proofs.Calls
import ScheduledScaling.Proofs.Interleaving
/-!
# Calls while nobody else edits the target

`Undisturbed` follows the calls of a program over a store. Between two calls others may change
everything but the workload under one key, and any call may fail. Then a scaling that succeeds has
left the workload as it says (`scaled_of_runs`), and calls that replace no workload leave it alone.

What a program does over a store in memory is such a run, whatever failures the store is set to
give, as long as no edit of the workload waits in it (`undisturbed_trace`).
-/
namespace ScheduledScaling

open Program MemoryStore

/-- Nobody has edited the workload of a key, and no edit of it waits for a fetch. -/
structure Quiet (key : String) (before after : MemoryStore) : Prop where
  stored : after.workloads.get? key = before.workloads.get? key
  race : ∀ e ∈ after.race, workloadKey e.ns e.name ≠ key

/-- Calls with their answers while nobody else edits the workload of a key, from one store to
another. The store answers a call, or the call does not get through. -/
inductive Undisturbed (key : String) : MemoryStore → List Exchange → MemoryStore → Prop
  | nil {before after : MemoryStore} : Quiet key before after → Undisturbed key before [] after
  | answered {before store after : MemoryStore} {c : StoreCall} {trace : List Exchange} :
      Quiet key before store → Undisturbed key (handler c store).2 trace after →
      Undisturbed key before (⟨c, (handler c store).1⟩ :: trace) after
  | failed {before store after : MemoryStore} {c : StoreCall} {trace : List Exchange} (e : Failure) :
      Quiet key before store → Undisturbed key store trace after →
      Undisturbed key before (⟨c, .error e⟩ :: trace) after

section
variable {key : String} {store before after : MemoryStore} {trace : List Exchange}

theorem Quiet.refl (h : ∀ e ∈ store.race, workloadKey e.ns e.name ≠ key) : Quiet key store store :=
  ⟨rfl, h⟩

/-- Calls in a row are some of them and then the others. -/
theorem Undisturbed.of_append {first rest : List Exchange}
    (h : Undisturbed key before (first ++ rest) after) :
    ∃ store, Undisturbed key before first store ∧ Undisturbed key store rest after := by
  induction first generalizing before with
  | nil =>
    cases h with
    | nil hquiet => exact ⟨after, .nil hquiet, .nil (.refl hquiet.race)⟩
    | answered hquiet h => exact ⟨_, .nil hquiet, .answered (.refl hquiet.race) h⟩
    | failed e hquiet h => exact ⟨_, .nil hquiet, .failed e (.refl hquiet.race) h⟩
  | cons x first ih =>
    cases h with
    | answered hquiet h =>
      obtain ⟨store, hfirst, hrest⟩ := ih h
      exact ⟨store, .answered hquiet hfirst, hrest⟩
    | failed e hquiet h =>
      obtain ⟨store, hfirst, hrest⟩ := ih h
      exact ⟨store, .failed e hquiet hfirst, hrest⟩

/-! ## One call -/

theorem edit_of_ne {e : Edit} (h : workloadKey e.ns e.name ≠ key) (store : MemoryStore) :
    (edit e store).workloads.get? key = store.workloads.get? key := by
  unfold edit
  split
  · rfl
  · exact Keyed.get?_set_of_ne h.symm ..

theorem releaseRace_spec (store : MemoryStore) (h : ∀ e ∈ store.race, workloadKey e.ns e.name ≠ key) :
    store.releaseRace.race = none ∧
      store.releaseRace.workloads.get? key = store.workloads.get? key := by
  unfold releaseRace
  split
  · rename_i hrace
    exact ⟨hrace, rfl⟩
  · rename_i e hrace
    exact ⟨rfl, edit_of_ne (h e hrace) store⟩

/-- A fetch leaves the workload of a key alone, and gives the one that is stored. -/
theorem fetch_of_quiet (target : Target) (h : ∀ e ∈ store.race, workloadKey e.ns e.name ≠ key) :
    Quiet key store (fetch target store).2 ∧
      ∀ w, (fetch target store).1 = .ok w →
        store.workloads.get? (workloadKey target.ns target.name) = some w := by
  unfold fetch
  split
  · exact ⟨.refl h, fun w hw => by cases hw⟩
  · rename_i budget _
    obtain ⟨hrace, hstored⟩ := releaseRace_spec { store with fetchBudget := budget } h
    have hquiet : Quiet key store ({ store with fetchBudget := budget } : MemoryStore).releaseRace :=
      ⟨hstored, fun e he => by rw [hrace] at he; cases he⟩
    dsimp only
    split
    · exact ⟨hquiet, fun w hw => by cases hw⟩
    · rename_i w hw
      exact ⟨hquiet, fun w' h => Except.ok.inj h ▸ hw⟩

/-- A call that replaces a workload. -/
def StoreCall.IsReplace : StoreCall → Prop
  | replace _ _ => True
  | _ => False

theorem StoreCall.IsReplace.isWorkloadCall {c : StoreCall} (h : c.IsReplace) : c.IsWorkloadCall := by
  cases c <;> trivial

/-- Only a replacement changes the workload of a key. -/
theorem quiet_handler {c : StoreCall} (hc : ¬ c.IsReplace)
    (h : ∀ e ∈ store.race, workloadKey e.ns e.name ≠ key) :
    Quiet key store (handler c store).2 := by
  cases c with
  | fetch target => exact (fetch_of_quiet target h).1
  | replace target w => exact absurd trivial hc
  | patchStatus ns name status =>
    change Quiet key store (patchStatus ns name status store).2
    unfold patchStatus
    split
    · exact .refl h
    · exact ⟨rfl, h⟩
  | listSchedules | getSchedule ns name => exact .refl h
  | list kind ns selector | delete kind candidate => exact ⟨rfl, h⟩

/-- No edit of the workload of a key waits after a call if none did before. -/
theorem race_handler (c : StoreCall) (h : ∀ e ∈ store.race, workloadKey e.ns e.name ≠ key) :
    ∀ e ∈ (handler c store).2.race, workloadKey e.ns e.name ≠ key := by
  by_cases hc : c.IsReplace
  · cases c with
    | replace target w =>
      have hrace : (replace target w store).2.race = store.race :=
        (Interleaving.replace_spec (Prod.ext rfl rfl)).1
      exact fun e he => h e (hrace ▸ he)
    | _ => exact hc.elim
  · exact (quiet_handler hc h).race

/-! ## Calls in a row -/

/-- What a program does over a store in memory is undisturbed if no edit of the workload waits there,
whatever failures the store is set to give. -/
theorem undisturbed_trace {α : Type} (p : Program α)
    (h : ∀ e ∈ store.race, workloadKey e.ns e.name ≠ key) :
    Undisturbed key store (p.trace handler store) (p.run handler store).2 := by
  induction p generalizing store with
  | done a => exact .nil (.refl h)
  | abort e => exact .nil (.refl h)
  | call c next ih => exact .answered (.refl h) (ih _ (race_handler c h))

/-- Calls that replace no workload leave the one of a key as it was. -/
theorem Undisturbed.stored_eq (h : Undisturbed key before trace after)
    (hc : ∀ x ∈ trace, ¬ x.call.IsReplace) :
    after.workloads.get? key = before.workloads.get? key := by
  induction h with
  | nil hquiet => exact hquiet.stored
  | answered hquiet _ ih =>
    have hcall := quiet_handler (hc _ List.mem_cons_self) hquiet.race
    rw [ih fun x hx => hc x (List.mem_cons_of_mem _ hx), hcall.stored, hquiet.stored]
  | failed e hquiet _ ih =>
    rw [ih fun x hx => hc x (List.mem_cons_of_mem _ hx), hquiet.stored]

/-- The first call is answered by the store, or fails. -/
theorem Undisturbed.of_cons {c : StoreCall} {answer : c.Answer}
    (h : Undisturbed key before (⟨c, answer⟩ :: trace) after) :
    ∃ store, Quiet key before store ∧
      (answer = (handler c store).1 ∧ Undisturbed key (handler c store).2 trace after ∨
        (∃ e, answer = .error e) ∧ Undisturbed key store trace after) := by
  cases h with
  | answered hquiet h => exact ⟨_, hquiet, .inl ⟨rfl, h⟩⟩
  | failed e hquiet h => exact ⟨_, hquiet, .inr ⟨⟨e, rfl⟩, h⟩⟩

variable {target : Target} {w w' : Workload}

/-- A fetch that succeeds gives the workload that is stored, which stays there. -/
theorem Undisturbed.of_fetch
    (h : Undisturbed (workloadKey target.ns target.name) before
      (⟨.fetch target, .ok w⟩ :: trace) after) :
    before.workload? target.ns target.name = some w ∧
      ∃ store, store.workload? target.ns target.name = some w ∧
        Undisturbed (workloadKey target.ns target.name) store trace after := by
  obtain ⟨store, hquiet, ⟨hanswer, h⟩ | ⟨⟨e, he⟩, -⟩⟩ := h.of_cons
  · obtain ⟨hfetch, hstored⟩ := fetch_of_quiet target hquiet.race
    have hw := hstored w hanswer.symm
    exact ⟨hquiet.stored.symm.trans hw, _, hfetch.stored.trans hw, h⟩
  · cases he

/-- A replacement that succeeds stores the workload under a version of its own. -/
theorem Undisturbed.of_replace
    (h : Undisturbed (workloadKey target.ns target.name) before
      (⟨.replace target w, .ok w'⟩ :: trace) after) :
    (∃ version, w' = w.setResourceVersion version) ∧
      ∃ store, store.workload? target.ns target.name = some w' ∧
        Undisturbed (workloadKey target.ns target.name) store trace after := by
  obtain ⟨store, hquiet, ⟨hanswer, h⟩ | ⟨⟨e, he⟩, -⟩⟩ := h.of_cons
  · have hreplace : replace target w store = (.ok w', (replace target w store).2) :=
      Prod.ext hanswer.symm rfl
    obtain ⟨-, ⟨e, he, -⟩ | ⟨stored, -, -, hw, hstore⟩⟩ := Interleaving.replace_spec hreplace
    · cases he
    · refine ⟨⟨_, Except.ok.inj hw⟩, (replace target w store).2, ?_, h⟩
      rw [workload?, hstore, ← Except.ok.inj hw]
      exact Keyed.get?_set_self ..
  · cases he

/-! ## What a scaling leaves -/

/-- What a scaling leaves of the workload `found` that was stored before. Scaling down leaves no
replicas, and the count of before on the workload unless one was there; scaling up leaves the count
that is on the workload. -/
def Leaves (found w : Workload) : Pass.Direction → Prop
  | .down => w.replicas = 0 ∧ w.annotation? Scaling.memoryKey =
      some ((found.annotation? Scaling.memoryKey).getD (toString found.replicas))
  | .up => w.annotation? Scaling.memoryKey = found.annotation? Scaling.memoryKey ∧
      (w.annotation? Scaling.memoryKey).bind Scaling.readMemory = some w.replicas

namespace Scaling
variable {outcome : ScaleOutcome}

/-- The end of scaling down, from a copy that is stored. -/
theorem stored_of_zero (h : Runs (zero target w.replicas w) trace (.ok (.ok outcome)))
    (hstored : before.workload? target.ns target.name = some w)
    (hcalls : Undisturbed (workloadKey target.ns target.name) before trace after) :
    ∃ v, after.workload? target.ns target.name = some v ∧ v.replicas = 0 ∧
      outcome.replicas = 0 ∧ v.annotation? memoryKey = w.annotation? memoryKey := by
  unfold zero at h
  split at h
  · rename_i hzero
    obtain ⟨rfl, hr⟩ := runs_done.1 h
    cases hr
    cases hcalls with
    | nil hquiet => exact ⟨w, hquiet.stored.trans hstored, hzero, rfl, rfl⟩
  · obtain ⟨answer, rest, rfl, hrest⟩ := runs_call.1 h
    cases answer with
    | error e => cases (runs_done.1 hrest).2
    | ok w' =>
      obtain ⟨rfl, hr⟩ := runs_done.1 hrest
      cases hr
      obtain ⟨⟨version, rfl⟩, store, hstore, hend⟩ := hcalls.of_replace
      cases hend with
      | nil hquiet => exact ⟨_, hquiet.stored.trans hstore, rfl, rfl, rfl⟩

theorem stored_of_record {found : Workload}
    (h : Runs (record target found) trace (.ok (.ok outcome)))
    (hstored : before.workload? target.ns target.name = some found)
    (hcalls : Undisturbed (workloadKey target.ns target.name) before trace after) :
    ∃ v, after.workload? target.ns target.name = some v ∧ v.replicas = outcome.replicas ∧
      Leaves found v .down := by
  unfold record at h
  split at h
  · rename_i value hmemory
    obtain ⟨v, hv, hreplicas, houtcome, hkeep⟩ := stored_of_zero h hstored hcalls
    refine ⟨v, hv, hreplicas.trans houtcome.symm, hreplicas, ?_⟩
    rw [hkeep, hmemory, Option.getD_some]
  · rename_i hmemory
    obtain ⟨answer, rest, rfl, hrest⟩ := runs_call.1 h
    cases answer with
    | error e => cases (runs_done.1 hrest).2
    | ok w' =>
      obtain ⟨⟨version, hw⟩, store, hstore, hend⟩ := hcalls.of_replace
      have hzero : Runs (zero target w'.replicas w') rest (.ok (.ok outcome)) := by
        rw [hw]
        rwa [hw] at hrest
      obtain ⟨v, hv, hreplicas, houtcome, hkeep⟩ := stored_of_zero hzero hstore hend
      refine ⟨v, hv, hreplicas.trans houtcome.symm, hreplicas, ?_⟩
      rw [hkeep, hw, hmemory, Option.getD_none]
      simp

theorem stored_of_restore {found : Workload}
    (h : Runs (restore target found) trace (.ok (.ok outcome)))
    (hstored : before.workload? target.ns target.name = some found)
    (hcalls : Undisturbed (workloadKey target.ns target.name) before trace after) :
    ∃ v, after.workload? target.ns target.name = some v ∧ v.replicas = outcome.replicas ∧
      Leaves found v .up := by
  unfold restore at h
  cases hmemory : remembered target found with
  | error e =>
    rw [hmemory] at h
    cases (runs_done.1 h).2
  | ok count =>
    have hcount : (found.annotation? memoryKey).bind readMemory = some count := by
      obtain ⟨value, hvalue, hread⟩ := Interleaving.eq_ok_of_remembered hmemory
      rw [hvalue, Option.bind_some, hread]
    rw [hmemory] at h
    dsimp only at h
    split at h
    · rename_i hreplicas
      obtain ⟨rfl, hr⟩ := runs_done.1 h
      cases hr
      cases hcalls with
      | nil hquiet =>
        exact ⟨found, hquiet.stored.trans hstored, hreplicas, rfl, by rw [hcount, hreplicas]⟩
    · obtain ⟨answer, rest, rfl, hrest⟩ := runs_call.1 h
      cases answer with
      | error e => cases (runs_done.1 hrest).2
      | ok w' =>
        obtain ⟨rfl, hr⟩ := runs_done.1 hrest
        cases hr
        obtain ⟨⟨version, rfl⟩, store, hstore, hend⟩ := hcalls.of_replace
        cases hend with
        | nil hquiet => exact ⟨_, hquiet.stored.trans hstore, rfl, rfl, hcount⟩

/-- A scaling that succeeds tells the replicas that are stored after it. -/
theorem stored_of_scale {direction : Pass.Direction}
    (h : Runs (direction.scale target).run trace (.ok (.ok outcome)))
    (hcalls : Undisturbed (workloadKey target.ns target.name) before trace after) :
    ∃ found v, before.workload? target.ns target.name = some found ∧
      after.workload? target.ns target.name = some v ∧ v.replicas = outcome.replicas ∧
      Leaves found v direction := by
  rw [scale_run] at h
  obtain ⟨answer, rest, rfl, hrest⟩ := runs_call.1 h
  cases answer with
  | error e => cases (runs_done.1 hrest).2
  | ok found =>
    obtain ⟨hfound, store, hstore, hend⟩ := hcalls.of_fetch
    cases direction with
    | down =>
      obtain ⟨v, hv⟩ := stored_of_record hrest hstore hend
      exact ⟨found, v, hfound, hv⟩
    | up =>
      obtain ⟨v, hv⟩ := stored_of_restore hrest hstore hend
      exact ⟨found, v, hfound, hv⟩

end Scaling

end

end ScheduledScaling
