import Mathlib.Logic.Function.Basic
import ScheduledScaling.Proofs.Scaling
/-!
# Scalings that share a workload

Any number of scalings run over one store, one call at a time and in any order, while others edit
the workloads and calls fail. A scaling works on a copy that it read earlier. `Held` is what keeps
this safe: a copy either is the stored workload or has a lower version, and then a write of it is
refused. `Pending` lists where a scaling can wait, with what is known of its copy there.

- `current_of_run`: in every state of a run each scaling is at one of those points.
- `write_changes_current`: a write that succeeds changes the workload that is stored at that very
  moment, in one of three ways.
-/
namespace ScheduledScaling.Interleaving

open Workload (versionNumber)
open Scaling (memoryKey)

variable {ι : Type} [DecidableEq ι] {edits : Workload → Workload → Prop}

/-! ## Runs -/

/-- A scaling that was asked for. -/
structure Job where
  direction : Pass.Direction
  target : Target

namespace Job

/-- The key of the workload that a job scales. -/
def key (j : Job) : String := MemoryStore.workloadKey j.target.ns j.target.name

def program (j : Job) : Program (Except Failure ScaleOutcome) :=
  (j.direction.scale j.target).run

end Job

/-- Jobs at work over one store; `rest i` is what the job `i` has still to do. -/
structure World (ι : Type) where
  store : MemoryStore
  rest : ι → Program (Except Failure ScaleOutcome)

/-- No job has made a call yet. -/
def World.start (jobs : ι → Job) (store : MemoryStore) : World ι :=
  ⟨store, fun i => (jobs i).program⟩

/-- Each workload is as before, or was edited and has a higher version. -/
def Raises (edits : Workload → Workload → Prop) (before after : Keyed Workload) : Prop :=
  ∀ key, after.get? key = before.get? key ∨
    ∃ w w', before.get? key = some w ∧ after.get? key = some w' ∧
      versionNumber w < versionNumber w' ∧ edits w w'

/-- The edit that waits for the next fetch is one of the edits. -/
def WaitingEdit (edits : Workload → Workload → Prop) (store : MemoryStore) : Prop :=
  ∀ e, store.race = some e → ∀ w, edits w (MemoryStore.edited e w)

/-- What others do between two calls: they edit workloads, and choose which calls will fail. -/
structure Outside (edits : Workload → Workload → Prop) (store store' : MemoryStore) : Prop where
  raises : Raises edits store.workloads store'.workloads
  waiting : WaitingEdit edits store'

/-- A failure that a store can give: any but those about the memory of a workload. -/
def IsStoreFailure : Failure → Prop
  | .missingMemory .. | .invalidMemory .. => False
  | _ => True

inductive Event (ι : Type) where
  | outside
  /-- A call of a job and its answer. -/
  | call (i : ι) (c : StoreCall) (answer : c.Answer)

inductive Step (edits : Workload → Workload → Prop) : World ι → Event ι → World ι → Prop
  | outside {w : World ι} {store'} : Outside edits w.store store' →
      Step edits w .outside ⟨store', w.rest⟩
  | answered {w : World ι} {i c next answer store'} : w.rest i = .call c next →
      MemoryStore.handler c w.store = (answer, store') →
      Step edits w (.call i c answer) ⟨store', Function.update w.rest i (next answer)⟩
  | failed {w : World ι} {i c next e} : w.rest i = .call c next → IsStoreFailure e →
      Step edits w (.call i c (.error e)) ⟨w.store, Function.update w.rest i (next (.error e))⟩

/-- The versions of all workloads have a successor in 64 bits. -/
def HasRoom (store : MemoryStore) : Prop :=
  ∀ key w, store.workloads.get? key = some w → versionNumber w + 1 < Word.bound64

inductive Run (edits : Workload → Workload → Prop) (first : World ι) :
    List (Event ι) → World ι → Prop
  | nil : Run edits first [] first
  | step {events w event w'} : Run edits first events w → HasRoom w.store →
      Step edits w event w' → Run edits first (events ++ [event]) w'

/-- The store answers the next call of a job. -/
def World.answer (w : World ι) (i : ι) : World ι :=
  match w.rest i with
  | .call c next =>
    let (answer, store) := MemoryStore.handler c w.store
    ⟨store, Function.update w.rest i (next answer)⟩
  | _ => w

theorem step_answer {w : World ι} {i : ι} {c : StoreCall}
    {next : c.Answer → Program (Except Failure ScaleOutcome)} (h : w.rest i = .call c next) :
    Step edits w (.call i c (MemoryStore.handler c w.store).1) (w.answer i) := by
  unfold World.answer
  rw [h]
  exact .answered h rfl

theorem hasRoom_of_forall {store : MemoryStore}
    (h : ∀ pair ∈ store.workloads, versionNumber pair.2 + 1 < Word.bound64) : HasRoom store := by
  intro key w hw
  have hmem : ∀ ws : Keyed Workload, ws.get? key = some w → (key, w) ∈ ws := by
    intro ws hws
    induction ws with
    | nil => cases hws
    | cons pair rest ih =>
      obtain ⟨k, v⟩ := pair
      unfold Keyed.get? at hws
      split at hws
      · rename_i hk
        obtain rfl := Option.some.inj hws
        exact hk ▸ List.mem_cons_self
      · exact List.mem_cons_of_mem _ (ih hws)
  exact h _ (hmem _ hw)

/-! ## What the store does to workloads -/

theorem Raises.refl (edits : Workload → Workload → Prop) (ws : Keyed Workload) :
    Raises edits ws ws := fun _ => .inl rfl

theorem Raises.mono {edits edits' : Workload → Workload → Prop}
    (h : ∀ w w', edits w w' → edits' w w') {ws ws' : Keyed Workload} (hr : Raises edits ws ws') :
    Raises edits' ws ws' := by
  intro key
  rcases hr key with he | ⟨w, w', hw, hw', hv, hedit⟩
  · exact .inl he
  · exact .inr ⟨w, w', hw, hw', hv, h w w' hedit⟩

/-- A workload is set in the place of one of a lower version. -/
theorem raises_set {ws : Keyed Workload} {key : String} {w w' : Workload}
    (hw : ws.get? key = some w) (hv : versionNumber w < versionNumber w') (he : edits w w') :
    Raises edits ws (ws.set key w') := by
  intro other
  by_cases h : other = key
  · subst h
    exact .inr ⟨w, w', hw, Keyed.get?_set_self .., hv, he⟩
  · exact .inl (Keyed.get?_set_of_ne h ..)

theorem resourceVersion_editAnnotation (w : Workload) (a : String × Option String) :
    (MemoryStore.editAnnotation w a).resourceVersion = w.resourceVersion := by
  obtain ⟨key, value⟩ := a
  cases value <;> rfl

theorem resourceVersion_editAnnotations (as : List (String × Option String)) (w : Workload) :
    (as.foldl MemoryStore.editAnnotation w).resourceVersion = w.resourceVersion := by
  induction as generalizing w with
  | nil => rfl
  | cons a as ih => rw [List.foldl_cons, ih, resourceVersion_editAnnotation]

theorem versionNumber_edited (e : Edit) {w : Workload} (hw : versionNumber w + 1 < Word.bound64) :
    versionNumber (MemoryStore.edited e w) = versionNumber w + 1 := by
  have hv : ∀ v : Workload, v.resourceVersion = w.resourceVersion →
      versionNumber (MemoryStore.raiseVersion v) = versionNumber w + 1 := by
    intro v hv
    have hn := Workload.versionNumber_congr hv
    rw [MemoryStore.raiseVersion, Workload.versionNumber_nextVersion (by rw [hn]; exact hw), hn]
  apply hv
  rw [resourceVersion_editAnnotations]
  cases e.replicas <;> rfl

/-- An edit of the store is an edit from outside. -/
theorem raises_edit {store : MemoryStore} (hroom : HasRoom store) (e : Edit)
    (he : ∀ w, edits w (MemoryStore.edited e w)) :
    Raises edits store.workloads (store.edit e).workloads := by
  unfold MemoryStore.edit
  cases hw : store.workload? e.ns e.name with
  | none => exact Raises.refl _ _
  | some w =>
    refine raises_set hw ?_ (he w)
    rw [versionNumber_edited e (hroom _ w hw)]
    exact Nat.lt_succ_self _

theorem raises_releaseRace (store : MemoryStore) (hroom : HasRoom store)
    (hwait : WaitingEdit edits store) :
    Raises edits store.workloads store.releaseRace.workloads ∧ store.releaseRace.race = none := by
  unfold MemoryStore.releaseRace
  split
  · rename_i hrace
    exact ⟨Raises.refl _ _, hrace⟩
  · rename_i e hrace
    exact ⟨raises_edit hroom e (hwait e hrace), rfl⟩

/-- A fetch gives the workload that is stored; an edit that waited for it comes after. -/
theorem fetch_spec {target : Target} {store store' : MemoryStore}
    {answer : Except Failure Workload} (hroom : HasRoom store) (hwait : WaitingEdit edits store)
    (h : MemoryStore.fetch target store = (answer, store')) :
    Raises edits store.workloads store'.workloads ∧ WaitingEdit edits store' ∧
      ((∃ e, answer = .error e ∧ IsStoreFailure e) ∨
        ∃ w, answer = .ok w ∧
          store.workloads.get? (MemoryStore.workloadKey target.ns target.name) = some w) := by
  unfold MemoryStore.fetch at h
  split at h
  · obtain ⟨rfl, rfl⟩ := Prod.mk.inj h
    exact ⟨Raises.refl _ _, hwait, .inl ⟨_, rfl, trivial⟩⟩
  · rename_i budget _
    obtain ⟨hr, hn⟩ :=
      raises_releaseRace { store with fetchBudget := budget } hroom hwait
    have hwait' : WaitingEdit edits
        ({ store with fetchBudget := budget } : MemoryStore).releaseRace := fun e he => by
      rw [hn] at he
      cases he
    dsimp only at h
    split at h
    · obtain ⟨rfl, rfl⟩ := Prod.mk.inj h
      exact ⟨hr, hwait', .inl ⟨_, rfl, trivial⟩⟩
    · rename_i w hw
      obtain ⟨rfl, rfl⟩ := Prod.mk.inj h
      exact ⟨hr, hwait', .inr ⟨w, rfl, hw⟩⟩

/-- A write fails and changes no workload, or the stored workload has its version and is replaced
by it under the next version. -/
theorem replace_spec {target : Target} {value : Workload} {store store' : MemoryStore}
    {answer : Except Failure Workload}
    (h : MemoryStore.replace target value store = (answer, store')) :
    store'.race = store.race ∧
      ((∃ e, answer = .error e ∧ IsStoreFailure e ∧ store'.workloads = store.workloads) ∨
        ∃ stored,
          store.workloads.get? (MemoryStore.workloadKey target.ns target.name) = some stored ∧
          stored.resourceVersion = value.resourceVersion ∧
          answer = .ok (value.setResourceVersion (MemoryStore.nextVersion stored)) ∧
          store'.workloads = store.workloads.set (MemoryStore.workloadKey target.ns target.name)
            (value.setResourceVersion (MemoryStore.nextVersion stored))) := by
  unfold MemoryStore.replace at h
  split at h
  · obtain ⟨rfl, rfl⟩ := Prod.mk.inj h
    exact ⟨rfl, .inl ⟨_, rfl, trivial, rfl⟩⟩
  · unfold MemoryStore.swap at h
    split at h
    · obtain ⟨rfl, rfl⟩ := Prod.mk.inj h
      exact ⟨rfl, .inl ⟨_, rfl, trivial, rfl⟩⟩
    · rename_i stored hstored
      split at h
      · obtain ⟨rfl, rfl⟩ := Prod.mk.inj h
        exact ⟨rfl, .inl ⟨_, rfl, trivial, rfl⟩⟩
      · rename_i hv
        obtain ⟨rfl, rfl⟩ := Prod.mk.inj h
        exact ⟨rfl, .inr ⟨stored, hstored, not_not.1 hv, rfl, rfl⟩⟩

/-! ## Copies -/

/-- A copy that a job holds of the workload of a key: it is the stored one, or has a lower
version. -/
def Held (ws : Keyed Workload) (key : String) (copy : Workload) : Prop :=
  ∀ stored, ws.get? key = some stored → copy = stored ∨ versionNumber copy < versionNumber stored

theorem held_of_stored {ws : Keyed Workload} {key : String} {w : Workload}
    (h : ws.get? key = some w) : Held ws key w := by
  intro stored hs
  rw [h] at hs
  exact .inl (Option.some.inj hs)

theorem Held.raises {ws ws' : Keyed Workload} {key : String} {copy : Workload}
    (h : Held ws key copy) (hr : Raises edits ws ws') : Held ws' key copy := by
  intro stored hs
  rcases hr key with he | ⟨w, w', hw, hw', hv, -⟩
  · exact h stored (he ▸ hs)
  · rw [hw'] at hs
    obtain rfl := Option.some.inj hs
    rcases h w hw with rfl | hlt
    · exact .inr hv
    · exact .inr (Nat.lt_trans hlt hv)

/-- A copy of the version that is stored is the stored workload. -/
theorem Held.eq_of_version {ws : Keyed Workload} {key : String} {copy stored : Workload}
    (h : Held ws key copy) (hs : ws.get? key = some stored)
    (hv : stored.resourceVersion = copy.resourceVersion) : copy = stored := by
  rcases h stored hs with he | hlt
  · exact he
  · rw [Workload.versionNumber_congr hv] at hlt
    exact absurd hlt (Nat.lt_irrefl _)

/-- The points at which a job can wait. `P` holds of every copy that a job holds, and `Q` of what
a job came to. -/
inductive Pending (P : Workload → Prop) (Q : Except Failure ScaleOutcome → Prop)
    (ws : Keyed Workload) (j : Job) : Program (Except Failure ScaleOutcome) → Prop
  | fetching : Pending P Q ws j (.call (.fetch j.target) (Scaling.afterAnswer j.direction j.target))
  | recording {copy} : j.direction = .down → Held ws j.key copy → P copy →
      copy.annotation? memoryKey = none →
      Pending P Q ws j (.call (.replace j.target (copy.annotate memoryKey (toString copy.replicas)))
        (Scaling.afterRecord j.target copy.replicas))
  | zeroing {copy before} : j.direction = .down → Held ws j.key copy → P copy →
      (copy.annotation? memoryKey).isSome →
      Pending P Q ws j (.call (.replace j.target (copy.setReplicas 0))
        (Scaling.finish (.scaled before 0)))
  | restoring {copy count} : j.direction = .up → Held ws j.key copy → P copy →
      Scaling.remembered j.target copy = .ok count →
      Pending P Q ws j (.call (.replace j.target (copy.setReplicas count))
        (Scaling.finish (.scaled copy.replicas count)))
  | ended {r} : Q r → Pending P Q ws j (.done r)

/-- What `Q` has to allow: failures of the store, what scaling up finds wrong with a copy, and a
success over a copy with its count written on it. -/
structure Ends (P : Workload → Prop) (Q : Except Failure ScaleOutcome → Prop) (j : Job) : Prop where
  failure : ∀ e, IsStoreFailure e → Q (.error e)
  memory : ∀ copy e, j.direction = .up → P copy → Scaling.remembered j.target copy = .error e →
    Q (.error e)
  success : ∀ copy outcome, P copy → (copy.annotation? memoryKey).isSome → Q (.ok outcome)

section Pending
variable {P : Workload → Prop} {Q : Except Failure ScaleOutcome → Prop} {ws ws' : Keyed Workload}
  {j : Job}

theorem Pending.raises {p : Program (Except Failure ScaleOutcome)} (h : Pending P Q ws j p)
    (hr : Raises edits ws ws') : Pending P Q ws' j p := by
  cases h with
  | fetching => exact .fetching
  | recording hd hh hp ha => exact .recording hd (hh.raises hr) hp ha
  | zeroing hd hh hp ha => exact .zeroing hd (hh.raises hr) hp ha
  | restoring hd hh hp hm => exact .restoring hd (hh.raises hr) hp hm
  | ended hq => exact .ended hq

theorem pending_zero {copy : Workload} {before : Int} (he : Ends P Q j) (hd : j.direction = .down)
    (hh : Held ws j.key copy) (hp : P copy) (ha : (copy.annotation? memoryKey).isSome) :
    Pending P Q ws j (Scaling.zero j.target before copy) := by
  unfold Scaling.zero
  split
  · exact .ended (he.success copy _ hp ha)
  · exact .zeroing hd hh hp ha

theorem isSome_of_remembered {target : Target} {copy : Workload} {count : Int}
    (h : Scaling.remembered target copy = .ok count) : (copy.annotation? memoryKey).isSome := by
  unfold Scaling.remembered at h
  split at h
  · cases h
  · rename_i v hv
    rw [hv]
    rfl

/-- A job goes on from the copy that it fetched. -/
theorem pending_afterFetch {copy : Workload} (he : Ends P Q j) (hh : Held ws j.key copy)
    (hp : P copy) : Pending P Q ws j (Scaling.afterFetch j.direction j.target copy) := by
  cases hd : j.direction with
  | down =>
    show Pending P Q ws j (Scaling.record j.target copy)
    unfold Scaling.record
    cases ha : copy.annotation? memoryKey with
    | some v => exact pending_zero he hd hh hp (by rw [ha]; rfl)
    | none => exact .recording hd hh hp ha
  | up =>
    show Pending P Q ws j (Scaling.restore j.target copy)
    unfold Scaling.restore
    cases hm : Scaling.remembered j.target copy with
    | error e => exact .ended (he.memory copy e hd hp hm)
    | ok count =>
      dsimp only
      split
      · exact .ended (he.success copy _ hp (isSome_of_remembered hm))
      · exact .restoring hd hh hp hm

theorem Pending.failed {c : StoreCall} {next : c.Answer → Program (Except Failure ScaleOutcome)}
    {e : Failure} (he : Ends P Q j) (h : Pending P Q ws j (.call c next)) (hf : IsStoreFailure e) :
    Pending P Q ws j (next (.error e)) := by
  cases h <;> exact .ended (he.failure e hf)

/-- A job that waits for a fetch fetches its own workload and goes on from the answer. -/
theorem Pending.fetched {target : Target}
    {next : Except Failure Workload → Program (Except Failure ScaleOutcome)} {copy : Workload}
    (he : Ends P Q j) (h : Pending P Q ws j (.call (.fetch target) next))
    (hh : Held ws' j.key copy) (hp : P copy) : Pending P Q ws' j (next (.ok copy)) := by
  cases h with
  | fetching => exact pending_afterFetch he hh hp

/-- A job that waits for a write goes on from what was stored. -/
theorem Pending.replaced {target : Target} {value : Workload} {version : String}
    {next : Except Failure Workload → Program (Except Failure ScaleOutcome)} (he : Ends P Q j)
    (h : Pending P Q ws j (.call (.replace target value) next))
    (hh : Held ws' j.key (value.setResourceVersion version))
    (hp : P (value.setResourceVersion version)) :
    Pending P Q ws' j (next (.ok (value.setResourceVersion version))) := by
  cases h with
  | recording hd _ _ _ => exact pending_zero he hd hh hp (by simp)
  | zeroing _ _ hpc ha => exact .ended (he.success _ _ hpc ha)
  | restoring _ _ hpc hm => exact .ended (he.success _ _ hpc (isSome_of_remembered hm))

end Pending

/-! ## Writes -/

/-- What a write that succeeds makes of the stored workload; the version rises each time. Scaling
down writes the count where none is written, or a zero where one is. Scaling up writes the count
that is written. All other fields stay, but a workload without a spec gets one. -/
inductive Change : Pass.Direction → Workload → Workload → Prop
  | recorded {w} : w.annotation? memoryKey = none →
      Change .down w ((w.annotate memoryKey (toString w.replicas)).setResourceVersion
        (MemoryStore.nextVersion w))
  | zeroed {w value} : w.annotation? memoryKey = some value →
      Change .down w ((w.setReplicas 0).setResourceVersion (MemoryStore.nextVersion w))
  | restored {w value count} : w.annotation? memoryKey = some value →
      Scaling.readMemory value = some count →
      Change .up w ((w.setReplicas count).setResourceVersion (MemoryStore.nextVersion w))

theorem Change.versionNumber {direction : Pass.Direction} {w w' : Workload}
    (h : Change direction w w') (hw : w.versionNumber + 1 < Word.bound64) :
    w'.versionNumber = w.versionNumber + 1 := by
  cases h <;> exact Workload.versionNumber_nextVersion hw _

theorem eq_ok_of_remembered {target : Target} {copy : Workload} {count : Int}
    (h : Scaling.remembered target copy = .ok count) :
    ∃ value, copy.annotation? memoryKey = some value ∧ Scaling.readMemory value = some count := by
  unfold Scaling.remembered at h
  split at h
  · cases h
  · rename_i value hv
    split at h
    · cases h
    · rename_i n hn
      cases h
      exact ⟨value, hv, hn⟩

/-- A write of the version that is stored is a change of the stored workload. -/
theorem Pending.change {P : Workload → Prop} {Q : Except Failure ScaleOutcome → Prop}
    {ws : Keyed Workload} {j : Job} {target : Target} {value stored : Workload}
    {next : Except Failure Workload → Program (Except Failure ScaleOutcome)}
    (h : Pending P Q ws j (.call (.replace target value) next)) (hs : ws.get? j.key = some stored)
    (hv : stored.resourceVersion = value.resourceVersion) :
    target = j.target ∧
      Change j.direction stored (value.setResourceVersion (MemoryStore.nextVersion stored)) := by
  cases h with
  | recording hd hh _ ha =>
    obtain rfl := hh.eq_of_version hs (by simpa using hv)
    exact ⟨rfl, hd ▸ .recorded ha⟩
  | zeroing hd hh _ ha =>
    obtain rfl := hh.eq_of_version hs (by simpa using hv)
    obtain ⟨value, hvalue⟩ := Option.isSome_iff_exists.1 ha
    exact ⟨rfl, hd ▸ .zeroed hvalue⟩
  | restoring hd hh _ hm =>
    obtain rfl := hh.eq_of_version hs (by simpa using hv)
    obtain ⟨value, hvalue, hcount⟩ := eq_ok_of_remembered hm
    exact ⟨rfl, hd ▸ .restored hvalue hcount⟩

/-! ## Steps -/

/-- A write of a job that succeeded. -/
def Event.IsWrite : Event ι → Prop
  | .call _ (.replace _ _) (.ok _) => True
  | _ => False

/-- What holds in the states of a run: each job is at one of its points. -/
structure Inv (edits : Workload → Workload → Prop) (jobs : ι → Job) (P : ι → Workload → Prop)
    (Q : ι → Except Failure ScaleOutcome → Prop) (w : World ι) : Prop where
  waiting : WaitingEdit edits w.store
  pending : ∀ i, Pending (P i) (Q i) w.store.workloads (jobs i) (w.rest i)

variable {jobs : ι → Job} {P : ι → Workload → Prop} {Q : ι → Except Failure ScaleOutcome → Prop}

omit [DecidableEq ι] in
theorem inv_start {store : MemoryStore} (hw : WaitingEdit edits store) :
    Inv edits jobs P Q (World.start jobs store) where
  waiting := hw
  pending i := by
    show Pending _ _ _ _ (jobs i).program
    rw [Job.program, Scaling.scale_run]
    exact .fetching

/-- The workloads after a step: edited from outside, or with one write of a job. -/
theorem step_effect {w w' : World ι} {event : Event ι} (h : Inv edits jobs P Q w)
    (hroom : HasRoom w.store) (hs : Step edits w event w') :
    (¬ event.IsWrite ∧ Raises edits w.store.workloads w'.store.workloads) ∨
    ∃ i value stored updated, event = .call i (.replace (jobs i).target value) (.ok updated) ∧
      w.store.workloads.get? (jobs i).key = some stored ∧
      Change (jobs i).direction stored updated ∧
      w'.store.workloads = w.store.workloads.set (jobs i).key updated := by
  cases hs with
  | outside ho => exact .inl ⟨id, ho.raises⟩
  | @failed i c next e hrest _ =>
    refine .inl ⟨?_, Raises.refl _ _⟩
    cases c <;> exact id
  | @answered i c next answer store' hrest ha =>
    have hp := h.pending i
    rw [hrest] at hp
    cases c with
    | fetch target =>
      obtain ⟨hr, -, -⟩ := fetch_spec hroom h.waiting ha
      exact .inl ⟨id, hr⟩
    | replace target value =>
      obtain ⟨-, ⟨e, rfl, -, hws⟩ | ⟨stored, hstored, hv, rfl, hws⟩⟩ := replace_spec ha
      · -- A write that is refused changes no workload.
        exact .inl ⟨id, hws ▸ Raises.refl _ _⟩
      · have ht : target = (jobs i).target := by cases hp <;> rfl
        subst ht
        exact .inr ⟨i, value, stored, _, rfl, hstored, (hp.change hstored hv).2, hws⟩
    | _ => cases hp

/-- Every step raises the versions of the workloads it changes. -/
theorem step_raises {w w' : World ι} {event : Event ι} (h : Inv edits jobs P Q w)
    (hroom : HasRoom w.store) (hs : Step edits w event w') :
    Raises (fun _ _ => True) w.store.workloads w'.store.workloads := by
  rcases step_effect h hroom hs with ⟨-, hr⟩ | ⟨i, value, stored, updated, -, hstored, hc, hws⟩
  · exact hr.mono fun _ _ _ => trivial
  · rw [hws]
    refine raises_set hstored ?_ trivial
    rw [hc.versionNumber (hroom _ _ hstored)]
    exact Nat.lt_succ_self _

/-- A step keeps every job at one of its points, if `P` holds of the workloads that are stored. -/
theorem step_inv {w w' : World ι} {event : Event ι} (he : ∀ i, Ends (P i) (Q i) (jobs i))
    (h : Inv edits jobs P Q w) (hroom : HasRoom w.store) (hs : Step edits w event w')
    (hP : ∀ i v, w.store.workloads.get? (jobs i).key = some v ∨
      event.IsWrite ∧ w'.store.workloads.get? (jobs i).key = some v → P i v) :
    Inv edits jobs P Q w' := by
  have hraises := step_raises h hroom hs
  cases hs with
  | outside ho => exact ⟨ho.waiting, fun i => (h.pending i).raises hraises⟩
  | @failed i c next e hrest hf =>
    refine ⟨h.waiting, fun k => ?_⟩
    by_cases hk : k = i
    · subst hk
      have hp := h.pending k
      rw [hrest] at hp
      simpa using hp.failed (he k) hf
    · simpa [Function.update_of_ne hk] using h.pending k
  | @answered i c next answer store' hrest ha =>
    have hp := h.pending i
    rw [hrest] at hp
    -- The copies of the other jobs stay as they are; a write only outdates them.
    have others : ∀ k, k ≠ i → Pending (P k) (Q k) store'.workloads (jobs k)
        (Function.update w.rest i (next answer) k) := fun k hk => by
      rw [Function.update_of_ne hk]
      exact (h.pending k).raises hraises
    have own : WaitingEdit edits store' ∧
        Pending (P i) (Q i) store'.workloads (jobs i) (next answer) := by
      cases c with
      | fetch target =>
        obtain ⟨hr, hwait, ⟨e, rfl, hf⟩ | ⟨v, rfl, hv⟩⟩ := fetch_spec hroom h.waiting ha
        · exact ⟨hwait, (hp.failed (he i) hf).raises hr⟩
        · have ht : target = (jobs i).target := by cases hp; rfl
          subst ht
          -- An edit that waited for the fetch may outdate the copy at once.
          exact ⟨hwait, hp.fetched (he i) ((held_of_stored hv).raises hr) (hP i v (.inl hv))⟩
      | replace target value =>
        obtain ⟨hrace, ⟨e, rfl, hf, hws⟩ | ⟨stored, hstored, hv, rfl, hws⟩⟩ := replace_spec ha
        · have hwait : WaitingEdit edits store' := fun e' he' => h.waiting e' (hrace ▸ he')
          exact ⟨hwait, (hp.failed (he i) hf).raises hraises⟩
        · have hwait : WaitingEdit edits store' := fun e' he' => h.waiting e' (hrace ▸ he')
          have ht : target = (jobs i).target := by cases hp <;> rfl
          subst ht
          have hset : store'.workloads.get? (jobs i).key =
              some (value.setResourceVersion (MemoryStore.nextVersion stored)) := by
            rw [hws]
            exact Keyed.get?_set_self ..
          exact ⟨hwait, hp.replaced (he i) (held_of_stored hset)
            (hP i _ (.inr ⟨trivial, hset⟩))⟩
      | _ => cases hp
    refine ⟨own.1, fun k => ?_⟩
    by_cases hk : k = i
    · subst hk
      simpa using own.2
    · exact others k hk

/-! ## No update is lost -/

theorem ends_true (j : Job) : Ends (fun _ => True) (fun _ => True) j :=
  ⟨fun _ _ => trivial, fun _ _ _ _ _ => trivial, fun _ _ _ _ => trivial⟩

/-- In every state of a run, each job is at one of its points. -/
theorem current_of_run {store : MemoryStore} (hw : WaitingEdit edits store) {events : List (Event ι)}
    {w : World ι} (hr : Run edits (World.start jobs store) events w) :
    Inv edits jobs (fun _ _ => True) (fun _ _ => True) w := by
  induction hr with
  | nil => exact inv_start hw
  | step _ hroom hs ih =>
    exact step_inv (fun i => ends_true (jobs i)) ih hroom hs fun _ _ _ => trivial

/-- A write that succeeds replaces the workload stored at that moment by a change of itself: the
count of that moment is recorded, or zero or the recorded count is set where a count is recorded.
Nothing else changes in the workload but its version, which rises, and no other workload changes.
So an edit from outside is never undone. -/
theorem write_changes_current {store : MemoryStore} {events : List (Event ι)} {w w' : World ι}
    {i : ι} {target : Target} {value updated : Workload}
    (hr : Run (fun _ _ => True) (World.start jobs store) events w) (hroom : HasRoom w.store)
    (hs : Step (fun _ _ => True) w (.call i (.replace target value) (.ok updated)) w') :
    ∃ stored, w.store.workloads.get? (jobs i).key = some stored ∧
      Change (jobs i).direction stored updated ∧
      versionNumber updated = versionNumber stored + 1 ∧
      w'.store.workloads.get? (jobs i).key = some updated ∧
      ∀ key, key ≠ (jobs i).key →
        w'.store.workloads.get? key = w.store.workloads.get? key := by
  have hinv := current_of_run (fun _ _ _ => trivial) hr
  rcases step_effect hinv hroom hs with ⟨hn, -⟩ | ⟨k, v, stored, u, he, hstored, hc, hws⟩
  · exact absurd trivial hn
  · cases he
    refine ⟨stored, hstored, hc, hc.versionNumber (hroom _ _ hstored), ?_, fun key hk => ?_⟩
    · rw [hws]
      exact Keyed.get?_set_self ..
    · rw [hws]
      exact Keyed.get?_set_of_ne hk ..

/-- A deployment of the namespace `shop`. -/
def shopWeb (replicas : Int) (version : String) : Workload where
  kind := .deployment
  metadata := { (default : ObjectMeta) with
    name := some "web", ns := some "shop", resourceVersion := some version }
  spec := some ⟨some replicas, []⟩
  status := none

def shopJob (direction : Pass.Direction) : Job :=
  ⟨direction, ⟨"web", "shop", "Deployment", "apps/v1"⟩⟩

def shopStore (replicas : Int) (version : String) : MemoryStore :=
  MemoryStore.empty.put (shopWeb replicas version)

theorem raises_shop :
    Raises (fun _ _ => True) (shopStore 3 "1").workloads (shopStore 5 "2").workloads := by
  have hw : (shopStore 3 "1").workloads.get? "shop/web" = some (shopWeb 3 "1") := rfl
  have hv : versionNumber (shopWeb 3 "1") < versionNumber (shopWeb 5 "2") := by decide
  exact raises_set hw hv trivial

/-- Two jobs that scale the deployment down. -/
def shopStart : World Bool := World.start (fun _ => shopJob .down) (shopStore 3 "1")

/-- The deployment was edited between the fetches of the two jobs. -/
def shopEdited : World Bool := World.answer ⟨shopStore 5 "2", (shopStart.answer false).rest⟩ true

theorem write_changes_current_shop :
    ∃ events, Run (fun _ _ => True) shopStart events shopEdited ∧ HasRoom shopEdited.store ∧
      ∃ updated, Step (fun _ _ => True) shopEdited
          (.call true (.replace (shopJob .down).target ((shopWeb 5 "2").annotate memoryKey "5"))
            (.ok updated)) (shopEdited.answer true) ∧
        ∃ stored, shopEdited.store.workloads.get? "shop/web" = some stored ∧
          Change .down stored updated ∧ versionNumber updated = versionNumber stored + 1 ∧
          (shopEdited.answer true).store.workloads.get? "shop/web" = some updated ∧
          ∀ key, key ≠ "shop/web" →
            (shopEdited.answer true).store.workloads.get? key =
              shopEdited.store.workloads.get? key := by
  have h3 : HasRoom (shopStore 3 "1") := hasRoom_of_forall (by decide)
  have h5 : HasRoom (shopStore 5 "2") := hasRoom_of_forall (by decide)
  have hfetch : Step (fun _ _ => True) shopStart _ (shopStart.answer false) :=
    step_answer (i := false) rfl
  have hedit : Step (fun _ _ => True) (shopStart.answer false) .outside
      ⟨shopStore 5 "2", (shopStart.answer false).rest⟩ :=
    .outside ⟨raises_shop, fun _ _ _ => trivial⟩
  have hr := ((Run.nil.step h3 hfetch).step h3 hedit).step h5 (step_answer (i := true) rfl)
  have hs : Step (fun _ _ => True) shopEdited _ (shopEdited.answer true) :=
    step_answer (i := true) rfl
  exact ⟨_, hr, h5, _, hs, write_changes_current hr h5 hs⟩

end ScheduledScaling.Interleaving
