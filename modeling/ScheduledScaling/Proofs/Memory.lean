import ScheduledScaling.Proofs.Interleaving
/-!
# The count of replicas is remembered once

Scalings share a workload that has no count recorded yet, and edits from outside leave the recorded
count alone. `Fresh` holds until a job writes for the first time: until then every copy is without a
count, so that write records the count of its moment. `Recorded` holds from then on: the workload
keeps that count, and copies from before are outdated. `memory_is_kept` puts both together.
-/
namespace ScheduledScaling.Interleaving

open Scaling (memoryKey)

variable {ι : Type} [DecidableEq ι]

/-- A number of replicas: 32 bits, not negative. -/
def IsCount (n : Int) : Prop := 0 ≤ n ∧ n ≤ Word.high32

instance (n : Int) : Decidable (IsCount n) := inferInstanceAs (Decidable (_ ∧ _))

/-- An edit that leaves the recorded count alone, and the replicas a count. -/
def KeepsMemory (w w' : Workload) : Prop :=
  w'.annotation? memoryKey = w.annotation? memoryKey ∧ (IsCount w.replicas → IsCount w'.replicas)

variable {jobs : ι → Job} {key : String}

/-- The workload of a key has a count recorded. -/
def HasMemory (ws : Keyed Workload) (key : String) (n : Int) : Prop :=
  ∃ w, ws.get? key = some w ∧ w.annotation? memoryKey = some (toString n)

theorem remembered_of_memory {target : Target} {copy : Workload} {n : Int} (hn : IsCount n)
    (h : copy.annotation? memoryKey = some (toString n)) :
    Scaling.remembered target copy = .ok n := by
  rw [Scaling.remembered, h]
  simp only [Scaling.readMemory_toString hn.1 hn.2]

theorem Pending.mono {P P' : Workload → Prop} {Q Q' : Except Failure ScaleOutcome → Prop}
    {ws : Keyed Workload} {j : Job} {p : Program (Except Failure ScaleOutcome)}
    (hP : ∀ w, P w → P' w) (hQ : ∀ r, Q r → Q' r) (h : Pending P Q ws j p) :
    Pending P' Q' ws j p := by
  cases h with
  | fetching => exact .fetching
  | recording hd hh hp ha => exact .recording hd hh (hP _ hp) ha
  | zeroing hd hh hp ha => exact .zeroing hd hh (hP _ hp) ha
  | restoring hd hh hp hm => exact .restoring hd hh (hP _ hp) hm
  | ended hq => exact .ended (hQ _ hq)

/-! ## Before the first write -/

/-- No count is recorded, and no job has succeeded. -/
structure Fresh (jobs : ι → Job) (key : String) (w : World ι) : Prop where
  stored : ∃ v, w.store.workloads.get? key = some v ∧ v.annotation? memoryKey = none ∧
    IsCount v.replicas
  inv : Inv KeepsMemory jobs (fun _ v => v.annotation? memoryKey = none)
    (fun _ r => ∃ e, r = .error e) w

theorem ends_fresh (j : Job) :
    Ends (fun v => v.annotation? memoryKey = none) (fun r => ∃ e, r = .error e) j where
  failure e _ := ⟨e, rfl⟩
  memory _ e _ _ _ := ⟨e, rfl⟩
  success copy _ hnone hsome := by
    rw [hnone] at hsome
    cases hsome

theorem fresh_step {w w' : World ι} {event : Event ι} (hkey : ∀ i, (jobs i).key = key)
    (h : Fresh jobs key w) (hroom : HasRoom w.store) (hs : Step KeepsMemory w event w')
    (hn : ¬ event.IsWrite) : Fresh jobs key w' := by
  obtain ⟨v, hv, hnone, hcount⟩ := h.stored
  rcases step_effect h.inv hroom hs with ⟨-, hr⟩ | ⟨i, value, stored, updated, rfl, -⟩
  · refine ⟨?_, step_inv (fun i => ends_fresh (jobs i)) h.inv hroom hs ?_⟩
    · rcases hr key with he | ⟨x, x', hx, hx', -, hmem, hrep⟩
      · exact ⟨v, he ▸ hv, hnone, hcount⟩
      · rw [hv] at hx
        obtain rfl := Option.some.inj hx
        exact ⟨x', hx', hmem ▸ hnone, hrep hcount⟩
    · rintro i x (hx | ⟨hw, -⟩)
      · rw [hkey i, hv] at hx
        obtain rfl := Option.some.inj hx
        exact hnone
      · exact absurd hw hn
  · exact absurd trivial hn

theorem fresh_of_run {store : MemoryStore} {v : Workload} (hkey : ∀ i, (jobs i).key = key)
    (hwait : WaitingEdit KeepsMemory store) (hv : store.workloads.get? key = some v)
    (hnone : v.annotation? memoryKey = none) (hcount : IsCount v.replicas) {events : List (Event ι)}
    {w : World ι} (hr : Run KeepsMemory (World.start jobs store) events w)
    (hn : ∀ event ∈ events, ¬ event.IsWrite) : Fresh jobs key w := by
  induction hr with
  | nil => exact ⟨⟨v, hv, hnone, hcount⟩, inv_start hwait⟩
  | step _ hroom hs ih =>
    have hbefore := ih fun event he => hn event (List.mem_append_left _ he)
    exact fresh_step hkey hbefore hroom hs (hn _ (by simp))

/-! ## From the first write on -/

/-- The count `n` is recorded. Jobs that fetched earlier may hold copies without it; all others
end in no failure of memory. -/
structure Recorded (jobs : ι → Job) (key : String) (n : Int) (early : ι → Prop) (w : World ι) :
    Prop where
  stored : HasMemory w.store.workloads key n
  inv : Inv KeepsMemory jobs
    (fun i v => v.annotation? memoryKey = some (toString n) ∨
      early i ∧ v.annotation? memoryKey = none)
    (fun i r => early i ∨ ∀ e, r = .error e → IsStoreFailure e) w

theorem ends_recorded {n : Int} (hn : IsCount n) {early : Prop} (j : Job) :
    Ends (fun v => v.annotation? memoryKey = some (toString n) ∨
        early ∧ v.annotation? memoryKey = none)
      (fun r => early ∨ ∀ e, r = .error e → IsStoreFailure e) j where
  failure e he := .inr fun e' h => by
    cases h
    exact he
  memory copy e _ hp hm := by
    rcases hp with hp | ⟨hearly, -⟩
    · rw [remembered_of_memory hn hp] at hm
      cases hm
    · exact .inl hearly
  success _ _ _ _ := .inr fun e h => by cases h

/-- The first write records the count that is stored. -/
theorem recorded_of_write {w w' : World ι} {event : Event ι} (hkey : ∀ i, (jobs i).key = key)
    (h : Fresh jobs key w) (hroom : HasRoom w.store) (hs : Step KeepsMemory w event w')
    (hevent : event.IsWrite) :
    ∃ v, w.store.workloads.get? key = some v ∧ IsCount v.replicas ∧
      Recorded jobs key v.replicas (fun i => w'.rest i ≠ (jobs i).program) w' := by
  obtain ⟨v, hv, hnone, hcount⟩ := h.stored
  refine ⟨v, hv, hcount, ?_⟩
  rcases step_effect h.inv hroom hs with ⟨hn, -⟩ | ⟨i, value, stored, updated, rfl, hstored, hc, hws⟩
  · exact absurd hevent hn
  rw [hkey i] at hstored hws
  rw [hv] at hstored
  obtain rfl := Option.some.inj hstored
  have hupdated : updated.annotation? memoryKey = some (toString v.replicas) := by
    generalize (jobs i).direction = direction at hc
    cases hc with
    | recorded _ => simp
    | zeroed hsome =>
      rw [hnone] at hsome
      cases hsome
    | restored hsome _ =>
      rw [hnone] at hsome
      cases hsome
  have hset : w'.store.workloads.get? key = some updated := by
    rw [hws]
    exact Keyed.get?_set_self ..
  -- Every job is treated as early first: the write itself may outdate any copy.
  have hinv : Inv KeepsMemory jobs
      (fun _ x => x.annotation? memoryKey = some (toString v.replicas) ∨
        True ∧ x.annotation? memoryKey = none)
      (fun _ r => True ∨ ∀ e, r = .error e → IsStoreFailure e) w' := by
    refine step_inv (fun k => ends_recorded hcount (jobs k)) ⟨h.inv.waiting, fun k => ?_⟩ hroom hs ?_
    · exact (h.inv.pending k).mono (fun x hx => .inr ⟨trivial, hx⟩) fun _ _ => .inl trivial
    · rintro k x (hx | ⟨-, hx⟩)
      · rw [hkey k, hv] at hx
        obtain rfl := Option.some.inj hx
        exact .inr ⟨trivial, hnone⟩
      · rw [hkey k, hset] at hx
        obtain rfl := Option.some.inj hx
        exact .inl hupdated
  refine ⟨⟨updated, hset, hupdated⟩, hinv.waiting, fun k => ?_⟩
  by_cases hk : w'.rest k = (jobs k).program
  · -- A job that has not begun holds no copy yet.
    rw [hk, Job.program, Scaling.scale_run]
    exact .fetching
  · exact (hinv.pending k).mono (fun x hx => hx.imp_right fun hx => ⟨hk, hx.2⟩) fun _ _ => .inl hk

theorem change_keeps_memory {direction : Pass.Direction} {w w' : Workload} {n : Int}
    (h : Change direction w w') (hw : w.annotation? memoryKey = some (toString n)) :
    w'.annotation? memoryKey = some (toString n) := by
  cases h with
  | recorded hnone =>
    rw [hw] at hnone
    cases hnone
  | zeroed _ => simpa using hw
  | restored _ _ => simpa using hw

theorem recorded_step {w w' : World ι} {event : Event ι} {n : Int} {early : ι → Prop}
    (hkey : ∀ i, (jobs i).key = key) (hn : IsCount n) (h : Recorded jobs key n early w)
    (hroom : HasRoom w.store) (hs : Step KeepsMemory w event w') :
    Recorded jobs key n early w' := by
  obtain ⟨v, hv, hmem⟩ := h.stored
  have hstored : HasMemory w'.store.workloads key n := by
    rcases step_effect h.inv hroom hs with ⟨-, hr⟩ | ⟨i, value, x, updated, -, hx, hc, hws⟩
    · rcases hr key with he | ⟨x, x', hx, hx', -, hkeep, -⟩
      · exact ⟨v, he ▸ hv, hmem⟩
      · rw [hv] at hx
        obtain rfl := Option.some.inj hx
        exact ⟨x', hx', hkeep ▸ hmem⟩
    · rw [hkey i] at hx hws
      rw [hv] at hx
      obtain rfl := Option.some.inj hx
      refine ⟨updated, ?_, change_keeps_memory hc hmem⟩
      rw [hws]
      exact Keyed.get?_set_self ..
  refine ⟨hstored, step_inv (fun i => ends_recorded hn (jobs i)) h.inv hroom hs ?_⟩
  obtain ⟨v', hv', hmem'⟩ := hstored
  rintro i x (hx | ⟨-, hx⟩)
  · rw [hkey i, hv] at hx
    obtain rfl := Option.some.inj hx
    exact .inl hmem
  · rw [hkey i, hv'] at hx
    obtain rfl := Option.some.inj hx
    exact .inl hmem'

theorem recorded_of_run {first w : World ι} {events : List (Event ι)} {n : Int} {early : ι → Prop}
    (hkey : ∀ i, (jobs i).key = key) (hn : IsCount n) (h : Recorded jobs key n early first)
    (hr : Run KeepsMemory first events w) : Recorded jobs key n early w := by
  induction hr with
  | nil => exact h
  | step _ hroom hs ih => exact recorded_step hkey hn ih hroom hs

/-! ## What scaling up comes to -/

/-- The last call of a job that succeeds finds the replicas that its outcome tells, or stores
them. -/
def FindsOrLeaves (key : String) (before after : World ι) (c : StoreCall) (n : Int) : Prop :=
  ∃ w, w.replicas = n ∧
    ((∃ target, c = .fetch target) ∧ before.store.workloads.get? key = some w ∨
      (∃ target value, c = .replace target value) ∧ after.store.workloads.get? key = some w)

/-- A copy that scaling up can go on from has the recorded count. -/
theorem eq_of_remembered {target : Target} {copy : Workload} {n count : Int} {early : Prop}
    (hn : IsCount n)
    (hp : copy.annotation? memoryKey = some (toString n) ∨
      early ∧ copy.annotation? memoryKey = none)
    (hm : Scaling.remembered target copy = .ok count) : count = n := by
  rcases hp with hp | ⟨-, hp⟩
  · rw [remembered_of_memory hn hp] at hm
    exact (Except.ok.inj hm).symm
  · rw [Scaling.remembered, hp] at hm
    cases hm

/-- Scaling up ends right after its fetch only if the copy has the recorded count. -/
theorem restore_done {target : Target} {copy : Workload} {n : Int} {outcome : ScaleOutcome}
    (hn : IsCount n) (hmem : copy.annotation? memoryKey = some (toString n))
    (hd : Scaling.restore target copy = .done (.ok outcome)) :
    outcome.replicas = n ∧ copy.replicas = n := by
  unfold Scaling.restore at hd
  rw [remembered_of_memory hn hmem] at hd
  dsimp only at hd
  split at hd
  · rename_i heq
    cases hd
    exact ⟨rfl, heq⟩
  · cases hd

/-- Scaling up that succeeds has found the recorded count of replicas, or has left it. -/
theorem restored_of_step {w w' : World ι} {i : ι} {c : StoreCall} {answer : c.Answer} {n : Int}
    {early : ι → Prop} {outcome : ScaleOutcome} (hkey : ∀ i, (jobs i).key = key) (hn : IsCount n)
    (h : Recorded jobs key n early w) (hroom : HasRoom w.store)
    (hs : Step KeepsMemory w (.call i c answer) w') (hup : (jobs i).direction = .up)
    (hd : w'.rest i = .done (.ok outcome)) :
    outcome.replicas = n ∧ FindsOrLeaves key w w' c n := by
  have hp := h.inv.pending i
  cases hs with
  | @failed _ _ next e hrest _ =>
    rw [hrest] at hp
    simp only [Function.update_self] at hd
    cases hp <;> cases hd
  | @answered _ _ next _ store' hrest ha =>
    rw [hrest] at hp
    simp only [Function.update_self] at hd
    cases hp with
    | fetching =>
      obtain ⟨-, -, ⟨e, rfl, -⟩ | ⟨x, rfl, hx⟩⟩ := fetch_spec hroom h.inv.waiting ha
      · cases hd
      · obtain ⟨v, hv, hmem⟩ := h.stored
        replace hx : w.store.workloads.get? (jobs i).key = some x := hx
        rw [hkey i, hv] at hx
        obtain rfl := Option.some.inj hx
        rw [hup] at hd
        obtain ⟨ho, hr⟩ := restore_done hn hmem hd
        exact ⟨ho, v, hr, .inl ⟨⟨_, rfl⟩, hv⟩⟩
    -- Scaling up waits at neither of the writes of scaling down.
    | recording hdown _ _ _ =>
      rw [hup] at hdown
      cases hdown
    | zeroing hdown _ _ _ =>
      rw [hup] at hdown
      cases hdown
    | @restoring copy count _ _ hcopy hm =>
      obtain rfl := eq_of_remembered hn hcopy hm
      obtain ⟨-, ⟨e, rfl, -, -⟩ | ⟨stored, hstored, -, rfl, hws⟩⟩ := replace_spec ha
      · cases hd
      · cases hd
        refine ⟨rfl, (copy.setReplicas count).setResourceVersion (MemoryStore.nextVersion stored),
          rfl, .inr ⟨⟨_, _, rfl⟩, ?_⟩⟩
        rw [← hkey i, hws]
        exact Keyed.get?_set_self ..

/-- Let the workload have no count recorded at first, and let no edit from outside touch the
record. The first write of a job then records the replicas of that moment, and from then on: the
record stays; scaling up that begins later fails only for failures of the store; and scaling up
that succeeds has found exactly these replicas, or left them. Before that write scaling up does not
succeed. -/
theorem memory_is_kept {store : MemoryStore} {first : Workload} {before : List (Event ι)}
    {u u' : World ι} {event : Event ι} (hkey : ∀ i, (jobs i).key = key)
    (hwait : WaitingEdit KeepsMemory store) (hfirst : store.workloads.get? key = some first)
    (hnone : first.annotation? memoryKey = none) (hcount : IsCount first.replicas)
    (hbefore : Run KeepsMemory (World.start jobs store) before u)
    (hnowrite : ∀ event ∈ before, ¬ event.IsWrite) (hroom : HasRoom u.store)
    (hwrite : Step KeepsMemory u event u') (hevent : event.IsWrite) :
    (∀ i outcome, u.rest i ≠ .done (.ok outcome)) ∧
    ∃ stored, u.store.workloads.get? key = some stored ∧
      ∀ after v, Run KeepsMemory u' after v →
        HasMemory v.store.workloads key stored.replicas ∧
        (∀ i e, u'.rest i = (jobs i).program → v.rest i = .done (.error e) → IsStoreFailure e) ∧
        ∀ i c answer v' outcome, HasRoom v.store → Step KeepsMemory v (.call i c answer) v' →
          (jobs i).direction = .up → v'.rest i = .done (.ok outcome) →
          outcome.replicas = stored.replicas ∧ FindsOrLeaves key v v' c stored.replicas := by
  have hfresh := fresh_of_run hkey hwait hfirst hnone hcount hbefore hnowrite
  obtain ⟨stored, hstored, hn, hrecorded⟩ := recorded_of_write hkey hfresh hroom hwrite hevent
  refine ⟨fun i outcome hd => ?_, stored, hstored, fun after v hafter => ?_⟩
  · have hp := hfresh.inv.pending i
    rw [hd] at hp
    cases hp with
    | ended hq =>
      obtain ⟨e, he⟩ := hq
      cases he
  · have hv := recorded_of_run hkey hn hrecorded hafter
    refine ⟨hv.stored, fun i e hlate hd => ?_, fun i c answer v' outcome hr hs hup hd => ?_⟩
    · have hp := hv.inv.pending i
      rw [hd] at hp
      cases hp with
      | ended hq =>
        rcases hq with hearly | hq
        · exact absurd hlate hearly
        · exact hq e rfl
    · exact restored_of_step hkey hn hv hr hs hup hd

/-- One job scales a deployment down, the other one up. -/
def shopJobs (up : Bool) : Job := shopJob (if up then .up else .down)

/-- Both jobs have fetched the deployment. -/
def shopFetched : World Bool :=
  ((World.start shopJobs (shopStore 3 "1")).answer false).answer true

/-- The first write of the job that scales down. -/
def shopRecorded : World Bool := shopFetched.answer false

theorem memory_is_kept_shop :
    ∃ before event, Run KeepsMemory (World.start shopJobs (shopStore 3 "1")) before shopFetched ∧
      Step KeepsMemory shopFetched event shopRecorded ∧ event.IsWrite ∧
      (∀ i outcome, shopFetched.rest i ≠ .done (.ok outcome)) ∧
      ∃ stored, shopFetched.store.workloads.get? "shop/web" = some stored ∧
        ∀ after v, Run KeepsMemory shopRecorded after v →
          HasMemory v.store.workloads "shop/web" stored.replicas ∧
          (∀ i e, shopRecorded.rest i = (shopJobs i).program → v.rest i = .done (.error e) →
            IsStoreFailure e) ∧
          ∀ i c answer v' outcome, HasRoom v.store → Step KeepsMemory v (.call i c answer) v' →
            (shopJobs i).direction = .up → v'.rest i = .done (.ok outcome) →
            outcome.replicas = stored.replicas ∧
              FindsOrLeaves "shop/web" v v' c stored.replicas := by
  have hroom : HasRoom (shopStore 3 "1") := hasRoom_of_forall (by decide)
  have hdown : Step KeepsMemory (World.start shopJobs (shopStore 3 "1")) _
      ((World.start shopJobs (shopStore 3 "1")).answer false) := step_answer (i := false) rfl
  have hrun := (Run.nil.step hroom hdown).step hroom (step_answer (i := true) rfl)
  have hs : Step KeepsMemory shopFetched _ shopRecorded := step_answer (i := false) rfl
  have hstored : (shopStore 3 "1").workloads.get? "shop/web" = some (shopWeb 3 "1") := rfl
  refine ⟨_, _, hrun, hs, trivial, memory_is_kept (fun i => ?_) ?_ hstored rfl (by decide) hrun ?_
    hroom hs trivial⟩
  · cases i <;> rfl
  · intro e he
    cases he
  · rintro event he
    simp only [List.nil_append, List.cons_append, List.mem_cons, List.not_mem_nil, or_false] at he
    rcases he with rfl | rfl <;> exact id

end ScheduledScaling.Interleaving
