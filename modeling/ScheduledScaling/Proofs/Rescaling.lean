import ScheduledScaling.Proofs.Independence
/-!
# Scaling again

A workload that has been scaled is only fetched when the same scaling is asked for again
(`Scaling.runs_scale_again`). So the scaling of a pass that is run again at the same instant leaves the
workloads as they are, and records the same: `Pass.scales_again`.
-/
namespace ScheduledScaling

open Pass Program MemoryStore

/-! ## One workload -/

namespace Scaling
variable {direction : Direction} {target : Target} {before after : MemoryStore}
  {trace : List Exchange} {w : Workload} {r : Except Failure ScaleOutcome}

/-- A workload that a scaling has left needs no write to be scaled in this direction again. -/
theorem afterFetch_of_leaves {found : Workload} (h : Leaves found w direction) :
    afterFetch direction target w = .done (.ok (.unchanged w.replicas)) := by
  cases direction with
  | down =>
    obtain ⟨hzero, hmemory⟩ := h
    change record target w = _
    unfold record zero
    rw [hmemory, hzero]
    rfl
  | up =>
    obtain ⟨-, hcount⟩ := h
    obtain ⟨value, hvalue, hread⟩ := Option.bind_eq_some_iff.1 hcount
    change restore target w = _
    unfold restore remembered
    rw [hvalue]
    dsimp only
    rw [hread]
    exact if_pos rfl

/-- A last write that gets through does not fail. -/
theorem not_failed_of_write {e : Failure} {outcome : ScaleOutcome}
    (h : Runs (.call (.replace target w) (finish outcome)) trace (.ok (.error e)))
    (hserved : ∀ x ∈ trace, x.failure? = none) : False := by
  obtain ⟨answer, rest, rfl, hrest⟩ := runs_call.1 h
  have hanswer := hserved _ List.mem_cons_self
  cases answer with
  | error e => cases hanswer
  | ok w => cases (runs_done.1 hrest).2

theorem not_failed_of_zero {e : Failure} {count : Int}
    (h : Runs (zero target count w) trace (.ok (.error e)))
    (hserved : ∀ x ∈ trace, x.failure? = none) : False := by
  unfold zero at h
  split at h
  · cases (runs_done.1 h).2
  · exact not_failed_of_write h hserved

/-- A scaling that fails although no call does has found no count to restore, and writes nothing. -/
theorem failed_of_afterFetch {e : Failure}
    (h : Runs (afterFetch direction target w) trace (.ok (.error e)))
    (hserved : ∀ x ∈ trace, x.failure? = none) :
    trace = [] ∧ afterFetch direction target w = .done (.error e) := by
  cases direction with
  | down =>
    change Runs (record target w) _ _ at h
    unfold record at h
    split at h
    · exact (not_failed_of_zero h hserved).elim
    · obtain ⟨answer, rest, rfl, hrest⟩ := runs_call.1 h
      obtain ⟨hanswer, hlater⟩ := List.forall_mem_cons.1 hserved
      cases answer with
      | error e => cases hanswer
      | ok v => exact (not_failed_of_zero hrest hlater).elim
  | up =>
    change Runs (restore target w) _ _ at h
    change _ ∧ restore target w = _
    unfold restore at h ⊢
    cases hmemory : remembered target w with
    | error e' =>
      rw [hmemory] at h
      obtain ⟨rfl, hr⟩ := runs_done.1 h
      cases hr
      exact ⟨rfl, rfl⟩
    | ok count =>
      rw [hmemory] at h
      dsimp only at h
      split at h
      · cases (runs_done.1 h).2
      · exact (not_failed_of_write h hserved).elim

/-- What a scaling none of whose calls has failed leaves to be done when it is asked for again: it
fails in the same way, or finds the replicas that it has left. -/
theorem settled_of_scale (h : Runs (direction.scale target).run trace (.ok r))
    (hcalls : Undisturbed (workloadKey target.ns target.name) before trace after)
    (hserved : ∀ x ∈ trace, x.failure? = none) :
    ∃ w, after.workload? target.ns target.name = some w ∧
      (∀ outcome, r = .ok outcome → w.replicas = outcome.replicas) ∧
      afterFetch direction target w = .done (r.map fun _ => .unchanged w.replicas) := by
  cases r with
  | ok outcome =>
    obtain ⟨found, w, -, hw, hreplicas, hleaves⟩ := stored_of_scale h hcalls
    refine ⟨w, hw, fun outcome' ho => ?_, afterFetch_of_leaves hleaves⟩
    obtain rfl := Except.ok.inj ho
    exact hreplicas
  | error e =>
    rw [scale_run] at h
    obtain ⟨answer, rest, rfl, hrest⟩ := runs_call.1 h
    have hanswer := hserved _ List.mem_cons_self
    cases answer with
    | error e => cases hanswer
    | ok w =>
      obtain ⟨-, store, hstore, hend⟩ := hcalls.of_fetch
      obtain ⟨rfl, hdone⟩ :=
        failed_of_afterFetch hrest fun x hx => hserved x (List.mem_cons_of_mem _ hx)
      cases hend with
      | nil hquiet => exact ⟨w, hquiet.stored.trans hstore, nofun, hdone⟩

/-- A scaling that is asked for again only fetches. -/
theorem runs_scale_again {r' : Except Overflow (Except Failure ScaleOutcome)}
    (h : Runs (direction.scale target).run trace r')
    (hcalls : Undisturbed (workloadKey target.ns target.name) before trace after)
    (hserved : ∀ x ∈ trace, x.failure? = none)
    (hw : before.workload? target.ns target.name = some w)
    (hdone : afterFetch direction target w = .done r) :
    trace = [⟨.fetch target, .ok w⟩] ∧ r' = .ok r := by
  rw [scale_run] at h
  obtain ⟨answer, rest, rfl, hrest⟩ := runs_call.1 h
  have hanswer := hserved _ List.mem_cons_self
  cases answer with
  | error e => cases hanswer
  | ok found =>
    obtain ⟨hfound, -⟩ := hcalls.of_fetch
    obtain rfl := Option.some.inj (hw.symm.trans hfound)
    change Runs (afterFetch direction target w) rest r' at hrest
    rw [hdone] at hrest
    obtain ⟨rfl, rfl⟩ := runs_done.1 hrest
    exact ⟨rfl, rfl⟩

end Scaling

/-! ## Edits that wait -/

section
variable {α : Type} {store : MemoryStore}

/-- No edit waits in a store after a program if none did before. -/
theorem race_run (p : Program α) (h : store.race = none) : (p.run handler store).2.race = none := by
  induction p generalizing store with
  | done a => exact h
  | abort e => exact h
  | call c next ih =>
    refine ih _ (Option.eq_none_iff_forall_not_mem.2 fun e he => ?_)
    have hnone : ∀ e' ∈ store.race, workloadKey e'.ns e'.name ≠ workloadKey e.ns e.name := by simp [h]
    exact race_handler c hnone e he rfl

/-- A fetch that gets through makes the edit that waits for it. -/
theorem race_fetch {target : Target} {w : Workload} (h : (fetch target store).1 = .ok w) :
    (fetch target store).2.race = none := by
  have hrelease (store : MemoryStore) : store.releaseRace.race = none := by
    unfold releaseRace
    split <;> trivial
  unfold fetch at h ⊢
  split at h
  · cases h
  · dsimp only at h ⊢
    split <;> exact hrelease _

/-- No edit waits in a store after a program that begins with such a fetch. -/
theorem race_run_of_fetch {p : Program α} {target : Target} {w : Workload} {rest : List Exchange}
    (h : p.trace handler store = ⟨.fetch target, .ok w⟩ :: rest) :
    (p.run handler store).2.race = none := by
  cases p with
  | done a => cases h
  | abort e => cases h
  | call c next =>
    obtain ⟨hfirst, -⟩ := List.cons.inj h
    obtain ⟨rfl, hanswer⟩ := Exchange.mk.inj hfirst
    exact race_run (next (fetch target store).1) (race_fetch (eq_of_heq hanswer))

/-- A program that replaces no workload, over a store in which no edit waits, leaves them all alone. -/
theorem workloads_run (p : Program α) (h : store.race = none)
    (hp : ∀ x ∈ p.trace handler store, ¬ x.call.IsReplace) (key : String) :
    (p.run handler store).2.workloads.get? key = store.workloads.get? key := by
  have hnone : ∀ e ∈ store.race, workloadKey e.ns e.name ≠ key := by simp [h]
  exact (undisturbed_trace p hnone).stored_eq hp

/-- A program that makes no call leaves the store alone. -/
theorem run_of_trace_nil {p : Program α} (h : p.trace handler store = []) :
    (p.run handler store).2 = store := by
  cases p with
  | done a => rfl
  | abort e => rfl
  | call c next => cases h

end

/-! ## The step -/

namespace Pass
variable {s : Schedule} {z : Zone} {now : Instant} {trace : List Exchange}
  {scaled scaled' : Progress} {σ τ : MemoryStore}

/-- A pass that plans no scaling makes no call about workloads. -/
theorem trace_of_not_plans {spec : ScheduleSpec} {status : ScheduleStatus} {progress : Progress}
    {r : Except Overflow Progress} (h : Runs (runScaling spec z status now progress) trace r)
    (hnot : ∀ target direction supersedes,
      ¬ Plans spec z status now target direction supersedes) : trace = [] := by
  unfold runScaling at h
  cases htarget : spec.target with
  | none =>
    rw [htarget] at h
    exact (runs_pure.1 h).1
  | some target =>
    rw [htarget] at h
    rcases runs_lift_bind.1 h with ⟨plan, hplan, h⟩ | ⟨x, -, htrace, -⟩
    · cases hdirection : directionOf plan with
      | none =>
        rw [hdirection] at h
        exact (runs_pure.1 h).1
      | some found =>
        exact absurd ⟨htarget, plan, hplan, hdirection⟩ (hnot target found.1 found.2)
    · exact htrace

/-- A planned scaling that is run again over the workload that it has left, with no call failing:
it writes nothing, and puts the same into the status. -/
theorem scales_again_of_plans {target : Target} {direction : Direction} {supersedes : Bool}
    {σ' τ' : MemoryStore} {trace' : List Exchange}
    (hplans : Plans s.spec z s.recorded now target direction supersedes)
    (hrun : Runs (scalingOf s z now) trace (.ok scaled))
    (hcalls : Undisturbed (workloadKey target.ns target.name) σ trace σ')
    (hserved : ∀ x ∈ trace, x.failure? = none)
    (hsame : τ.workload? target.ns target.name = σ'.workload? target.ns target.name)
    (hrun' : Runs (scalingOf s z now) trace' (.ok scaled'))
    (hcalls' : Undisturbed (workloadKey target.ns target.name) τ trace' τ')
    (hserved' : ∀ x ∈ trace', x.failure? = none) :
    scaled'.patch = scaled.patch ∧ scaled'.succeeded = scaled.succeeded ∧
      ∀ x ∈ trace', ¬ x.call.IsReplace := by
  rcases runs_runScaling hrun with ⟨-, hnot⟩ | ⟨_, _, _, first, rest, hplans₁, rfl, hresult⟩
  · exact absurd hplans (hnot _ _ _)
  rcases runs_runScaling hrun' with ⟨-, hnot⟩ | ⟨_, _, _, first', rest', hplans₂, rfl, hresult'⟩
  · exact absurd hplans (hnot _ _ _)
  obtain ⟨rfl, rfl, rfl⟩ := hplans.unique hplans₁
  obtain ⟨rfl, rfl, rfl⟩ := hplans.unique hplans₂
  obtain ⟨middle, hfirst, hrest⟩ := hcalls.of_append
  obtain ⟨middle', hfirst', hrest'⟩ := hcalls'.of_append
  have hserves : ∀ x ∈ first, x.failure? = none := fun x hx => hserved x (List.mem_append_left _ hx)
  have hserves' : ∀ x ∈ first', x.failure? = none :=
    fun x hx => hserved' x (List.mem_append_left _ hx)
  have hfetch {w : Workload} : ∀ x ∈ [(⟨.fetch target, .ok w⟩ : Exchange)], ¬ x.call.IsReplace := by
    intro x hx
    obtain rfl := List.mem_singleton.1 hx
    exact id
  rcases hresult with ⟨e, hscale, rfl, rfl⟩ | ⟨outcome, replicas, hscale, hobserved, rfl⟩
  · -- there is no count to restore, and there is none again
    obtain ⟨w, hw, -, hdone⟩ := Scaling.settled_of_scale hscale hfirst hserves
    have hkept := hrest.stored_eq fun x hx => absurd hx List.not_mem_nil
    have hfound := hsame.trans (hkept.trans hw)
    rcases hresult' with ⟨e', hscale', rfl, rfl⟩ | ⟨_, _, hscale', -, rfl⟩
    · obtain ⟨rfl, hr⟩ := Scaling.runs_scale_again hscale' hfirst' hserves' hfound hdone
      cases hr
      rw [List.append_nil]
      exact ⟨rfl, rfl, hfetch⟩
    · obtain ⟨-, hr⟩ := Scaling.runs_scale_again hscale' hfirst' hserves' hfound hdone
      cases hr
  · -- the replicas are those that the first run has left, and that both runs observe
    obtain ⟨w, hw, hreplicas, hdone⟩ := Scaling.settled_of_scale hscale hfirst hserves
    have hkept := hrest.stored_eq (not_replace_of_observed hobserved)
    have hfound := hsame.trans (hkept.trans hw)
    rcases hresult' with ⟨e', hscale', rfl, rfl⟩ | ⟨outcome', replicas', hscale', hobserved', rfl⟩
    · obtain ⟨-, hr⟩ := Scaling.runs_scale_again hscale' hfirst' hserves' hfound hdone
      cases hr
    · obtain ⟨rfl, hr⟩ := Scaling.runs_scale_again hscale' hfirst' hserves' hfound hdone
      cases hr
      obtain rfl := observed_eq hobserved hrest hw (hreplicas outcome rfl)
      obtain rfl := observed_eq hobserved' hrest' ((hfirst'.stored_eq hfetch).trans hfound) rfl
      refine ⟨rfl, rfl, fun x hx => ?_⟩
      exact (List.mem_append.1 hx).elim (hfetch x) (not_replace_of_observed hobserved' x)

/-- No edit of the workload that a schedule scales waits in a store. -/
def Unedited (s : Schedule) (σ : MemoryStore) : Prop :=
  ∀ target, s.spec.target = some target →
    ∀ e ∈ σ.race, workloadKey e.ns e.name ≠ workloadKey target.ns target.name

/-- A planned scaling begins with a fetch of the workload. -/
theorem exists_fetch_of_plans {target : Target} {direction : Direction} {supersedes : Bool}
    (hplans : Plans s.spec z s.recorded now target direction supersedes)
    (hrun : Runs (scalingOf s z now) trace (.ok scaled)) (hserved : ∀ x ∈ trace, x.failure? = none) :
    ∃ w rest, trace = ⟨.fetch target, .ok w⟩ :: rest := by
  rcases runs_runScaling hrun with ⟨-, hnot⟩ | ⟨_, _, _, first, observed, hplans', rfl, hresult⟩
  · exact absurd hplans (hnot _ _ _)
  obtain ⟨rfl, rfl, rfl⟩ := hplans.unique hplans'
  obtain ⟨r, hscale⟩ : ∃ r, Runs (direction.scale target).run first r := by
    rcases hresult with ⟨e, hscale, -⟩ | ⟨outcome, replicas, hscale, -⟩
    · exact ⟨_, hscale⟩
    · exact ⟨_, hscale⟩
  rw [Scaling.scale_run] at hscale
  obtain ⟨answer, rest, rfl, -⟩ := runs_call.1 hscale
  have hanswer := hserved _ (List.mem_append_left _ List.mem_cons_self)
  cases answer with
  | error e => cases hanswer
  | ok w => exact ⟨w, _, rfl⟩

/-- The scaling of a pass that is run again, over the workloads that it has left: it leaves them as
they are, and puts the same into the status. No call fails in both runs. -/
theorem scales_again (hscaled : ((scalingOf s z now).run handler σ).1 = .ok scaled)
    (hrace : Unedited s σ) (hserved : ∀ x ∈ (scalingOf s z now).trace handler σ, x.failure? = none)
    (hside : τ.workloadSide = ((scalingOf s z now).run handler σ).2.workloadSide)
    (hscaled' : ((scalingOf s z now).run handler τ).1 = .ok scaled')
    (hserved' : ∀ x ∈ (scalingOf s z now).trace handler τ, x.failure? = none) :
    scaled'.patch = scaled.patch ∧ scaled'.succeeded = scaled.succeeded ∧
      (∀ x ∈ (scalingOf s z now).trace handler τ, ¬ x.call.IsReplace) ∧
      ∀ key, ((scalingOf s z now).run handler τ).2.workloads.get? key = τ.workloads.get? key := by
  have hrun := runs_trace handler (scalingOf s z now) σ
  have hrun' := runs_trace handler (scalingOf s z now) τ
  rw [hscaled] at hrun
  rw [hscaled'] at hrun'
  rcases runs_runScaling hrun with ⟨rfl, hnot⟩ | ⟨target, direction, supersedes, _, _, hplans, -, -⟩
  · -- nothing is planned, again
    have hnone := trace_of_not_plans hrun' hnot
    rcases runs_runScaling hrun' with ⟨rfl, -⟩ | ⟨target, direction, supersedes, _, _, hplans, -⟩
    · exact ⟨rfl, rfl, by simp [hnone], fun key => by rw [run_of_trace_nil hnone]⟩
    · exact absurd hplans (hnot target direction supersedes)
  · -- after the first fetch no edit waits
    obtain ⟨w, rest, htrace⟩ := exists_fetch_of_plans hplans hrun hserved
    have hwaits : τ.race = none :=
      (congrArg WorkloadSide.race hside).trans (race_run_of_fetch htrace)
    have hsame : τ.workloads = ((scalingOf s z now).run handler σ).2.workloads :=
      congrArg WorkloadSide.workloads hside
    obtain ⟨hpatch, hsucceeded, hreplaces⟩ := scales_again_of_plans hplans hrun
      (undisturbed_trace _ (hrace target hplans.1)) hserved
      (congrArg (·.get? (workloadKey target.ns target.name)) hsame) hrun'
      (undisturbed_trace _ (by simp [hwaits])) hserved'
    exact ⟨hpatch, hsucceeded, hreplaces, workloads_run _ hwaits hreplaces⟩

end Pass

end ScheduledScaling
