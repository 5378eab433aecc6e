import ScheduledScaling.Proofs.Rescaling
/-!
# A scaling that is tried until it is done

`Scaling.Try` is one try at a scaling while nobody else edits the workload, and `Scaling.Tries` are any
number of them in a row. Scaling down writes twice, so a try that fails can leave the first write behind
(`Scaling.IsBegun`); the next try goes on from there and ends with the same workload as one that never
failed, up to the version. A workload that is scaled already is left alone by every
further try: `scaling_is_repeatable`.
-/
namespace ScheduledScaling

open Pass Program MemoryStore

/-! ## Workloads up to their version -/

namespace Workload

/-- A workload without its version. -/
def unversioned (w : Workload) : Workload :=
  { w with metadata := { w.metadata with resourceVersion := none } }

/-- A workload with its count of replicas written on it, unless one is there. -/
def noted (w : Workload) : Workload :=
  match w.annotation? Scaling.memoryKey with
  | some _ => w
  | none => w.annotate Scaling.memoryKey (toString w.replicas)

/-- A workload with no replicas wanted. -/
def stopped (w : Workload) : Workload := if w.replicas = 0 then w else w.setReplicas 0

section
variable {a b w : Workload}

@[simp] theorem unversioned_setResourceVersion (v : String) (w : Workload) :
    (w.setResourceVersion v).unversioned = w.unversioned := rfl

theorem replicas_of_unversioned (h : a.unversioned = b.unversioned) : a.replicas = b.replicas := by
  change a.unversioned.replicas = b.unversioned.replicas
  rw [h]

theorem annotation?_of_unversioned (key : String) (h : a.unversioned = b.unversioned) :
    a.annotation? key = b.annotation? key := by
  change a.unversioned.annotation? key = b.unversioned.annotation? key
  rw [h]

theorem unversioned_stopped (h : a.unversioned = b.unversioned) :
    a.stopped.unversioned = b.stopped.unversioned := by
  have hset : (a.setReplicas 0).unversioned = (b.setReplicas 0).unversioned :=
    congrArg (setReplicas 0) h
  unfold stopped
  rw [replicas_of_unversioned h]
  split
  · exact h
  · exact hset

theorem noted_of_some {value : String} (h : w.annotation? Scaling.memoryKey = some value) :
    w.noted = w := by
  unfold noted
  rw [h]

theorem noted_of_none (h : w.annotation? Scaling.memoryKey = none) :
    w.noted = w.annotate Scaling.memoryKey (toString w.replicas) := by
  unfold noted
  rw [h]

theorem exists_annotation?_noted (w : Workload) :
    ∃ value, w.noted.annotation? Scaling.memoryKey = some value := by
  unfold noted
  split
  · exact ⟨_, ‹_›⟩
  · exact ⟨_, annotation?_annotate_self ..⟩

end

end Workload

/-! ## Writes that fail -/

/-- A replacement that fails changes no workload of the key. -/
theorem Undisturbed.of_failed_replace {key : String} {before after : MemoryStore} {target : Target}
    {w : Workload} {e : Failure} {trace : List Exchange}
    (h : Undisturbed key before (⟨.replace target w, .error e⟩ :: trace) after) :
    ∃ store, store.workloads.get? key = before.workloads.get? key ∧
      Undisturbed key store trace after := by
  obtain ⟨store, hquiet, ⟨hanswer, hrest⟩ | ⟨-, hrest⟩⟩ := h.of_cons
  · have hreplace : replace target w store = (.error e, (replace target w store).2) :=
      Prod.ext hanswer.symm rfl
    obtain ⟨-, ⟨_, -, -, hsame⟩ | ⟨_, -, -, hw, -⟩⟩ := Interleaving.replace_spec hreplace
    · exact ⟨_, (congrArg (Keyed.get? key) hsame).trans hquiet.stored, hrest⟩
    · cases hw
  · exact ⟨store, hquiet.stored, hrest⟩

/-! ## One call over a store -/

section
variable {α : Type} {target : Target} {w : Workload} {store store' : MemoryStore}
  {answer : Except Failure Workload} {next : Except Failure Workload → Program α}

theorem trace_fetch (h : fetch target store = (answer, store')) :
    trace handler (.call (.fetch target) next) store =
      ⟨.fetch target, answer⟩ :: (next answer).trace handler store' := by
  change ⟨.fetch target, (fetch target store).1⟩ ::
    trace handler (next (fetch target store).1) (fetch target store).2 = _
  rw [h]

theorem run_fetch (h : fetch target store = (answer, store')) :
    run handler (.call (.fetch target) next) store = (next answer).run handler store' := by
  change run handler (next (fetch target store).1) (fetch target store).2 = _
  rw [h]

theorem trace_replace (h : replace target w store = (answer, store')) :
    trace handler (.call (.replace target w) next) store =
      ⟨.replace target w, answer⟩ :: (next answer).trace handler store' := by
  change ⟨.replace target w, (replace target w store).1⟩ ::
    trace handler (next (replace target w store).1) (replace target w store).2 = _
  rw [h]

end

namespace Scaling
variable {direction : Direction} {target : Target} {before store after : MemoryStore}
  {trace : List Exchange} {result : Except Failure ScaleOutcome} {w v : Workload} {e : Failure}

/-! ## Tries -/

/-- One try at a scaling, from one store to another, with its calls and what it comes to. Nobody else
edits the workload meanwhile; each call is answered by the store or does not get through. -/
structure Try (direction : Direction) (target : Target) (before : MemoryStore)
    (trace : List Exchange) (result : Except Failure ScaleOutcome) (after : MemoryStore) : Prop where
  runs : Runs (direction.scale target).run trace (.ok result)
  calls : Undisturbed (workloadKey target.ns target.name) before trace after

/-- Any number of tries in a row that end in some way. -/
inductive Tries (direction : Direction) (target : Target)
    (ends : Except Failure ScaleOutcome → Prop) : MemoryStore → MemoryStore → Prop
  | none {before after : MemoryStore} : Quiet (workloadKey target.ns target.name) before after →
      Tries direction target ends before after
  | more {before store after : MemoryStore} {trace : List Exchange}
      {result : Except Failure ScaleOutcome} : Try direction target before trace result store →
      ends result → Tries direction target ends store after →
      Tries direction target ends before after

/-- A try that fails. -/
def Fails (result : Except Failure ScaleOutcome) : Prop := ∃ e, result = .error e

/-- A try fails at the fetch and changes nothing, or goes on from the workload that is stored. -/
theorem Try.cases (h : Try direction target before trace result after)
    (hw : before.workload? target.ns target.name = some w) :
    (∃ e, result = .error e ∧ trace = [⟨.fetch target, .error e⟩] ∧
      after.workload? target.ns target.name = some w) ∨
    ∃ rest store, trace = ⟨.fetch target, .ok w⟩ :: rest ∧
      store.workload? target.ns target.name = some w ∧
      Runs (afterFetch direction target w) rest (.ok result) ∧
      Undisturbed (workloadKey target.ns target.name) store rest after := by
  obtain ⟨hruns, hcalls⟩ := h
  rw [scale_run] at hruns
  obtain ⟨answer, rest, rfl, hrest⟩ := runs_call.1 hruns
  cases answer with
  | error e =>
    obtain ⟨rfl, hr⟩ := runs_done.1 hrest
    refine .inl ⟨e, Except.ok.inj hr, rfl, ?_⟩
    refine (hcalls.stored_eq fun x hx => ?_).trans hw
    obtain rfl := List.mem_singleton.1 hx
    exact id
  | ok found =>
    obtain ⟨hfound, store, hstore, hend⟩ := hcalls.of_fetch
    obtain rfl := Option.some.inj (hw.symm.trans hfound)
    exact .inr ⟨rest, store, rfl, hstore, hrest, hend⟩

/-! ## Scaling down that fails -/

/-- What tries at scaling a workload down can leave of it when they fail: the workload as it was, or
with the count written on it that was missing. -/
def IsBegun (w v : Workload) : Prop :=
  v = w ∨ w.annotation? memoryKey = none ∧ v.unversioned = w.noted.unversioned

/-- The last write leaves the stored copy as it was when it fails. -/
theorem stored_of_failed_write {outcome : ScaleOutcome} {copy : Workload}
    (h : Runs (.call (.replace target copy) (finish outcome)) trace (.ok (.error e)))
    (hw : before.workload? target.ns target.name = some w)
    (hcalls : Undisturbed (workloadKey target.ns target.name) before trace after) :
    after.workload? target.ns target.name = some w := by
  obtain ⟨answer, rest, rfl, hrest⟩ := runs_call.1 h
  cases answer with
  | ok _ => cases (runs_done.1 hrest).2
  | error e' =>
    obtain ⟨rfl, -⟩ := runs_done.1 hrest
    obtain ⟨store, hsame, hend⟩ := hcalls.of_failed_replace
    cases hend with
    | nil hquiet => exact hquiet.stored.trans (hsame.trans hw)

theorem stored_of_failed_zero {count : Int} {copy : Workload}
    (h : Runs (zero target count copy) trace (.ok (.error e)))
    (hw : before.workload? target.ns target.name = some w)
    (hcalls : Undisturbed (workloadKey target.ns target.name) before trace after) :
    after.workload? target.ns target.name = some w := by
  unfold zero at h
  split at h
  · cases (runs_done.1 h).2
  · exact stored_of_failed_write h hw hcalls

/-- A try at scaling down that fails leaves the workload as it was, or with its count written on
it. -/
theorem Try.isBegun_of_failed (h : Try .down target before trace (.error e) after)
    (hw : before.workload? target.ns target.name = some w) :
    ∃ v, after.workload? target.ns target.name = some v ∧ IsBegun w v := by
  rcases h.cases hw with ⟨_, -, -, hsame⟩ | ⟨rest, store, -, hstore, hrest, hend⟩
  · exact ⟨w, hsame, .inl rfl⟩
  · change Runs (record target w) rest _ at hrest
    unfold record at hrest
    split at hrest
    · exact ⟨w, stored_of_failed_zero hrest hstore hend, .inl rfl⟩
    · rename_i hmemory
      obtain ⟨answer, later, rfl, hlater⟩ := runs_call.1 hrest
      cases answer with
      | error e' =>
        obtain ⟨rfl, -⟩ := runs_done.1 hlater
        obtain ⟨store', hsame, hnil⟩ := hend.of_failed_replace
        cases hnil with
        | nil hquiet => exact ⟨w, hquiet.stored.trans (hsame.trans hstore), .inl rfl⟩
      | ok noted =>
        obtain ⟨⟨version, rfl⟩, store', hstore', hend'⟩ := hend.of_replace
        refine ⟨_, stored_of_failed_zero hlater hstore' hend', .inr ⟨hmemory, ?_⟩⟩
        rw [Workload.noted_of_none hmemory, Workload.unversioned_setResourceVersion]

theorem IsBegun.trans {u : Workload} (h : IsBegun w v) (h' : IsBegun v u) : IsBegun w u := by
  rcases h with rfl | ⟨hnone, hv⟩
  · exact h'
  · rcases h' with rfl | ⟨hnone', -⟩
    · exact .inr ⟨hnone, hv⟩
    · obtain ⟨value, hvalue⟩ := Workload.exists_annotation?_noted w
      rw [Workload.annotation?_of_unversioned memoryKey hv, hvalue] at hnone'
      cases hnone'

theorem Tries.isBegun (h : Tries .down target Fails before after)
    (hw : before.workload? target.ns target.name = some w) :
    ∃ v, after.workload? target.ns target.name = some v ∧ IsBegun w v := by
  induction h generalizing w with
  | none hquiet => exact ⟨w, hquiet.stored.trans hw, .inl rfl⟩
  | more htry hfails _ ih =>
    obtain ⟨e, rfl⟩ := hfails
    obtain ⟨v, hv, hbegun⟩ := htry.isBegun_of_failed hw
    obtain ⟨u, hu, hbegun'⟩ := ih hv
    exact ⟨u, hu, hbegun.trans hbegun'⟩

/-! ## Scaling down that succeeds -/

/-- A try that goes on from what failed tries have left has the same to write. -/
theorem IsBegun.unversioned_noted (h : IsBegun w v) : v.noted.unversioned = w.noted.unversioned := by
  rcases h with rfl | ⟨-, hv⟩
  · rfl
  · obtain ⟨value, hvalue⟩ := Workload.exists_annotation?_noted w
    rw [← Workload.annotation?_of_unversioned memoryKey hv] at hvalue
    rw [Workload.noted_of_some hvalue, hv]

/-- The end of scaling down, from a copy that is stored. -/
theorem unversioned_of_zero {outcome : ScaleOutcome}
    (h : Runs (zero target w.replicas w) trace (.ok (.ok outcome)))
    (hw : before.workload? target.ns target.name = some w)
    (hcalls : Undisturbed (workloadKey target.ns target.name) before trace after) :
    ∃ u, after.workload? target.ns target.name = some u ∧
      u.unversioned = w.stopped.unversioned := by
  unfold zero at h
  unfold Workload.stopped
  split at h
  · rename_i hzero
    obtain ⟨rfl, -⟩ := runs_done.1 h
    rw [if_pos hzero]
    cases hcalls with
    | nil hquiet => exact ⟨w, hquiet.stored.trans hw, rfl⟩
  · rename_i hsome
    obtain ⟨answer, rest, rfl, hrest⟩ := runs_call.1 h
    rw [if_neg hsome]
    cases answer with
    | error e => cases (runs_done.1 hrest).2
    | ok w' =>
      obtain ⟨rfl, -⟩ := runs_done.1 hrest
      obtain ⟨⟨version, rfl⟩, store, hstore, hend⟩ := hcalls.of_replace
      cases hend with
      | nil hquiet => exact ⟨_, hquiet.stored.trans hstore, rfl⟩

/-- A try at scaling down that succeeds leaves the workload with its count of before written on it
and no replicas wanted. -/
theorem Try.unversioned_of_ok {outcome : ScaleOutcome}
    (h : Try .down target before trace (.ok outcome) after)
    (hw : before.workload? target.ns target.name = some w) :
    ∃ u, after.workload? target.ns target.name = some u ∧
      u.unversioned = w.noted.stopped.unversioned := by
  rcases h.cases hw with ⟨_, hr, -, -⟩ | ⟨rest, store, -, hstore, hrest, hend⟩
  · cases hr
  · change Runs (record target w) rest _ at hrest
    unfold record at hrest
    split at hrest
    · rename_i hmemory
      rw [Workload.noted_of_some hmemory]
      exact unversioned_of_zero hrest hstore hend
    · rename_i hmemory
      rw [Workload.noted_of_none hmemory]
      obtain ⟨answer, later, rfl, hlater⟩ := runs_call.1 hrest
      cases answer with
      | error e => cases (runs_done.1 hlater).2
      | ok copy =>
        obtain ⟨⟨version, rfl⟩, store', hstore', hend'⟩ := hend.of_replace
        change Runs (zero target (Workload.setResourceVersion version _).replicas _) later _ at hlater
        obtain ⟨u, hu, heq⟩ := unversioned_of_zero hlater hstore' hend'
        exact ⟨u, hu, heq.trans (Workload.unversioned_stopped rfl)⟩

/-- A try at scaling down none of whose calls fails does not fail. -/
theorem Try.ok_of_served (h : Try .down target before trace result after)
    (hw : before.workload? target.ns target.name = some w)
    (hserved : ∀ x ∈ trace, x.failure? = none) : ∃ outcome, result = .ok outcome := by
  cases result with
  | ok outcome => exact ⟨outcome, rfl⟩
  | error e =>
    rcases h.cases hw with ⟨_, -, rfl, -⟩ | ⟨rest, store, rfl, -, hrest, -⟩
    · cases hserved _ List.mem_cons_self
    · obtain ⟨-, hdone⟩ := failed_of_afterFetch hrest fun x hx => hserved x (List.mem_cons_of_mem _ hx)
      change record target w = _ at hdone
      unfold record zero at hdone
      split at hdone
      · split at hdone <;> cases hdone
      · cases hdone

/-! ## Stores whose calls get through -/

/-- Every call about a workload gets through, and no edit waits. -/
structure IsCalm (store : MemoryStore) : Prop where
  fetches : store.fetchBudget = none
  replaces : store.replaceBudget = none
  race : store.race = none

theorem IsCalm.fetch_eq (h : IsCalm store) (hw : store.workload? target.ns target.name = some w) :
    fetch target store = (.ok w, store) := by
  obtain ⟨workloads, _, _, _, _, _⟩ := store
  obtain ⟨rfl, rfl, rfl⟩ := h
  change workloads.get? _ = some w at hw
  simp [fetch, spend, workload?, releaseRace, hw]

/-- A copy of the version that is stored can be written. -/
theorem IsCalm.replace_eq (h : IsCalm store)
    (hv : store.workload? target.ns target.name = some v)
    (hversion : v.resourceVersion = w.resourceVersion) :
    ∃ version store', replace target w store = (.ok (w.setResourceVersion version), store') ∧
      IsCalm store' ∧
      store'.workload? target.ns target.name = some (w.setResourceVersion version) := by
  obtain ⟨workloads, replaced, _, _, _, schedules, down, patches, fails, listers⟩ := store
  obtain ⟨rfl, rfl, rfl⟩ := h
  change workloads.get? _ = some v at hv
  have hreplace : replace target w
      ⟨workloads, replaced, none, none, none, schedules, down, patches, fails, listers⟩ =
      (.ok (w.setResourceVersion (nextVersion v)),
        ⟨workloads.set (workloadKey target.ns target.name) (w.setResourceVersion (nextVersion v)),
          replaced + 1, none, none, none, schedules, down, patches, fails, listers⟩) := by
    simp [replace, spend, swap, workload?, hv, hversion]
  exact ⟨_, _, hreplace, ⟨rfl, rfl, rfl⟩, Keyed.get?_set_self ..⟩

theorem IsCalm.served_zero {count : Int} (h : IsCalm store)
    (hw : store.workload? target.ns target.name = some w) :
    ∀ x ∈ (zero target count w).trace handler store, x.failure? = none := by
  unfold zero
  split
  · exact fun x hx => absurd hx List.not_mem_nil
  · obtain ⟨version, store', heq, -, -⟩ := h.replace_eq (w := w.setReplicas 0) hw rfl
    rw [trace_replace heq, List.forall_mem_cons]
    exact ⟨rfl, fun x hx => absurd hx List.not_mem_nil⟩

/-- Scaling down succeeds over such a store. -/
theorem IsCalm.served (h : IsCalm store) (hw : store.workload? target.ns target.name = some w) :
    ∀ x ∈ (Direction.down.scale target).run.trace handler store, x.failure? = none := by
  rw [scale_run, trace_fetch (h.fetch_eq hw), List.forall_mem_cons]
  refine ⟨rfl, ?_⟩
  change ∀ x ∈ (record target w).trace handler store, _
  unfold record
  split
  · exact h.served_zero hw
  · obtain ⟨version, store', heq, hcalm, hstored⟩ :=
      h.replace_eq (w := w.annotate memoryKey (toString w.replicas)) hw rfl
    rw [trace_replace heq, List.forall_mem_cons]
    exact ⟨rfl, hcalm.served_zero hstored⟩

/-! ## Trying again -/

/-- The scaling of a workload is done. However often it is tried again, each try replaces nothing,
leaves the workload and says so, unless the fetch fails; over a store whose calls get through nothing
at all changes. -/
def IsDone (direction : Direction) (target : Target) (w : Workload) (count : Int)
    (store : MemoryStore) : Prop :=
  ∀ later, Tries direction target (fun _ => True) store later →
    later.workload? target.ns target.name = some w ∧
    (∀ trace result after, Try direction target later trace result after →
      (∀ x ∈ trace, ¬ x.call.IsReplace) ∧ after.workload? target.ns target.name = some w ∧
      (result = .ok (.unchanged count) ∨
        ∃ e, result = .error e ∧ trace = [⟨.fetch target, .error e⟩])) ∧
    (IsCalm later →
      (direction.scale target).run.run handler later = (.ok (.ok (.unchanged count)), later))

/-- A try at a scaling that has nothing to write. -/
theorem Try.of_done {count : Int} (h : Try direction target before trace result after)
    (hw : before.workload? target.ns target.name = some w)
    (hdone : afterFetch direction target w = .done (.ok (.unchanged count))) :
    (∀ x ∈ trace, ¬ x.call.IsReplace) ∧ after.workload? target.ns target.name = some w ∧
      (result = .ok (.unchanged count) ∨
        ∃ e, result = .error e ∧ trace = [⟨.fetch target, .error e⟩]) := by
  rcases h.cases hw with ⟨e, rfl, rfl, hsame⟩ | ⟨rest, store, rfl, hstore, hrest, hend⟩
  · refine ⟨fun x hx => ?_, hsame, .inr ⟨e, rfl, rfl⟩⟩
    obtain rfl := List.mem_singleton.1 hx
    exact id
  · rw [hdone] at hrest
    obtain ⟨rfl, hr⟩ := runs_done.1 hrest
    cases hend with
    | nil hquiet =>
      refine ⟨fun x hx => ?_, hquiet.stored.trans hstore, .inl (Except.ok.inj hr)⟩
      obtain rfl := List.mem_singleton.1 hx
      exact id

theorem stored_of_tries {count : Int} {ends : Except Failure ScaleOutcome → Prop}
    (h : Tries direction target ends before after)
    (hw : before.workload? target.ns target.name = some w)
    (hdone : afterFetch direction target w = .done (.ok (.unchanged count))) :
    after.workload? target.ns target.name = some w := by
  induction h with
  | none hquiet => exact hquiet.stored.trans hw
  | more htry _ _ ih => exact ih (htry.of_done hw hdone).2.1

theorem IsCalm.run_eq {count : Int} (h : IsCalm store)
    (hw : store.workload? target.ns target.name = some w)
    (hdone : afterFetch direction target w = .done (.ok (.unchanged count))) :
    (direction.scale target).run.run handler store = (.ok (.ok (.unchanged count)), store) := by
  rw [scale_run, run_fetch (h.fetch_eq hw)]
  change (afterFetch direction target w).run handler store = _
  rw [hdone]
  rfl

theorem isDone_of_leaves {found : Workload} (hleaves : Leaves found w direction)
    (hw : store.workload? target.ns target.name = some w) :
    IsDone direction target w w.replicas store := by
  have hdone : afterFetch direction target w = .done (.ok (.unchanged w.replicas)) :=
    afterFetch_of_leaves hleaves
  intro later htries
  have hlater := stored_of_tries htries hw hdone
  exact ⟨hlater, fun _ _ _ htry => htry.of_done hlater hdone, fun hcalm => hcalm.run_eq hlater hdone⟩

/-- A try that succeeds leaves a scaling that is done. -/
theorem Try.isDone_of_ok {outcome : ScaleOutcome}
    (h : Try direction target before trace (.ok outcome) after) :
    ∃ u, after.workload? target.ns target.name = some u ∧
      IsDone direction target u outcome.replicas after := by
  obtain ⟨found, u, -, hu, hreplicas, hleaves⟩ := stored_of_scale h.runs h.calls
  exact ⟨u, hu, hreplicas ▸ isDone_of_leaves hleaves hu⟩

/-! ## Scaling up that fails -/

/-- Tries at scaling up that fail leave the workload as it was. -/
theorem Tries.stored_of_failed (h : Tries .up target Fails before after)
    (hw : before.workload? target.ns target.name = some w) :
    after.workload? target.ns target.name = some w := by
  induction h with
  | none hquiet => exact hquiet.stored.trans hw
  | more htry hfails _ ih =>
    obtain ⟨e, rfl⟩ := hfails
    refine ih ?_
    rcases htry.cases hw with ⟨_, -, -, hsame⟩ | ⟨rest, store, -, hstore, hrest, hend⟩
    · exact hsame
    · change Runs (restore target w) rest _ at hrest
      unfold restore at hrest
      split at hrest
      · obtain ⟨rfl, -⟩ := runs_done.1 hrest
        cases hend with
        | nil hquiet => exact hquiet.stored.trans hstore
      · split at hrest
        · cases (runs_done.1 hrest).2
        · exact stored_of_failed_write hrest hstore hend

/-! ## The two scalings -/

/-- A scaling can be tried until it is done. Tries at scaling down that fail, at whatever call and
however often, leave the workload as it was or with its count written on it. From there a try none of
whose calls fails succeeds, and it ends with the same workload, up to the version, as such a try on the
workload as it was: with the count on it and no replicas wanted. Tries at scaling up that fail leave the
workload as it was. A scaling that has succeeded is done, and stays so. -/
theorem scaling_is_repeatable (hw : before.workload? target.ns target.name = some w) :
    (∀ store, Tries .down target Fails before store →
      ∃ v, store.workload? target.ns target.name = some v ∧ IsBegun w v ∧
        (IsCalm store → ∃ trace result after, Try .down target store trace result after ∧
          ∀ x ∈ trace, x.failure? = none) ∧
        ∀ trace result after, Try .down target store trace result after →
          (∀ x ∈ trace, x.failure? = none) →
          ∃ outcome u, result = .ok outcome ∧ after.workload? target.ns target.name = some u ∧
            u.unversioned = w.noted.stopped.unversioned ∧ IsDone .down target u 0 after ∧
            ∀ first result₀ once, Try .down target before first result₀ once →
              (∀ x ∈ first, x.failure? = none) →
              ∃ u₀, once.workload? target.ns target.name = some u₀ ∧
                u.unversioned = u₀.unversioned) ∧
    (∀ store, Tries .up target Fails before store →
      store.workload? target.ns target.name = some w) ∧
    ∀ trace outcome after, Try .up target before trace (.ok outcome) after →
      ∃ u, after.workload? target.ns target.name = some u ∧
        IsDone .up target u outcome.replicas after := by
  have hsucceeds {store after : MemoryStore} {v : Workload} {trace : List Exchange}
      {result : Except Failure ScaleOutcome} (htry : Try .down target store trace result after)
      (hserved : ∀ x ∈ trace, x.failure? = none)
      (hv : store.workload? target.ns target.name = some v) (hbegun : IsBegun w v) :
      ∃ outcome u, result = .ok outcome ∧ after.workload? target.ns target.name = some u ∧
        u.unversioned = w.noted.stopped.unversioned ∧ IsDone .down target u 0 after := by
    obtain ⟨outcome, rfl⟩ := htry.ok_of_served hv hserved
    obtain ⟨u, hu, hsame⟩ := htry.unversioned_of_ok hv
    obtain ⟨_, u', -, hu', -, hleaves⟩ := stored_of_scale htry.runs htry.calls
    obtain rfl := Option.some.inj (hu.symm.trans hu')
    refine ⟨outcome, u, rfl, hu, ?_, ?_⟩
    · exact hsame.trans (Workload.unversioned_stopped hbegun.unversioned_noted)
    · exact hleaves.1 ▸ isDone_of_leaves hleaves hu
  refine ⟨fun store htries => ?_, fun store htries => htries.stored_of_failed hw,
    fun trace outcome after htry => htry.isDone_of_ok⟩
  obtain ⟨v, hv, hbegun⟩ := htries.isBegun hw
  refine ⟨v, hv, hbegun, fun hcalm => ?_, fun trace result after htry hserved => ?_⟩
  · have hrace : ∀ e ∈ store.race, workloadKey e.ns e.name ≠ workloadKey target.ns target.name := by
      simp [hcalm.race]
    have hruns := runs_trace handler (Direction.down.scale target).run store
    obtain ⟨result, hresult⟩ := hruns.ok_of_completes completes_scale
    rw [hresult] at hruns
    exact ⟨_, result, _, ⟨hruns, undisturbed_trace _ hrace⟩, hcalm.served hv⟩
  · obtain ⟨outcome, u, rfl, hu, hsame, hdone⟩ := hsucceeds htry hserved hv hbegun
    refine ⟨outcome, u, rfl, hu, hsame, hdone, fun first result₀ once hfirst hserved₀ => ?_⟩
    obtain ⟨_, u₀, -, hu₀, hsame₀, -⟩ := hsucceeds hfirst hserved₀ hw (.inl rfl)
    exact ⟨u₀, hu₀, hsame.trans hsame₀.symm⟩

open Interleaving (shopWeb shopStore shopJob)

/-- A deployment whose second update does not get through. -/
def shortStore : MemoryStore := { shopStore 3 "1" with replaceBudget := some 1 }

/-- What scaling down has left there, once updates get through again. -/
def mendedStore : MemoryStore :=
  { ((shopJob .down).program.run handler shortStore).2 with replaceBudget := none }

theorem tries_short : Tries .down (shopJob .down).target Fails shortStore mendedStore := by
  have hrace : ∀ e ∈ shortStore.race, workloadKey e.ns e.name ≠ "shop/web" := nofun
  have hruns : Runs (shopJob .down).program _ (.ok (.error outage)) :=
    runs_trace handler (shopJob .down).program shortStore
  exact .more ⟨hruns, undisturbed_trace _ hrace⟩ ⟨outage, rfl⟩ (.none ⟨rfl, nofun⟩)

theorem scaling_is_repeatable_shop :
    shortStore.workload? "shop" "web" = some (shopWeb 3 "1") ∧
      ∃ v, mendedStore.workload? "shop" "web" = some v ∧ v.replicas = 3 ∧
        v.annotation? memoryKey = some "3" ∧
        ∃ trace result after outcome u,
          Try .down (shopJob .down).target mendedStore trace result after ∧ result = .ok outcome ∧ after.workload? "shop" "web" = some u ∧
          u.unversioned = (((shopWeb 3 "1").annotate memoryKey "3").setReplicas 0).unversioned ∧
          IsDone .down (shopJob .down).target u 0 after := by
  have hstored : shortStore.workload? (shopJob .down).target.ns (shopJob .down).target.name =
      some (shopWeb 3 "1") := rfl
  obtain ⟨hdown, -⟩ := scaling_is_repeatable hstored
  obtain ⟨v, hv, -, hserves, hends⟩ := hdown mendedStore tries_short
  have hleft : mendedStore.workload? "shop" "web" = some _ := rfl
  obtain rfl := Option.some.inj (hleft.symm.trans hv)
  obtain ⟨trace, result, after, htry, hserved⟩ := hserves ⟨rfl, rfl, rfl⟩
  obtain ⟨outcome, u, hresult, hu, hsame, hdone, -⟩ := hends trace result after htry hserved
  exact ⟨rfl, _, hv, rfl, rfl, trace, result, after, outcome, u, htry, hresult, hu, hsame, hdone⟩

end Scaling

end ScheduledScaling
