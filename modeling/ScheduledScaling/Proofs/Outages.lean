import ScheduledScaling.Proofs.Independence
import ScheduledScaling.Proofs.Plans
/-!
# Cleanups that can list nothing

A list that fails is noted and passed over, and a cleanup fails only when it has nowhere to look. So a
cleanup all of whose lists fail makes no other call (`findsNothing_reapKinds`), and is recorded like one
that has found nothing to remove: `outage_is_recorded`.
-/
namespace ScheduledScaling

open Pass Program Cleanup

/-! ## The cleanup -/

namespace Cleanup
variable {kind : String} {policy : CleanupPolicy} {selector : Option String} {now : Instant}
  {step step' : CleanupReport → Program CleanupReport} {trace : List Exchange}

/-- A step of a cleanup, none of whose lists gets through, makes no other call, does not break off, and
counts nothing. -/
def FindsNothing (step : CleanupReport → Program CleanupReport) : Prop :=
  ∀ r trace result, Runs (step r) trace result → (∀ x ∈ trace, x.call.IsListing → x.failure?.isSome) →
    (∀ x ∈ trace, x.call.IsListing) ∧ ∃ r', result = .ok r' ∧ r'.count = r.count

/-- What changes the report without a call, but for its count. -/
theorem findsNothing_pure {f : CleanupReport → CleanupReport} (h : ∀ r, (f r).count = r.count) :
    FindsNothing fun r => pure (f r) := by
  intro r trace result hrun _
  obtain ⟨rfl, rfl⟩ := runs_pure.1 hrun
  exact ⟨fun x hx => absurd hx List.not_mem_nil, f r, rfl, h r⟩

theorem findsNothing_failed (failure : CleanupFailure) :
    FindsNothing fun r => pure (r.failed failure) :=
  findsNothing_pure fun _ => rfl

theorem FindsNothing.bind (h : FindsNothing step) (h' : FindsNothing step') :
    FindsNothing fun r => step r >>= step' := by
  intro r trace result hrun hfails
  rcases runs_bind.1 hrun with ⟨r', first, rest, rfl, hfirst, hrest⟩ | ⟨x, rfl, hbreaks⟩
  · obtain ⟨hlists, _, hr', hcount⟩ :=
      h r first _ hfirst fun x hx => hfails x (List.mem_append_left _ hx)
    obtain rfl := Except.ok.inj hr'
    obtain ⟨hlists', r'', rfl, hcount'⟩ :=
      h' r' rest _ hrest fun x hx => hfails x (List.mem_append_right _ hx)
    refine ⟨fun x hx => ?_, r'', rfl, hcount'.trans hcount⟩
    exact (List.mem_append.1 hx).elim (hlists x) (hlists' x)
  · obtain ⟨-, _, hr', -⟩ := h r trace _ hbreaks hfails
    cases hr'

theorem findsNothing_reapScope (ns : Option String) :
    FindsNothing (reapScope kind policy selector now ns) := by
  intro r trace result hrun hfails
  obtain ⟨answer, rest, rfl, hrest⟩ := runs_call.1 hrun
  have hfails : (Exchange.failure? ⟨_, answer⟩).isSome := hfails _ List.mem_cons_self trivial
  cases answer with
  | ok candidates => cases hfails
  | error e =>
    obtain ⟨rfl, rfl⟩ := runs_pure.1 hrest
    refine ⟨fun x hx => ?_, r.failed ⟨kind, ns, e.message⟩, rfl, rfl⟩
    obtain rfl := List.mem_singleton.1 hx
    trivial

theorem composes_findsNothing : Composes fun _ _ => FindsNothing where
  done := findsNothing_pure (f := id) fun _ => rfl
  failed := findsNothing_failed
  bind := FindsNothing.bind

theorem findsNothing_reapKinds (registry : Registry) (namespaces kinds : List String) :
    FindsNothing (reapKinds registry policy selector now namespaces kinds) :=
  composes_findsNothing.reapKinds (fun _ => findsNothing_reapScope) registry namespaces kinds

/-- The report of a cleanup that could list nothing: none is counted, and there is one failure for each
mention of a kind that the registry does not have, and one for each list. -/
structure ReportsOutage (registry : Registry) (config : CleanupConfig) (trace : List Exchange)
    (report : CleanupReport) : Prop where
  count : report.count = 0
  failures : report.failures.Perm
    (unlistedIn registry config.resourceTypes ++ trace.filterMap Exchange.cleanupFailure?)

/-- A cleanup that makes a call, and none of whose lists gets through, comes to such a report. -/
theorem reportsOutage_of_run {registry : Registry} {config : CleanupConfig} {own : String}
    {x : Exchange} {r : Except Overflow (Except Failure CleanupReport)}
    (h : Runs (run registry config own now).run trace r) (hx : x ∈ trace)
    (hfails : ∀ x ∈ trace, x.call.IsListing → x.failure?.isSome) :
    (∀ x ∈ trace, x.call.IsListing) ∧
      ∃ report, r = .ok (.ok report) ∧ ReportsOutage registry config trace report := by
  rcases runs_run h with ⟨e, -, rfl, -⟩ | ⟨namespaces, hnamespaces, ⟨x, -, rfl, -⟩ |
    ⟨policy, r', -, hrun, rfl⟩⟩
  · cases hx
  · cases hx
  · obtain ⟨hlists, report, rfl, hcount⟩ := findsNothing_reapKinds _ _ _ _ _ _ hrun hfails
    obtain ⟨-, hfailures⟩ := accounts_of_registry h hnamespaces
    exact ⟨hlists, report, rfl, hcount, hfailures⟩

end Cleanup

/-! ## The pass -/

section
variable {zones : Zone.Lookup} {registry : Registry} {settings : Settings} {s : Schedule}
  {z : Zone} {ns : String} {now : Instant} {trace : List Exchange}
  {r : Except Overflow (Except Failure Action)}

/-- The cleanup of a pass, when it makes a call and none of its lists gets through. -/
theorem reportsOutage_of_cleanup {x : Exchange}
    {r : Except Overflow (Option (Except Failure CleanupReport))}
    (h : Runs (cleanupOf registry s ns z now) trace r) (hx : x ∈ trace)
    (hfails : ∀ x ∈ trace, x.call.IsListing → x.failure?.isSome) :
    (∀ x ∈ trace, x.call.IsListing) ∧
      ∃ config report, s.spec.cleanupConfig = some config ∧ r = .ok (some (.ok report)) ∧
        ReportsOutage registry config trace report := by
  rcases runs_cleanupResult h with ⟨o, -, rfl, -⟩ | ⟨due, -, -, rfl, -⟩ |
    ⟨config, r', -, hconfig, hrun, rfl⟩
  · cases hx
  · cases hx
  · obtain ⟨hlists, report, rfl, hreport⟩ := reportsOutage_of_run hrun hx hfails
    exact ⟨hlists, config, report, hconfig, rfl, hreport⟩

/-- What a pass comes to once its status write is answered. -/
def endOf (settings : Settings) (s : Schedule) (z : Zone) (now : Instant) (transientFailure : Bool) :
    Except Failure Unit → Except Overflow (Except Failure Action)
  | .error e => .ok (.error e)
  | .ok () =>
    (nextWake s.spec z now).map fun wake => .ok (actionOf settings wake transientFailure)

/-- What a pass does about a cleanup that could list nothing; `answer` is that to the status write. -/
structure RecordsOutage (registry : Registry) (settings : Settings) (s : Schedule) (z : Zone)
    (now : Instant) (trace : List Exchange) (r : Except Overflow (Except Failure Action))
    (answer : Except Failure Unit) : Prop where
  kept : ∀ x ∈ trace, ¬ x.call.IsDeletion
  /-- The cleanup is written into the status as a step that has succeeded, and asks for no early
  retry: that is up to the scaling alone. -/
  written : ∃ scaled first rest config report ns patch, trace = first ++ rest ∧
    Runs (scalingOf s z now) first (.ok scaled) ∧ s.spec.cleanupConfig = some config ∧
    ReportsOutage registry config trace report ∧
    ⟨.patchStatus ns s.name patch, answer⟩ ∈ trace ∧
    patch.get? "lastCleanupTime" = some (.time (advance s.recorded.lastCleanup now)) ∧
    patch.get? "lastCleanupResourceCount" = some (.int 0) ∧
    patch.get? "message" =
      some (.string (String.intercalate "; " (scaled.notes ++ [cleanupNote report]))) ∧
    r = endOf settings s z now scaled.transientFailure answer
  /-- Whether it is due again counts from that time, once the status is written. -/
  recorded : s.recorded.HasNamedTimes → now.IsNamed → (s.recorded.after trace).lastCleanup =
    if answer.isOk then some (advance s.recorded.lastCleanup now) else s.recorded.lastCleanup
  /-- In a zone of one offset it is then not due again before its schedule fires. -/
  settled : s.recorded.HasNamedTimes → now.IsNamed → answer.isOk → z.IsConstant →
    ∀ later, IsQuiet s.spec.cleanup z now later →
      isDue s.spec.cleanup z (s.recorded.after trace).lastCleanup later ≠ .ok true

/-- The members of the patch of a pass whose cleanup has given a report. -/
theorem get?_finalPatch_noted (s : Schedule) (now : Instant) (scaled : Progress)
    (report : CleanupReport) :
    let patch := (finalPatch s (noted s.recorded now scaled (some (.ok report)))).toJson
    patch.get? "lastCleanupTime" = some (.time (advance s.recorded.lastCleanup now)) ∧
      patch.get? "lastCleanupResourceCount" = some (.int report.count) ∧
      patch.get? "message" =
        some (.string (String.intercalate "; " (scaled.notes ++ [cleanupNote report]))) :=
  ⟨get?_finalPatch s _ _, get?_finalPatch s _ _, get?_finalPatch s _ _⟩

/-- The steps of a pass that makes a call about resources: the call is one of its cleanup, and if this
gives a report, the status is written after it. -/
theorem cleanup_of_mem {x : Exchange} (h : Runs (runSteps registry settings s ns z now).run trace r)
    (hx : x ∈ trace) (hc : x.call.IsResourceCall) :
    ∃ scaled first middle last result, trace = first ++ (middle ++ last) ∧ x ∈ middle ∧
      Runs (scalingOf s z now) first (.ok scaled) ∧
      Runs (cleanupOf registry s ns z now) middle result ∧
      ∀ report, result = .ok (some (.ok report)) → ∃ answer : Except Failure Unit,
        last = [⟨.patchStatus ns s.name
          (finalPatch s (noted s.recorded now scaled (some (.ok report)))).toJson, answer⟩] ∧
        r = endOf settings s z now scaled.transientFailure answer := by
  rcases runs_runSteps h with ⟨e, -, he⟩ | ⟨scaled, first, rest, rfl, hscaled, hrest⟩
  · exact absurd (he.call_of_mem (onlyCalls_scalingOf s z now) x hx) hc.not_workloadCall
  have hx : x ∈ rest := (List.mem_append.1 hx).resolve_left fun hx =>
    hc.not_workloadCall (hscaled.call_of_mem (onlyCalls_scalingOf s z now) x hx)
  rcases hrest with ⟨e, -, he⟩ | ⟨progress, middle, last, written, rfl, hprogress, hwritten, hr⟩
  · obtain ⟨result, hresult, hbreaks⟩ := runs_runCleanup.1 he
    refine ⟨scaled, first, rest, [], result, by rw [List.append_nil], hx, hscaled, hresult, ?_⟩
    rintro report rfl
    cases hbreaks
  · obtain ⟨result, hresult, hcomes⟩ := runs_runCleanup.1 hprogress
    have hx : x ∈ middle := (List.mem_append.1 hx).resolve_right fun hx => by
      rcases runs_writeStatus.1 hwritten with ⟨-, rfl, -⟩ | ⟨-, answer, rfl, -⟩
      · cases hx
      · obtain rfl := List.mem_singleton.1 hx
        exact hc
    refine ⟨scaled, first, middle, last, result, rfl, hx, hscaled, hresult, ?_⟩
    rintro report rfl
    obtain rfl := Except.ok.inj hcomes
    rcases runs_writeStatus.1 hwritten with ⟨hzero, -, -⟩ | ⟨-, answer, rfl, hanswer⟩
    · cases hzero
    · obtain rfl := Except.ok.inj hanswer
      refine ⟨written, rfl, hr.trans ?_⟩
      cases written <;> rfl

/-- The calls of a pass that fail in its cleanup are those that the cleanup reports. -/
theorem failures_of_steps {first middle last : List Exchange}
    (hfirst : ∀ x ∈ first, ¬ x.call.IsResourceCall) (hlast : ∀ x ∈ last, ¬ x.call.IsResourceCall) :
    (first ++ (middle ++ last)).filterMap Exchange.cleanupFailure? =
      middle.filterMap Exchange.cleanupFailure? := by
  have hnone {x : Exchange} (hx : ¬ x.call.IsResourceCall) : x.cleanupFailure? = none := by
    obtain ⟨c, answer⟩ := x
    cases c <;> first | rfl | exact absurd trivial hx
  rw [List.filterMap_append, List.filterMap_append,
    List.filterMap_eq_nil_iff.2 fun x hx => hnone (hfirst x hx),
    List.filterMap_eq_nil_iff.2 fun x hx => hnone (hlast x hx), List.nil_append, List.append_nil]

/-- The time of the cleanup after a pass whose cleanup has given a report: it is recorded if the status
is written. -/
theorem lastCleanup_after {scaled : Progress} {report : CleanupReport} {first middle : List Exchange}
    (hscaled : Runs (scalingOf s z now) first (.ok scaled))
    (hcleanup : Runs (cleanupOf registry s ns z now) middle (.ok (some (.ok report))))
    (answer : Except Failure Unit) (hs : s.recorded.HasNamedTimes) (hnow : now.IsNamed) :
    (s.recorded.after (first ++ (middle ++ [⟨.patchStatus ns s.name
        (finalPatch s (noted s.recorded now scaled (some (.ok report)))).toJson, answer⟩]))).lastCleanup =
      if answer.isOk then some (advance s.recorded.lastCleanup now) else s.recorded.lastCleanup := by
  have hprogress : Runs (runCleanup registry s.spec z ns s.recorded now scaled) middle
      (.ok (noted s.recorded now scaled (some (.ok report)))) :=
    runs_runCleanup.2 ⟨_, hcleanup, rfl⟩
  cases answer with
  | ok u =>
    have hafter := after_of_steps (u := u) hs hnow hscaled hprogress
    exact congrArg ScheduleStatus.lastCleanup hafter
  | error e =>
    rw [← List.append_assoc, ScheduleStatus.after_eq_self fun x hx => ?_]
    · rfl
    · rcases List.mem_append.1 hx with hx | hx
      · exact patch?_of_steps hscaled hprogress x hx
      · obtain rfl := List.mem_singleton.1 hx
        rfl

/-- A pass that lists resources, and none of whose lists gets through, deletes nothing and records a
cleanup that has found nothing. -/
theorem outage_is_recorded (h : Runs (reconcile registry settings s now zones).run trace r)
    (hlists : ∃ x ∈ trace, x.call.IsListing)
    (hfails : ∀ x ∈ trace, x.call.IsListing → x.failure?.isSome) :
    ∃ z answer, Zone.parse s.spec.timeZone zones = .ok z ∧
      RecordsOutage registry settings s z now trace r answer := by
  obtain ⟨x, hx, hlisting⟩ := hlists
  obtain ⟨ns, z, hns, hv, hz, h⟩ := steps_of_mem h hx
  obtain ⟨scaled, first, middle, last, result, rfl, hmem, hscaled, hcleanup, hends⟩ :=
    cleanup_of_mem h hx hlisting.isResourceCall
  obtain ⟨honly, config, report, hconfig, rfl, hreport⟩ := reportsOutage_of_cleanup hcleanup hmem
    fun x hx => hfails x (List.mem_append_right _ (List.mem_append_left _ hx))
  obtain ⟨answer, rfl, hr⟩ := hends report rfl
  obtain ⟨htime, hcount, hmessage⟩ := get?_finalPatch_noted s now scaled report
  have hfirst : ∀ x ∈ first, ¬ x.call.IsResourceCall := fun x hx hc =>
    hc.not_workloadCall (hscaled.call_of_mem (onlyCalls_scalingOf s z now) x hx)
  have hlast : ∀ x ∈ [(⟨.patchStatus ns s.name
      (finalPatch s (noted s.recorded now scaled (some (.ok report)))).toJson, answer⟩ : Exchange)],
      ¬ x.call.IsResourceCall := by
    intro x hx
    obtain rfl := List.mem_singleton.1 hx
    exact id
  have hafter := lastCleanup_after hscaled hcleanup answer
  refine ⟨z, answer, hz, fun x hx hdelete => ?_, ⟨scaled, first, _, config, report, ns, _, rfl,
    hscaled, hconfig, ⟨hreport.count, ?_⟩, List.mem_append_right _ (List.mem_append_right _
      List.mem_cons_self), htime, ?_, hmessage, hr⟩, ?_, ?_⟩
  · rcases List.mem_append.1 hx with hx | hx
    · exact hfirst x hx hdelete.isResourceCall
    rcases List.mem_append.1 hx with hx | hx
    · exact (honly x hx).not_deletion hdelete
    · exact hlast x hx hdelete.isResourceCall
  · rw [failures_of_steps hfirst hlast]
    exact hreport.failures
  · rw [hcount, hreport.count]
    rfl
  · exact hafter
  · intro hs hnow hanswer hzone later hquiet
    rw [hafter hs hnow, if_pos hanswer]
    exact not_due_of_recorded hzone (isNamed_advance hs.cleanup hnow).isValid
      (le_advance s.recorded.lastCleanup now) hquiet

end

/-! ## A night without an answer -/

/-- Cleans up at ten in the evening, and scales nothing. -/
def swept : Schedule :=
  { tidied with spec := { tidied.spec with target := none, scaleDown := "", scaleUp := "" } }

/-- The config map that is to go, in a namespace that cannot be listed. -/
def mutedStore : MemoryStore :=
  { dustyStore with listers := [⟨"ConfigMap", .namespaced, [dust], ["shop"], [], [], []⟩] }

/-- What the pass in the evening leaves of that store. -/
def mutedPass : Footprint :=
  footprint Zone.find? mutedStore.registry .default swept evening mutedStore

theorem outage_is_recorded_swept :
    ∃ z answer, Zone.parse swept.spec.timeZone = .ok z ∧
      RecordsOutage mutedStore.registry .default swept z evening mutedPass.calls
        ((reconcile mutedStore.registry .default swept evening).run.run MemoryStore.handler
          mutedStore).1 answer :=
  outage_is_recorded (runs_trace MemoryStore.handler _ mutedStore) (by decide +kernel)
    (by decide +kernel)

/-- The cleanup is due and its one list fails, but its time is recorded, and it is due no longer. -/
theorem outage_ends_cleanup :
    swept.spec.validate = .ok () ∧
      isDue swept.spec.cleanup .utc swept.recorded.lastCleanup evening = .ok true ∧
      (∃ x ∈ mutedPass.calls, x.call.IsListing) ∧
      (∀ x ∈ mutedPass.calls, x.call.IsListing → x.failure?.isSome) ∧
      (swept.recorded.after mutedPass.calls).lastCleanup = some evening ∧
      isDue swept.spec.cleanup .utc (swept.recorded.after mutedPass.calls).lastCleanup evening =
        .ok false := by
  refine ⟨?_, ?_, ?_, ?_, ?_, ?_⟩ <;> decide +kernel

end ScheduledScaling
