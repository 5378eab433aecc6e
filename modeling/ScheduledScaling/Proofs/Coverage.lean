import ScheduledScaling.Proofs.Accounts
import ScheduledScaling.Proofs.Retries
import ScheduledScaling.Remote.Store
/-!
# What the check of a spec is good for

A pass reads the texts of its spec again and looks up its kinds again, each in its own way. A spec in
order has all that it looks for (`ScheduleSpec.isCovered_of_validate`), so a pass over it drops
nothing that is due, asks for known kinds only, and fails only where the write of its status does:
`validation_covers_pass`.
-/
namespace ScheduledScaling

open Pass Program

/-! ## Specs -/

/-- Kinds that can be cleaned up are those that the cluster can list. -/
theorem Remote.get?_registry (kind : String) :
    Remote.registry.get? kind = (ResourceKind.ofName? kind).map ResourceKind.scope := by
  have hget (kinds : List ResourceKind) :
      Keyed.get? kind (kinds.map fun k => (k.name, k.scope)) =
        (kinds.find? fun k => k.name = kind).map ResourceKind.scope := by
    induction kinds with
    | nil => rfl
    | cons k rest ih =>
      rw [List.map_cons, Keyed.get?, ih]
      by_cases hk : k.name = kind
      · rw [if_pos hk, List.find?_cons_of_pos (by simpa using hk)]
        rfl
      · rw [if_neg hk, List.find?_cons_of_neg (by simpa using hk)]
  have hnodup : (Keyed.keys (ResourceKind.all.map fun k => (k.name, k.scope))).Nodup := by decide
  rw [Remote.registry, Keyed.get?_ofList hnodup, hget]
  rfl

/-- A spec has all that a pass over it looks for, with these zones. -/
structure ScheduleSpec.IsCovered (spec : ScheduleSpec) (zones : Zone.Lookup) : Prop where
  zone : ∃ z, Zone.parse spec.timeZone zones = .ok z
  schedules : ∀ schedule ∈ spec.schedules, schedule ≠ "" →
    Text.isEmptyTrimmed schedule = false ∧ ∃ e, CronExpression.parse schedule = .ok e
  target : spec.scaleDown ≠ "" ∨ spec.scaleUp ≠ "" →
    ∃ target, spec.target = some target ∧ (WorkloadKind.ofName? target.kind).isSome
  cleanup : spec.cleanup ≠ "" → ∃ config, spec.cleanupConfig = some config ∧
    ∀ kind ∈ config.resourceTypes, (Remote.registry.get? kind).isSome

theorem ScheduleSpec.isCovered_of_validate {spec : ScheduleSpec} {zones : Zone.Lookup}
    (h : spec.validate zones = .ok ()) : spec.IsCovered zones where
  zone := zone_of_validate h
  schedules schedule hs hne := by
    obtain ⟨e, he⟩ := parse_of_validate h hs hne
    exact ⟨Bool.eq_false_iff.2 (not_isEmptyTrimmed_of_parse he), e, he⟩
  target := kind_of_validate h
  cleanup hcleans := by
    obtain ⟨config, hconfig, hkinds⟩ := config_of_validate h hcleans
    refine ⟨config, hconfig, fun kind hkind => ?_⟩
    rw [Remote.get?_registry, Option.isSome_map]
    exact hkinds kind hkind

/-! ## Calls -/

/-- A call about a kind that there is, if it is about one. -/
def StoreCall.IsSupported : StoreCall → Prop
  | fetch target | replace target _ => (WorkloadKind.ofName? target.kind).isSome
  | list kind _ _ | delete kind _ => (ResourceKind.ofName? kind).isSome
  | _ => True

namespace Remote
variable {σ α : Type} {transport : Transport σ} {kind : String}

theorem ofRemote_ne_unsupported (object name ns : String) (e : RemoteFailure) :
    Failure.ofRemote object name ns e ≠ .unsupportedKind kind := by
  cases e with
  | refused r =>
    dsimp only [Failure.ofRemote]
    split
    · nofun
    · split <;> nofun
  | _ => nofun

theorem orFail_ne_unsupported {failure : RemoteFailure → Failure} {x : Except RemoteFailure α × σ}
    (h : ∀ e, failure e ≠ .unsupportedKind kind) :
    (orFail failure x).1 ≠ .error (.unsupportedKind kind) := by
  obtain ⟨result, s⟩ := x
  cases result with
  | ok a => nofun
  | error e => exact fun heq => h e (Except.error.inj heq)

/-- The cluster knows the kind of every call that is about one that there is. -/
theorem answer_ne_unsupported {c : StoreCall} (h : c.IsSupported) (s : σ) :
    (handler transport c s).1 ≠ .error (.unsupportedKind kind) := by
  have hremote : ∀ e, Failure.remote e ≠ .unsupportedKind kind := nofun
  cases c with
  | fetch target =>
    obtain ⟨k, hk⟩ := Option.isSome_iff_exists.1 h
    change (fetch transport target s).1 ≠ _
    unfold fetch
    rw [hk]
    exact orFail_ne_unsupported (ofRemote_ne_unsupported _ _ _)
  | replace target w => exact orFail_ne_unsupported (ofRemote_ne_unsupported _ _ _)
  | listSchedules => exact orFail_ne_unsupported hremote
  | getSchedule ns name => exact orFail_ne_unsupported hremote
  | patchStatus ns name status => exact orFail_ne_unsupported (ofRemote_ne_unsupported _ _ _)
  | list named ns selector =>
    obtain ⟨k, hk⟩ := Option.isSome_iff_exists.1 h
    change (withKind named (fun k => list transport k ns selector) s).1 ≠ _
    unfold withKind
    rw [hk]
    exact orFail_ne_unsupported hremote
  | delete named candidate =>
    obtain ⟨k, hk⟩ := Option.isSome_iff_exists.1 h
    change (withKind named (fun k => delete transport k candidate) s).1 ≠ _
    unfold withKind
    rw [hk]
    exact orFail_ne_unsupported (ofRemote_ne_unsupported _ _ _)

end Remote

/-! ## A pass -/

/-- What is due has a schedule. -/
theorem ne_empty_of_due {schedule : String} {z : Zone} {last : Option Instant} {now : Instant}
    (h : isDue schedule z last now = .ok true) : schedule ≠ "" := by
  rintro rfl
  cases h

namespace Pass
variable {zones : Zone.Lookup} {registry : Registry} {settings : Settings} {s : Schedule}
  {spec : ScheduleSpec} {ns : String} {z : Zone} {status : ScheduleStatus} {now : Instant}
  {trace : List Exchange} {r : Except Overflow (Except Failure Action)}

/-- A spec without schedules for scaling asks for no call about its target. -/
theorem supported_of_runScaling {progress : Progress} {r : Except Overflow Progress}
    (hv : spec.validate zones = .ok ()) (h : Runs (runScaling spec z status now progress) trace r) :
    ∀ x ∈ trace, x.call.IsSupported := by
  intro x hx
  obtain ⟨target, htarget, habout⟩ := h.call_of_mem (isAbout_runScaling ..) x hx
  by_cases hscales : spec.scaleDown ≠ "" ∨ spec.scaleUp ≠ ""
  · obtain ⟨target', htarget', hkind⟩ := ScheduleSpec.kind_of_validate hv hscales
    obtain rfl := Option.some.inj (htarget.symm.trans htarget')
    obtain ⟨c, answer⟩ := x
    cases c with
    | fetch named | replace named w =>
      obtain rfl : named = target := habout
      exact hkind
    | _ => exact habout.elim
  · have hdown : spec.scaleDown = "" := by
      by_contra hne
      exact hscales (.inl hne)
    have hup : spec.scaleUp = "" := by
      by_contra hne
      exact hscales (.inr hne)
    unfold runScaling at h
    rw [htarget, hdown, hup] at h
    cases h
    cases hx

/-- One without a schedule for cleanup asks for no call about resources. -/
theorem supported_of_runCleanup {progress : Progress} {r : Except Overflow Progress}
    (hv : spec.validate zones = .ok ())
    (h : Runs (runCleanup registry spec z ns status now progress) trace r) :
    ∀ x ∈ trace, x.call.IsSupported := by
  intro x hx
  obtain ⟨config, hconfig, kind, hkind, habout⟩ :=
    h.call_of_mem (isAboutKind_runCleanup ..) x hx
  by_cases hcleans : spec.cleanup ≠ ""
  · obtain ⟨config', hconfig', hkinds⟩ := ScheduleSpec.config_of_validate hv hcleans
    obtain rfl := Option.some.inj (hconfig.symm.trans hconfig')
    have hknown := hkinds kind hkind
    obtain ⟨c, answer⟩ := x
    cases c with
    | list named scope selector | delete named candidate =>
      obtain rfl : named = kind := habout
      exact hknown
    | _ => exact habout.elim
  · have hempty : spec.cleanup = "" := by
      by_contra hne
      exact hcleans hne
    unfold runCleanup at h
    rw [hempty] at h
    cases h
    cases hx

theorem supported_of_reconcile (hv : s.spec.validate zones = .ok ())
    (h : Runs (reconcile registry settings s now zones).run trace r) :
    ∀ x ∈ trace, x.call.IsSupported := by
  intro x hx
  obtain ⟨ns, z, -, -, -, hsteps⟩ := steps_of_mem h hx
  rcases runs_runSteps hsteps with ⟨e, -, he⟩ | ⟨scaled, first, rest, rfl, hscaled, hrest⟩
  · exact supported_of_runScaling hv he x hx
  rcases List.mem_append.1 hx with hx | hx
  · exact supported_of_runScaling hv hscaled x hx
  rcases hrest with ⟨e, -, he⟩ | ⟨progress, middle, last, written, rfl, hprogress, hwritten, -⟩
  · exact supported_of_runCleanup hv he x hx
  rcases List.mem_append.1 hx with hx | hx
  · exact supported_of_runCleanup hv hprogress x hx
  · rcases runs_writeStatus.1 hwritten with ⟨-, rfl, -⟩ | ⟨-, answer, rfl, -⟩
    · cases hx
    · obtain rfl := List.mem_singleton.1 hx
      trivial

/-- A pass breaks off in making the plan of its scaling: a recorded time, or the instant, lies at the
end of time. -/
def PlanBreaks (s : Schedule) (z : Zone) (now : Instant)
    (r : Except Overflow (Except Failure Action)) : Prop :=
  ∃ x, r = .error x ∧ planScaling s.spec.scaleDown s.spec.scaleUp z s.recorded.lastScaleDown
    s.recorded.lastScaleUp now = .error x

/-- A scaling that does not come to a result has no plan. -/
theorem planBreaks_of_runScaling {x : Overflow}
    (h : Runs (runScaling s.spec z s.recorded now .start) trace (.error x)) :
    PlanBreaks s z now (.error x) := by
  unfold runScaling at h
  cases htarget : s.spec.target with
  | none =>
    rw [htarget] at h
    cases h
  | some target =>
    cases hplan : planScaling s.spec.scaleDown s.spec.scaleUp z s.recorded.lastScaleDown
        s.recorded.lastScaleUp now with
    | ok plan =>
      obtain ⟨scaled, hscaled⟩ := h.ok_of_completes (completes_runScaling .start hplan)
      cases hscaled
    | error e =>
      rw [htarget, hplan] at h
      cases h
      exact ⟨x, rfl, hplan⟩

/-- A scaling that is due is attempted. -/
theorem attempts_of_due (hv : s.spec.validate zones = .ok ())
    (hdue : isDue s.spec.scaleDown z s.recorded.lastScaleDown now = .ok true ∨
      isDue s.spec.scaleUp z s.recorded.lastScaleUp now = .ok true)
    (h : Runs (runSteps registry settings s ns z now).run trace r) :
    PlanBreaks s z now r ∨ ∃ direction supersedes result,
      Attempts s.spec z s.recorded now trace direction supersedes result := by
  obtain ⟨target, htarget⟩ := ScheduleSpec.target_of_validate hv
    (hdue.imp ne_empty_of_due ne_empty_of_due)
  rcases runs_runSteps h with ⟨x, rfl, hx⟩ | ⟨scaled, first, rest, rfl, hscaled, -⟩
  · exact .inl (planBreaks_of_runScaling hx)
  obtain ⟨plan, hplan⟩ := plan_of_runScaling htarget hscaled
  obtain ⟨hdown, hup⟩ := due_of_planScaling hplan
  have hidle : plan ≠ .idle := by
    intro hidle
    obtain ⟨hdownDue, hupDue⟩ := eq_idle_iff.1 hidle
    rcases hdue with hdue | hdue
    · rw [hdownDue, hdue] at hdown
      cases hdown
    · rw [hupDue, hdue] at hup
      cases hup
  obtain ⟨direction, supersedes, hplans⟩ := plans_of_planScaling htarget hplan hidle
  rcases runs_runScaling hscaled with ⟨-, hnot⟩ | ⟨target', direction', supersedes', f, observed,
    hplans', rfl, ⟨e, hrun, -, -⟩ | ⟨outcome, _, hrun, -, -⟩⟩
  · exact absurd hplans (hnot _ _ _)
  · exact .inr ⟨direction', supersedes', _, target', f, _, hplans', List.append_assoc .., hrun⟩
  · exact .inr ⟨direction', supersedes', _, target', f, _, hplans', List.append_assoc .., hrun⟩

/-- A pass with these calls has run its cleanup, which did not fail as a whole. Where the registry has
all kinds, the failures of its report are those of its calls. -/
def CleansWholly (registry : Registry) (spec : ScheduleSpec) (ns : String) (now : Instant)
    (trace : List Exchange) : Prop :=
  ∃ config first middle last result, spec.cleanupConfig = some config ∧
    trace = first ++ (middle ++ last) ∧
    Runs (Cleanup.run registry config ns now).run middle result ∧
    (∀ e, result ≠ .ok (.error e)) ∧
    ((∀ kind : ResourceKind, (registry.get? kind.name).isSome) → ∀ report,
      result = .ok (.ok report) →
      report.failures.Perm (middle.filterMap Exchange.cleanupFailure?))

theorem namespacesOf_of_ne_empty {own : String} (config : CleanupConfig) (hne : own ≠ "") :
    ∃ namespaces, Cleanup.namespacesOf config own = .ok namespaces := by
  unfold Cleanup.namespacesOf
  split
  · exact ⟨_, if_neg hne⟩
  · exact ⟨_, rfl⟩

theorem name_of_ofName? {kind : String} {k : ResourceKind} (h : ResourceKind.ofName? kind = some k) :
    k.name = kind := by
  simpa using List.find?_some h

/-- A registry that has all kinds has those of a spec in order. -/
theorem unlistedIn_eq_nil {kinds : List String}
    (hregistry : ∀ kind : ResourceKind, (registry.get? kind.name).isSome)
    (hkinds : ∀ kind ∈ kinds, (ResourceKind.ofName? kind).isSome) :
    Cleanup.unlistedIn registry kinds = [] := by
  rw [Cleanup.unlistedIn, List.map_eq_nil_iff, List.filter_eq_nil_iff]
  intro kind hkind hnone
  obtain ⟨k, hk⟩ := Option.isSome_iff_exists.1 (hkinds kind hkind)
  have hsome := hregistry k
  rw [name_of_ofName? hk] at hsome
  rw [Option.isNone_iff_eq_none.1 hnone] at hsome
  cases hsome

/-- A cleanup that is due is run. -/
theorem cleansWholly_of_due (hv : s.spec.validate zones = .ok ()) (hne : ns ≠ "")
    (hdue : isDue s.spec.cleanup z s.recorded.lastCleanup now = .ok true)
    (h : Runs (runSteps registry settings s ns z now).run trace r) :
    PlanBreaks s z now r ∨ CleansWholly registry s.spec ns now trace := by
  obtain ⟨config, hconfig, hkinds⟩ := ScheduleSpec.config_of_validate hv (ne_empty_of_due hdue)
  have hrun {scaled : Progress} {middle : List Exchange} {r : Except Overflow Progress}
      (h : Runs (runCleanup registry s.spec z ns s.recorded now scaled) middle r) :
      ∃ result, Runs (Cleanup.run registry config ns now).run middle result := by
    obtain ⟨result, hresult, -⟩ := runs_runCleanup.1 h
    rcases runs_cleanupResult hresult with ⟨x, hdue', -, -⟩ | ⟨due, hdue', hnone, -, -⟩ |
      ⟨config', r', -, hconfig', hrun, -⟩
    · cases hdue.symm.trans hdue'
    · obtain rfl := Except.ok.inj (hdue.symm.trans hdue')
      cases hconfig.symm.trans (hnone rfl)
    · obtain rfl := Option.some.inj (hconfig.symm.trans hconfig')
      exact ⟨r', hrun⟩
  have hcleans {first middle last : List Exchange}
      {result : Except Overflow (Except Failure CleanupReport)}
      (hrun : Runs (Cleanup.run registry config ns now).run middle result) :
      CleansWholly registry s.spec ns now (first ++ (middle ++ last)) := by
    obtain ⟨namespaces, hnamespaces⟩ := namespacesOf_of_ne_empty config hne
    refine ⟨config, first, middle, last, result, hconfig, rfl, hrun, ?_, ?_⟩
    · rintro e rfl
      cases hnamespaces.symm.trans (Cleanup.namespacesOf_of_run hrun).1
    · rintro hregistry report rfl
      obtain ⟨-, hfailures⟩ := Cleanup.accounts_of_registry hrun hnamespaces
      rwa [unlistedIn_eq_nil hregistry hkinds, List.nil_append] at hfailures
  rcases runs_runSteps h with ⟨x, rfl, hx⟩ | ⟨scaled, first, rest, rfl, hscaled, ⟨x, -, hx⟩ |
    ⟨progress, middle, last, written, rfl, hprogress, -, -⟩⟩
  · exact .inl (planBreaks_of_runScaling hx)
  · obtain ⟨result, hresult⟩ := hrun hx
    rw [← List.append_nil rest]
    exact .inr (hcleans hresult)
  · obtain ⟨result, hresult⟩ := hrun hprogress
    exact .inr (hcleans hresult)

/-- A pass that fails has failed in the write of its status, which was its last call. -/
theorem refusedWrite_of_error {e : Failure}
    (h : Runs (runSteps registry settings s ns z now).run trace (.ok (.error e))) :
    ∃ before name patch, trace = before ++ [⟨.patchStatus ns name patch, .error e⟩] := by
  rcases runs_runSteps h with ⟨x, hx, -⟩ | ⟨scaled, first, rest, rfl, -, ⟨x, hx, -⟩ |
    ⟨progress, middle, last, written, rfl, -, hwritten, hr⟩⟩
  · cases hx
  · cases hx
  cases written with
  | error e' =>
    obtain rfl := Except.error.inj (Except.ok.inj hr)
    rcases runs_writeStatus.1 hwritten with ⟨-, -, hnone⟩ | ⟨-, answer, rfl, hanswer⟩
    · cases hnone
    · obtain rfl := Except.ok.inj hanswer
      exact ⟨first ++ middle, _, _, (List.append_assoc ..).symm⟩
  | ok u =>
    cases hwake : nextWake s.spec z now with
    | error x =>
      rw [hwake] at hr
      cases hr
    | ok wake =>
      rw [hwake] at hr
      cases hr

/-- The recorded times and the instant of a pass can be written, and lie before the last second of
time. -/
structure IsTimely (status : ScheduleStatus) (now : Instant) : Prop where
  named : status.HasNamedTimes
  now : now.IsNamed ∧ now.second < Instant.maxSecond
  scaleDown : ∀ t ∈ status.lastScaleDown, t.second < Instant.maxSecond
  scaleUp : ∀ t ∈ status.lastScaleUp, t.second < Instant.maxSecond
  cleanup : ∀ t ∈ status.lastCleanup, t.second < Instant.maxSecond

theorem exists_isDue {last : Option Instant} (schedule : String) (z : Zone) (now : Instant)
    (hnamed : ∀ t ∈ last, t.IsNamed) (hlt : ∀ t ∈ last, t.second < Instant.maxSecond) :
    ∃ due, isDue schedule z last now = .ok due := by
  have hbefore : (last.getD .epoch).second < Instant.maxSecond := by
    cases last with
    | none =>
      rw [Instant.maxSecond_eq]
      decide
    | some t => exact hlt t rfl
  obtain ⟨next, hnext⟩ := nextOccurrence_of_lt schedule z (isNamed_getD hnamed) hbefore
  exact ⟨_, isDue_eq_ok_iff.2 ⟨next, hnext, rfl⟩⟩

/-- In time a plan can be made. -/
theorem exists_plan_of_isTimely (hz : z.Steady) (hshort : z.IsShort) (h : IsTimely status now) :
    ∃ plan, planScaling spec.scaleDown spec.scaleUp z status.lastScaleDown status.lastScaleUp now =
      .ok plan := by
  obtain ⟨down, hdown⟩ := exists_isDue spec.scaleDown z now h.named.scaleDown h.scaleDown
  obtain ⟨up, hup⟩ := exists_isDue spec.scaleUp z now h.named.scaleUp h.scaleUp
  refine exists_planScaling hdown hup fun hdue => exists_latestOccurrence h.now.1 ?_
  rw [hdue] at hdown
  exact low_of_due hz hshort (isNamed_getD h.named.scaleDown).isValid hdown

/-- In time a pass comes to a result, unless its cleanup leaves the range of times. -/
theorem exists_result_of_isTimely (hz : z.Steady) (hshort : z.IsShort)
    (htimes : IsTimely s.recorded now)
    (h : Runs (runSteps registry settings s ns z now).run trace r)
    (hover : ¬ CleanupOverruns s.spec z ns s.recorded now trace) : ∃ result, r = .ok result := by
  rcases runs_runSteps h with ⟨x, -, hx⟩ | ⟨scaled, first, rest, rfl, -, ⟨x, -, hx⟩ |
    ⟨progress, middle, last, written, rfl, -, -, rfl⟩⟩
  · obtain ⟨plan, hplan⟩ := exists_plan_of_isTimely hz hshort htimes
    obtain ⟨scaled, hscaled⟩ := hx.ok_of_completes (completes_runScaling .start hplan)
    cases hscaled
  · have hbreaks := (breaks_runCleanup_iff hx).1 ⟨x, rfl⟩
    exact absurd (hbreaks.mono (List.subset_append_right _ _)) hover
  · cases written with
    | error e => exact ⟨_, rfl⟩
    | ok u =>
      obtain ⟨wake, hwake⟩ := exists_nextWake_of_lt s.spec z htimes.now.1 htimes.now.2
      rw [hwake]
      exact ⟨_, rfl⟩

/-- A pass over a spec in order leaves out nothing that is due. -/
structure Covers (registry : Registry) (s : Schedule) (ns : String) (z : Zone) (now : Instant)
    (trace : List Exchange) (r : Except Overflow (Except Failure Action)) : Prop where
  fails : ∀ e, r = .ok (.error e) →
    ∃ before name patch, trace = before ++ [⟨.patchStatus ns name patch, .error e⟩]
  scales : isDue s.spec.scaleDown z s.recorded.lastScaleDown now = .ok true ∨
      isDue s.spec.scaleUp z s.recorded.lastScaleUp now = .ok true →
    PlanBreaks s z now r ∨ ∃ direction supersedes result,
      Attempts s.spec z s.recorded now trace direction supersedes result
  cleans : isDue s.spec.cleanup z s.recorded.lastCleanup now = .ok true →
    PlanBreaks s z now r ∨ CleansWholly registry s.spec ns now trace
  /-- It breaks off at the end of time only, or in the cleanup. -/
  ends : z.Steady → z.IsShort → IsTimely s.recorded now → ¬ PlanBreaks s z now r ∧
    (¬ CleanupOverruns s.spec z ns s.recorded now trace → ∃ result, r = .ok result)
  supported : ∀ x ∈ trace, x.call.IsSupported

end Pass

/-- A spec in order has all that a pass over it looks for. A pass over it fails only where the write
of its status does, runs what is due, also a cleanup, which does not fail as a whole, and asks only for
kinds that the cluster knows. A spec that is not in order leads to no call, and to the next pass after
the time for such specs. -/
theorem validation_covers_pass {zones : Zone.Lookup} {registry : Registry} {settings : Settings}
    {s : Schedule} {ns : String} {now : Instant} {trace : List Exchange}
    {r : Except Overflow (Except Failure Action)} (hns : s.metadata.ns = some ns) (hne : ns ≠ "")
    (h : Runs (reconcile registry settings s now zones).run trace r) :
    (s.spec.validate zones = .ok () → s.spec.IsCovered zones ∧
      (∃ z, Zone.parse s.spec.timeZone zones = .ok z ∧ Covers registry s ns z now trace r) ∧
      ∀ (σ : Type) (transport : Transport σ) (state : σ),
        ∀ x ∈ (reconcile registry settings s now zones).run.trace (Remote.handler transport) state,
          ∀ kind, x.failure? ≠ some (.unsupportedKind kind)) ∧
    ∀ e, s.spec.validate zones = .error e →
      trace = [] ∧ r = .ok (.ok (.requeue settings.invalidSpecRetry)) := by
  refine ⟨fun hv => ⟨ScheduleSpec.isCovered_of_validate hv, ?_, ?_⟩, fun e hv => ?_⟩
  · obtain ⟨z, hz⟩ := ScheduleSpec.zone_of_validate hv
    have hsupported := supported_of_reconcile hv h
    rw [reconcile_eq hns hv hz] at h
    refine ⟨z, hz, fun e hr => ?_, fun hdue => attempts_of_due hv hdue h,
      fun hdue => cleansWholly_of_due hv hne hdue h,
      fun hsteady hshort htimes => ⟨?_, fun hover => ?_⟩, hsupported⟩
    · subst hr
      exact refusedWrite_of_error h
    · rintro ⟨x, -, hx⟩
      obtain ⟨plan, hplan⟩ := exists_plan_of_isTimely hsteady hshort htimes
      cases hplan.symm.trans hx
    · exact exists_result_of_isTimely hsteady hshort htimes h hover
  · intro σ transport state x hx kind hfailure
    have hsupported := supported_of_reconcile hv (runs_trace (Remote.handler transport) _ state) x hx
    obtain ⟨state', hanswer⟩ := exists_answer_of_mem_trace hx
    obtain ⟨c, answer⟩ := x
    cases answer with
    | ok a => cases hfailure
    | error e =>
      obtain rfl := Option.some.inj hfailure
      exact Remote.answer_ne_unsupported hsupported state' hanswer.symm
  · unfold reconcile at h
    simp only [hns, hv] at h
    exact runs_done.1 h

/-- A schedule that is never due. -/
def unscheduled : Schedule :=
  { tidied with spec := { tidied.spec with scaleDown := "", scaleUp := "", cleanup := "" } }

/-- The pass that scales and cleans up over the registry of the cluster. -/
def coveredPass : Program (Except Failure Action) :=
  (reconcile Remote.registry .default tidied evening).run

/-- One pass over each: the one that has something to do, and the one that has nothing. -/
theorem validation_covers_pass_tidied :
    (tidied.spec.IsCovered Zone.find? ∧
      (∃ z, Zone.parse tidied.spec.timeZone = .ok z ∧
        Covers Remote.registry tidied "shop" z evening
          (coveredPass.trace MemoryStore.handler relicStore)
          (coveredPass.run MemoryStore.handler relicStore).1) ∧
      ∀ (σ : Type) (transport : Transport σ) (state : σ),
        ∀ x ∈ coveredPass.trace (Remote.handler transport) state,
          ∀ kind, x.failure? ≠ some (.unsupportedKind kind)) ∧
    (reconcile [] .default unscheduled evening).run.trace MemoryStore.handler relicStore = [] ∧
      ((reconcile [] .default unscheduled evening).run.run MemoryStore.handler relicStore).1 =
        .ok (.ok (.requeue Settings.default.invalidSpecRetry)) := by
  have hunscheduled : unscheduled.spec.validate = .error .noSchedules := by decide +kernel
  have hns : tidied.metadata.ns = some "shop" := rfl
  have hns' : unscheduled.metadata.ns = some "shop" := rfl
  exact ⟨(validation_covers_pass hns (by decide)
      (runs_trace MemoryStore.handler coveredPass relicStore)).1 validate_tidied,
    (validation_covers_pass hns' (by decide)
      (runs_trace MemoryStore.handler (reconcile [] .default unscheduled evening).run relicStore)).2 _
        hunscheduled⟩

end ScheduledScaling
