import ScheduledScaling.Proofs.DryRun
/-!
# The cleanup step of a pass

What the cleanup of a pass comes to does not depend on the scaling before it: `cleanupResult` is the
cleanup alone, and `noted` adds its result to the progress of the pass (`runCleanup_eq`). It does not
come to a result exactly where a time or a duration leaves its range: `breaks_iff_cleanupOverruns`.
-/
namespace ScheduledScaling

open Program

/-! ## A run of a cleanup -/

namespace Cleanup
variable {registry : Registry} {config : CleanupConfig} {own : String} {now : Instant}
  {trace : List Exchange}

/-- A cleanup fails if it has nowhere to look, breaks off if the age of orphans leaves the range of
durations, and otherwise goes through the kinds. -/
theorem runs_run {r : Except Overflow (Except Failure CleanupReport)}
    (h : Runs (run registry config own now).run trace r) :
    (∃ e, namespacesOf config own = .error e ∧ trace = [] ∧ r = .ok (.error e)) ∨
    ∃ namespaces, namespacesOf config own = .ok namespaces ∧
      ((∃ x, CleanupPolicy.ofConfig config = .error x ∧ trace = [] ∧ r = .error x) ∨
        ∃ policy r', CleanupPolicy.ofConfig config = .ok policy ∧
          Runs (reapKinds registry policy (selectorOf config.labelSelector) now namespaces
            config.resourceTypes ⟨0, config.dryRun, []⟩) trace r' ∧ r = r'.map .ok) := by
  cases hnamespaces : namespacesOf config own with
  | error e =>
    rw [run_of_namespacesOf registry config hnamespaces] at h
    obtain ⟨rfl, rfl⟩ := runs_pure.1 h
    exact .inl ⟨e, rfl, rfl, rfl⟩
  | ok namespaces =>
    refine .inr ⟨namespaces, rfl, ?_⟩
    cases hpolicy : CleanupPolicy.ofConfig config with
    | error x =>
      rw [run_of_ofConfig registry config hnamespaces hpolicy] at h
      obtain ⟨rfl, rfl⟩ := runs_abort.1 h
      exact .inl ⟨x, rfl, rfl, rfl⟩
    | ok policy =>
      rw [run_eq registry config hnamespaces hpolicy, ← map_eq_pure_bind] at h
      obtain ⟨r', hrun, hr⟩ := runs_map.1 h
      exact .inr ⟨policy, r', rfl, hrun, hr⟩

/-- A cleanup that fails has nowhere to look, and makes no call. -/
theorem namespacesOf_of_run {e : Failure}
    (h : Runs (run registry config own now).run trace (.ok (.error e))) :
    namespacesOf config own = .error e ∧ trace = [] := by
  rcases runs_run h with ⟨e', hnamespaces, rfl, hr⟩ | ⟨namespaces, -, ⟨x, -, -, hr⟩ |
    ⟨policy, r', -, -, hr⟩⟩
  · cases hr
    exact ⟨hnamespaces, rfl⟩
  · cases hr
  · cases r' <;> cases hr

end Cleanup

/-! ## The step -/

namespace Pass
open Cleanup

/-- What the cleanup of a pass comes to; none if there is nothing to clean up. -/
def cleanupResult (registry : Registry) (spec : ScheduleSpec) (z : Zone) (ns : String)
    (status : ScheduleStatus) (now : Instant) :
    Program (Option (Except Failure CleanupReport)) := do
  if ← Program.lift (isDue spec.cleanup z status.lastCleanup now) then
    match spec.cleanupConfig with
    | none => return none
    | some config => some <$> (Cleanup.run registry config ns now).run
  else return none

/-- The progress of a pass with what its cleanup has come to. -/
def noted (status : ScheduleStatus) (now : Instant) (progress : Progress) :
    Option (Except Failure CleanupReport) → Progress
  | none => progress
  | some (.error e) => progress.fail "cleanup" e
  | some (.ok report) =>
    progress.succeed (cleanupNote report)
      { progress.patch with
        lastCleanup := some (advance status.lastCleanup now)
        cleanedUp := some report.count }

variable {registry : Registry} {spec : ScheduleSpec} {z : Zone} {ns : String}
  {status : ScheduleStatus} {now : Instant} {trace : List Exchange} {progress : Progress}

theorem runCleanup_eq : runCleanup registry spec z ns status now progress =
    noted status now progress <$> cleanupResult registry spec z ns status now := by
  unfold runCleanup cleanupResult
  cases isDue spec.cleanup z status.lastCleanup now with
  | error x => rfl
  | ok due =>
    cases due with
    | false => rfl
    | true =>
      cases spec.cleanupConfig with
      | none => rfl
      | some config =>
        change ((run registry config ns now).run >>= fun result => _) =
          noted status now progress <$> some <$> (run registry config ns now).run
        rw [Functor.map_map, map_eq_pure_bind]
        congr 1
        funext result
        cases result <;> rfl

/-- A run of the cleanup step is a run of the cleanup. -/
theorem runs_runCleanup {r : Except Overflow Progress} :
    Runs (runCleanup registry spec z ns status now progress) trace r ↔
      ∃ result, Runs (cleanupResult registry spec z ns status now) trace result ∧
        r = result.map (noted status now progress) := by
  rw [runCleanup_eq, runs_map]

/-- Cleaning up breaks off in telling whether it is due, comes to nothing if it is not or nothing is
configured, and otherwise is a run of the configured cleanup. -/
theorem runs_cleanupResult {r : Except Overflow (Option (Except Failure CleanupReport))}
    (h : Runs (cleanupResult registry spec z ns status now) trace r) :
    (∃ x, isDue spec.cleanup z status.lastCleanup now = .error x ∧ trace = [] ∧ r = .error x) ∨
    (∃ due, isDue spec.cleanup z status.lastCleanup now = .ok due ∧
      (due = true → spec.cleanupConfig = none) ∧ trace = [] ∧ r = .ok none) ∨
    ∃ config r', isDue spec.cleanup z status.lastCleanup now = .ok true ∧
      spec.cleanupConfig = some config ∧ Runs (run registry config ns now).run trace r' ∧
      r = r'.map some := by
  unfold cleanupResult at h
  rcases runs_lift_bind.1 h with ⟨due, hdue, h⟩ | ⟨x, hdue, rfl, rfl⟩
  rotate_left
  · exact .inl ⟨x, hdue, rfl, rfl⟩
  cases due with
  | false =>
    obtain ⟨rfl, rfl⟩ := runs_pure.1 h
    exact .inr (.inl ⟨false, hdue, nofun, rfl, rfl⟩)
  | true =>
    cases hconfig : spec.cleanupConfig with
    | none =>
      rw [hconfig] at h
      obtain ⟨rfl, rfl⟩ := runs_pure.1 h
      exact .inr (.inl ⟨true, hdue, fun _ => rfl, rfl, rfl⟩)
    | some config =>
      rw [hconfig] at h
      obtain ⟨r', hrun, hr⟩ := runs_map.1 h
      exact .inr (.inr ⟨config, r', hdue, rfl, hrun, hr⟩)

theorem onlyCalls_cleanupResult : OnlyCalls StoreCall.IsResourceCall
    (cleanupResult registry spec z ns status now) := by
  unfold cleanupResult
  apply onlyCalls_bind onlyCalls_lift
  intro due
  split
  · split
    · trivial
    · rw [map_eq_pure_bind]
      exact onlyCalls_bind (onlyCalls_run _ _ _) fun _ => trivial
  · trivial

/-! ## Where it breaks off -/

/-- The cleanup of a pass with these calls leaves the range of times or of durations. -/
inductive CleanupOverruns (spec : ScheduleSpec) (z : Zone) (ns : String) (status : ScheduleStatus)
    (now : Instant) (trace : List Exchange) : Prop
  /-- In telling whether it is due. -/
  | due {x} : isDue spec.cleanup z status.lastCleanup now = .error x →
    CleanupOverruns spec z ns status now trace
  /-- In the age of orphans. -/
  | age {config namespaces x} : isDue spec.cleanup z status.lastCleanup now = .ok true →
    spec.cleanupConfig = some config → namespacesOf config ns = .ok namespaces →
    CleanupPolicy.ofConfig config = .error x → CleanupOverruns spec z ns status now trace
  /-- In the deadline of a resource that is listed. -/
  | deadline {config namespaces policy exchange} :
    isDue spec.cleanup z status.lastCleanup now = .ok true → spec.cleanupConfig = some config →
    namespacesOf config ns = .ok namespaces → CleanupPolicy.ofConfig config = .ok policy →
    exchange ∈ trace → Undecided policy now exchange →
    CleanupOverruns spec z ns status now trace

/-- A cleanup that is not due, or not configured, does not. -/
theorem not_cleanupOverruns_of_idle {due : Bool}
    (hdue : isDue spec.cleanup z status.lastCleanup now = .ok due)
    (hnone : due = true → spec.cleanupConfig = none) :
    ¬ CleanupOverruns spec z ns status now trace := by
  intro hover
  cases hover with
  | due hdue' => cases hdue.symm.trans hdue'
  | age hdue' hconfig | deadline hdue' hconfig =>
    obtain rfl := Except.ok.inj (hdue.symm.trans hdue')
    cases (hnone rfl).symm.trans hconfig

/-- Nor does one that has nowhere to look. -/
theorem not_cleanupOverruns_of_nowhere {due : Bool} {config : CleanupConfig} {e : Failure}
    (hdue : isDue spec.cleanup z status.lastCleanup now = .ok due)
    (hconfig : spec.cleanupConfig = some config) (hnamespaces : namespacesOf config ns = .error e) :
    ¬ CleanupOverruns spec z ns status now trace := by
  intro hover
  cases hover with
  | due hdue' => cases hdue.symm.trans hdue'
  | age _ hconfig' hnamespaces' | deadline _ hconfig' hnamespaces' =>
    obtain rfl := Option.some.inj (hconfig.symm.trans hconfig')
    cases hnamespaces.symm.trans hnamespaces'

/-- One that has somewhere to look does at the age of orphans or at a resource. -/
theorem cleanupOverruns_iff_of_places {config : CleanupConfig} {namespaces : List String}
    (hdue : isDue spec.cleanup z status.lastCleanup now = .ok true)
    (hconfig : spec.cleanupConfig = some config)
    (hnamespaces : namespacesOf config ns = .ok namespaces) :
    CleanupOverruns spec z ns status now trace ↔
      (∃ x, CleanupPolicy.ofConfig config = .error x) ∨
        ∃ policy, CleanupPolicy.ofConfig config = .ok policy ∧
          ∃ exchange ∈ trace, Undecided policy now exchange := by
  constructor
  · intro hover
    cases hover with
    | due hdue' => cases hdue.symm.trans hdue'
    | age _ hconfig' _ hpolicy =>
      obtain rfl := Option.some.inj (hconfig.symm.trans hconfig')
      exact .inl ⟨_, hpolicy⟩
    | deadline _ hconfig' _ hpolicy hmem hundecided =>
      obtain rfl := Option.some.inj (hconfig.symm.trans hconfig')
      exact .inr ⟨_, hpolicy, _, hmem, hundecided⟩
  · rintro (⟨x, hpolicy⟩ | ⟨policy, hpolicy, exchange, hmem, hundecided⟩)
    · exact .age hdue hconfig hnamespaces hpolicy
    · exact .deadline hdue hconfig hnamespaces hpolicy hmem hundecided

/-- What a result is turned into has broken off if the result has. -/
theorem breaks_map_iff {α β : Type} {r : Except Overflow α} {f : α → β} :
    (∃ x, r.map f = .error x) ↔ ∃ x, r = .error x := by
  cases r with
  | error x => exact ⟨fun _ => ⟨x, rfl⟩, fun _ => ⟨x, rfl⟩⟩
  | ok a => constructor <;> rintro ⟨x, hx⟩ <;> cases hx

/-- A cleanup breaks off exactly if it leaves the range of times or of durations. -/
theorem breaks_iff_cleanupOverruns {r : Except Overflow (Option (Except Failure CleanupReport))}
    (h : Runs (cleanupResult registry spec z ns status now) trace r) :
    (∃ x, r = .error x) ↔ CleanupOverruns spec z ns status now trace := by
  rcases runs_cleanupResult h with ⟨x, hdue, rfl, rfl⟩ | ⟨due, hdue, hnone, rfl, rfl⟩ |
    ⟨config, r', hdue, hconfig, hrun, rfl⟩
  · exact ⟨fun _ => .due hdue, fun _ => ⟨x, rfl⟩⟩
  · refine iff_of_false ?_ (not_cleanupOverruns_of_idle hdue hnone)
    rintro ⟨x, hx⟩
    cases hx
  rw [breaks_map_iff]
  rcases runs_run hrun with ⟨e, hnamespaces, rfl, rfl⟩ | ⟨namespaces, hnamespaces, hrest⟩
  · refine iff_of_false ?_ (not_cleanupOverruns_of_nowhere hdue hconfig hnamespaces)
    rintro ⟨x, hx⟩
    cases hx
  rw [cleanupOverruns_iff_of_places hdue hconfig hnamespaces]
  rcases hrest with ⟨x, hpolicy, rfl, rfl⟩ | ⟨policy, r'', hpolicy, -, rfl⟩
  · exact ⟨fun _ => .inl ⟨x, hpolicy⟩, fun _ => ⟨x, rfl⟩⟩
  · rw [breaksAtUndecided_run registry ns hpolicy trace _ hrun]
    constructor
    · exact fun hundecided => .inr ⟨policy, hpolicy, hundecided⟩
    · rintro (⟨x, hx⟩ | ⟨policy', hpolicy', hundecided⟩)
      · cases hpolicy.symm.trans hx
      · obtain rfl := Except.ok.inj (hpolicy.symm.trans hpolicy')
        exact hundecided

/-- The cleanup step breaks off where the cleanup does. -/
theorem breaks_runCleanup_iff {r : Except Overflow Progress}
    (h : Runs (runCleanup registry spec z ns status now progress) trace r) :
    (∃ x, r = .error x) ↔ CleanupOverruns spec z ns status now trace := by
  obtain ⟨result, hresult, rfl⟩ := runs_runCleanup.1 h
  rw [breaks_map_iff]
  exact breaks_iff_cleanupOverruns hresult

/-- Calls that are not about resources do not count. -/
theorem CleanupOverruns.of_append {first middle last : List Exchange}
    (h : CleanupOverruns spec z ns status now (first ++ (middle ++ last)))
    (hfirst : ∀ x ∈ first, ¬ x.call.IsResourceCall) (hlast : ∀ x ∈ last, ¬ x.call.IsResourceCall) :
    CleanupOverruns spec z ns status now middle := by
  have hresource {policy : CleanupPolicy} {x : Exchange} (hx : Undecided policy now x) :
      x.call.IsResourceCall := by
    obtain ⟨c, answer⟩ := x
    cases c <;> trivial
  cases h with
  | due hdue => exact .due hdue
  | age hdue hconfig hnamespaces hpolicy => exact .age hdue hconfig hnamespaces hpolicy
  | deadline hdue hconfig hnamespaces hpolicy hmem hundecided =>
    rcases List.mem_append.1 hmem with hmem | hmem
    · exact absurd (hresource hundecided) (hfirst _ hmem)
    rcases List.mem_append.1 hmem with hmem | hmem
    · exact .deadline hdue hconfig hnamespaces hpolicy hmem hundecided
    · exact absurd (hresource hundecided) (hlast _ hmem)

theorem CleanupOverruns.mono {rest : List Exchange} (h : CleanupOverruns spec z ns status now trace)
    (hsub : trace ⊆ rest) : CleanupOverruns spec z ns status now rest := by
  cases h with
  | due hdue => exact .due hdue
  | age hdue hconfig hnamespaces hpolicy => exact .age hdue hconfig hnamespaces hpolicy
  | deadline hdue hconfig hnamespaces hpolicy hmem hundecided =>
    exact .deadline hdue hconfig hnamespaces hpolicy (hsub hmem) hundecided

end Pass

end ScheduledScaling
