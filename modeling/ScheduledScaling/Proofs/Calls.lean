import ScheduledScaling.Proofs.Scaling
import ScheduledScaling.Proofs.Traces
/-!
# The calls of each step

Scaling reads and writes the workload, and cleanup lists and deletes resources. Neither writes the
status, whatever the store answers. Once a plan is made, scaling comes to a result
(`completes_runScaling`).
-/
namespace ScheduledScaling

open Program

/-- A call about the workload that is scaled. -/
def StoreCall.IsWorkloadCall : StoreCall → Prop
  | fetch _ | replace _ _ => True
  | _ => False

/-- A call about resources that are cleaned up. -/
def StoreCall.IsResourceCall : StoreCall → Prop
  | list _ _ _ | delete _ _ => True
  | _ => False

/-- A call about the workload that a target names. -/
def StoreCall.IsAbout (target : Target) : StoreCall → Prop
  | fetch named | replace named _ => named = target
  | _ => False

/-- A call about resources of a kind. -/
def StoreCall.IsAboutKind (kind : String) : StoreCall → Prop
  | list named _ _ | delete named _ => named = kind
  | _ => False

theorem StoreCall.IsAbout.isWorkloadCall {target : Target} {c : StoreCall} (h : c.IsAbout target) :
    c.IsWorkloadCall := by
  cases c <;> trivial

theorem StoreCall.IsAboutKind.isResourceCall {kind : String} {c : StoreCall}
    (h : c.IsAboutKind kind) : c.IsResourceCall := by
  cases c <;> trivial

/-! ## Scaling -/

namespace Scaling
variable {direction : Pass.Direction} {target : Target}

theorem onlyCalls_zero (before : Int) (w : Workload) :
    OnlyCalls (StoreCall.IsAbout target) (zero target before w) := by
  unfold zero
  split
  · trivial
  · exact ⟨rfl, fun _ => trivial⟩

theorem onlyCalls_afterFetch (w : Workload) :
    OnlyCalls (StoreCall.IsAbout target) (afterFetch direction target w) := by
  cases direction with
  | down =>
    change OnlyCalls _ (record target w)
    unfold record
    split
    · exact onlyCalls_zero _ _
    · refine ⟨rfl, fun answer => ?_⟩
      cases answer with
      | error e => trivial
      | ok w => exact onlyCalls_zero _ _
  | up =>
    change OnlyCalls _ (restore target w)
    unfold restore
    split
    · trivial
    · split
      · trivial
      · exact ⟨rfl, fun _ => trivial⟩

/-- Scaling is about its target. -/
theorem isAbout_scale : OnlyCalls (StoreCall.IsAbout target) (direction.scale target).run := by
  rw [scale_run]
  refine ⟨rfl, fun answer => ?_⟩
  cases answer with
  | error e => trivial
  | ok w => exact onlyCalls_afterFetch w

end Scaling

namespace Pass

theorem isAbout_observedReplicas (target : Target) (outcome : ScaleOutcome) :
    OnlyCalls (StoreCall.IsAbout target) (observedReplicas target outcome) := by
  refine ⟨rfl, fun answer => ?_⟩
  cases answer <;> trivial

/-- The scaling of a pass is about the target of the spec. -/
theorem isAbout_runScaling (spec : ScheduleSpec) (z : Zone) (status : ScheduleStatus)
    (now : Instant) (progress : Progress) :
    OnlyCalls (fun c => ∃ target, spec.target = some target ∧ c.IsAbout target)
      (runScaling spec z status now progress) := by
  unfold runScaling
  split
  · trivial
  rename_i target htarget
  refine onlyCalls_bind onlyCalls_lift fun plan => ?_
  split
  · trivial
  refine onlyCalls_bind (Scaling.isAbout_scale.mono fun c h => ⟨target, htarget, h⟩) fun result => ?_
  split
  · trivial
  · exact onlyCalls_bind
      ((isAbout_observedReplicas _ _).mono fun c h => ⟨target, htarget, h⟩) fun _ => trivial

theorem onlyCalls_runScaling (spec : ScheduleSpec) (z : Zone) (status : ScheduleStatus)
    (now : Instant) (progress : Progress) :
    OnlyCalls StoreCall.IsWorkloadCall (runScaling spec z status now progress) :=
  (isAbout_runScaling spec z status now progress).mono fun _ ⟨_, _, h⟩ => h.isWorkloadCall

end Pass

/-! ## Scaling comes to a result -/

namespace Scaling
variable {direction : Pass.Direction} {target : Target}

theorem completes_zero (before : Int) (w : Workload) : Completes (zero target before w) := by
  unfold zero
  split
  · trivial
  · exact fun _ => trivial

theorem completes_afterFetch (w : Workload) : Completes (afterFetch direction target w) := by
  cases direction with
  | down =>
    change Completes (record target w)
    unfold record
    split
    · exact completes_zero _ _
    · intro answer
      cases answer with
      | error e => trivial
      | ok w => exact completes_zero _ _
  | up =>
    change Completes (restore target w)
    unfold restore
    split
    · trivial
    · split
      · trivial
      · exact fun _ => trivial

theorem completes_scale : Completes (direction.scale target).run := by
  rw [scale_run]
  intro answer
  cases answer with
  | error e => trivial
  | ok w => exact completes_afterFetch w

end Scaling

/-- Only making the plan can break off in a scaling step. -/
theorem Pass.completes_runScaling {spec : ScheduleSpec} {z : Zone} {status : ScheduleStatus}
    {now : Instant} {plan : ScalingPlan} (progress : Progress)
    (hplan : planScaling spec.scaleDown spec.scaleUp z status.lastScaleDown status.lastScaleUp now =
      .ok plan) : Completes (runScaling spec z status now progress) := by
  unfold runScaling
  split
  · trivial
  rw [hplan]
  apply completes_bind (p := .done plan) trivial
  intro plan
  split
  · trivial
  apply completes_bind Scaling.completes_scale
  intro result
  split
  · trivial
  · apply completes_bind
    · intro answer
      cases answer <;> trivial
    · exact fun _ => trivial

/-! ## Cleanup -/

namespace Cleanup
variable {kind : String} {policy : CleanupPolicy} {now : Instant} {allowed : StoreCall → Prop}

theorem onlyCalls_reapOne (hdelete : ∀ candidate, allowed (.delete kind candidate))
    (candidate : Candidate) (report : CleanupReport) :
    OnlyCalls allowed (reapOne kind policy now candidate report) := by
  refine onlyCalls_bind onlyCalls_lift fun due => ?_
  split
  · split
    · trivial
    · refine ⟨hdelete candidate, fun answer => ?_⟩
      cases answer <;> trivial
  · trivial

theorem onlyCalls_reapAll (hdelete : ∀ candidate, allowed (.delete kind candidate))
    (candidates : List Candidate) (report : CleanupReport) :
    OnlyCalls allowed (reapAll kind policy now candidates report) := by
  induction candidates generalizing report with
  | nil => trivial
  | cons candidate rest ih =>
    exact onlyCalls_bind (onlyCalls_reapOne hdelete _ _) fun report => ih report

variable {selector : Option String}

theorem onlyCalls_reapScopes (hlist : ∀ ns, allowed (.list kind ns selector))
    (hdelete : ∀ candidate, allowed (.delete kind candidate)) (scopes : List (Option String))
    (report : CleanupReport) :
    OnlyCalls allowed (reapScopes kind policy selector now scopes report) := by
  induction scopes generalizing report with
  | nil => trivial
  | cons ns rest ih =>
    refine onlyCalls_bind ⟨hlist ns, fun answer => ?_⟩ fun report => ih report
    cases answer with
    | error e => trivial
    | ok candidates => exact onlyCalls_reapAll hdelete _ _

theorem onlyCalls_reapKinds {registry : Registry} {namespaces kinds : List String}
    (hlist : ∀ kind ∈ kinds, ∀ ns, allowed (.list kind ns selector))
    (hdelete : ∀ kind ∈ kinds, ∀ candidate, allowed (.delete kind candidate))
    (report : CleanupReport) :
    OnlyCalls allowed (reapKinds registry policy selector now namespaces kinds report) := by
  induction kinds generalizing report with
  | nil => trivial
  | cons kind rest ih =>
    obtain ⟨hlist, hlists⟩ := List.forall_mem_cons.1 hlist
    obtain ⟨hdelete, hdeletes⟩ := List.forall_mem_cons.1 hdelete
    unfold reapKinds
    split
    · exact ih hlists hdeletes _
    · exact onlyCalls_bind (onlyCalls_reapScopes hlist hdelete _ _) (ih hlists hdeletes)

/-- A cleanup lists the configured kinds by the configured labels, and deletes what it has listed. -/
theorem onlyCalls_run_of (registry : Registry) (config : CleanupConfig) (own : String)
    (hlist : ∀ kind ∈ config.resourceTypes, ∀ ns,
      allowed (.list kind ns (selectorOf config.labelSelector)))
    (hdelete : ∀ kind ∈ config.resourceTypes, ∀ candidate, allowed (.delete kind candidate)) :
    OnlyCalls allowed (run registry config own now).run := by
  unfold run
  cases namespacesOf config own with
  | error e => trivial
  | ok namespaces =>
    change OnlyCalls _ (ExceptT.run (ExceptT.lift (lift (CleanupPolicy.ofConfig config)) >>= _))
    rw [ExceptT.run_bind, ExceptT.run_lift, bind_map_left]
    refine onlyCalls_bind onlyCalls_lift fun policy => ?_
    dsimp only
    rw [ExceptT.run_lift, map_eq_pure_bind]
    exact onlyCalls_bind (onlyCalls_reapKinds hlist hdelete _) fun _ => trivial

/-- A cleanup is about the configured kinds. -/
theorem isAboutKind_run (registry : Registry) (config : CleanupConfig) (own : String) :
    OnlyCalls (fun c => ∃ kind ∈ config.resourceTypes, c.IsAboutKind kind)
      (run registry config own now).run :=
  onlyCalls_run_of registry config own (fun kind hkind _ => ⟨kind, hkind, rfl⟩)
    fun kind hkind _ => ⟨kind, hkind, rfl⟩

theorem onlyCalls_run (registry : Registry) (config : CleanupConfig) (own : String) :
    OnlyCalls StoreCall.IsResourceCall (run registry config own now).run :=
  (isAboutKind_run registry config own).mono fun _ ⟨_, _, h⟩ => h.isResourceCall

end Cleanup

namespace Pass

/-- The cleanup of a pass is about the kinds that the spec has configured. -/
theorem isAboutKind_runCleanup (registry : Registry) (spec : ScheduleSpec) (z : Zone) (ns : String)
    (status : ScheduleStatus) (now : Instant) (progress : Progress) :
    OnlyCalls (fun c => ∃ config, spec.cleanupConfig = some config ∧
        ∃ kind ∈ config.resourceTypes, c.IsAboutKind kind)
      (runCleanup registry spec z ns status now progress) := by
  refine onlyCalls_bind onlyCalls_lift fun due => ?_
  split
  · split
    · trivial
    · rename_i config hconfig
      refine onlyCalls_bind ((Cleanup.isAboutKind_run _ config _).mono fun c h =>
        ⟨config, hconfig, h⟩) fun result => ?_
      cases result <;> trivial
  · trivial

theorem onlyCalls_runCleanup (registry : Registry) (spec : ScheduleSpec) (z : Zone) (ns : String)
    (status : ScheduleStatus) (now : Instant) (progress : Progress) :
    OnlyCalls StoreCall.IsResourceCall (runCleanup registry spec z ns status now progress) :=
  (isAboutKind_runCleanup registry spec z ns status now progress).mono
    fun _ ⟨_, _, _, _, h⟩ => h.isResourceCall

end Pass

end ScheduledScaling
