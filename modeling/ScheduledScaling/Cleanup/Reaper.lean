import ScheduledScaling.Cleanup.Policy
import ScheduledScaling.Store.Program
/-!
One pass of cleanup. Each configured kind is looked up and listed, in each namespace or, if it
lives outside namespaces, once; what is due is deleted, or only counted in a dry run. What fails
is noted and passed over. The pass as a whole fails only when it has nowhere to look.
-/
namespace ScheduledScaling

/-- The kinds that can be listed, and where their objects live. -/
abbrev Registry := Keyed Scope

structure CleanupFailure where
  kind : String
  /-- The namespace; none for resources outside namespaces. -/
  ns : Option String
  cause : String
  deriving DecidableEq, Repr

structure CleanupReport where
  /-- The resources deleted, or found in a dry run. The counter is a word of 32 bits with a sign: only
  a count up to its high end is one that a pass can report. -/
  count : Nat
  dryRun : Bool
  failures : List CleanupFailure
  deriving DecidableEq, Repr

namespace CleanupReport

def counted (r : CleanupReport) : CleanupReport := { r with count := r.count + 1 }

def failed (failure : CleanupFailure) (r : CleanupReport) : CleanupReport :=
  { r with failures := r.failures ++ [failure] }

end CleanupReport

namespace Cleanup

/-- Where to look: the configured namespaces, or else the schedule's own. -/
def namespacesOf (config : CleanupConfig) (own : String) : Except Failure (List String) :=
  match config.namespaces.filter (· ≠ "") with
  | [] =>
    if own = "" then
      .error (.invalidConfig "cleanup has no namespaces and the schedule has no namespace")
    else .ok [own]
  | configured => .ok configured

/-- The selector of the resources that have all of some labels. -/
def selectorOf (labels : Keyed String) : Option String :=
  if labels.isEmpty then none
  else some (String.intercalate "," (labels.map fun (k, v) => k ++ "=" ++ v))

/-- Removes a listed resource if it is due. -/
def reapOne (kind : String) (policy : CleanupPolicy) (now : Instant) (candidate : Candidate)
    (report : CleanupReport) : Program CleanupReport := do
  if ← Program.lift (policy.shouldRemove candidate now) then
    if report.dryRun then return report.counted
    match ← (Operation.delete kind candidate).run with
    | .ok () => return report.counted
    | .error e => return report.failed ⟨candidate.kind, candidate.ns, e.message⟩
  else return report

def reapAll (kind : String) (policy : CleanupPolicy) (now : Instant) :
    List Candidate → CleanupReport → Program CleanupReport
  | [], report => return report
  | candidate :: rest, report => do
    let report ← reapOne kind policy now candidate report
    reapAll kind policy now rest report

/-- Lists a kind in one namespace, or outside namespaces, and removes what is due. -/
def reapScope (kind : String) (policy : CleanupPolicy) (selector : Option String)
    (now : Instant) (ns : Option String) (report : CleanupReport) : Program CleanupReport := do
  match ← (Operation.list kind ns selector).run with
  | .error e => return report.failed ⟨kind, ns, e.message⟩
  | .ok candidates => reapAll kind policy now candidates report

def reapScopes (kind : String) (policy : CleanupPolicy) (selector : Option String)
    (now : Instant) : List (Option String) → CleanupReport → Program CleanupReport
  | [], report => return report
  | ns :: rest, report => do
    let report ← reapScope kind policy selector now ns report
    reapScopes kind policy selector now rest report

/-- The lists to ask for: one a namespace, or one for a kind outside namespaces. -/
def scopesOf (namespaces : List String) : Scope → List (Option String)
  | .namespaced => namespaces.map some
  | .cluster => [none]

def reapKinds (registry : Registry) (policy : CleanupPolicy) (selector : Option String)
    (now : Instant) (namespaces : List String) :
    List String → CleanupReport → Program CleanupReport
  | [], report => return report
  | kind :: rest, report => do
    let report ← match registry.get? kind with
      | none =>
        pure (report.failed ⟨kind, none, (Failure.unsupportedKind kind).message⟩)
      | some scope =>
        reapScopes kind policy selector now (scopesOf namespaces scope) report
    reapKinds registry policy selector now namespaces rest report

/-- Runs one pass; `own` is the schedule's namespace. -/
def run (registry : Registry) (config : CleanupConfig) (own : String) (now : Instant) :
    Operation CleanupReport := do
  let namespaces ← ExceptT.mk (Program.done (namespacesOf config own))
  let policy ← ExceptT.lift (Program.lift (CleanupPolicy.ofConfig config))
  ExceptT.lift (reapKinds registry policy (selectorOf config.labelSelector) now namespaces
    config.resourceTypes ⟨0, config.dryRun, []⟩)

end Cleanup

end ScheduledScaling
