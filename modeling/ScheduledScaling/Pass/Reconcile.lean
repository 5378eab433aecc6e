import ScheduledScaling.Cleanup.Reaper
import ScheduledScaling.Plan.Due
import ScheduledScaling.Workload.Scaling
/-!
One pass over a schedule: check the spec, scale and clean up what is due, write the fields of the
status that changed, and tell when to look again. Scaling and cleanup fail independently of each
other, and the status is written when at least one of them succeeded.
-/
namespace ScheduledScaling

/-- How long to wait after something went wrong. -/
structure Settings where
  invalidSpecRetry : Duration
  errorRetry : Duration
  deriving DecidableEq, Repr

def Settings.default : Settings := ⟨.ofSeconds 60, .ofSeconds 30⟩

/-- What to do after a pass. -/
inductive Action where
  | requeue (after : Duration)
  /-- Wait until the schedule changes. -/
  | done
  deriving DecidableEq, Repr

def Action.wait : Action → Option Duration
  | requeue after => some after
  | done => none

/-- What the steps of a pass have come to. -/
structure Progress where
  patch : StatusPatch
  succeeded : Nat
  transientFailure : Bool
  notes : List String
  deriving DecidableEq, Repr

namespace Progress

def start : Progress := ⟨.empty, 0, false, []⟩

def fail (step : String) (e : Failure) (p : Progress) : Progress :=
  { p with
    transientFailure := p.transientFailure || e.isTransient
    notes := p.notes ++ [step ++ " failed: " ++ e.message] }

def succeed (note : String) (patch : StatusPatch) (p : Progress) : Progress :=
  { p with patch := patch, succeeded := p.succeeded + 1, notes := p.notes ++ [note] }

def summary (p : Progress) : String := String.intercalate "; " p.notes

end Progress

namespace Pass

/-- A recorded time never moves back. -/
def advance (previous : Option Instant) (now : Instant) : Instant :=
  match previous with
  | none => now
  | some t => t.latest now

/-! ## Scaling -/

inductive Direction where
  | down
  | up
  deriving DecidableEq, Repr

namespace Direction

def step : Direction → String
  | down => "scale-down"
  | up => "scale-up"

def verb : Direction → String
  | down => "scaled down"
  | up => "scaled up"

def scale : Direction → Target → Operation ScaleOutcome
  | down => Scaling.scaleDown
  | up => Scaling.scaleUp

end Direction

/-- The scaling that a plan asks for, and whether it supersedes the other one. -/
def directionOf : ScalingPlan → Option (Direction × Bool)
  | .idle => none
  | .scaleDown supersedes => some (.down, supersedes)
  | .scaleUp supersedes => some (.up, supersedes)

def scaleNote (direction : Direction) : ScaleOutcome → String
  | .scaled before after =>
    direction.verb ++ " from " ++ toString before ++ " to " ++ toString after ++ " replicas"
  | .unchanged replicas =>
    direction.verb ++ ": already at " ++ toString replicas ++ " replicas"

/-- The times of a scaling that succeeded; a superseded one counts as done too. -/
def scaleTimes (direction : Direction) (supersedes : Bool) (status : ScheduleStatus)
    (now : Instant) (patch : StatusPatch) : StatusPatch :=
  let down := some (advance status.lastScaleDown now)
  let up := some (advance status.lastScaleUp now)
  match direction with
  | .down =>
    { patch with
      lastScaleDown := down, lastScaleUp := if supersedes then up else patch.lastScaleUp }
  | .up =>
    { patch with
      lastScaleUp := up, lastScaleDown := if supersedes then down else patch.lastScaleDown }

/-- The replicas after a scaling as the store has them, or else as the scaling left them. -/
def observedReplicas (target : Target) (outcome : ScaleOutcome) : Program Int := do
  match ← (Scaling.currentReplicas target).run with
  | .ok replicas => return replicas
  | .error _ => return outcome.replicas

/-- Scales a target in one direction. -/
def scale (target : Target) (direction : Direction) (supersedes : Bool)
    (status : ScheduleStatus) (now : Instant) (progress : Progress) : Program Progress := do
  match ← (direction.scale target).run with
  | .error e => return progress.fail direction.step e
  | .ok outcome =>
    let replicas ← observedReplicas target outcome
    let patch := scaleTimes direction supersedes status now progress.patch
    return progress.succeed (scaleNote direction outcome) { patch with replicas := some replicas }

def runScaling (spec : ScheduleSpec) (z : Zone) (status : ScheduleStatus) (now : Instant)
    (progress : Progress) : Program Progress := do
  match spec.target with
  | none => return progress
  | some target =>
    let plan ← Program.lift
      (planScaling spec.scaleDown spec.scaleUp z status.lastScaleDown status.lastScaleUp now)
    match directionOf plan with
    | none => return progress
    | some (direction, supersedes) => scale target direction supersedes status now progress

/-! ## Cleanup -/

def cleanupNote (report : CleanupReport) : String :=
  (if report.dryRun then "would clean up " else "cleaned up ") ++ toString report.count ++
    " resources" ++
    (if report.failures.isEmpty then ""
      else " (" ++ toString report.failures.length ++ " failures)")

def runCleanup (registry : Registry) (spec : ScheduleSpec) (z : Zone) (ns : String)
    (status : ScheduleStatus) (now : Instant) (progress : Progress) : Program Progress := do
  if ← Program.lift (isDue spec.cleanup z status.lastCleanup now) then
    match spec.cleanupConfig with
    | none => return progress
    | some config =>
      match ← (Cleanup.run registry config ns now).run with
      | .error e => return progress.fail "cleanup" e
      | .ok report =>
        return progress.succeed (cleanupNote report)
          { progress.patch with
            lastCleanup := some (advance status.lastCleanup now)
            cleanedUp := some report.count }
  else return progress

/-! ## The pass -/

/-- The patch of a pass with its summary. -/
def finalPatch (s : Schedule) (progress : Progress) : StatusPatch :=
  { progress.patch with
    message := some progress.summary
    generation := s.metadata.generation }

/-- Writes the status if a step succeeded. -/
def writeStatus (s : Schedule) (ns : String) (progress : Progress) : Operation Unit :=
  if 0 < progress.succeeded then
    Operation.patchStatus ns s.name (finalPatch s progress).toJson
  else return ()

/-- The wait until the next occurrence, cut short after a failure that may pass. -/
def actionOf (settings : Settings) (wake : Option Duration) (transientFailure : Bool) : Action :=
  match wake, transientFailure with
  | some after, true => .requeue (after.shorter settings.errorRetry)
  | none, true => .requeue settings.errorRetry
  | some after, false => .requeue after
  | none, false => .done

/-- When a schedule has to be looked at again. -/
def nextWake (spec : ScheduleSpec) (z : Zone) (now : Instant) :
    Except Overflow (Option Duration) := do
  let down ← nextOccurrence spec.scaleDown z now
  let up ← nextOccurrence spec.scaleUp z now
  let cleanup ← nextOccurrence spec.cleanup z now
  return planWake now [down, up, cleanup]

/-- The steps of a pass over a schedule whose spec is in order. -/
def runSteps (registry : Registry) (settings : Settings) (s : Schedule) (ns : String) (z : Zone)
    (now : Instant) : Operation Action := do
  let scaled ← ExceptT.lift (runScaling s.spec z s.recorded now .start)
  let progress ← ExceptT.lift (runCleanup registry s.spec z ns s.recorded now scaled)
  writeStatus s ns progress
  let wake ← ExceptT.lift (Program.lift (nextWake s.spec z now))
  return actionOf settings wake progress.transientFailure

end Pass

open Pass in
/-- One pass over a schedule as of an instant. A spec that is not in order has no next occurrence
that means anything, and is looked at again after a fixed time. -/
def reconcile (registry : Registry) (settings : Settings) (s : Schedule) (now : Instant)
    (zones : Zone.Lookup := Zone.find?) : Operation Action :=
  match s.metadata.ns with
  | none => throw (.invalidConfig "CronScaleSchedule must be namespaced")
  | some ns =>
    match s.spec.validate zones with
    | .error _ => return .requeue settings.invalidSpecRetry
    | .ok () =>
      match Zone.parse s.spec.timeZone zones with
      | .error e => throw (.invalidConfig e.message)
      | .ok z => runSteps registry settings s ns z now

/-- What to do after a pass that failed. -/
def afterFailure (settings : Settings) : Action := .requeue settings.errorRetry

end ScheduledScaling
