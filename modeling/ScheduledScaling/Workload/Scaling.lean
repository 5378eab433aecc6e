import ScheduledScaling.Store.Program
/-!
Scaling a workload down and up again. Scaling down first writes the count of replicas on the
workload itself; scaling up restores that count. It is written once and never cleared, so however
often a workload goes down, the count from before the first time comes back.
-/
namespace ScheduledScaling

/-- What a scaling has done. -/
inductive ScaleOutcome where
  | scaled (before after : Int)
  | unchanged (replicas : Int)
  deriving DecidableEq, Repr

/-- The replicas afterwards. -/
def ScaleOutcome.replicas : ScaleOutcome → Int
  | scaled _ after => after
  | unchanged replicas => replicas

namespace Scaling

/-- The annotation that keeps the count of replicas. -/
def memoryKey : String := "cronscale.io/original-replicas"

/-- The count an annotation holds: a number of 32 bits that is not negative. -/
def readMemory (value : String) : Option Int :=
  (Text.readInt? Word.low32 Word.high32 (Text.trim value.toList)).filter fun n => 0 ≤ n

/-- The workload with its count of replicas written on it, which one write does if need be. -/
def remember (target : Target) (w : Workload) : Operation Workload :=
  match w.annotation? memoryKey with
  | some _ => return w
  | none => Operation.replace target (w.annotate memoryKey (toString w.replicas))

/-- Scales a workload to zero. Its count is written first, even if it is zero, so that the way
back is known. -/
def scaleDown (target : Target) : Operation ScaleOutcome := do
  let found ← Operation.fetch target
  let w ← remember target found
  if found.replicas = 0 then return .unchanged 0
  let _ ← Operation.replace target (w.setReplicas 0)
  return .scaled found.replicas 0

/-- The count of replicas to restore. -/
def remembered (target : Target) (w : Workload) : Except Failure Int :=
  match w.annotation? memoryKey with
  | none => .error (.missingMemory target.kind target.name target.ns)
  | some value =>
    match readMemory value with
    | none => .error (.invalidMemory target.kind target.name value)
    | some n => .ok n

/-- Restores the count of replicas. -/
def scaleUp (target : Target) : Operation ScaleOutcome := do
  let w ← Operation.fetch target
  let count ← ExceptT.mk (Program.done (remembered target w))
  if w.replicas = count then return .unchanged count
  let _ ← Operation.replace target (w.setReplicas count)
  return .scaled w.replicas count

/-- The replicas that a target wants now. -/
def currentReplicas (target : Target) : Operation Int := do
  return (← Operation.fetch target).replicas

end Scaling

end ScheduledScaling
