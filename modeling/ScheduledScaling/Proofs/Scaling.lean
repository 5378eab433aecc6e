import ScheduledScaling.Pass.Reconcile
import ScheduledScaling.Proofs.Objects
/-!
# A scaling, call by call

`scale_run`: a scaling fetches the workload first and goes on from the copy it got. `afterFetch` is
what it does then: scaling down writes the count on the copy unless it is there (`record`) and then
the zero (`zero`), scaling up writes the count that it finds on the copy (`restore`).
-/
namespace ScheduledScaling.Scaling

/-- The last write of a scaling, and what it comes to. -/
def finish (outcome : ScaleOutcome) (answer : Except Failure Workload) :
    Program (Except Failure ScaleOutcome) :=
  .done (answer.map fun _ => outcome)

/-- What is left of scaling down when the copy `w` has its count written on it; `before` is the
count that was fetched. -/
def zero (target : Target) (before : Int) (w : Workload) : Program (Except Failure ScaleOutcome) :=
  if before = 0 then .done (.ok (.unchanged 0))
  else .call (.replace target (w.setReplicas 0)) (finish (.scaled before 0))

/-- What follows the write of the count. -/
def afterRecord (target : Target) (before : Int) :
    Except Failure Workload → Program (Except Failure ScaleOutcome)
  | .error e => .done (.error e)
  | .ok w => zero target before w

/-- What is left of scaling down after the fetch. -/
def record (target : Target) (found : Workload) : Program (Except Failure ScaleOutcome) :=
  match found.annotation? memoryKey with
  | some _ => zero target found.replicas found
  | none =>
    .call (.replace target (found.annotate memoryKey (toString found.replicas)))
      (afterRecord target found.replicas)

/-- What is left of scaling up after the fetch. -/
def restore (target : Target) (w : Workload) : Program (Except Failure ScaleOutcome) :=
  match remembered target w with
  | .error e => .done (.error e)
  | .ok count =>
    if w.replicas = count then .done (.ok (.unchanged count))
    else .call (.replace target (w.setReplicas count)) (finish (.scaled w.replicas count))

/-- What is left of a scaling after the fetch. -/
def afterFetch : Pass.Direction → Target → Workload → Program (Except Failure ScaleOutcome)
  | .down => record
  | .up => restore

theorem zero_eq (target : Target) (before : Int) (w : Workload) :
    ExceptT.run (do
      if before = 0 then return .unchanged 0
      let _ ← Operation.replace target (w.setReplicas 0)
      return .scaled before 0 : Operation ScaleOutcome) = zero target before w := by
  unfold zero
  split
  · rfl
  · show Program.call _ _ = Program.call _ _
    congr 1
    funext answer
    cases answer <;> rfl

theorem record_eq (target : Target) (found : Workload) :
    ExceptT.run (do
      let w ← remember target found
      if found.replicas = 0 then return .unchanged 0
      let _ ← Operation.replace target (w.setReplicas 0)
      return .scaled found.replicas 0 : Operation ScaleOutcome) = record target found := by
  unfold record remember
  cases found.annotation? memoryKey with
  | some v => exact zero_eq target found.replicas found
  | none =>
    show Program.call _ _ = Program.call _ _
    congr 1
    funext answer
    cases answer with
    | error e => rfl
    | ok w => exact zero_eq target found.replicas w

theorem restore_eq (target : Target) (w : Workload) :
    ExceptT.run (do
      let count ← ExceptT.mk (Program.done (remembered target w))
      if w.replicas = count then return .unchanged count
      let _ ← Operation.replace target (w.setReplicas count)
      return .scaled w.replicas count : Operation ScaleOutcome) = restore target w := by
  unfold restore
  cases remembered target w with
  | error e => rfl
  | ok count =>
    show ExceptT.run (if w.replicas = count then _ else _) = ite _ _ _
    split
    · rfl
    · show Program.call _ _ = Program.call _ _
      congr 1
      funext answer
      cases answer <;> rfl

/-- What follows the fetch. -/
def afterAnswer (direction : Pass.Direction) (target : Target) :
    Except Failure Workload → Program (Except Failure ScaleOutcome)
  | .error e => .done (.error e)
  | .ok w => afterFetch direction target w

/-- A scaling fetches first, and goes on from the copy it got. -/
theorem scale_run (direction : Pass.Direction) (target : Target) :
    (direction.scale target).run = .call (.fetch target) (afterAnswer direction target) := by
  cases direction with
  | down =>
    show Program.call _ _ = Program.call _ _
    congr 1
    funext answer
    cases answer with
    | error e => rfl
    | ok found => exact record_eq target found
  | up =>
    show Program.call _ _ = Program.call _ _
    congr 1
    funext answer
    cases answer with
    | error e => rfl
    | ok w => exact restore_eq target w

end ScheduledScaling.Scaling
