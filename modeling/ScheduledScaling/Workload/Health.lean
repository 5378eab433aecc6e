import ScheduledScaling.Workload.Object
/-!
How the replicas of a workload are doing, as the dashboard shows it.
-/
namespace ScheduledScaling

structure Health where
  /-- Every replica there is is ready. -/
  ready : Bool
  desired : Int
  available : Int
  readyReplicas : Int
  lastUpdate : Option Instant
  deriving DecidableEq, Repr

namespace Health

def toJson (h : Health) : Json :=
  Json.record
    [("ready", some (.bool h.ready)), ("desiredReplicas", some (.int h.desired)),
      ("availableReplicas", some (.int h.available)),
      ("readyReplicas", some (.int h.readyReplicas)),
      ("lastUpdateTime", h.lastUpdate.map Json.time)]

end Health

namespace Workload

/-- When a deployment's first condition of progress was updated. -/
def progressTime (status : WorkloadStatus) : Option Instant :=
  ((status.conditions.getD []).find? fun c => c.type = "Progressing").bind (·.lastUpdate)

/-- A stateful set tells no such time; its creation stands in once it was seen by its
controller. -/
def sinceCreation (metadata : ObjectMeta) (status : WorkloadStatus) : Option Instant :=
  if status.observedGeneration.any (0 < ·) then metadata.created else none

def health (w : Workload) : Health :=
  let status := w.status.getD .empty
  let ready := status.ready.getD 0
  let total := status.replicas.getD 0
  { ready := ready = total
    desired := w.replicas
    available := status.available.getD (match w.kind with
      | .deployment => 0
      | .statefulSet => total)
    readyReplicas := ready
    lastUpdate := match w.kind with
      | .deployment => progressTime status
      | .statefulSet => sinceCreation w.metadata status }

end Workload

end ScheduledScaling
