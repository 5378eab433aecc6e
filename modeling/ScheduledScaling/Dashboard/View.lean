import ScheduledScaling.Store.Program
import ScheduledScaling.Workload.Health
/-!
What the dashboard shows of a schedule: its times, what the operator has recorded, and how the
replicas of its target are doing right now.
-/
namespace ScheduledScaling

structure ScheduleView where
  name : String
  /-- The namespace. -/
  ns : String
  target : Option Target
  scaleDown : String
  scaleUp : String
  cleanup : String
  timeZone : String
  status : ScheduleStatus
  /-- None without a target, or when it could not be read. -/
  health : Option Health
  deriving DecidableEq, Repr

namespace ScheduleView

def toJson (v : ScheduleView) : Json :=
  Json.record
    [("name", some (.string v.name)), ("namespace", some (.string v.ns)),
      ("targetRef", v.target.map Codec.toJson), ("scaleDownSchedule", some (.string v.scaleDown)),
      ("scaleUpSchedule", some (.string v.scaleUp)),
      ("cleanupSchedule", some (.string v.cleanup)), ("timeZone", some (.string v.timeZone)),
      ("lastScaleDownTime", v.status.lastScaleDown.map Json.time),
      ("lastScaleUpTime", v.status.lastScaleUp.map Json.time),
      ("lastCleanupTime", v.status.lastCleanup.map Json.time),
      ("currentReplicas", some (.int v.status.replicas)),
      ("lastCleanupResourceCount", some (.int v.status.cleanedUp)),
      ("message", v.status.message.map .string), ("targetStatus", v.health.map Health.toJson)]

end ScheduleView

namespace Dashboard

/-- How a target is doing; none if there is no target or it cannot be read. -/
def probe : Option Target → Program (Option Health)
  | none => return none
  | some target => do
    match ← (Operation.fetch target).run with
    | .ok w => return some w.health
    | .error _ => return none

def viewOf (s : Schedule) : Program ScheduleView := do
  let health ← probe s.spec.target
  return {
    name := s.name
    ns := s.metadata.ns.getD ""
    target := s.spec.target
    scaleDown := s.spec.scaleDown
    scaleUp := s.spec.scaleUp
    cleanup := s.spec.cleanup
    timeZone := s.spec.timeZone
    status := s.recorded
    health }

def viewsOf : List Schedule → Program (List ScheduleView)
  | [] => return []
  | s :: rest => do
    let view ← viewOf s
    return view :: (← viewsOf rest)

end Dashboard

end ScheduledScaling
