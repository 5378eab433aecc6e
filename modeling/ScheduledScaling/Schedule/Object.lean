import ScheduledScaling.Object.Metadata
import ScheduledScaling.Schedule.Spec
import ScheduledScaling.Schedule.Status
/-!
A schedule as an object in the cluster. Its own kind and version are written whatever was read.
-/
namespace ScheduledScaling

structure Schedule where
  metadata : ObjectMeta
  spec : ScheduleSpec
  status : Option ScheduleStatus
  deriving Repr, Inhabited

namespace Schedule

def kind : String := "CronScaleSchedule"

def group : String := "cronscale.io"

def version : String := "v1"

def plural : String := "cronscaleschedules"

def shape : Shape :=
  .record kind .strict
    [⟨"metadata", .required, ObjectMeta.shape⟩, ⟨"spec", .required, ScheduleSpec.shape⟩,
      ⟨"status", .optionalKeyed, ScheduleStatus.shape⟩]

instance : Codec Schedule where
  shape := shape
  ofNormal v :=
    { metadata := (v.decoded? ObjectMeta "metadata").getD default
      spec := (v.decoded? ScheduleSpec "spec").getD default
      status := v.decoded? ScheduleStatus "status" }
  toJson s :=
    Json.record
      [("apiVersion", some (.string (group ++ "/" ++ version))), ("kind", some (.string kind)),
        ("metadata", some (Codec.toJson s.metadata)), ("spec", some (Codec.toJson s.spec)),
        ("status", s.status.map Codec.toJson)]

/-- The name that is shown. -/
def name (s : Schedule) : String := s.metadata.nameOrStem

/-- The recorded status, the empty one before the first pass. -/
def recorded (s : Schedule) : ScheduleStatus := s.status.getD .empty

end Schedule

end ScheduledScaling
