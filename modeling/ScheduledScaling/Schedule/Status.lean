import ScheduledScaling.Json.Codec
/-!
What the operator has recorded about a schedule. Only the operator writes it.
-/
namespace ScheduledScaling

structure ScheduleStatus where
  lastScaleDown : Option Instant
  lastScaleUp : Option Instant
  lastCleanup : Option Instant
  /-- The replicas of the target when they were last seen. -/
  replicas : Int
  /-- The resources removed by the last cleanup, or found by it when it ran dry. -/
  cleanedUp : Int
  message : Option String
  /-- The generation of the spec that the status tells about. -/
  generation : Option Int
  deriving DecidableEq, Repr, Inhabited

namespace ScheduleStatus

def empty : ScheduleStatus := ⟨none, none, none, 0, 0, none, none⟩

def shape : Shape :=
  .record "CronScaleScheduleStatus" .strict
    [⟨"lastScaleDownTime", .optional, .time false⟩,
      ⟨"lastScaleUpTime", .optional, .time false⟩,
      ⟨"lastCleanupTime", .optional, .time false⟩,
      ⟨"currentReplicas", .byDefault (.int 0), .i32⟩,
      ⟨"lastCleanupResourceCount", .byDefault (.int 0), .i32⟩,
      ⟨"message", .optional, .string⟩, ⟨"observedGeneration", .optional, .i64⟩]

instance : Codec ScheduleStatus where
  shape := shape
  ofNormal v :=
    { lastScaleDown := v.time? "lastScaleDownTime"
      lastScaleUp := v.time? "lastScaleUpTime"
      lastCleanup := v.time? "lastCleanupTime"
      replicas := (v.int? "currentReplicas").getD 0
      cleanedUp := (v.int? "lastCleanupResourceCount").getD 0
      message := v.text? "message"
      generation := v.int? "observedGeneration" }
  toJson s :=
    Json.record
      [("lastScaleDownTime", s.lastScaleDown.map Json.time),
        ("lastScaleUpTime", s.lastScaleUp.map Json.time),
        ("lastCleanupTime", s.lastCleanup.map Json.time),
        ("currentReplicas", some (.int s.replicas)),
        ("lastCleanupResourceCount", some (.int s.cleanedUp)),
        ("message", s.message.map .string), ("observedGeneration", s.generation.map .int)]

end ScheduleStatus

/-- The fields of the status that one pass changes; the others are not written. -/
structure StatusPatch where
  lastScaleDown : Option Instant
  lastScaleUp : Option Instant
  lastCleanup : Option Instant
  replicas : Option Int
  cleanedUp : Option Int
  message : Option String
  generation : Option Int
  deriving DecidableEq, Repr, Inhabited

namespace StatusPatch

def empty : StatusPatch := ⟨none, none, none, none, none, none, none⟩

def toJson (p : StatusPatch) : Json :=
  Json.record
    [("lastScaleDownTime", p.lastScaleDown.map Json.time),
      ("lastScaleUpTime", p.lastScaleUp.map Json.time),
      ("lastCleanupTime", p.lastCleanup.map Json.time),
      ("currentReplicas", p.replicas.map .int),
      ("lastCleanupResourceCount", p.cleanedUp.map .int),
      ("message", p.message.map .string), ("observedGeneration", p.generation.map .int)]

end StatusPatch

end ScheduledScaling
