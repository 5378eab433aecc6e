import ScheduledScaling.Json.Codec
/-!
What a schedule asks for: the workload to scale, the times to scale it down and up, and the
cleanup to run. Empty texts, lists and maps are not written.
-/
namespace ScheduledScaling

/-- The workload that a schedule scales. -/
structure Target where
  name : String
  /-- The namespace. -/
  ns : String
  kind : String
  apiVersion : String
  deriving DecidableEq, Repr, Inhabited

namespace Target

def defaultApiVersion : String := "apps/v1"

def shape : Shape :=
  .record "TargetRef" .strict
    [⟨"name", .required, .string⟩, ⟨"namespace", .required, .string⟩,
      ⟨"kind", .required, .string⟩,
      ⟨"apiVersion", .byDefault (.string defaultApiVersion), .string⟩]

instance : Codec Target where
  shape := shape
  ofNormal v :=
    ⟨v.textOr "name" "", v.textOr "namespace" "", v.textOr "kind" "",
      v.textOr "apiVersion" defaultApiVersion⟩
  toJson t :=
    Json.ofMembers
      [("name", .string t.name), ("namespace", .string t.ns), ("kind", .string t.kind),
        ("apiVersion", .string t.apiVersion)]

end Target

/-- Which resources the cleanup removes. -/
structure CleanupConfig where
  /-- Where to search; nowhere else than in the schedule's own namespace if empty. -/
  namespaces : List String
  /-- The annotation that tells when a resource expires. -/
  annotationKey : String
  resourceTypes : List String
  /-- Only resources with all of these labels are considered. -/
  labelSelector : Keyed String
  /-- Count what would be removed, and remove nothing. -/
  dryRun : Bool
  /-- Also remove resources without the annotation once they are old enough. -/
  cleanupOrphans : Bool
  orphanMaxAge : Option String
  deriving DecidableEq, Repr, Inhabited

namespace CleanupConfig

def shape : Shape :=
  .record "CleanupConfig" .strict
    [⟨"namespaces", .hiddenDefault (.array []), .strings⟩,
      ⟨"annotationKey", .required, .string⟩, ⟨"resourceTypes", .required, .strings⟩,
      ⟨"labelSelector", .hiddenDefault (.object []), .stringMap⟩,
      ⟨"dryRun", .byDefault (.bool false), .bool⟩,
      ⟨"cleanupOrphanResources", .byDefault (.bool false), .bool⟩,
      ⟨"orphanResourceMaxAge", .optional, .string⟩]

instance : Codec CleanupConfig where
  shape := shape
  ofNormal v :=
    { namespaces := ((v.get? "namespaces").map Json.textsOf).getD []
      annotationKey := v.textOr "annotationKey" ""
      resourceTypes := ((v.get? "resourceTypes").map Json.textsOf).getD []
      labelSelector := ((v.get? "labelSelector").map Json.textMapOf).getD []
      dryRun := v.flagOf "dryRun"
      cleanupOrphans := v.flagOf "cleanupOrphanResources"
      orphanMaxAge := v.text? "orphanResourceMaxAge" }
  toJson c :=
    Json.record
      [("namespaces", if c.namespaces.isEmpty then none else some (Json.texts c.namespaces)),
        ("annotationKey", some (.string c.annotationKey)),
        ("resourceTypes", some (Json.texts c.resourceTypes)),
        ("labelSelector",
          if c.labelSelector.isEmpty then none else some (Json.textMap c.labelSelector)),
        ("dryRun", some (.bool c.dryRun)),
        ("cleanupOrphanResources", some (.bool c.cleanupOrphans)),
        ("orphanResourceMaxAge", c.orphanMaxAge.map .string)]

end CleanupConfig

structure ScheduleSpec where
  target : Option Target
  scaleDown : String
  scaleUp : String
  cleanup : String
  cleanupConfig : Option CleanupConfig
  timeZone : String
  deriving DecidableEq, Repr, Inhabited

namespace ScheduleSpec

def defaultTimeZone : String := "UTC"

def shape : Shape :=
  .record "CronScaleScheduleSpec" .strict
    [⟨"targetRef", .optional, Target.shape⟩,
      ⟨"scaleDownSchedule", .hiddenDefault (.string ""), .string⟩,
      ⟨"scaleUpSchedule", .hiddenDefault (.string ""), .string⟩,
      ⟨"cleanupSchedule", .hiddenDefault (.string ""), .string⟩,
      ⟨"cleanupConfig", .optional, CleanupConfig.shape⟩,
      ⟨"timeZone", .byDefault (.string defaultTimeZone), .string⟩]

instance : Codec ScheduleSpec where
  shape := shape
  ofNormal v :=
    { target := v.decoded? Target "targetRef"
      scaleDown := v.textOr "scaleDownSchedule" ""
      scaleUp := v.textOr "scaleUpSchedule" ""
      cleanup := v.textOr "cleanupSchedule" ""
      cleanupConfig := v.decoded? CleanupConfig "cleanupConfig"
      timeZone := v.textOr "timeZone" defaultTimeZone }
  toJson s :=
    Json.record
      [("targetRef", s.target.map Codec.toJson),
        ("scaleDownSchedule", Json.unlessEmpty s.scaleDown),
        ("scaleUpSchedule", Json.unlessEmpty s.scaleUp),
        ("cleanupSchedule", Json.unlessEmpty s.cleanup),
        ("cleanupConfig", s.cleanupConfig.map Codec.toJson),
        ("timeZone", some (.string s.timeZone))]

end ScheduleSpec

end ScheduledScaling
