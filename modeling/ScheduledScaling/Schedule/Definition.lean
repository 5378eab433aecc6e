import ScheduledScaling.Schedule.Object
/-!
The definition of schedules that is installed in the cluster: names, version, the columns of the
short listing, and the schema that values are checked against there.
-/
namespace ScheduledScaling.Schedule

/-- A property of an object: its key, whether it has to be there, and its schema. -/
structure Property where
  key : String
  isRequired : Bool
  schema : List (String × Json)

namespace Property

def described (description : String) (schema : List (String × Json)) : List (String × Json) :=
  ("description", .string description) :: schema

def typed (type : String) : List (String × Json) := [("type", .string type)]

def formatted (type format : String) : List (String × Json) :=
  ("format", .string format) :: typed type

def nullable (schema : List (String × Json)) : List (String × Json) :=
  ("nullable", .bool true) :: schema

def withDefault (value : Json) (schema : List (String × Json)) : List (String × Json) :=
  ("default", value) :: schema

def listOfStrings : List (String × Json) :=
  ("items", .ofMembers (typed "string")) :: typed "array"

def mapOfStrings : List (String × Json) :=
  ("additionalProperties", .ofMembers (typed "string")) :: typed "object"

/-- The schema of an object with some properties. -/
def object (properties : List Property) : List (String × Json) :=
  let required := properties.filterMap fun p => if p.isRequired then some p.key else none
  [("properties", .ofMembers (properties.map fun p => (p.key, .ofMembers p.schema))),
    ("type", .string "object")] ++
    if required.isEmpty then []
    else [("required", Json.texts (required.mergeSort fun a b => !(b < a)))]

def required (key description : String) (schema : List (String × Json)) : Property :=
  ⟨key, true, described description schema⟩

def optional (key description : String) (schema : List (String × Json)) : Property :=
  ⟨key, false, described description schema⟩

end Property

namespace Definition

open Property

def targetProperties : List Property :=
  [required "name" "Name of the workload." (typed "string"),
    required "namespace" "Namespace of the workload." (typed "string"),
    required "kind" "Kind of the workload (Deployment, StatefulSet)." (typed "string"),
    optional "apiVersion" "API version of the workload."
      (withDefault (.string Target.defaultApiVersion) (typed "string"))]

def cleanupProperties : List Property :=
  [optional "namespaces" "Namespaces to search. Defaults to the schedule's own namespace."
      listOfStrings,
    required "annotationKey" "Annotation key that marks a resource for cleanup."
      (typed "string"),
    required "resourceTypes" "Resource kinds to consider (e.g. [\"ConfigMap\", \"Secret\"])."
      listOfStrings,
    optional "labelSelector" "Only resources carrying all of these labels are considered."
      mapOfStrings,
    optional "dryRun" "Log what would be deleted without deleting anything."
      (withDefault (.bool false) (typed "boolean")),
    optional "cleanupOrphanResources"
      "Also reap resources without the annotation once they are old enough."
      (withDefault (.bool false) (typed "boolean")),
    optional "orphanResourceMaxAge"
      "Maximum age of an unannotated resource (e.g. \"24h\", \"7d\")."
      (nullable (typed "string"))]

def specProperties : List Property :=
  [optional "targetRef" "Workload to scale. Required when a scaling schedule is set."
      (nullable (object targetProperties)),
    optional "scaleDownSchedule" "Cron schedule for scaling down (e.g. \"0 0 22 * * *\")."
      (typed "string"),
    optional "scaleUpSchedule" "Cron schedule for scaling back up (e.g. \"0 0 6 * * *\")."
      (typed "string"),
    optional "cleanupSchedule" "Cron schedule for cleaning up resources." (typed "string"),
    optional "cleanupConfig" "Cleanup configuration. Required when a cleanup schedule is set."
      (nullable (object cleanupProperties)),
    optional "timeZone" "IANA timezone the schedules are evaluated in."
      (withDefault (.string ScheduleSpec.defaultTimeZone) (typed "string"))]

def timeSchema : List (String × Json) := nullable (formatted "string" "date-time")

def countSchema : List (String × Json) := withDefault (.int 0) (formatted "integer" "int32")

def statusProperties : List Property :=
  [optional "lastScaleDownTime" "When the workload was last scaled down." timeSchema,
    optional "lastScaleUpTime" "When the workload was last scaled up." timeSchema,
    optional "lastCleanupTime" "When the last cleanup pass ran." timeSchema,
    optional "currentReplicas" "Last observed replica count of the target workload." countSchema,
    optional "lastCleanupResourceCount"
      "Resources deleted (or that would have been, in dry run) by the last cleanup." countSchema,
    optional "message" "Human-readable summary of the last pass that changed the status."
      (nullable (typed "string")),
    optional "observedGeneration" "Generation of the spec the status was computed from."
      (nullable (formatted "integer" "int64"))]

def specDescription : String :=
  "CronScaleSchedule is the Schema for the cronscaleschedules API.\n\n" ++
    "Three independent cron schedules drive the operator: scale-down, scale-up and cleanup. " ++
    "Any of them may be left empty, but not all three."

def properties : List Property :=
  [required "spec" specDescription (object specProperties),
    optional "status" "CronScaleSchedule status. Written only by the operator."
      (nullable (object statusProperties))]

def schema : Json :=
  .ofMembers
    (("title", .string kind) ::
      described "Auto-generated derived type for CronScaleScheduleSpec via `CustomResource`"
        (object properties))

def column (name type path : String) : Json :=
  .ofMembers [("name", .string name), ("type", .string type), ("jsonPath", .string path)]

def columns : List Json :=
  [column "Target" "string" ".spec.targetRef.name",
    column "Scale Down" "string" ".spec.scaleDownSchedule",
    column "Scale Up" "string" ".spec.scaleUpSchedule",
    column "Replicas" "integer" ".status.currentReplicas",
    column "Age" "date" ".metadata.creationTimestamp"]

def names : Json :=
  .ofMembers
    [("categories", .array []), ("kind", .string kind), ("plural", .string plural),
      ("shortNames", Json.texts ["css"]), ("singular", .string "cronscaleschedule")]

def versionEntry : Json :=
  .ofMembers
    [("additionalPrinterColumns", .array columns), ("name", .string version),
      ("schema", .ofMembers [("openAPIV3Schema", schema)]), ("served", .bool true),
      ("storage", .bool true), ("subresources", .ofMembers [("status", .object [])])]

end Definition

/-- The definition as an object of the cluster. -/
def definition : Json :=
  .ofMembers
    [("apiVersion", .string "apiextensions.k8s.io/v1"),
      ("kind", .string "CustomResourceDefinition"),
      ("metadata", .ofMembers [("name", .string (plural ++ "." ++ group))]),
      ("spec", .ofMembers
        [("group", .string group), ("names", Definition.names),
          ("scope", .string "Namespaced"), ("versions", .array [Definition.versionEntry])])]

end ScheduledScaling.Schedule
