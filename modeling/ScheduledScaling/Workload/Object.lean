import ScheduledScaling.Object.Kind
import ScheduledScaling.Object.Pod
/-!
Workloads that can be scaled. Both kinds have the same fields where it matters: a wanted count of
replicas in the spec, annotations, and a status. All other fields are kept as they were read.
-/
namespace ScheduledScaling

structure WorkloadSpec where
  replicas : Option Int
  others : Keyed Json
  deriving Repr, Inhabited

structure WorkloadCondition where
  type : String
  lastUpdate : Option Instant
  others : Keyed Json
  deriving Repr, Inhabited

structure WorkloadStatus where
  replicas : Option Int
  ready : Option Int
  available : Option Int
  observedGeneration : Option Int
  conditions : Option (List WorkloadCondition)
  others : Keyed Json
  deriving Repr, Inhabited

structure Workload where
  kind : WorkloadKind
  metadata : ObjectMeta
  spec : Option WorkloadSpec
  status : Option WorkloadStatus
  deriving Repr, Inhabited

/-! ## Shapes -/

namespace Workload

open Pod

def apiVersion : String := "apps/v1"

def rollingUpdate (name : String) (entries : List (Entry Shape)) : Shape :=
  record name [optional "rollingUpdate" (record ("RollingUpdate" ++ name) entries), text "type"]

def deploymentSpec : Shape :=
  record "DeploymentSpec"
    [small "minReadySeconds", flag "paused", small "progressDeadlineSeconds", small "replicas",
      small "revisionHistoryLimit", Entry.filled "selector" (.object []) labelSelector,
      optional "strategy" (rollingUpdate "DeploymentStrategy"
        [optional "maxSurge" .intOrString, optional "maxUnavailable" .intOrString]),
      Entry.filled "template" (.object []) template]

def condition (name : String) (more : List (Entry Shape)) : Shape :=
  record name
    ([optional "lastTransitionTime" (.time true)] ++ more ++
      [text "message", text "reason", needed "status", needed "type"])

/-- The time of a condition's last update keeps its fraction while it is at hand. -/
def deploymentStatus : Shape :=
  record "DeploymentStatus"
    [small "availableReplicas", small "collisionCount",
      listOf "conditions"
        (condition "DeploymentCondition" [optional "lastUpdateTime" (.time false)]),
      large "observedGeneration", small "readyReplicas", small "replicas",
      small "unavailableReplicas", small "updatedReplicas"]

def statefulSetSpec : Shape :=
  record "StatefulSetSpec"
    [small "minReadySeconds",
      optional "ordinals" (record "StatefulSetOrdinals" [small "start"]),
      optional "persistentVolumeClaimRetentionPolicy"
        (record "StatefulSetPersistentVolumeClaimRetentionPolicy"
          [text "whenDeleted", text "whenScaled"]),
      text "podManagementPolicy", small "replicas", small "revisionHistoryLimit",
      Entry.filled "selector" (.object []) labelSelector, needed "serviceName",
      Entry.filled "template" (.object []) template,
      optional "updateStrategy" (rollingUpdate "StatefulSetUpdateStrategy"
        [optional "maxUnavailable" .intOrString, small "partition"]),
      listOf "volumeClaimTemplates" volumeClaim]

def statefulSetStatus : Shape :=
  record "StatefulSetStatus"
    [small "availableReplicas", small "collisionCount",
      listOf "conditions" (condition "StatefulSetCondition" []), small "currentReplicas",
      text "currentRevision", large "observedGeneration", small "readyReplicas",
      Entry.filled "replicas" (.int 0) .i32, text "updateRevision", small "updatedReplicas"]

def shape (kind : WorkloadKind) : Shape :=
  record kind.name (objectEntries apiVersion kind.name ++
    match kind with
    | .deployment => [optional "spec" deploymentSpec, optional "status" deploymentStatus]
    | .statefulSet => [optional "spec" statefulSetSpec, optional "status" statefulSetStatus])

end Workload

/-! ## Reading and writing -/

namespace WorkloadSpec

/-- The spec of a workload that has none: the fields that are always written. -/
def blank : WorkloadKind → WorkloadSpec
  | .deployment => ⟨none, [("selector", .object []), ("template", .object [])]⟩
  | .statefulSet =>
    ⟨none,
      [("selector", .object []), ("serviceName", .string ""), ("template", .object [])]⟩

def ofNormal (v : Json) : WorkloadSpec := ⟨v.int? "replicas", v.others ["replicas"]⟩

def toJson (s : WorkloadSpec) : Json :=
  Json.recordWith s.others [("replicas", s.replicas.map .int)]

end WorkloadSpec

namespace WorkloadCondition

def ofNormal (v : Json) : WorkloadCondition :=
  ⟨v.textOr "type" "", v.time? "lastUpdateTime", v.others ["type", "lastUpdateTime"]⟩

def toJson (c : WorkloadCondition) : Json :=
  Json.recordWith c.others
    [("type", some (.string c.type)), ("lastUpdateTime", c.lastUpdate.map Json.wholeTime)]

end WorkloadCondition

namespace WorkloadStatus

def empty : WorkloadStatus := ⟨none, none, none, none, none, []⟩

def ofNormal (v : Json) : WorkloadStatus where
  replicas := v.int? "replicas"
  ready := v.int? "readyReplicas"
  available := v.int? "availableReplicas"
  observedGeneration := v.int? "observedGeneration"
  conditions := (v.get? "conditions").map fun list => list.items.map WorkloadCondition.ofNormal
  others := v.others
    ["replicas", "readyReplicas", "availableReplicas", "observedGeneration", "conditions"]

def toJson (s : WorkloadStatus) : Json :=
  Json.recordWith s.others
    [("replicas", s.replicas.map .int), ("readyReplicas", s.ready.map .int),
      ("availableReplicas", s.available.map .int),
      ("observedGeneration", s.observedGeneration.map .int),
      ("conditions", s.conditions.map fun list => .array (list.map WorkloadCondition.toJson))]

end WorkloadStatus

namespace Workload

def ofNormal (kind : WorkloadKind) (v : Json) : Workload where
  kind := kind
  metadata := (v.decoded? ObjectMeta "metadata").getD default
  spec := (v.get? "spec").map WorkloadSpec.ofNormal
  status := (v.get? "status").map WorkloadStatus.ofNormal

def toJson (w : Workload) : Json :=
  Json.record
    [("apiVersion", some (.string apiVersion)), ("kind", some (.string w.kind.name)),
      ("metadata", some (Codec.toJson w.metadata)), ("spec", w.spec.map WorkloadSpec.toJson),
      ("status", w.status.map WorkloadStatus.toJson)]

/-- Workloads of one kind as JSON. -/
@[reducible] def codec (kind : WorkloadKind) : Codec Workload := ⟨shape kind, ofNormal kind, toJson⟩

def ofJson (kind : WorkloadKind) (v : Json) : Except DecodeError Workload :=
  letI := codec kind
  Codec.ofJson v

/-! ## The scaling surface -/

def name (w : Workload) : String := w.metadata.name.getD ""

/-- The replicas of a workload whose spec names no count. -/
def defaultReplicas : Int := 1

/-- The wanted count of replicas. -/
def replicas (w : Workload) : Int := (w.spec.bind WorkloadSpec.replicas).getD defaultReplicas

def setReplicas (n : Int) (w : Workload) : Workload :=
  { w with spec := some { w.spec.getD (.blank w.kind) with replicas := some n } }

def annotations (w : Workload) : Option (Keyed String) := w.metadata.annotations

def annotation? (key : String) (w : Workload) : Option String :=
  w.annotations.bind fun all => all.get? key

def setAnnotations (all : Keyed String) (w : Workload) : Workload :=
  { w with metadata := { w.metadata with annotations := some all } }

def annotate (key value : String) (w : Workload) : Workload :=
  w.setAnnotations ((w.annotations.getD []).set key value)

/-- Drops an annotation; the list of annotations is there afterwards, if empty. -/
def dropAnnotation (key : String) (w : Workload) : Workload :=
  w.setAnnotations ((w.annotations.getD []).erase key)

def resourceVersion (w : Workload) : Option String := w.metadata.resourceVersion

def setResourceVersion (version : String) (w : Workload) : Workload :=
  { w with metadata := { w.metadata with resourceVersion := some version } }

end Workload

end ScheduledScaling
