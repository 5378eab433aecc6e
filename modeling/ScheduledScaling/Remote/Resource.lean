import ScheduledScaling.Schedule.Object
import ScheduledScaling.Workload.Object
/-!
The shapes of what the cluster's interface returns: objects of every kind that can be cleaned up,
lists of them, and the outcome of a deletion.
-/
namespace ScheduledScaling

namespace Remote

open Pod

/-! ## Objects -/

def serviceSpec : Shape :=
  record "ServiceSpec"
    [flag "allocateLoadBalancerNodePorts", text "clusterIP", texts "clusterIPs",
      texts "externalIPs", text "externalName", text "externalTrafficPolicy",
      small "healthCheckNodePort", text "internalTrafficPolicy", texts "ipFamilies",
      text "ipFamilyPolicy", text "loadBalancerClass", text "loadBalancerIP",
      texts "loadBalancerSourceRanges",
      listOf "ports" (record "ServicePort"
        [text "appProtocol", text "name", small "nodePort", Entry.filled "port" (.int 0) .i32,
          text "protocol", optional "targetPort" .intOrString]),
      flag "publishNotReadyAddresses", textMap "selector", text "sessionAffinity",
      optional "sessionAffinityConfig" (record "SessionAffinityConfig"
        [optional "clientIP" (record "ClientIPConfig" [small "timeoutSeconds"])]),
      text "trafficDistribution", text "type"]

def serviceStatus : Shape :=
  record "ServiceStatus"
    [listOf "conditions" (record "Condition"
        [optional "lastTransitionTime" (.time true), needed "message",
          large "observedGeneration", needed "reason", needed "status", needed "type"]),
      optional "loadBalancer" (record "LoadBalancerStatus"
        [listOf "ingress" (record "LoadBalancerIngress"
          [text "hostname", text "ip", text "ipMode",
            listOf "ports" (record "PortStatus"
              [text "error", Entry.filled "port" (.int 0) .i32, needed "protocol"])])])]

def rules : Entry Shape :=
  listOf "rules" (record "PolicyRule"
    [texts "apiGroups", texts "nonResourceURLs", texts "resourceNames", texts "resources",
      Entry.filled "verbs" (.array []) .strings])

def bindingEntries : List (Entry Shape) :=
  [optional "roleRef"
      (record "RoleRef" [needed "apiGroup", needed "kind", needed "name"]),
    listOf "subjects"
      (record "Subject" [text "apiGroup", needed "kind", needed "name", text "namespace"])]

def rbacVersion : String := "rbac.authorization.k8s.io/v1"

/-- Bytes by name. -/
def byteMap (key : String) : Entry Shape := optional key (.map .base64)

/-- The shape of an object of a kind. -/
def shapeOf (kind : ResourceKind) : Shape :=
  let object (apiVersion : String) (entries : List (Entry Shape)) :=
    record kind.name (objectEntries apiVersion kind.name ++ entries)
  match kind with
  | .deployment => Workload.shape .deployment
  | .statefulSet => Workload.shape .statefulSet
  | .service => object "v1" [optional "spec" serviceSpec, optional "status" serviceStatus]
  | .configMap => object "v1" [byteMap "binaryData", textMap "data", flag "immutable"]
  | .secret =>
    object "v1" [byteMap "data", flag "immutable", textMap "stringData", text "type"]
  | .role => object rbacVersion [rules]
  | .roleBinding | .clusterRoleBinding => object rbacVersion bindingEntries
  | .clusterRole =>
    object rbacVersion
      [optional "aggregationRule"
        (record "AggregationRule" [listOf "clusterRoleSelectors" labelSelector]), rules]

/-! ## Lists -/

def listMeta : Shape :=
  record "ListMeta"
    [text "continue", large "remainingItemCount", text "resourceVersion", text "selfLink"]

/-- A list of objects; it may leave out its metadata, but not its items. -/
def listShape (item : Shape) : Shape :=
  .record "ObjectList" .gathering
    [⟨"metadata", .byDefault (.object []), listMeta⟩,
      ⟨"items", .requiredOrNull (.array []), .list item⟩]

/-! ## Deletions -/

def defaultText (key : String) : Entry Shape := ⟨key, .byDefault (.string ""), .string⟩

/-- What is reported about a deletion that is done. -/
def outcomeShape : Shape :=
  .record "Status" .strict
    [⟨"status", .optional, .choice ["Success", "Failure"]⟩, ⟨"code", .byDefault (.int 0), .u16⟩,
      defaultText "message", defaultText "reason",
      ⟨"details", .optional, .record "StatusDetails" .strict
        [defaultText "name", defaultText "group", defaultText "kind", defaultText "uid",
          ⟨"causes", .byDefault (.array []), .list (.record "StatusCause" .strict
            [defaultText "reason", defaultText "message", defaultText "field"])⟩,
          ⟨"retryAfterSeconds", .byDefault (.int 0), .u32⟩]⟩]

/-! ## Readers -/

/-- Reads a text of a shape, and makes something of its normal form. -/
def reader {α : Type} (shape : Shape) (ofNormal : Json → α) (text : String) :
    Except DecodeError α := do
  return ofNormal (← shape.readText text)

def listReader {α : Type} (item : Shape) (ofNormal : Json → α) (text : String) :
    Except DecodeError (List α) :=
  reader (listShape item)
    (fun list => (((list.get? "items").getD .null).items).map ofNormal) text

/-- Reads the answer to a deletion: a report, or the object that is on its way out. -/
def deletionReader (kind : ResourceKind) (text : String) : Except DecodeError Unit := do
  match Json.parse text with
  | .error f => throw (.ofFault f)
  | .ok answer =>
    let shape :=
      if answer.text? "kind" = some "Status" then outcomeShape else shapeOf kind
    reader shape (fun _ => ()) text

end Remote

end ScheduledScaling
