import ScheduledScaling.Json.Codec
/-!
The metadata every object in the cluster carries. The fields that decide something are named; all
others are kept as they were read.
-/
namespace ScheduledScaling

/-- A field that may be missing or null. -/
def Entry.optional (key : String) (shape : Shape) : Entry Shape := ⟨key, .optional, shape⟩

/-- A text that counts as empty when it is missing or null. -/
def Entry.filledText (key : String) : Entry Shape := ⟨key, .filled (.string ""), .string⟩

structure ObjectMeta where
  name : Option String
  generateName : Option String
  /-- The namespace. -/
  ns : Option String
  uid : Option String
  resourceVersion : Option String
  generation : Option Int
  created : Option Instant
  annotations : Option (Keyed String)
  /-- The members besides those above. -/
  others : Keyed Json
  deriving Repr, Inhabited

namespace ObjectMeta

def managedFields : Shape :=
  .record "ManagedFieldsEntry" .lenient
    [.optional "apiVersion" .string, .optional "fieldsType" .string, .optional "fieldsV1" .any,
      .optional "manager" .string, .optional "operation" .string, .optional "subresource" .string,
      .optional "time" (.time true)]

def ownerReference : Shape :=
  .record "OwnerReference" .lenient
    [.filledText "apiVersion", .optional "blockOwnerDeletion" .bool,
      .optional "controller" .bool, .filledText "kind", .filledText "name", .filledText "uid"]

/-- Metadata; the time of creation keeps its fraction while it is at hand. -/
def shape : Shape :=
  .record "ObjectMeta" .lenient
    [.optional "annotations" .stringMap, .optional "creationTimestamp" (.time false),
      .optional "deletionGracePeriodSeconds" .i64, .optional "deletionTimestamp" (.time true),
      .optional "finalizers" .strings, .optional "generateName" .string,
      .optional "generation" .i64, .optional "labels" .stringMap,
      .optional "managedFields" (.list managedFields), .optional "name" .string,
      .optional "namespace" .string, .optional "ownerReferences" (.list ownerReference),
      .optional "resourceVersion" .string, .optional "selfLink" .string, .optional "uid" .string]

def namedKeys : List String :=
  ["annotations", "creationTimestamp", "generateName", "generation", "name", "namespace",
    "resourceVersion", "uid"]

def ofNormal (v : Json) : ObjectMeta where
  name := v.text? "name"
  generateName := v.text? "generateName"
  ns := v.text? "namespace"
  uid := v.text? "uid"
  resourceVersion := v.text? "resourceVersion"
  generation := v.int? "generation"
  created := v.time? "creationTimestamp"
  annotations := (v.get? "annotations").map Json.textMapOf
  others := v.others namedKeys

def toJson (m : ObjectMeta) : Json :=
  Json.recordWith m.others
    [("annotations", m.annotations.map Json.textMap),
      ("creationTimestamp", m.created.map Json.wholeTime),
      ("generateName", m.generateName.map .string), ("generation", m.generation.map .int),
      ("name", m.name.map .string), ("namespace", m.ns.map .string),
      ("resourceVersion", m.resourceVersion.map .string), ("uid", m.uid.map .string)]

instance : Codec ObjectMeta := ⟨shape, ofNormal, toJson⟩

/-- The name, or else the stem from which one is made. -/
def nameOrStem (m : ObjectMeta) : String := (m.name <|> m.generateName).getD ""

/-- Metadata with some annotations set, in place of those of the same keys. -/
def annotate (pairs : Keyed String) (m : ObjectMeta) : ObjectMeta :=
  { m with annotations := some (pairs.foldl (fun all (k, v) => all.set k v)
      (m.annotations.getD [])) }

end ObjectMeta

end ScheduledScaling
