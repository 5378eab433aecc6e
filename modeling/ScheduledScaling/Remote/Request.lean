import ScheduledScaling.Cleanup.Candidate
import ScheduledScaling.Schedule.Object
import ScheduledScaling.Store.Failure
/-!
Requests to the cluster's interface. A type of resource has a group, a version and a plural name,
from which the addresses of its collection and of single objects are made.
-/
namespace ScheduledScaling

structure ResourceType where
  /-- Empty for the core types. -/
  group : String
  version : String
  plural : String
  deriving DecidableEq, Repr

def ResourceKind.type : ResourceKind → ResourceType
  | deployment => ⟨"apps", "v1", "deployments"⟩
  | statefulSet => ⟨"apps", "v1", "statefulsets"⟩
  | service => ⟨"", "v1", "services"⟩
  | configMap => ⟨"", "v1", "configmaps"⟩
  | secret => ⟨"", "v1", "secrets"⟩
  | role => ⟨"rbac.authorization.k8s.io", "v1", "roles"⟩
  | roleBinding => ⟨"rbac.authorization.k8s.io", "v1", "rolebindings"⟩
  | clusterRole => ⟨"rbac.authorization.k8s.io", "v1", "clusterroles"⟩
  | clusterRoleBinding => ⟨"rbac.authorization.k8s.io", "v1", "clusterrolebindings"⟩

/-- The workload's kind among all kinds. -/
def WorkloadKind.resource : WorkloadKind → ResourceKind
  | deployment => .deployment
  | statefulSet => .statefulSet

def Schedule.type : ResourceType := ⟨group, version, plural⟩

/-- The address of a type's collection, in one namespace or in all. -/
def ResourceType.collection (t : ResourceType) (ns : Option String) : String :=
  (if t.group = "" then "/api/" else "/apis/" ++ t.group ++ "/") ++ t.version ++ "/" ++
    (match ns with
      | some ns => "namespaces/" ++ ns ++ "/"
      | none => "") ++ t.plural

inductive Method where
  | get
  | put
  | patch
  | delete
  deriving DecidableEq, Repr

def Method.name : Method → String
  | get => "GET"
  | put => "PUT"
  | patch => "PATCH"
  | delete => "DELETE"

structure Request where
  method : Method
  /-- The path and the query. -/
  address : String
  /-- The type of the content, and the content. -/
  body : Option (String × Json)
  deriving Repr

namespace Request

/-! ## Addresses -/

/-- The characters that a query has as they are. -/
def isPlainInForm (b : UInt8) : Bool :=
  let c := Char.ofNat b.toNat
  b < 128 && (c.isAlphanum || c == '*' || c == '-' || c == '.' || c == '_')

/-- A byte of a value in a query. -/
def formByte (b : UInt8) : List Char :=
  if b = 32 then ['+']
  else if isPlainInForm b then [Char.ofNat b.toNat]
  else '%' :: (Nat.toDigits 16 (b.toNat / 16) ++ Nat.toDigits 16 (b.toNat % 16)).map Char.toUpper

/-- A value in a query. -/
def formText (s : String) : String :=
  String.ofList ((s.toList.flatMap String.utf8EncodeChar).flatMap formByte)

/-- The characters that no path has. -/
def isBadInPath (c : Char) : Bool :=
  c.toNat ≤ 32 || c == '<' || c == '>' || c == '`'

/-- The characters that no query has. -/
def isBadInQuery (c : Char) : Bool :=
  c.toNat ≤ 32 || c == '"' || c == '<' || c == '>'

/-- Whether an address can be sent. -/
def isAddress (address : List Char) : Bool :=
  match Text.cut? '?' address with
  | none => !address.any isBadInPath
  | some (path, query) => !path.any isBadInPath && !query.any isBadInQuery

/-- A request to an address; what follows a number sign is not sent. -/
def build (method : Method) (address : String) (body : Option (String × Json)) :
    Except RemoteFailure Request :=
  let address := address.toList.takeWhile (· ≠ '#')
  if isAddress address then .ok ⟨method, String.ofList address, body⟩ else .error .badAddress

/-- The address of one object, which needs a name. -/
def objectAddress (t : ResourceType) (ns : Option String) (name : String) :
    Except RemoteFailure String :=
  if name = "" then .error .unnamed else .ok (t.collection ns ++ "/" ++ name)

/-! ## Requests -/

def jsonType : String := "application/json"

def mergePatchType : String := "application/merge-patch+json"

def getObject (t : ResourceType) (ns : Option String) (name : String) :
    Except RemoteFailure Request := do
  build .get (← objectAddress t ns name) none

def putObject (t : ResourceType) (ns : Option String) (name : String) (content : Json) :
    Except RemoteFailure Request := do
  build .put ((← objectAddress t ns name) ++ "?") (some (jsonType, content))

def listObjects (t : ResourceType) (ns selector : Option String) : Except RemoteFailure Request :=
  build .get
    (t.collection ns ++ "?" ++
      match selector with
      | some selector => "&labelSelector=" ++ formText selector
      | none => "")
    none

/-- Deletes an object if it is still the one of an identity. -/
def deleteObject (t : ResourceType) (ns : Option String) (name : String) (uid : Option String) :
    Except RemoteFailure Request := do
  build .delete ((← objectAddress t ns name) ++ "?")
    (some (jsonType,
      .ofMembers [("preconditions", .record [("uid", uid.map .string)])]))

def patchStatus (t : ResourceType) (ns : Option String) (name : String) (status : Json) :
    Except RemoteFailure Request := do
  build .patch ((← objectAddress t ns name) ++ "/status?")
    (some (mergePatchType, .ofMembers [("status", status)]))

end Request

end ScheduledScaling
