import ScheduledScaling.Json.Codec
import ScheduledScaling.Schedule.Validation
import ScheduledScaling.Yaml.Integers
/-!
What can go wrong in an operation. Failures of the cluster pass by themselves and are worth
another try; faults of the spec and of what is remembered about a workload are not.
-/
namespace ScheduledScaling

/-- How the cluster explains a refusal. -/
structure ErrorResponse where
  status : String
  message : String
  reason : String
  code : Nat
  deriving DecidableEq, Repr, Inhabited

namespace ErrorResponse

def shape : Shape :=
  .record "ErrorResponse" .strict
    [⟨"status", .required, .string⟩, ⟨"message", .byDefault (.string ""), .string⟩,
      ⟨"reason", .byDefault (.string ""), .string⟩, ⟨"code", .required, .u16⟩]

instance : Codec ErrorResponse where
  shape := shape
  ofNormal v :=
    ⟨v.textOr "status" "", v.textOr "message" "", v.textOr "reason" "",
      ((v.int? "code").getD 0).toNat⟩
  toJson r :=
    Json.ofMembers
      [("status", .string r.status), ("message", .string r.message),
        ("reason", .string r.reason), ("code", .nat r.code)]

/-- All fields of a response, in one line. -/
def summary (r : ErrorResponse) : String :=
  "ErrorResponse \x7b status: " ++ Text.quoted r.status ++ ", message: " ++
    Text.quoted r.message ++ ", reason: " ++ Text.quoted r.reason ++ ", code: " ++
    toString r.code ++ " \x7d"

end ErrorResponse

/-- Why a request to the cluster failed. -/
inductive RemoteFailure where
  | refused (r : ErrorResponse)
  /-- The answer is not what was asked for. -/
  | unreadable (cause : String)
  /-- The request names no object. -/
  | unnamed
  /-- The address of the request has a character that no address has. -/
  | badAddress
  deriving DecidableEq, Repr

def RemoteFailure.message : RemoteFailure → String
  | refused r => "ApiError: " ++ r.message ++ ": " ++ r.reason ++ " (" ++ r.summary ++ ")"
  | unreadable cause => "Error deserializing response: " ++ cause
  | unnamed =>
    "Failed to build request: failed to validate request: A non-empty name is required"
  | badAddress => "Failed to build request: failed to build request: invalid uri character"

inductive Failure where
  | remote (e : RemoteFailure)
  | notFound (kind name ns : String)
  /-- An update lost against another one. -/
  | conflict (kind name cause : String)
  | invalidConfig (text : String)
  | validation (e : ValidationError)
  /-- The workload does not tell how many replicas to restore. -/
  | missingMemory (kind name ns : String)
  /-- The workload tells something else than a count of replicas. -/
  | invalidMemory (kind name value : String)
  | unsupportedKind (kind : String)
  | serialization (text : String)
  | io (text : String)
  deriving DecidableEq, Repr

namespace Failure

def message : Failure → String
  | remote e => "Kubernetes API error: " ++ e.message
  | notFound kind name ns =>
    "Resource not found: " ++ kind ++ "/" ++ name ++ " in namespace " ++ ns
  | conflict kind name cause => "Conflicting update on " ++ kind ++ "/" ++ name ++ ": " ++ cause
  | invalidConfig text => "Invalid configuration: " ++ text
  | validation e => "Schedule validation failed: " ++ e.message
  | missingMemory kind name ns =>
    "No original replica count recorded on " ++ kind ++ "/" ++ name ++ " in namespace " ++ ns
  | invalidMemory kind name value =>
    "Invalid original replica count " ++ Text.quoted value ++ " on " ++ kind ++ "/" ++ name
  | unsupportedKind kind => "Unsupported resource kind: " ++ kind
  | serialization text => "Serialization error: " ++ text
  | io text => "IO error: " ++ text

/-- Whether another try can succeed without anyone's help. -/
def isTransient : Failure → Bool
  | remote _ | notFound .. | conflict .. | io _ => true
  | _ => false

/-- The failure of a request about one object: a missing object and a lost update are told
apart. -/
def ofRemote (kind name ns : String) : RemoteFailure → Failure
  | .refused r =>
    if r.code = 404 then notFound kind name ns
    else if r.code = 409 then conflict kind name r.message
    else remote (.refused r)
  | e => remote e

/-- The failure of reading a JSON text. -/
def ofDecode (e : DecodeError) (text : String) : Failure := serialization (e.messageIn text)

/-- The failure of reading a YAML text. -/
def ofYaml (e : Yaml.Refusal) : Failure := serialization e.message

end Failure

end ScheduledScaling
