import ScheduledScaling.Cleanup.Reaper
import ScheduledScaling.Remote.Reply
import ScheduledScaling.Remote.Request
import ScheduledScaling.Remote.Resource
/-!
The cluster as a store. Each call is one request; how requests are sent and answered is left to a
transport.
-/
namespace ScheduledScaling

/-- How a request is answered, and what becomes of the other side. -/
abbrev Transport (σ : Type) := Request → σ → Reply × σ

namespace Remote

variable {σ α : Type}

/-- Sends a request and reads the reply. A request that cannot be made is not sent. -/
def exchange (transport : Transport σ) (request : Except RemoteFailure Request)
    (reader : String → Except DecodeError α) (s : σ) : Except RemoteFailure α × σ :=
  match request with
  | .error e => (.error e, s)
  | .ok request =>
    let (reply, s) := transport request s
    (reply.read reader, s)

/-- Names the failure of an exchange. -/
def orFail (failure : RemoteFailure → Failure) :
    Except RemoteFailure α × σ → Except Failure α × σ
  | (.ok a, s) => (.ok a, s)
  | (.error e, s) => (.error (failure e), s)

def workloadReader (kind : WorkloadKind) : String → Except DecodeError Workload :=
  reader (Workload.shape kind) (Workload.ofNormal kind)

def fetch (transport : Transport σ) (target : Target) (s : σ) : Except Failure Workload × σ :=
  match WorkloadKind.ofName? target.kind with
  | none => (.error (.unsupportedKind target.kind), s)
  | some kind =>
    orFail (.ofRemote kind.name target.name target.ns)
      (exchange transport (Request.getObject kind.resource.type (some target.ns) target.name)
        (workloadReader kind) s)

/-- Writes a workload as what it is, under the name of the target. -/
def replace (transport : Transport σ) (target : Target) (w : Workload) (s : σ) :
    Except Failure Workload × σ :=
  orFail (.ofRemote w.kind.name target.name target.ns)
    (exchange transport
      (Request.putObject w.kind.resource.type (some target.ns) target.name w.toJson)
      (workloadReader w.kind) s)

def scheduleReader : String → Except DecodeError Schedule := reader Schedule.shape Codec.ofNormal

def listSchedules (transport : Transport σ) (s : σ) : Except Failure (List Schedule) × σ :=
  orFail .remote
    (exchange transport (Request.listObjects Schedule.type none none)
      (listReader Schedule.shape Codec.ofNormal) s)

/-- A schedule that is reported not to be there is none. -/
def orAbsent : Except RemoteFailure α → Except RemoteFailure (Option α)
  | .ok a => .ok (some a)
  | .error (.refused r) => if r.reason = "NotFound" then .ok none else .error (.refused r)
  | .error e => .error e

def getSchedule (transport : Transport σ) (ns name : String) (s : σ) :
    Except Failure (Option Schedule) × σ :=
  let (result, s) :=
    exchange transport (Request.getObject Schedule.type (some ns) name) scheduleReader s
  orFail .remote (orAbsent result, s)

def patchStatus (transport : Transport σ) (ns name : String) (status : Json) (s : σ) :
    Except Failure Unit × σ :=
  orFail (.ofRemote Schedule.kind name ns)
    (exchange transport (Request.patchStatus Schedule.type (some ns) name status)
      (reader Schedule.shape fun _ => ()) s)

/-- The namespace to ask for; kinds outside namespaces have none. -/
def scopeOf (kind : ResourceKind) (ns : Option String) : Option String :=
  match kind.scope with
  | .namespaced => ns
  | .cluster => none

def candidateOf (kind : ResourceKind) (object : Json) : Candidate :=
  .ofMeta kind.name ((object.decoded? ObjectMeta "metadata").getD default)

def list (transport : Transport σ) (kind : ResourceKind) (ns selector : Option String) (s : σ) :
    Except Failure (List Candidate) × σ :=
  orFail .remote
    (exchange transport (Request.listObjects kind.type (scopeOf kind ns) selector)
      (listReader (shapeOf kind) (candidateOf kind)) s)

def delete (transport : Transport σ) (kind : ResourceKind) (candidate : Candidate) (s : σ) :
    Except Failure Unit × σ :=
  let ns := scopeOf kind (some (candidate.ns.getD ""))
  orFail (.ofRemote kind.name candidate.name (ns.getD ""))
    (exchange transport (Request.deleteObject kind.type ns candidate.name candidate.uid)
      (deletionReader kind) s)

/-- The kinds that the cluster can list. -/
def registry : Registry := Keyed.ofList (ResourceKind.all.map fun k => (k.name, k.scope))

/-- Lets a kind answer that has a name. -/
def withKind (kind : String) (ask : ResourceKind → σ → Except Failure α × σ) (s : σ) :
    Except Failure α × σ :=
  match ResourceKind.ofName? kind with
  | some kind => ask kind s
  | none => (.error (.unsupportedKind kind), s)

/-- How the cluster answers each call. -/
def handler (transport : Transport σ) : Handler σ
  | .fetch target, s => fetch transport target s
  | .replace target w, s => replace transport target w s
  | .listSchedules, s => listSchedules transport s
  | .getSchedule ns name, s => getSchedule transport ns name s
  | .patchStatus ns name status, s => patchStatus transport ns name status s
  | .list kind ns selector, s => withKind kind (fun k => list transport k ns selector) s
  | .delete kind candidate, s => withKind kind (fun k => delete transport k candidate) s

end Remote

end ScheduledScaling
