import ScheduledScaling.Cleanup.Reaper
/-!
A store in memory. Workloads are kept by namespace and name, and an update has to carry the
version that is stored. Calls can be made to fail, and a workload can be edited from outside,
also between a fetch and the update that follows it. What was done is recorded.
-/
namespace ScheduledScaling

/-- A change of a workload from outside. -/
structure Edit where
  /-- The namespace of the workload. -/
  ns : String
  name : String
  replicas : Option Int
  /-- Annotations to set, or to drop if they have no value. -/
  annotations : List (String × Option String)
  deriving Repr

/-- The resources of one kind. -/
structure MemoryLister where
  kind : String
  scope : Scope
  items : List Candidate
  /-- The namespaces in which listing fails. -/
  failListIn : List String
  /-- The names of the resources whose deletion fails. -/
  failDeleteOf : List String
  /-- The namespace and the selector of each listing so far. -/
  listCalls : List (Option String × Option String)
  /-- The names of the resources deleted so far. -/
  deleted : List String
  deriving Repr

structure MemoryStore where
  workloads : Keyed Workload
  /-- The updates that succeeded so far. -/
  replaces : Nat
  /-- The fetches that still succeed; all do if there is no count. -/
  fetchBudget : Option Nat
  /-- The updates that still get through. -/
  replaceBudget : Option Nat
  /-- An edit that waits for the next fetch. -/
  race : Option Edit
  schedules : List Schedule
  /-- Every read of a schedule fails. -/
  schedulesDown : Bool
  /-- The status patches so far, by namespace and name. -/
  patches : List (String × String × Json)
  patchesFail : Bool
  listers : List MemoryLister
  deriving Repr

namespace MemoryStore

def empty : MemoryStore := ⟨[], 0, none, none, none, [], false, [], false, []⟩

/-- A failure that was asked for. -/
def injected (code : Nat) (reason : String) : Failure :=
  .remote (.refused ⟨"Failure", "injected " ++ reason, reason, code⟩)

def outage : Failure := injected 500 "InternalError"

/-! ## Workloads -/

/-- The key under which a workload is kept. -/
def workloadKey (ns name : String) : String := ns ++ "/" ++ name

def put (w : Workload) (store : MemoryStore) : MemoryStore :=
  { store with workloads := store.workloads.set (workloadKey (w.metadata.ns.getD "") w.name) w }

def workload? (ns name : String) (store : MemoryStore) : Option Workload :=
  store.workloads.get? (workloadKey ns name)

/-- The version after the one a workload has; what is no number counts as zero. -/
def nextVersion (w : Workload) : String :=
  toString
    (((w.resourceVersion.bind fun v => Text.readWord? Word.bound64 v.toList).getD 0) + 1)

def raiseVersion (w : Workload) : Workload := w.setResourceVersion (nextVersion w)

def editAnnotation (w : Workload) : String × Option String → Workload
  | (key, some value) => w.annotate key value
  | (key, none) => w.dropAnnotation key

/-- An edited workload, of the next version. -/
def edited (e : Edit) (w : Workload) : Workload :=
  let w := match e.replicas with
    | some n => w.setReplicas n
    | none => w
  raiseVersion (e.annotations.foldl editAnnotation w)

def edit (e : Edit) (store : MemoryStore) : MemoryStore :=
  match store.workload? e.ns e.name with
  | none => store
  | some w =>
    { store with
      workloads := store.workloads.set (workloadKey e.ns e.name) (edited e w) }

/-- The edit that waited for a fetch is made now. -/
def releaseRace (store : MemoryStore) : MemoryStore :=
  match store.race with
  | none => store
  | some e => { edit e store with race := none }

def notFound (target : Target) : Failure := .notFound target.kind target.name target.ns

/-- Takes one from a budget; none is left if it was used up. -/
def spend : Option Nat → Option (Option Nat)
  | none => some none
  | some 0 => none
  | some (n + 1) => some (some n)

def fetch (target : Target) (store : MemoryStore) : Except Failure Workload × MemoryStore :=
  match spend store.fetchBudget with
  | none => (.error outage, store)
  | some budget =>
    let store := { store with fetchBudget := budget }
    match store.workload? target.ns target.name with
    | none => (.error (notFound target), releaseRace store)
    | some w => (.ok w, releaseRace store)

/-- Stores a workload if it is of the version that is stored. -/
def swap (target : Target) (w : Workload) (store : MemoryStore) :
    Except Failure Workload × MemoryStore :=
  match store.workload? target.ns target.name with
  | none => (.error (notFound target), store)
  | some stored =>
    if stored.resourceVersion ≠ w.resourceVersion then
      (.error (.conflict target.kind target.name "the object has been modified"), store)
    else
      let updated := w.setResourceVersion (nextVersion stored)
      (.ok updated,
        { store with
          workloads := store.workloads.set (workloadKey target.ns target.name) updated
          replaces := store.replaces + 1 })

def replace (target : Target) (w : Workload) (store : MemoryStore) :
    Except Failure Workload × MemoryStore :=
  match spend store.replaceBudget with
  | none => (.error outage, store)
  | some budget => swap target w { store with replaceBudget := budget }

/-! ## Schedules -/

def listSchedules (store : MemoryStore) : Except Failure (List Schedule) :=
  if store.schedulesDown then .error outage else .ok store.schedules

def getSchedule (ns name : String) (store : MemoryStore) : Except Failure (Option Schedule) :=
  if store.schedulesDown then .error outage
  else
    .ok (store.schedules.find? fun s => s.metadata.ns = some ns ∧ s.metadata.name = some name)

def patchStatus (ns name : String) (status : Json) (store : MemoryStore) :
    Except Failure Unit × MemoryStore :=
  if store.patchesFail then (.error outage, store)
  else (.ok (), { store with patches := store.patches ++ [(ns, name, status)] })

end MemoryStore

/-! ## Resources -/

namespace MemoryLister

def list (ns selector : Option String) (lister : MemoryLister) :
    Except Failure (List Candidate) × MemoryLister :=
  let asked := { lister with listCalls := lister.listCalls ++ [(ns, selector)] }
  if ns.any lister.failListIn.contains then (.error (MemoryStore.injected 403 "Forbidden"), asked)
  else
    (.ok (lister.items.filter fun c => lister.scope = .cluster ∨ ns = none ∨ c.ns = ns), asked)

/-- Whether two candidates stand for the same resource of a kind. -/
def sameResource (a b : Candidate) : Bool := a.name = b.name && a.ns = b.ns

def delete (candidate : Candidate) (lister : MemoryLister) : Except Failure Unit × MemoryLister :=
  if lister.failDeleteOf.contains candidate.name then (.error MemoryStore.outage, lister)
  else
    (.ok (),
      { lister with
        items := lister.items.filter fun c => !sameResource c candidate
        deleted := lister.deleted ++ [candidate.name] })

end MemoryLister

namespace MemoryStore

/-- Lets the lister of a kind answer, the last one if there are several. -/
def askLister {α : Type} (kind : String) (ask : MemoryLister → Except Failure α × MemoryLister) :
    List MemoryLister → Except Failure α × List MemoryLister
  | [] => (.error (.unsupportedKind kind), [])
  | lister :: rest =>
    if lister.kind = kind ∧ !rest.any (fun l => l.kind = kind) then
      let (answer, lister) := ask lister
      (answer, lister :: rest)
    else
      let (answer, rest) := askLister kind ask rest
      (answer, lister :: rest)

def withLister {α : Type} (kind : String) (ask : MemoryLister → Except Failure α × MemoryLister)
    (store : MemoryStore) : Except Failure α × MemoryStore :=
  let (answer, listers) := askLister kind ask store.listers
  (answer, { store with listers := listers })

/-- The kinds that the store can list. -/
def registry (store : MemoryStore) : Registry :=
  Keyed.ofList (store.listers.map fun l => (l.kind, l.scope))

/-- How the store answers each call. -/
def handler : Handler MemoryStore
  | .fetch target, store => fetch target store
  | .replace target w, store => replace target w store
  | .listSchedules, store => (listSchedules store, store)
  | .getSchedule ns name, store => (getSchedule ns name store, store)
  | .patchStatus ns name status, store => patchStatus ns name status store
  | .list kind ns selector, store => withLister kind (MemoryLister.list ns selector) store
  | .delete kind candidate, store => withLister kind (MemoryLister.delete candidate) store

end MemoryStore

end ScheduledScaling
