import ScheduledScaling.Cleanup.Candidate
import ScheduledScaling.Schedule.Object
import ScheduledScaling.Store.Failure
import ScheduledScaling.Workload.Object
/-!
What the operator does to the cluster, as a tree: each node is one call, and its branches go on
from the possible answers. Nothing happens until a program is run over a store, so the same
program runs over the cluster and over stores in memory, and it can be run call by call between
the calls of others.

A program ends with a value, or breaks off where a time leaves the range of time.
-/
namespace ScheduledScaling

inductive StoreCall where
  /-- The workload that a target names. -/
  | fetch (target : Target)
  /-- Writes a workload; it has to be of the version that is stored. -/
  | replace (target : Target) (workload : Workload)
  | listSchedules
  | getSchedule (ns name : String)
  /-- Merges members into the status of a schedule. -/
  | patchStatus (ns name : String) (status : Json)
  /-- The resources of a kind, in one namespace or in all. -/
  | list (kind : String) (ns selector : Option String)
  | delete (kind : String) (candidate : Candidate)

/-- What a call gives when it succeeds. -/
def StoreCall.Result : StoreCall → Type
  | fetch _ | replace _ _ => Workload
  | listSchedules => List Schedule
  | getSchedule _ _ => Option Schedule
  | patchStatus _ _ _ | delete _ _ => Unit
  | list _ _ _ => List Candidate

abbrev StoreCall.Answer (c : StoreCall) : Type := Except Failure c.Result

inductive Program (α : Type) where
  | done (a : α)
  | abort (e : Overflow)
  | call (c : StoreCall) (next : c.Answer → Program α)

/-- How a store answers a call, and what becomes of the store. -/
abbrev Handler (σ : Type) := (c : StoreCall) → σ → c.Answer × σ

namespace Program

variable {α β σ : Type}

def bind : Program α → (α → Program β) → Program β
  | done a, f => f a
  | abort e, _ => abort e
  | call c next, f => call c fun answer => (next answer).bind f

instance : Monad Program where
  pure := done
  bind := bind

/-- A value, or the end of the program if there is none. -/
def lift : Except Overflow α → Program α
  | .ok a => done a
  | .error e => abort e

instance : MonadLift (Except Overflow) Program := ⟨lift⟩

/-- Runs a program over a store. -/
def run (handler : Handler σ) : Program α → σ → Except Overflow α × σ
  | done a, s => (.ok a, s)
  | abort e, s => (.error e, s)
  | call c next, s =>
    let (answer, s) := handler c s
    (next answer).run handler s

/-! ## Laws -/

@[simp] theorem bind_done (a : α) (f : α → Program β) : (done a).bind f = f a := rfl

@[simp] theorem bind_abort (e : Overflow) (f : α → Program β) :
    (abort e : Program α).bind f = abort e := rfl

@[simp] theorem bind_call (c : StoreCall) (next : c.Answer → Program α) (f : α → Program β) :
    (call c next).bind f = call c fun answer => (next answer).bind f := rfl

theorem bind_assoc {γ : Type} (p : Program α) (f : α → Program β) (g : β → Program γ) :
    (p.bind f).bind g = p.bind fun a => (f a).bind g := by
  induction p with
  | done a => rfl
  | abort e => rfl
  | call c next ih => simp only [bind_call, ih]

theorem bind_pure (p : Program α) : p.bind done = p := by
  induction p with
  | done a => rfl
  | abort e => rfl
  | call c next ih => simp only [bind_call, ih]

/-- Running a program and then what follows from its value. -/
theorem run_bind (handler : Handler σ) (p : Program α) (f : α → Program β) (s : σ) :
    (p.bind f).run handler s =
      match p.run handler s with
      | (.ok a, s) => (f a).run handler s
      | (.error e, s) => (.error e, s) := by
  induction p generalizing s with
  | done a => rfl
  | abort e => rfl
  | call c next ih => exact ih _ _

end Program

/-- A program that can fail. -/
abbrev Operation (α : Type) := ExceptT Failure Program α

namespace Operation

def fetch (target : Target) : Operation Workload := ExceptT.mk (.call (.fetch target) .done)

def replace (target : Target) (workload : Workload) : Operation Workload :=
  ExceptT.mk (.call (.replace target workload) .done)

def listSchedules : Operation (List Schedule) := ExceptT.mk (.call .listSchedules .done)

def getSchedule (ns name : String) : Operation (Option Schedule) :=
  ExceptT.mk (.call (.getSchedule ns name) .done)

def patchStatus (ns name : String) (status : Json) : Operation Unit :=
  ExceptT.mk (.call (.patchStatus ns name status) .done)

def list (kind : String) (ns selector : Option String) : Operation (List Candidate) :=
  ExceptT.mk (.call (.list kind ns selector) .done)

def delete (kind : String) (candidate : Candidate) : Operation Unit :=
  ExceptT.mk (.call (.delete kind candidate) .done)

end Operation

end ScheduledScaling
