/-!
Values by key, as lists of pairs. `Keyed.set` keeps a list in ascending order of its keys and
without repetition, so lists that are built with it are equal when they hold the same values.
-/
namespace ScheduledScaling

abbrev Keyed (α : Type) := List (String × α)

namespace Keyed

variable {α : Type}

/-- Sets the value of a key, at its place in the order of the keys. -/
def set (key : String) (value : α) : Keyed α → Keyed α
  | [] => [(key, value)]
  | (k, v) :: rest =>
    if key < k then (key, value) :: (k, v) :: rest
    else if key = k then (key, value) :: rest
    else (k, v) :: set key value rest

/-- Pairs in the order of their keys; of two with one key the later counts. -/
def ofList (pairs : List (String × α)) : Keyed α :=
  pairs.foldl (fun sorted (k, v) => set k v sorted) []

def get? (key : String) : Keyed α → Option α
  | [] => none
  | (k, v) :: rest => if k = key then some v else get? key rest

def erase (key : String) : Keyed α → Keyed α
  | [] => []
  | (k, v) :: rest => if k = key then erase key rest else (k, v) :: erase key rest

/-- The pairs whose keys are not among some keys. -/
def without (keys : List String) (pairs : Keyed α) : Keyed α :=
  pairs.filter fun (k, _) => !keys.contains k

end Keyed

end ScheduledScaling
