import ScheduledScaling.Text.Numeral
/-!
The seven fields of a cron expression: the range of each, the names some of its values have, and
the values that one item of a field stands for.
-/
namespace ScheduledScaling.Cron

inductive Field where
  | second
  | minute
  | hour
  | dayOfMonth
  | month
  | dayOfWeek
  | year
  deriving DecidableEq, Repr

namespace Field

def low : Field → Nat
  | second | minute | hour => 0
  | dayOfMonth | month | dayOfWeek => 1
  | year => 1970

def high : Field → Nat
  | second | minute => 59
  | hour => 23
  | dayOfMonth => 31
  | month => 12
  | dayOfWeek => 7
  | year => 2100

/-- The values of a field that have names. In a field, Sunday is 1. -/
def names : Field → List (Nat × List String)
  | month =>
    [(1, ["jan", "january"]), (2, ["feb", "february"]), (3, ["mar", "march"]),
      (4, ["apr", "april"]), (5, ["may"]), (6, ["jun", "june"]), (7, ["jul", "july"]),
      (8, ["aug", "august"]), (9, ["sep", "september"]), (10, ["oct", "october"]),
      (11, ["nov", "november"]), (12, ["dec", "december"])]
  | dayOfWeek =>
    [(1, ["sun", "sunday"]), (2, ["mon", "monday"]), (3, ["tue", "tues", "tuesday"]),
      (4, ["wed", "wednesday"]), (5, ["thu", "thurs", "thursday"]), (6, ["fri", "friday"]),
      (7, ["sat", "saturday"])]
  | _ => []

/-- Whether `?` may stand for any value. -/
def allowsQuestion : Field → Bool
  | dayOfMonth | dayOfWeek => true
  | _ => false

/-- All values of a field, in ascending order. -/
def values (f : Field) : List Nat := List.range' f.low (f.high + 1 - f.low)

def admits (f : Field) (n : Nat) : Bool := f.low ≤ n && n ≤ f.high

/-- The value of a name in any case. -/
def named? (f : Field) (name : String) : Option Nat :=
  let name := String.ofList (name.toList.map Char.toLower)
  (f.names.find? fun (_, spellings) => spellings.contains name).map (·.1)

end Field

/-- A run of values as written. -/
inductive Span where
  | all
  | point (n : Nat)
  | range (first last : Nat)
  | namedRange (first last : String)
  deriving DecidableEq, Repr

/-- One item of the comma list of a field. -/
inductive Item where
  | span (s : Span)
  | step (s : Span) (interval : Nat)
  | name (n : String)
  deriving DecidableEq, Repr

/-- Every `n`-th element of a list, beginning with the first. -/
def everyNth (n : Nat) (xs : List Nat) : List Nat :=
  (xs.zipIdx.filter fun (_, i) => i % n = 0).map (·.1)

def rangeValues? (f : Field) (first last : Nat) : Option (List Nat) :=
  if f.admits first && f.admits last && first ≤ last then
    some (List.range' first (last + 1 - first))
  else none

namespace Span

/-- The values of a run, none if it is not one of the field. -/
def values? (f : Field) : Span → Option (List Nat)
  | all => some f.values
  | point n => if f.admits n then some [n] else none
  | range first last => rangeValues? f first last
  | namedRange first last => do rangeValues? f (← f.named? first) (← f.named? last)

end Span

namespace Item

/-- The values of an item. With a step, a single value starts a run to the field's end. -/
def values? (f : Field) : Item → Option (List Nat)
  | span s => s.values? f
  | name n => (f.named? n).map ([·])
  | step s interval =>
    if interval < 1 || f.high < interval then none
    else
      match s with
      | .point n => (rangeValues? f n f.high).map (everyNth interval)
      | s => (s.values? f).map (everyNth interval)

end Item

/-- The values that any of the items has, in ascending order. -/
def fieldValues? (f : Field) (items : List Item) : Option (List Nat) := do
  let runs ← items.mapM (Item.values? f)
  return f.values.filter fun n => runs.any (·.contains n)

/-! ## Small laws -/

namespace Field

theorem mem_values {f : Field} {n : Nat} : n ∈ f.values ↔ f.low ≤ n ∧ n ≤ f.high := by
  cases f <;> simp [values, low, high, List.mem_range'_1] <;> omega

theorem admits_iff {f : Field} {n : Nat} : f.admits n ↔ f.low ≤ n ∧ n ≤ f.high := by
  simp [admits]

end Field

theorem admits_of_mem_fieldValues {f : Field} {items : List Item} {ns : List Nat}
    (h : fieldValues? f items = some ns) {n : Nat} (hn : n ∈ ns) : f.admits n := by
  simp only [fieldValues?, Option.bind_eq_bind, Option.pure_def, Option.bind_eq_some_iff,
    Option.some.injEq] at h
  obtain ⟨runs, -, rfl⟩ := h
  exact Field.admits_iff.2 (Field.mem_values.1 (List.mem_filter.1 hn).1)

end ScheduledScaling.Cron
