import ScheduledScaling.Text.Blank
import ScheduledScaling.Text.Numeral
/-!
Numeric weekdays. Schedules are written in the classic numbering, in which 0 and 7 are Sunday;
the grammar counts from Sunday, which is 1, to Saturday, which is 7. A numeric item of a weekday
field becomes the list of its days; names and items that are not understood stay as they
are, for the grammar to judge.
-/
namespace ScheduledScaling.Cron.Weekday

/-- The first and last day of a numeric item without its step. A single day with a step runs to
Saturday. -/
def bounds? (base : List Char) (hasStep : Bool) : Option (Nat × Nat) :=
  if base = ['*'] then some (0, 6)
  else
    match Text.cut? '-' base with
    | some (first, last) => do
      return (← Text.readWord? Word.bound32 first, ← Text.readWord? Word.bound32 last)
    | none => do
      let day ← Text.readWord? Word.bound32 base
      return (day, if hasStep then 6 else day)

/-- The days of a numeric item in the classic numbering, from its first day on. -/
def classicDays? (item : List Char) : Option (List Nat) := do
  if item = ['*'] || item = ['?'] then none
  let (base, step) ← match Text.cut? '/' item with
    | some (base, step) => do
      let step ← (Text.readWord? Word.bound32 step).filter (0 < ·)
      pure (base, some step)
    | none => pure (item, none)
  let (first, last) ← bounds? base step.isSome
  if last < first || 7 < last then none
  else
    let days := List.range' first (last + 1 - first)
    return days.filter fun d => (d - first) % step.getD 1 = 0

/-- The grammar's number for a day in the classic numbering. -/
def fieldDay (classic : Nat) : Nat := classic % 7 + 1

/-- A numeric item as the list of its days in the grammar's numbering. -/
def renumberItem (item : List Char) : List Char :=
  match classicDays? item with
  | none => item
  | some days =>
    let fieldDays := (List.range' 1 7).filter fun d => (days.map fieldDay).contains d
    [','].intercalate (fieldDays.map digits)
where
  digits (n : Nat) : List Char := (toString n).toList

/-- A weekday field with its numeric items in the grammar's numbers. -/
def renumber (field : List Char) : List Char :=
  [','].intercalate ((Text.pieces (· == ',') field).map renumberItem)

end ScheduledScaling.Cron.Weekday
