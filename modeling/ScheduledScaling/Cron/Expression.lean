import ScheduledScaling.Cron.Grammar
import ScheduledScaling.Cron.Weekday
import ScheduledScaling.Time.Zone.Names
/-!
Cron expressions as people write them: six fields beginning with seconds, or the classic five,
which fire at second 0, with classic weekday numbers.
-/
namespace ScheduledScaling

inductive ScheduleError where
  | invalidCron (expression : String)
  | unknownTimeZone (name : String)
  deriving DecidableEq, Repr

namespace ScheduleError

def message : ScheduleError → String
  | invalidCron expression =>
    "Invalid cron expression '" ++ expression ++
      "': Invalid expression: Invalid cron expression."
  | unknownTimeZone name => "Unknown timezone '" ++ name ++ "'"

end ScheduleError

structure CronExpression where
  /-- The expression as written, without blanks around it. -/
  text : String
  cron : Cron
  deriving DecidableEq, Repr

namespace CronExpression

/-- The position of the weekday field. -/
def weekdayIndex : Nat := 5

/-- The fields of an expression in the grammar's form: second 0 is added to five fields, and the
weekday field is renumbered. -/
def normalFields (text : List Char) : List (List Char) :=
  let fields := Text.words text
  let fields := if fields.length = 5 then ['0'] :: fields else fields
  fields.modify weekdayIndex Cron.Weekday.renumber

def parse (text : String) : Except ScheduleError CronExpression :=
  match Cron.read? ([' '].intercalate (normalFields text.toList)) with
  | some cron => .ok { text := Text.trimmed text, cron }
  | none => .error (.invalidCron text)

end CronExpression

/-- The zone of a name as written in a schedule; blanks around it do not count. -/
def Zone.parse (name : String) (zones : Zone.Lookup := Zone.find?) : Except ScheduleError Zone :=
  match zones (Text.trimmed name) with
  | some zone => .ok zone
  | none => .error (.unknownTimeZone name)

end ScheduledScaling
