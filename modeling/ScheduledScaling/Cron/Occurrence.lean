import ScheduledScaling.Cron.Expression
/-!
When a cron expression fires. It fires at every wall time whose date and time it admits and that
clocks in the zone show: not in a gap, twice in a fold. Wall times run from 1970 to 2100.

The search for the next occurrence goes forward in wall time from the second after the given
instant, so inside a fold it can give a second pass's wall time in the first pass.
-/
namespace ScheduledScaling

namespace Cron

/-- The day after the last day that an expression can fire on. -/
def endDay : Nat := (Date.toDay ⟨Field.year.high + 1, 1, 1⟩).toNat

/-- Whether an expression admits a date; day of month and day of week must both agree. -/
def admitsDay (c : Cron) (day : Nat) : Bool :=
  let date := Date.ofDay day
  c.daysOfMonth.contains date.day && c.months.contains date.month &&
    c.daysOfWeek.contains (weekdayOf day + 1) && c.years.contains date.year.toNat

/-- Whether an expression admits a second of the day. -/
def admitsTime (c : Cron) (second : Nat) : Bool :=
  c.hours.contains (second / 3600) && c.minutes.contains (second / 60 % 60) &&
    c.seconds.contains (second % 60)

/-- Whether an expression admits a wall time. -/
def admits (c : Cron) (wall : Int) : Bool :=
  0 ≤ wall && c.admitsDay (wall.toNat / 86400) && c.admitsTime (wall.toNat % 86400)

/-- The first second of a day, from `start` on, that an expression admits and `ok` accepts. -/
def firstTime (c : Cron) (start : Nat) (ok : Nat → Bool) : Option Nat :=
  c.hours.findSome? fun h =>
    if h * 3600 + 3599 < start then none
    else
      c.minutes.findSome? fun m =>
        if h * 3600 + m * 60 + 59 < start then none
        else
          (c.seconds.find? fun s =>
            start ≤ h * 3600 + m * 60 + s && ok (h * 3600 + m * 60 + s)).map
              (h * 3600 + m * 60 + ·)

/-- The last second of a day, before `stop`, that an expression admits and `ok` accepts. -/
def lastTime (c : Cron) (stop : Nat) (ok : Nat → Bool) : Option Nat :=
  c.hours.reverse.findSome? fun h =>
    if stop ≤ h * 3600 then none
    else
      c.minutes.reverse.findSome? fun m =>
        if stop ≤ h * 3600 + m * 60 then none
        else
          (c.seconds.reverse.find? fun s =>
            h * 3600 + m * 60 + s < stop && ok (h * 3600 + m * 60 + s)).map
              (h * 3600 + m * 60 + ·)

/-- The first of `count` numbers from `low` on at which `f` has a value, with that value. -/
def firstFrom {α : Type} (f : Nat → Option α) (low : Nat) : Nat → Option α
  | 0 => none
  | count + 1 =>
    match f low with
    | some a => some a
    | none => firstFrom f (low + 1) count

/-- The last of `count` numbers from `low` on at which `f` has a value, with that value. -/
def lastFrom {α : Type} (f : Nat → Option α) (low : Nat) : Nat → Option α
  | 0 => none
  | count + 1 =>
    match f (low + count) with
    | some a => some a
    | none => lastFrom f low count

/-- The first wall time from `start` on at which an expression fires. A search from before the
year 0 finds nothing. -/
def nextWall (c : Cron) (z : Zone) (start : Int) : Option Nat :=
  if (Date.ofDay (start / 86400)).year < 0 then none
  else
    let start := start.toNat
    let onDay (day : Nat) : Option Nat :=
      if c.admitsDay day then
        (c.firstTime (start - day * 86400) fun s => z.shows (day * 86400 + s : Nat)).map
          (day * 86400 + ·)
      else none
    firstFrom onDay (start / 86400) (endDay - start / 86400)

/-- The last wall time from `start` on and before `stop` at which an expression fires. -/
def lastWall (c : Cron) (z : Zone) (start stop : Int) : Option Nat :=
  let start := start.toNat
  let stop := stop.toNat
  let onDay (day : Nat) : Option Nat :=
    if c.admitsDay day then
      (c.lastTime (stop - day * 86400) fun s =>
        start ≤ day * 86400 + s && z.shows (day * 86400 + s : Nat)).map (day * 86400 + ·)
    else none
  lastFrom onDay (start / 86400) (min endDay (stop / 86400 + 1) - start / 86400)

/-- The second after the last wall time that an expression can fire at. -/
def endWall : Int := endDay * 86400

/-- Walks wall times upward from `wall`: `next` gives the next of them and `passes` its instants.
The answer is the last instant before the first one after `limit`, or else `last`. -/
def lastUpTo (next : Int → Option Nat) (passes : Nat → List Int) (stop limit wall : Int)
    (last : Option Int) : Option Int :=
  match next wall with
  | none => last
  | some w =>
    let found := passes w
    let kept := found.takeWhile (· ≤ limit)
    let last := kept.getLast?.or last
    if kept.length = found.length ∧ wall ≤ w ∧ w < stop then
      lastUpTo next passes stop limit (w + 1) last
    else last
termination_by (stop - wall).toNat
decreasing_by omega

/-- Where a walk up to `limit` from the wall time `wall` may begin: at the last occurrence that is
more than a day before `limit` on the clock. No offset is as long as a day, so all instants of the
wall times up to it are before `limit`, and a walk from `wall` comes past it. -/
def walkStart (c : Cron) (z : Zone) (limit wall : Int) : Int :=
  ((c.lastWall z wall (limit - 86400)).map Int.ofNat).getD wall

/-- The last occurrence from the wall time `wall` on that a walk meets before it passes `limit`. -/
def lastOccurrence (c : Cron) (z : Zone) (limit wall : Int) : Option Int :=
  lastUpTo (c.nextWall z) (fun w => z.secondsAt w) endWall limit (c.walkStart z limit wall) none

end Cron

namespace CronExpression

/-- The first occurrence after an instant, in the zone's wall time. In a fold it is the earlier
of the two instants of that wall time. -/
def nextAfter (e : CronExpression) (z : Zone) (t : Instant) :
    Except Overflow (Option Instant) := do
  let start ← t.plus 1 0
  return do
    let wall ← e.cron.nextWall z (z.wallAt start.second)
    let second ← (z.secondsAt wall).head?
    return ⟨second, 0⟩

/-- How far back the last occurrence is looked for, in seconds, one window after the other. -/
def lookback : List Nat := [60, 3600, 86400, 8 * 86400, 32 * 86400, 367 * 86400, 8 * 367 * 86400]

/-- The last occurrence in the first of the windows that has one. -/
def latestWithin (e : CronExpression) (z : Zone) (t : Instant) :
    List Nat → Except Overflow (Option Instant)
  | [] => .ok none
  | window :: wider => do
    let start ← (← t.minusSeconds window).plus 1 0
    match e.cron.lastOccurrence z t.second (z.wallAt start.second) with
    | some second => return some ⟨second, 0⟩
    | none => latestWithin e z t wider

/-- The most recent occurrence at or before an instant. -/
def latestAtOrBefore (e : CronExpression) (z : Zone) (t : Instant) :
    Except Overflow (Option Instant) :=
  e.latestWithin z t lookback

end CronExpression

end ScheduledScaling
