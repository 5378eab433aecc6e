import ScheduledScaling.Cron.Occurrence
import ScheduledScaling.Time.Duration
/-!
What is due, and when to look again. An action is due once the first occurrence after its last
run has come, so an occurrence missed while nothing ran is caught up. Schedules that are empty or
do not read are never due.

When both scaling actions are due, the one whose last occurrence is later wins, and scaling down
wins a tie.
-/
namespace ScheduledScaling

/-- The next occurrence of a written schedule after an instant. -/
def nextOccurrence (schedule : String) (z : Zone) (now : Instant) :
    Except Overflow (Option Instant) :=
  if Text.isEmptyTrimmed schedule then .ok none
  else
    match CronExpression.parse schedule with
    | .error _ => .ok none
    | .ok e => e.nextAfter z now

/-- The last occurrence of a written schedule up to an instant. -/
def latestOccurrence (schedule : String) (z : Zone) (now : Instant) :
    Except Overflow (Option Instant) :=
  match CronExpression.parse schedule with
  | .error _ => .ok none
  | .ok e => e.latestAtOrBefore z now

/-- Whether an action is due. One that never ran counts from the epoch. -/
def isDue (schedule : String) (z : Zone) (last : Option Instant) (now : Instant) :
    Except Overflow Bool := do
  return (← nextOccurrence schedule z (last.getD Instant.epoch)).any fun t => decide (t ≤ now)

/-- The scaling work of one pass. The flags tell that the other action was due too and is
superseded. -/
inductive ScalingPlan where
  | idle
  | scaleDown (supersedesUp : Bool)
  | scaleUp (supersedesDown : Bool)
  deriving DecidableEq, Repr

/-- Whether the first instant is later than the second; no instant is earlier than any. -/
def isLater : Option Instant → Option Instant → Bool
  | none, _ => false
  | some _, none => true
  | some a, some b => decide (b < a)

def planScaling (down up : String) (z : Zone) (lastDown lastUp : Option Instant) (now : Instant) :
    Except Overflow ScalingPlan := do
  let downDue ← isDue down z lastDown now
  let upDue ← isDue up z lastUp now
  match downDue, upDue with
  | false, false => return .idle
  | true, false => return .scaleDown false
  | false, true => return .scaleUp false
  | true, true =>
    let lastDownAt ← latestOccurrence down z now
    let lastUpAt ← latestOccurrence up z now
    return if isLater lastUpAt lastDownAt then .scaleUp true else .scaleDown true

/-- The earliest of some instants. -/
def earliest? : List Instant → Option Instant
  | [] => none
  | t :: rest =>
    match earliest? rest with
    | none => some t
    | some u => some (if u < t then u else t)

/-- How long to wait for the first of the next occurrences; none when nothing lies ahead. -/
def planWake (now : Instant) (next : List (Option Instant)) : Option Duration := do
  let soonest ← earliest? ((next.filterMap id).filter fun t => decide (now < t))
  let (seconds, nanos) := soonest.since now
  if seconds < 0 then none else some ⟨seconds.toNat, nanos⟩

end ScheduledScaling
