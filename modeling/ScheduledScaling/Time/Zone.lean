import ScheduledScaling.Time.Instant
/-!
Time zones. A zone is an offset from UTC and a list of later changes to it, so that UTC time is
cut into spans of one offset each: a span includes its start and excludes its end. A wall time is
what a local clock shows, counted in seconds like UTC time. It belongs to no instant in a gap, to
two in a fold, and otherwise to one; `secondsAt` lists them, earliest span first.
-/
namespace ScheduledScaling

structure Zone where
  name : String
  /-- Seconds east of UTC before the first change. -/
  initial : Int
  /-- UTC seconds with the offset from then on, in ascending order. -/
  changes : List (Int × Int)
  deriving Repr, Inhabited

namespace Zone

def utc : Zone := ⟨"UTC", 0, []⟩

/-- How zones are found by their exact names. -/
abbrev Lookup := String → Option Zone

/-- The offset in force at a UTC second: that of the last change not after it. -/
def offsetFrom (offset : Int) (utcSecond : Int) : List (Int × Int) → Int
  | [] => offset
  | (start, next) :: later =>
    if start ≤ utcSecond then offsetFrom next utcSecond later else offset

def offsetAt (z : Zone) (utcSecond : Int) : Int :=
  offsetFrom z.initial utcSecond z.changes

/-- What a clock in the zone shows at a UTC second. -/
def wallAt (z : Zone) (utcSecond : Int) : Int :=
  utcSecond + z.offsetAt utcSecond

/-- The UTC seconds at which a clock shows `wall`, from the span on that starts at `start`. -/
def secondsFrom (wall : Int) (start : Option Int) (offset : Int) : List (Int × Int) → List Int
  | [] => if start.all (· ≤ wall - offset) then [wall - offset] else []
  | (stop, next) :: later =>
    let inSpan := start.all (· ≤ wall - offset) && wall - offset < stop
    if inSpan then (wall - offset) :: secondsFrom wall (some stop) next later
    else secondsFrom wall (some stop) next later

/-- The UTC seconds at which a clock in the zone shows `wall`. -/
def secondsAt (z : Zone) (wall : Int) : List Int :=
  secondsFrom wall none z.initial z.changes

/-- Whether the clocks of the zone show `wall` at all. -/
def shows (z : Zone) (wall : Int) : Bool := !(z.secondsAt wall).isEmpty

end Zone

end ScheduledScaling
