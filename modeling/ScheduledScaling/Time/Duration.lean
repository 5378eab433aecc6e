import ScheduledScaling.Text.Blank
import ScheduledScaling.Time.Instant
/-!
Lengths of time and their written form. A written duration is a row of amounts such as `1h 30m`
or `1.5d`, each a number and a unit; `0` alone stands for no time. Blanks may stand before and
inside a number and before a unit. A duration's seconds, and the nanoseconds of any one amount,
fit in 64 bits.

A fraction has to come out even: in nanoseconds up to minutes, in seconds from hours on.
-/
namespace ScheduledScaling

structure Duration where
  seconds : Nat
  /-- Below 10^9. -/
  nanos : Nat
  deriving DecidableEq, Repr, Inhabited

namespace Duration

def zero : Duration := ⟨0, 0⟩

def ofSeconds (n : Nat) : Duration := ⟨n, 0⟩

instance : LE Duration where
  le a b := a.seconds < b.seconds ∨ a.seconds = b.seconds ∧ a.nanos ≤ b.nanos

instance (a b : Duration) : Decidable (a ≤ b) :=
  inferInstanceAs (Decidable (a.seconds < b.seconds ∨ a.seconds = b.seconds ∧ a.nanos ≤ b.nanos))

def shorter (a b : Duration) : Duration := if a ≤ b then a else b

/-- The longest duration that can be added to an instant: 2^63 - 1 milliseconds. -/
def longest : Duration := ⟨9223372036854775, 807000000⟩

/-! ## Units -/

inductive Measure where
  | nanosecond
  | microsecond
  | millisecond
  | second
  | minute
  | hour
  | day
  | week
  | month
  | year
  deriving DecidableEq, Repr

namespace Measure

/-- The spellings of each unit. A month is a twelfth of a year of 365.25 days. -/
def spellings : List (Measure × List String) :=
  [(nanosecond, ["nanos", "nsec", "ns"]), (microsecond, ["usec", "us", "µs"]),
    (millisecond, ["millis", "msec", "ms"]), (second, ["seconds", "second", "secs", "sec", "s"]),
    (minute, ["minutes", "minute", "min", "mins", "m"]),
    (hour, ["hours", "hour", "hr", "hrs", "h"]), (day, ["days", "day", "d"]),
    (week, ["weeks", "week", "wk", "wks", "w"]), (month, ["months", "month", "M"]),
    (year, ["years", "year", "yr", "yrs", "y"])]

def read? (text : String) : Option Measure :=
  (spellings.find? fun (_, words) => words.contains text).map (·.1)

/-- The nanoseconds in a unit below a second, the seconds in any other. -/
def size : Measure → Nat
  | nanosecond => 1
  | microsecond => 1000
  | millisecond => 1000000
  | second => 1
  | minute => 60
  | hour => 3600
  | day => 86400
  | week => 604800
  | month => 2630016
  | year => 31557600

def isBelowSecond : Measure → Bool
  | nanosecond | microsecond | millisecond => true
  | _ => false

/-- Whether a fraction of the unit is reckoned in nanoseconds, and how many of them or of seconds
the unit has. A nanosecond has no fraction. -/
def fractionSize? : Measure → Option (Bool × Nat)
  | nanosecond => none
  | microsecond => some (true, 1000)
  | millisecond => some (true, 1000000)
  | second => some (true, 1000000000)
  | minute => some (true, 60000000000)
  | m => some (false, m.size)

end Measure

/-! ## Sums -/

/-- Adds seconds and nanoseconds to a duration; none when the seconds do not fit. Nanoseconds are
carried when there are more than 10^9 of them. Exactly 10^9 are carried at the end, and overflow
there ends the operation. -/
def add? (d : Duration) (seconds nanos : Nat) : Except Overflow (Option Duration) :=
  let total := d.nanos + nanos
  let carried := if total > Instant.nanosPerSecond then total / Instant.nanosPerSecond else 0
  let rest := if total > Instant.nanosPerSecond then total % Instant.nanosPerSecond else total
  let seconds := d.seconds + (seconds + carried)
  if Word.bound64 ≤ total ∨ Word.bound64 ≤ seconds then .ok none
  else if rest < Instant.nanosPerSecond then .ok (some ⟨seconds, rest⟩)
  else if seconds + 1 < Word.bound64 then .ok (some ⟨seconds + 1, 0⟩)
  else .error .durationSum

/-- A number as written, with the digits of its fraction. -/
structure Amount where
  whole : Nat
  /-- The value of the fraction's digits, and how many there are. -/
  fraction : Option (Nat × Nat)
  measure : Measure
  deriving Repr

/-- The seconds and nanoseconds of a whole number of units, if they fit. -/
def Amount.wholePart? (a : Amount) : Option (Nat × Nat) :=
  let n := a.whole * a.measure.size
  if Word.bound64 ≤ n then none
  else if a.measure.isBelowSecond then some (0, n)
  else some (n, 0)

/-- The seconds and nanoseconds of a fraction of a unit, if it comes out even. -/
def Amount.fractionPart? (a : Amount) : Option (Nat × Nat) :=
  match a.fraction with
  | none => some (0, 0)
  | some (digits, count) =>
    match a.measure.fractionSize? with
    | none => none
    | some (inNanos, size) =>
      let n := digits * size
      let scale := Nat.pow 10 count
      if Word.bound64 ≤ scale ∨ Word.bound64 ≤ n ∨ n % scale ≠ 0 then none
      else if inNanos then some (0, n / scale)
      else some (n / scale, 0)

def plusAmount (d : Duration) (a : Amount) : Except Overflow (Option Duration) :=
  match a.wholePart? with
  | none => .ok none
  | some (seconds, nanos) => do
    match ← d.add? seconds nanos with
    | none => pure none
    | some d =>
      match a.fractionPart? with
      | none => pure none
      | some (seconds, nanos) => d.add? seconds nanos

/-! ## Reading -/

def isUnitLetter (c : Char) : Bool := c.isAlpha || c == 'µ'

/-- Digits with blanks among them: the digits, and what follows. -/
def looseDigits (s : List Char) : List Char × List Char :=
  let inside (c : Char) := c.isDigit || Text.isBlank c
  ((s.takeWhile inside).filter Char.isDigit, s.dropWhile inside)

/-- One amount off the front of a text. -/
def readAmount? (s : List Char) : Option (Amount × List Char) := do
  let (whole, rest) := looseDigits s
  let (fraction, rest) ← match rest with
    | '.' :: rest =>
      let (digits, rest) := looseDigits rest
      if digits.isEmpty || 19 < digits.length then none
      else some (some (Text.valueOfDigits digits, digits.length), rest)
    | rest => some (none, rest)
  let word := rest.takeWhile isUnitLetter
  let rest := rest.dropWhile isUnitLetter
  let ended := match rest with
    | [] => true
    | c :: _ => c.isDigit || Text.isBlank c
  let whole' := Text.valueOfDigits whole
  if whole.isEmpty || Word.bound64 ≤ whole' || !ended then none
  else
    let measure ← Measure.read? (String.ofList word)
    some ({ whole := whole', fraction, measure }, rest)

/-- Adds the amounts of a text to a duration, from left to right. -/
def readAmounts (s : List Char) (sum : Duration) : Except Overflow (Option Duration) :=
  match readAmount? s with
  | none => .ok none
  | some (amount, rest) => do
    match ← sum.plusAmount amount with
    | none => pure none
    | some sum =>
      if rest.all Text.isBlank then pure (some sum)
      else if rest.length < s.length then readAmounts rest sum
      else pure none
termination_by s.length

/-- Reads a written duration. -/
def read (s : List Char) : Except Overflow (Option Duration) :=
  if s = ['0'] then .ok (some zero) else readAmounts s zero

/-- Reads a duration that may be added to an instant; blanks around it do not count. -/
def readAge (s : List Char) : Except Overflow (Option Duration) := do
  return (← read (Text.trim s)).filter fun d => decide (d ≤ longest)

end Duration

end ScheduledScaling
