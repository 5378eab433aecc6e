import ScheduledScaling.Time.Calendar
import ScheduledScaling.Text.Numeral
/-!
Instants in UTC to the nanosecond. A leap second is kept inside the second before it, with a
nanosecond part from 10^9 on, so that an instant read as `:60` is written as `:60`. Instants are
ordered by second, then nanosecond. Arithmetic is partial: a result outside the years that the
calendar can name is an `Overflow`.
-/
namespace ScheduledScaling

structure Instant where
  /-- Seconds since 1970-01-01T00:00:00Z, leap seconds not counted. -/
  second : Int
  /-- From 10^9 on the instant lies in the leap second after `second`. -/
  nano : Nat
  deriving DecidableEq, Repr, Inhabited

/-- Arithmetic that left the range of its type. Nothing catches it: it ends the operation. -/
inductive Overflow where
  | instantPlus
  | instantMinus
  | durationSum
  deriving DecidableEq, Repr

namespace Overflow

def message : Overflow → String
  | instantPlus => "`DateTime + TimeDelta` overflowed"
  | instantMinus => "`DateTime - TimeDelta` overflowed"
  | durationSum => "overflow in Duration::new"

end Overflow

namespace Instant

def nanosPerSecond : Nat := 1000000000

def secondsPerDay : Int := 86400

/-- The Unix epoch. -/
def epoch : Instant := ⟨0, 0⟩

/-- The first and the last year that an instant can lie in. -/
def minYear : Int := -262143

def maxYear : Int := 262142

def minSecond : Int := Date.toDay ⟨minYear, 1, 1⟩ * secondsPerDay

def maxSecond : Int := Date.toDay ⟨maxYear, 12, 31⟩ * secondsPerDay + 86399

instance : LE Instant where
  le a b := a.second < b.second ∨ a.second = b.second ∧ a.nano ≤ b.nano

instance : LT Instant where
  lt a b := a.second < b.second ∨ a.second = b.second ∧ a.nano < b.nano

instance (a b : Instant) : Decidable (a ≤ b) :=
  inferInstanceAs (Decidable (a.second < b.second ∨ a.second = b.second ∧ a.nano ≤ b.nano))

instance (a b : Instant) : Decidable (a < b) :=
  inferInstanceAs (Decidable (a.second < b.second ∨ a.second = b.second ∧ a.nano < b.nano))

/-- The later of two instants. -/
def latest (a b : Instant) : Instant := if a ≤ b then b else a

/-- Seconds since midnight. -/
def secondOfDay (t : Instant) : Int := t.second % secondsPerDay

/-- The instant `seconds` and then `nanos` later, with no regard to the range. Time that leaves a
leap second forward does not count it; time that leaves it backward does. -/
def shift (t : Instant) (seconds : Int) (nanos : Nat) : Instant :=
  let carry (second : Int) (nano : Nat) : Instant :=
    ⟨second + seconds + (nano + nanos) / nanosPerSecond, (nano + nanos) % nanosPerSecond⟩
  if t.nano < nanosPerSecond then carry t.second t.nano
  else if seconds > 0 ∨ 2 * nanosPerSecond ≤ t.nano + nanos then
    carry t.second (t.nano - nanosPerSecond)
  else if seconds < 0 then carry (t.second + 1) (t.nano - nanosPerSecond)
  else ⟨t.second, t.nano + nanos⟩

def inRange (t : Instant) : Bool := minSecond ≤ t.second && t.second ≤ maxSecond

/-- A later instant. -/
def plus (t : Instant) (seconds nanos : Nat) : Except Overflow Instant :=
  let later := t.shift seconds nanos
  if later.inRange then .ok later else .error .instantPlus

/-- An earlier instant. -/
def minusSeconds (t : Instant) (seconds : Nat) : Except Overflow Instant :=
  let earlier := t.shift (-(seconds : Int)) 0
  if earlier.inRange then .ok earlier else .error .instantMinus

/-- The time from one instant to another, as whole seconds and a non-negative rest in
nanoseconds. A leap second that lies between the two on the same day's clock is counted. -/
def since (later earlier : Instant) : Int × Nat :=
  let leap : Int :=
    if later.secondOfDay > earlier.secondOfDay ∧ earlier.nano ≥ nanosPerSecond then 1
    else if later.secondOfDay < earlier.secondOfDay ∧ later.nano ≥ nanosPerSecond then -1
    else 0
  let nanos : Int := (later.nano : Int) - earlier.nano
  (later.second - earlier.second + leap + nanos / nanosPerSecond,
    (nanos % nanosPerSecond).toNat)

/-! ## Text -/

/-- A year from 0 to 9999 has four digits; others have a sign and at least four. -/
def yearText (year : Int) : String :=
  if 0 ≤ year ∧ year ≤ 9999 then Text.padded 4 year.toNat
  else (if year < 0 then "-" else "+") ++ Text.padded 4 year.natAbs

/-- The fraction of a second with the fewest of 0, 3, 6 or 9 digits that is exact. -/
def fractionText (nano : Nat) : String :=
  if nano = 0 then ""
  else if nano % 1000000 = 0 then "." ++ Text.padded 3 (nano / 1000000)
  else if nano % 1000 = 0 then "." ++ Text.padded 6 (nano / 1000)
  else "." ++ Text.padded 9 nano

/-- The instant in the form `2025-03-10T22:00:00Z`. -/
def text (t : Instant) : String :=
  let date := Date.ofDay (t.second / secondsPerDay)
  let clock := t.secondOfDay.toNat
  let leap := t.nano / nanosPerSecond
  yearText date.year ++ "-" ++ Text.padded 2 date.month ++ "-" ++ Text.padded 2 date.day ++ "T" ++
    Text.padded 2 (clock / 3600) ++ ":" ++ Text.padded 2 (clock / 60 % 60) ++ ":" ++
    Text.padded 2 (clock % 60 + leap) ++ fractionText (t.nano % nanosPerSecond) ++ "Z"

/-! ## Order -/

theorem le_iff {a b : Instant} :
    a ≤ b ↔ a.second < b.second ∨ a.second = b.second ∧ a.nano ≤ b.nano := Iff.rfl

theorem lt_iff {a b : Instant} :
    a < b ↔ a.second < b.second ∨ a.second = b.second ∧ a.nano < b.nano := Iff.rfl

theorem le_refl (a : Instant) : a ≤ a := Or.inr ⟨rfl, Nat.le_refl _⟩

theorem le_trans {a b c : Instant} (hab : a ≤ b) (hbc : b ≤ c) : a ≤ c := by
  simp only [le_iff] at *
  omega

theorem le_total (a b : Instant) : a ≤ b ∨ b ≤ a := by
  simp only [le_iff]
  omega

theorem lt_iff_not_le {a b : Instant} : a < b ↔ ¬ b ≤ a := by
  simp only [le_iff, lt_iff]
  omega

theorem le_latest_left (a b : Instant) : a ≤ latest a b := by
  unfold latest
  split
  · assumption
  · exact le_refl a

theorem le_latest_right (a b : Instant) : b ≤ latest a b := by
  unfold latest
  split
  · exact le_refl b
  · exact (le_total a b).resolve_left (by assumption)

end Instant

end ScheduledScaling
