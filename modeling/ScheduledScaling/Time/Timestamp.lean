import ScheduledScaling.Text.Blank
import ScheduledScaling.Time.Instant
/-!
Written dates and times. There are three forms:

* `readLenient`: a date, a time and an offset, with blanks allowed between the parts and any year.
  It is used where a document holds a time, and says why a text is refused.
* `readRfc3339?`: the strict form of RFC 3339, with every part in its place.
* `readDate?`: a date alone, which stands for its midnight in UTC.
-/
namespace ScheduledScaling

inductive TimestampError where
  | invalid
  | tooShort
  | tooLong
  | outOfRange
  | impossible
  deriving DecidableEq, Repr

namespace TimestampError

def message : TimestampError → String
  | invalid => "input contains invalid characters"
  | tooShort => "premature end of input"
  | tooLong => "trailing input"
  | outOfRange => "input is out of range"
  | impossible => "no possible date and time matching input"

end TimestampError

namespace Timestamp

/-- A reader takes characters off the front of a text. -/
abbrev Reader := StateT (List Char) (Except TimestampError)

def maxCount : Nat := 9223372036854775807

/-- A number of at least `least` and at most `most` digits. -/
def number (least most : Nat) : Reader Nat := fun s =>
  let digits := (s.take most).takeWhile Char.isDigit
  let value := Text.valueOfDigits digits
  if s.length < least then .error .tooShort
  else if digits.length < least then .error .invalid
  else if value > maxCount then .error .outOfRange
  else .ok (value, s.drop digits.length)

def literal (expected : Char) : Reader Unit := fun
  | [] => .error .tooShort
  | c :: rest => if c = expected then .ok ((), rest) else .error .invalid

def blanks : Reader Unit := modify Text.trimStart

/-- Date and time are parted by a `T` or a space. -/
def separator : Reader Unit := fun
  | [] => .error .tooShort
  | c :: rest => if c = 't' ∨ c = 'T' ∨ c = ' ' then .ok ((), rest) else .error .invalid

def within (low high : Nat) (n : Nat) : Reader Nat :=
  if low ≤ n ∧ n ≤ high then pure n else throw .outOfRange

/-- A year of up to four digits, or of any length after a sign. -/
def year : Reader Int := do
  blanks
  let bounded (n : Int) : Reader Int :=
    if -2147483648 ≤ n ∧ n ≤ 2147483647 then pure n else throw .outOfRange
  match ← get with
  | '-' :: rest => set rest; bounded (-(← number 1 rest.length.succ : Nat))
  | '+' :: rest => set rest; bounded (← number 1 rest.length.succ : Nat)
  | _ => bounded (← number 1 4 : Nat)

/-- A number of one or two digits in a range, after blanks. -/
def short (low high : Nat) : Reader Nat := do
  blanks
  within low high (← number 1 2)

/-- The fraction of a second in nanoseconds; digits beyond the ninth are dropped. -/
def fraction : Reader Nat := do
  match ← get with
  | '.' :: rest =>
    set rest
    let n ← number 1 9
    let read := rest.length - (← get).length
    modify fun s => s.dropWhile Char.isDigit
    pure (n * Nat.pow 10 (9 - read))
  | _ => pure 0

/-- Two bytes are needed before digits are looked at. -/
def twoDigits? (s : List Char) : Except TimestampError (Option (Nat × Nat)) :=
  if (String.ofList (s.take 2)).utf8ByteSize < 2 then .error .tooShort
  else
    match s with
    | a :: b :: _ =>
      if a.isDigit && b.isDigit then .ok (some (Text.digitValue a, Text.digitValue b)) else .ok none
    | _ => .ok none

/-- The sign of an offset, 1 or -1. The minus sign U+2212 counts too. -/
def sign : Reader Int := fun
  | [] => .error .tooShort
  | c :: rest =>
    if c = '+' then .ok (1, rest)
    else if c = '-' ∨ c = '\u2212' then .ok (-1, rest)
    else .error .invalid

/-- An offset in seconds: a `Z`, or a sign, hours, what `between` takes, and minutes. -/
def offset (between : Reader Unit) : Reader Int := do
  match ← get with
  | 'Z' :: rest => set rest; pure 0
  | 'z' :: rest => set rest; pure 0
  | _ =>
    let sign ← sign
    match ← twoDigits? (← get) with
    | none => throw .invalid
    | some (h, i) =>
      modify (·.drop 2)
      between
      match ← twoDigits? (← get) with
      | none => throw .invalid
      | some (m, n) =>
        if m ≥ 6 then throw .outOfRange
        modify (·.drop 2)
        pure (sign * ((10 * h + i) * 3600 + (10 * m + n) * 60 : Nat))

/-- The parts of a date and time before they are put together. -/
structure Parts where
  date : Date
  hour : Nat
  minute : Nat
  /-- 60 is a leap second. -/
  second : Nat
  nano : Nat
  offset : Int
  deriving Repr

/-- The instant of a date and time, if there is such a date and the offset is under a day. -/
def Parts.instant (p : Parts) : Except TimestampError Instant :=
  let dateOk := decide p.date.IsValid && decide (Instant.minYear ≤ p.date.year) &&
    decide (p.date.year ≤ Instant.maxYear)
  if !dateOk || p.offset ≤ -86400 || 86400 ≤ p.offset then .error .outOfRange
  else
    let clock : Nat := p.hour * 3600 + p.minute * 60 + min p.second 59
    let leap := if p.second = 60 then Instant.nanosPerSecond else 0
    let t : Instant :=
      ⟨p.date.toDay * Instant.secondsPerDay + clock - p.offset, p.nano + leap⟩
    if t.inRange then .ok t else .error .impossible

def lenientOffset : Reader Int := do
  blanks
  match ← get with
  | a :: b :: c :: rest =>
    if [a, b, c].map Char.toUpper = ['U', 'T', 'C'] then set rest; pure 0
    else offset colonOrBlanks
  | _ => offset colonOrBlanks
where
  colonOrBlanks : Reader Unit := modify fun s => s.dropWhile fun c => c = ':' || Text.isBlank c

def lenientParts : Reader Parts := do
  let year ← year
  blanks; literal '-'
  let month ← short 1 12
  blanks; literal '-'
  let day ← short 1 31
  separator
  let hour ← short 0 23
  blanks; literal ':'
  let minute ← short 0 59
  blanks; literal ':'
  let second ← short 0 60
  let nano ← fraction
  pure { date := ⟨year, month, day⟩, hour, minute, second, nano, offset := ← lenientOffset }

/-- Reads a time with blanks allowed between its parts, or tells the first thing wrong. -/
def readLenient (s : String) : Except TimestampError Instant := do
  let (parts, rest) ← lenientParts.run s.toList
  if !(Text.trimStart rest).isEmpty then throw .tooLong
  parts.instant

def strictParts : Reader Parts := do
  let exactly (digits low high : Nat) : Reader Nat := do
    within low high (← number digits digits)
  let year ← number 4 4
  literal '-'
  let month ← exactly 2 1 12
  literal '-'
  let day ← exactly 2 1 31
  separator
  let hour ← exactly 2 0 23
  literal ':'
  let minute ← exactly 2 0 59
  literal ':'
  let second ← exactly 2 0 60
  let nano ← fraction
  pure { date := ⟨year, month, day⟩, hour, minute, second, nano, offset := ← offset (literal ':') }

/-- Reads the strict form of RFC 3339. -/
def readRfc3339? (s : List Char) : Option Instant :=
  match strictParts.run s with
  | .ok (parts, []) => parts.instant.toOption
  | _ => none

def dateParts : Reader Date := do
  let year ← year
  literal '-'
  let month ← short 1 12
  literal '-'
  pure { year, month, day := ← short 1 31 }

/-- Reads a date such as `2025-03-10`, and gives its midnight in UTC. -/
def readDate? (s : List Char) : Option Instant :=
  match dateParts.run s with
  | .ok (date, []) =>
    (Parts.instant { date, hour := 0, minute := 0, second := 0, nano := 0, offset := 0 }).toOption
  | _ => none

end Timestamp

end ScheduledScaling
