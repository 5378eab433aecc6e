import ScheduledScaling.Cron.Field
/-!
The grammar of cron expressions. Six fields and an optional year follow each other; spaces may
stand around each field and around each number and name, but none are needed. Reading is greedy:
a field takes the longest list of items it can and is never read again. One of five names may
stand for a whole expression.
-/
namespace ScheduledScaling

/-- The values that each field of an expression admits, in ascending order. -/
structure Cron where
  seconds : List Nat
  minutes : List Nat
  hours : List Nat
  daysOfMonth : List Nat
  months : List Nat
  /-- Sunday is 1. -/
  daysOfWeek : List Nat
  years : List Nat
  deriving DecidableEq, Repr, Inhabited

namespace Cron

/-- A reader takes an expression's part off the front of a text. -/
abbrev Reader := StateT (List Char) Option

def isSpace (c : Char) : Bool := c == ' ' || c == '\t' || c == '\r' || c == '\n'

def spaces : Reader Unit := modify (·.dropWhile isSpace)

def mark (expected : Char) : Reader Unit := fun
  | [] => none
  | c :: rest => if c = expected then some ((), rest) else none

/-- One or more characters of a class, with spaces around them. -/
def spaced (isPart : Char → Bool) : Reader (List Char) := do
  spaces
  let s ← get
  let part := s.takeWhile isPart
  if part.isEmpty then failure
  set (s.dropWhile isPart)
  spaces
  return part

def number : Reader Nat := do
  let n := Text.valueOfDigits (← spaced Char.isDigit)
  if n < Word.bound32 then return n else failure

def name : Reader String := String.ofList <$> spaced Char.isAlpha

/-- A run of values. -/
def span (f : Field) : Reader Span :=
  (if f.allowsQuestion then (do mark '?'; return .all) else failure) <|>
  (do mark '*'; return .all) <|>
  (do
    let first ← number
    mark '-'
    return .range first (← number)) <|>
  (.point <$> number) <|>
  (do
    let first ← name
    mark '-'
    return .namedRange first (← name))

def item (f : Field) : Reader Item :=
  (do
    let s ← span f
    mark '/'
    return .step s (← number)) <|>
  (.span <$> span f) <|>
  (.name <$> name)

/-- The items that follow the first, each after a comma. -/
def moreItems (f : Field) (s : List Char) : List Item × List Char :=
  match s with
  | ',' :: rest =>
    match (item f).run rest with
    | none => ([], s)
    | some (i, rest') =>
      if rest'.length ≤ rest.length then
        let (items, rest'') := moreItems f rest'
        (i :: items, rest'')
      else ([i], rest')
  | _ => ([], s)
termination_by s.length

/-- A comma list of items, with the values it stands for. -/
def field (f : Field) : Reader (List Nat) := do
  spaces
  let first ← item f
  let (others, rest) := moreItems f (← get)
  set rest
  spaces
  fieldValues? f (first :: others)

/-- The end of the text. -/
def done : Reader Unit := fun s => if s.isEmpty then some ((), s) else none

def shorthands : List (String × Cron) :=
  let every : Cron :=
    { seconds := [0], minutes := [0], hours := [0], daysOfMonth := Field.dayOfMonth.values,
      months := Field.month.values, daysOfWeek := Field.dayOfWeek.values,
      years := Field.year.values }
  [("@yearly", { every with daysOfMonth := [1], months := [1] }),
    ("@monthly", { every with daysOfMonth := [1] }),
    ("@weekly", { every with daysOfWeek := [1] }),
    ("@daily", every),
    ("@hourly", { every with hours := Field.hour.values })]

def longhand : Reader Cron := do
  let seconds ← field .second
  let minutes ← field .minute
  let hours ← field .hour
  let daysOfMonth ← field .dayOfMonth
  let months ← field .month
  let daysOfWeek ← field .dayOfWeek
  let years ← field .year <|> pure Field.year.values
  done
  return { seconds, minutes, hours, daysOfMonth, months, daysOfWeek, years }

/-- Reads the text of an expression whose fields are in the grammar's own numbering. -/
def read? (s : List Char) : Option Cron :=
  match shorthands.find? fun (text, _) => text.toList = s with
  | some (_, cron) => some cron
  | none => (longhand.run s).map (·.1)

end Cron

end ScheduledScaling
