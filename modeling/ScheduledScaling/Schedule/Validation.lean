import ScheduledScaling.Cron.Expression
import ScheduledScaling.Object.Kind
import ScheduledScaling.Schedule.Spec
/-!
What a spec has to fulfil before its times are looked at. The rules are tried in a fixed order,
and the first broken one is reported.
-/
namespace ScheduledScaling

inductive ValidationError where
  | noSchedules
  | scheduleTooLong (field : String)
  | invalidSchedule (field reason : String)
  | invalidCleanup (reason : String)
  | invalidTimeZone (reason : String)
  | invalidTarget (reason : String)
  deriving DecidableEq, Repr

namespace Validation

/-- The bytes a written schedule may have. -/
def maxScheduleLength : Nat := 100

end Validation

namespace ValidationError

def message : ValidationError → String
  | noSchedules =>
    "all schedules (scaleDownSchedule, scaleUpSchedule, cleanupSchedule) are empty"
  | scheduleTooLong field =>
    field ++ " exceeds maximum length of " ++ toString Validation.maxScheduleLength ++
      " characters"
  | invalidSchedule field reason => "invalid " ++ field ++ ": " ++ reason
  | invalidCleanup reason => "invalid cleanupConfig: " ++ reason
  | invalidTimeZone reason => "invalid timeZone: " ++ reason
  | invalidTarget reason => "invalid targetRef: " ++ reason

end ValidationError

namespace Validation

/-- The first error of a check over a list. -/
def checkAll {α : Type} (check : α → Except ValidationError Unit) :
    List α → Except ValidationError Unit
  | [] => .ok ()
  | a :: rest => do
    check a
    checkAll check rest

def ensure (holds : Bool) (e : ValidationError) : Except ValidationError Unit :=
  if holds then .ok () else .error e

/-! ## Schedules -/

/-- The schedules of a spec with their names. -/
def schedules (spec : ScheduleSpec) : List (String × String) :=
  [("scaleDownSchedule", spec.scaleDown), ("scaleUpSchedule", spec.scaleUp),
    ("cleanupSchedule", spec.cleanup)]

def checkLength (schedule : String × String) : Except ValidationError Unit :=
  ensure (schedule.2.utf8ByteSize ≤ maxScheduleLength) (.scheduleTooLong schedule.1)

/-- Texts that no schedule needs and that mean something in a path. -/
def hasPathPattern (text : List Char) : Bool :=
  Text.occursIn ['.', '.'] text || Text.occursIn ['/', '/'] text

/-- A schedule that is not empty has to be readable, without blanks around it. -/
def checkSchedule (schedule : String × String) : Except ValidationError Unit := do
  let (field, text) := schedule
  if text = "" then return
  let text := Text.trimmed text
  ensure (text ≠ "") (.invalidSchedule field "schedule cannot be empty after trimming")
  ensure (!hasPathPattern text.toList)
    (.invalidSchedule field "schedule contains potentially dangerous patterns")
  match CronExpression.parse text with
  | .ok _ => return
  | .error e => throw (.invalidSchedule field e.message)

/-! ## Cleanup -/

def checkCleanup : Option CleanupConfig → Except ValidationError Unit
  | none =>
    .error (.invalidCleanup "cleanup config is required when cleanup schedule is provided")
  | some config => do
    ensure (config.annotationKey ≠ "") (.invalidCleanup "cleanup annotation key cannot be empty")
    ensure (!config.resourceTypes.isEmpty)
      (.invalidCleanup "at least one resource type must be specified for cleanup")
    checkAll
      (fun kind => ensure (ResourceKind.ofName? kind).isSome
        (.invalidCleanup ("unsupported resource type for cleanup: " ++ kind)))
      config.resourceTypes

/-! ## Time zone -/

def isAsciiLetter (c : Char) : Bool := c.isAlpha

/-- The characters of a zone's name after its first letters. -/
def isZoneChar (c : Char) : Bool := c.isAlphanum || c == '_' || c == '+' || c == '-'

/-- The first piece of a zone's name: letters, and more after an underscore. -/
def isZoneStart (piece : List Char) : Bool :=
  match piece.dropWhile isAsciiLetter with
  | [] => !piece.isEmpty
  | '_' :: more =>
    (piece.head?.any isAsciiLetter) && !more.isEmpty && more.all isZoneChar
  | _ => false

def isZonePiece (piece : List Char) : Bool := !piece.isEmpty && piece.all isZoneChar

/-- Whether a text has the form of a zone's name: pieces between slashes. -/
def hasZoneForm (text : List Char) : Bool :=
  match Text.pieces (· == '/') text with
  | [] => false
  | first :: others => isZoneStart first && others.all isZonePiece

def checkTimeZone (zones : Zone.Lookup) (timeZone : String) : Except ValidationError Unit := do
  let name := Text.trimmed timeZone
  ensure (name ≠ "") (.invalidTimeZone "timeZone is empty")
  ensure (hasZoneForm name.toList) (.invalidTimeZone "timezone contains invalid characters")
  match Zone.parse name zones with
  | .ok _ => return
  | .error e => throw (.invalidTimeZone e.message)

/-! ## Target -/

def checkNotEmpty (field : String × String) : Except ValidationError Unit :=
  ensure (field.2 ≠ "") (.invalidTarget ("target " ++ field.1 ++ " cannot be empty"))

def checkTarget : Option Target → Except ValidationError Unit
  | none =>
    .error (.invalidTarget "targetRef is required when scaling schedules are provided")
  | some target => do
    checkAll checkNotEmpty
      [("name", target.name), ("namespace", target.ns), ("kind", target.kind),
        ("apiVersion", target.apiVersion)]
    ensure (WorkloadKind.ofName? target.kind).isSome
      (.invalidTarget ("unsupported target kind: " ++ target.kind))
    ensure (target.apiVersion = Target.defaultApiVersion)
      (.invalidTarget ("unsupported API version: " ++ target.apiVersion))

end Validation

open Validation in
/-- Accepts a spec, or names the first rule it breaks. -/
def ScheduleSpec.validate (spec : ScheduleSpec) (zones : Zone.Lookup := Zone.find?) :
    Except ValidationError Unit := do
  ensure (!(schedules spec).all fun (_, text) => text = "") .noSchedules
  checkAll checkLength (schedules spec)
  checkAll checkSchedule (schedules spec)
  if spec.cleanup ≠ "" then checkCleanup spec.cleanupConfig
  checkTimeZone zones spec.timeZone
  if spec.scaleDown ≠ "" ∨ spec.scaleUp ≠ "" then checkTarget spec.target

end ScheduledScaling
