import ScheduledScaling.Cleanup.Candidate
import ScheduledScaling.Schedule.Spec
import ScheduledScaling.Time.Duration
/-!
Which resources a cleanup removes. A resource with the configured annotation goes when the expiry
written there has come. One without goes, if orphans are cleaned up, when it is old enough. Both
comparisons include the moment itself.
-/
namespace ScheduledScaling

/-- When an annotated resource expires. -/
inductive Expiry where
  | immediate
  | afterCreation (age : Duration)
  | fixed (t : Instant)
  deriving DecidableEq, Repr

namespace Expiry

/-- Reads an annotation: a duration, a time, or a date, which stands for its midnight in UTC.
Blanks around it do not count, but blanks alone are nothing. -/
def read (value : String) : Except Overflow (Option Expiry) := do
  if value = "" then return some immediate
  let text := Text.trim value.toList
  match ← Duration.readAge text with
  | some age => return some (afterCreation age)
  | none =>
    return (Timestamp.readRfc3339? text <|> Timestamp.readDate? text).map fixed

/-- Whether a resource of this expiry has to go; an age counts only for a known creation. -/
def isReached (created : Option Instant) (now : Instant) : Expiry → Except Overflow Bool
  | immediate => .ok true
  | afterCreation age =>
    match created with
    | some created => do return decide ((← created.plus age.seconds age.nanos) ≤ now)
    | none => .ok false
  | fixed t => .ok (decide (t ≤ now))

end Expiry

/-- Whether a resource is at least of an age. -/
def isOfAge (age : Duration) (created now : Instant) : Bool :=
  let (seconds, nanos) := now.since created
  decide ((age.seconds : Int) < seconds ∨ (age.seconds : Int) = seconds ∧ age.nanos ≤ nanos)

/-- The rules of one cleanup. -/
structure CleanupPolicy where
  annotationKey : String
  /-- The age at which resources without the annotation go; none keeps them. -/
  orphanMaxAge : Option Duration
  deriving DecidableEq, Repr

namespace CleanupPolicy

/-- The rules a config asks for. An age that does not read keeps resources without the
annotation. -/
def ofConfig (config : CleanupConfig) : Except Overflow CleanupPolicy := do
  let age ← if config.cleanupOrphans then
      Duration.readAge (config.orphanMaxAge.getD "").toList
    else pure none
  return ⟨config.annotationKey, age⟩

/-- Whether an annotated resource has expired. -/
def isExpired (candidate : Candidate) (value : String) (now : Instant) :
    Except Overflow Bool := do
  match ← Expiry.read value with
  | none => return false
  | some expiry => expiry.isReached candidate.created now

/-- Whether a resource without the annotation is old enough. -/
def isOldOrphan (policy : CleanupPolicy) (candidate : Candidate) (now : Instant) : Bool :=
  match policy.orphanMaxAge, candidate.created with
  | some age, some created => isOfAge age created now
  | _, _ => false

def shouldRemove (policy : CleanupPolicy) (candidate : Candidate) (now : Instant) :
    Except Overflow Bool :=
  match candidate.annotations.get? policy.annotationKey with
  | some value => isExpired candidate value now
  | none => .ok (policy.isOldOrphan candidate now)

end CleanupPolicy

end ScheduledScaling
