import ScheduledScaling.Proofs.Records
import ScheduledScaling.Proofs.Timestamps
import ScheduledScaling.Schedule.Status
/-!
# Patches of a status

A patch is written as JSON and merged, key by key, into the JSON of the status. What is read from
there are the fields of the patch, and those of the status that the patch leaves alone:
`merge_toJson`.
-/
namespace ScheduledScaling

/-! ## Members read back -/

namespace Json
variable {key : String} {v : Json}

theorem time?_of_get? {t : Option Instant} (ht : ∀ t' ∈ t, t'.IsNamed)
    (h : v.get? key = t.map time) : v.time? key = t := by
  unfold time? text?
  rw [h]
  cases t with
  | none => rfl
  | some t =>
    simp only [Option.map_some, Option.bind_some, time, asString?]
    rw [Instant.readLenient_text (ht t rfl)]
    rfl

theorem int?_of_get? {n : Option Int} (h : v.get? key = n.map int) : v.int? key = n := by
  unfold int?
  rw [h]
  cases n <;> rfl

theorem text?_of_get? {s : Option String} (h : v.get? key = s.map string) : v.text? key = s := by
  unfold text?
  rw [h]
  cases s <;> rfl

end Json

/-! ## The fields of a status -/

/-- The times of a status can be written. -/
structure ScheduleStatus.HasNamedTimes (status : ScheduleStatus) : Prop where
  scaleDown : ∀ t ∈ status.lastScaleDown, t.IsNamed
  scaleUp : ∀ t ∈ status.lastScaleUp, t.IsNamed
  cleanup : ∀ t ∈ status.lastCleanup, t.IsNamed

theorem forall_mem_or {α : Type} {p : α → Prop} {a b : Option α} (ha : ∀ x ∈ a, p x)
    (hb : ∀ x ∈ b, p x) : ∀ x ∈ a.or b, p x := by
  cases a with
  | none => exact hb
  | some a => exact ha

namespace StatusPatch

/-- The times of a patch can be written. -/
structure HasNamedTimes (patch : StatusPatch) : Prop where
  scaleDown : ∀ t ∈ patch.lastScaleDown, t.IsNamed
  scaleUp : ∀ t ∈ patch.lastScaleUp, t.IsNamed
  cleanup : ∀ t ∈ patch.lastCleanup, t.IsNamed

/-- A status with the fields of a patch in place of its own. -/
def apply (patch : StatusPatch) (status : ScheduleStatus) : ScheduleStatus where
  lastScaleDown := patch.lastScaleDown.or status.lastScaleDown
  lastScaleUp := patch.lastScaleUp.or status.lastScaleUp
  lastCleanup := patch.lastCleanup.or status.lastCleanup
  replicas := patch.replicas.getD status.replicas
  cleanedUp := patch.cleanedUp.getD status.cleanedUp
  message := patch.message.or status.message
  generation := patch.generation.or status.generation

theorem hasNamedTimes_apply {patch : StatusPatch} {status : ScheduleStatus}
    (hp : patch.HasNamedTimes) (hs : status.HasNamedTimes) : (patch.apply status).HasNamedTimes where
  scaleDown := forall_mem_or hp.scaleDown hs.scaleDown
  scaleUp := forall_mem_or hp.scaleUp hs.scaleUp
  cleanup := forall_mem_or hp.cleanup hs.cleanup

end StatusPatch

/-- The members of a written status or patch. -/
def statusMembers (down up cleanup replicas cleanedUp message generation : Option Json) :
    Keyed (Option Json) :=
  [("lastScaleDownTime", down), ("lastScaleUpTime", up), ("lastCleanupTime", cleanup),
    ("currentReplicas", replicas), ("lastCleanupResourceCount", cleanedUp), ("message", message),
    ("observedGeneration", generation)]

theorem nodup_statusMembers (down up cleanup replicas cleanedUp message generation : Option Json) :
    (statusMembers down up cleanup replicas cleanedUp message generation).keys.Nodup := by
  have h : ["lastScaleDownTime", "lastScaleUpTime", "lastCleanupTime", "currentReplicas",
      "lastCleanupResourceCount", "message", "observedGeneration"].Nodup := by decide
  exact h

def StatusPatch.members (patch : StatusPatch) : Keyed (Option Json) :=
  statusMembers (patch.lastScaleDown.map .time) (patch.lastScaleUp.map .time)
    (patch.lastCleanup.map .time) (patch.replicas.map .int) (patch.cleanedUp.map .int)
    (patch.message.map .string) (patch.generation.map .int)

namespace ScheduleStatus

def members (status : ScheduleStatus) : Keyed (Option Json) :=
  statusMembers (status.lastScaleDown.map .time) (status.lastScaleUp.map .time)
    (status.lastCleanup.map .time) (some (.int status.replicas)) (some (.int status.cleanedUp))
    (status.message.map .string) (status.generation.map .int)

/-- The status that is read after a patch was merged into what is written. -/
def merge (status : ScheduleStatus) (patch : Json) : ScheduleStatus :=
  Codec.ofNormal ((Codec.toJson status).merge patch)

variable {status : ScheduleStatus} {patch : StatusPatch}

/-- A member of a merged status is that of the patch, or else that of the status. -/
theorem get?_merged (status : ScheduleStatus) (patch : StatusPatch) (key : String) :
    ((Codec.toJson status).merge patch.toJson).get? key =
      (patch.members.get? key).join.or (status.members.get? key).join := by
  have hs : (Codec.toJson status).get? key = (status.members.get? key).join :=
    Json.get?_record (nodup_statusMembers ..)
  have hp : patch.toJson.get? key = (patch.members.get? key).join :=
    Json.get?_record (nodup_statusMembers ..)
  rw [← hs, ← hp]
  exact Json.get?_merge _ _

theorem map_or_map {α β : Type} (f : α → β) (a b : Option α) :
    (a.map f).or (b.map f) = (a.or b).map f := by
  cases a <;> rfl

/-- What is read after a merge are the fields of the patch, and the others as they were. -/
theorem merge_toJson (hs : status.HasNamedTimes) (hp : patch.HasNamedTimes) :
    status.merge patch.toJson = patch.apply status := by
  have hget := get?_merged status patch
  have hdown := Json.time?_of_get? (forall_mem_or hp.scaleDown hs.scaleDown)
    ((hget "lastScaleDownTime").trans (map_or_map ..))
  have hup := Json.time?_of_get? (forall_mem_or hp.scaleUp hs.scaleUp)
    ((hget "lastScaleUpTime").trans (map_or_map ..))
  have hcleanup := Json.time?_of_get? (forall_mem_or hp.cleanup hs.cleanup)
    ((hget "lastCleanupTime").trans (map_or_map ..))
  have hreplicas := Json.int?_of_get? ((hget "currentReplicas").trans
    (map_or_map Json.int patch.replicas (some status.replicas)))
  have hcleanedUp := Json.int?_of_get? ((hget "lastCleanupResourceCount").trans
    (map_or_map Json.int patch.cleanedUp (some status.cleanedUp)))
  have hmessage := Json.text?_of_get? ((hget "message").trans (map_or_map ..))
  have hgeneration := Json.int?_of_get? ((hget "observedGeneration").trans (map_or_map ..))
  -- A number that the patch lacks is in the status, so no number falls back to its default.
  have hdefault (a : Option Int) (b : Int) : (a.or (some b)).getD 0 = a.getD b := by
    cases a <;> rfl
  change ScheduleStatus.mk _ _ _ _ _ _ _ = _
  rw [hdown, hup, hcleanup, hreplicas, hcleanedUp, hmessage, hgeneration, hdefault, hdefault]
  rfl

end ScheduleStatus

end ScheduledScaling
