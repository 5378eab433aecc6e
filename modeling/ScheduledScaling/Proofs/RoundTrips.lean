import ScheduledScaling.Proofs.NormalForms
import ScheduledScaling.Schedule.Validation
/-!
# Values of a schedule that are written and read

The specs of schedules, with their targets and cleanups, and their statuses survive being written as
JSON and read again, although empty texts, lists and maps are left out and some members that are missing
stand for values that are not empty. So what was read from any JSON value or text, and is written and
read again, is the same, and is judged alike: `values_survive`.
-/
namespace ScheduledScaling

open Shape

/-! ## Records that are written -/

namespace Shape
variable {name : String} {entries : List (Entry Shape)} {e : Entry Shape}

/-- What may be written for a field: nothing if it may be missing, or a value in normal form that is
not one to leave out. -/
def Writes (e : Entry Shape) : Option Json → Prop
  | some v => isHidden e.presence v = false ∧ Normal e.shape v
  | none => absent e 0 = .ok none

theorem keys_of_forall₂ {members : Keyed (Option Json)}
    (h : List.Forall₂ (fun e m => e.key = m.1 ∧ Writes e m.2) entries members) :
    members.keys = entries.map Entry.key := by
  induction h with
  | nil => rfl
  | cons hfirst _ ih => exact congrArg₂ List.cons hfirst.1.symm ih

theorem get?_written {members : Keyed (Option Json)} (hkeys : (entries.map Entry.key).Nodup)
    (h : List.Forall₂ (fun e m => e.key = m.1 ∧ Writes e m.2) entries members) (key : String) :
    (Json.record members).get? key = (members.get? key).join :=
  Json.get?_record (keys_of_forall₂ h ▸ hkeys)

theorem get?_of_writes {members : Keyed (Option Json)} (hkeys : (entries.map Entry.key).Nodup)
    (h : List.Forall₂ (fun e m => e.key = m.1 ∧ Writes e m.2) entries members) (he : e ∈ entries) :
    ∃ value, members.get? e.key = some value ∧ Writes e value := by
  induction h with
  | nil => cases he
  | @cons first member entries members hfirst _ ih =>
    obtain ⟨k, value⟩ := member
    obtain ⟨rfl, hvalue⟩ : first.key = k ∧ Writes first value := hfirst
    obtain ⟨hkey, hrest⟩ := List.nodup_cons.1 hkeys
    rw [Keyed.get?]
    rcases List.mem_cons.1 he with rfl | he
    · exact ⟨value, if_pos rfl, hvalue⟩
    · have hne : first.key ≠ e.key := fun heq => hkey (heq ▸ List.mem_map_of_mem he)
      rw [if_neg hne]
      exact ih hrest he

/-- A record is in normal form if each of its fields is written so. -/
theorem normal_record {members : Keyed (Option Json)} (hkeys : (entries.map Entry.key).Nodup)
    (h : List.Forall₂ (fun e m => e.key = m.1 ∧ Writes e m.2) entries members) :
    Normal (.record name .strict entries) (Json.record members) := by
  have hsame := keys_of_forall₂ h
  refine .record (Keyed.isSorted_ofList _) (fun key hkey => ?_) (fun e he v hv => ?_)
    (fun e he v hv => ?_) fun e he hnone => ?_
  · obtain ⟨pair, hpair, rfl⟩ := List.mem_map.1 hkey
    exact hsame ▸ (Json.keys_present members).subset (List.mem_map_of_mem (Keyed.mem_ofList hpair))
  all_goals
    obtain ⟨value, hvalue, hwrites⟩ := get?_of_writes hkeys h he
    have hmember := get?_written hkeys h e.key
    rw [hvalue] at hmember
  · obtain rfl : value = some v := hmember.symm.trans hv
    exact hwrites.1
  · obtain rfl : value = some v := hmember.symm.trans hv
    exact hwrites.2
  · obtain rfl : value = none := hmember.symm.trans hnone
    exact hwrites

/-- A field of a record in normal form. -/
theorem Normal.field {v found : Json} (h : Normal (.record name .strict entries) v) (he : e ∈ entries)
    (hget : v.get? e.key = some found) : Normal e.shape found := by
  cases h with
  | record _ _ _ hnormal _ => exact hnormal e he found hget

end Shape

namespace Json
variable {key : String} {v : Json}

theorem textOr_of_get? {s default : String} (h : v.get? key = some (.string s)) :
    v.textOr key default = s := by
  rw [textOr, text?, h]
  rfl

theorem textOr_of_unlessEmpty {s : String} (h : v.get? key = unlessEmpty s) : v.textOr key "" = s := by
  rw [textOr, text?, h]
  unfold unlessEmpty
  split
  · rename_i hempty
    exact hempty.symm
  · rfl

theorem flagOf_of_get? {b : Bool} (h : v.get? key = some (.bool b)) : v.flagOf key = b := by
  rw [flagOf, h]
  rfl

theorem textsOf_texts (items : List String) : textsOf (texts items) = items := by
  change (items.map string).filterMap asString? = items
  rw [List.filterMap_map]
  exact List.filterMap_some

theorem members_textMap {pairs : Keyed String} (h : pairs.IsSorted) :
    (textMap pairs).members = pairs.map fun (k, s) => (k, .string s) :=
  Keyed.ofList_eq_self (List.pairwise_map.2 h)

theorem textMapOf_textMap {pairs : Keyed String} (h : pairs.IsSorted) :
    textMapOf (textMap pairs) = pairs := by
  rw [textMapOf, members_textMap h, List.filterMap_map]
  exact List.filterMap_some

theorem normal_texts (items : List String) : Normal .strings (texts items) := by
  refine .list fun v hv => ?_
  obtain ⟨s, -, rfl⟩ := List.mem_map.1 hv
  exact .string s

theorem normal_textMap (pairs : Keyed String) : Normal .stringMap (textMap pairs) := by
  refine .map (Keyed.isSorted_ofList _) fun member hmember => ?_
  obtain ⟨pair, -, rfl⟩ := List.mem_map.1 (Keyed.mem_ofList hmember)
  exact .string pair.2

theorem isSorted_textMapOf (h : Normal .stringMap v) : (textMapOf v).IsSorted := by
  cases h with
  | @map _ members hsorted _ =>
    refine List.Pairwise.filterMap _ (fun a b hab c hc d hd => ?_) hsorted
    obtain ⟨s, -, rfl⟩ := Option.map_eq_some_iff.1 hc
    obtain ⟨s', -, rfl⟩ := Option.map_eq_some_iff.1 hd
    exact hab

end Json

/-! ## Targets -/

namespace Target

theorem hasNormals_shape : HasNormals shape := by
  refine .record (by decide) ?_ ?_
  · simp only [List.forall_mem_cons]
    exact ⟨.string, .string, .string, .string, nofun⟩
  · simp only [List.forall_mem_cons]
    exact ⟨nofun, nofun, nofun, fun v hv => Option.some.inj hv ▸ .string _, nofun⟩

def members (t : Target) : Keyed (Option Json) :=
  [("name", some (.string t.name)), ("namespace", some (.string t.ns)),
    ("kind", some (.string t.kind)), ("apiVersion", some (.string t.apiVersion))]

theorem writes_members (t : Target) :
    List.Forall₂ (fun e m => e.key = m.1 ∧ Writes e m.2) shape.entries t.members :=
  .cons ⟨rfl, rfl, .string _⟩ <| .cons ⟨rfl, rfl, .string _⟩ <| .cons ⟨rfl, rfl, .string _⟩ <|
    .cons ⟨rfl, rfl, .string _⟩ .nil

theorem survives : Codec.Survives Target fun _ => True where
  hasNormals := hasNormals_shape
  normal t _ := normal_record (by decide) t.writes_members
  back t _ := by
    have hget (key : String) : (Codec.toJson t).get? key = (t.members.get? key).join :=
      get?_written (by decide) t.writes_members key
    change Target.mk _ _ _ _ = _
    rw [Json.textOr_of_get? (hget "name"), Json.textOr_of_get? (hget "namespace"),
      Json.textOr_of_get? (hget "kind"), Json.textOr_of_get? (hget "apiVersion")]
  proper _ _ := trivial

end Target

/-! ## Cleanups -/

namespace CleanupConfig

/-- The labels are in order. -/
def IsProper (c : CleanupConfig) : Prop := c.labelSelector.IsSorted

theorem hasNormals_shape : HasNormals shape := by
  refine .record (by decide) ?_ ?_
  · simp only [List.forall_mem_cons]
    exact ⟨.list .string, .string, .list .string, .map .string, .bool, .bool, .string, nofun⟩
  · simp only [List.forall_mem_cons]
    exact ⟨nofun, nofun, nofun, nofun, fun v hv => Option.some.inj hv ▸ .bool _,
      fun v hv => Option.some.inj hv ▸ .bool _, nofun, nofun⟩

def members (c : CleanupConfig) : Keyed (Option Json) :=
  [("namespaces", if c.namespaces.isEmpty then none else some (Json.texts c.namespaces)),
    ("annotationKey", some (.string c.annotationKey)),
    ("resourceTypes", some (Json.texts c.resourceTypes)),
    ("labelSelector", if c.labelSelector.isEmpty then none else some (Json.textMap c.labelSelector)),
    ("dryRun", some (.bool c.dryRun)), ("cleanupOrphanResources", some (.bool c.cleanupOrphans)),
    ("orphanResourceMaxAge", c.orphanMaxAge.map .string)]

theorem writes_members {c : CleanupConfig} (hc : c.IsProper) :
    List.Forall₂ (fun e m => e.key = m.1 ∧ Writes e m.2) shape.entries c.members := by
  have hnamespaces : Writes ⟨"namespaces", .hiddenDefault (.array []), .strings⟩
      (if c.namespaces.isEmpty then none else some (Json.texts c.namespaces)) := by
    cases c.namespaces with
    | nil => rfl
    | cons first rest => exact ⟨rfl, Json.normal_texts _⟩
  have hlabels : Writes ⟨"labelSelector", .hiddenDefault (.object []), .stringMap⟩
      (if c.labelSelector.isEmpty then none else some (Json.textMap c.labelSelector)) := by
    unfold IsProper at hc
    cases hlabels : c.labelSelector with
    | nil => rfl
    | cons first rest =>
      rw [hlabels] at hc
      -- labels in order are written as they are, so they are not the empty object that is hidden
      have hmembers : Json.textMap (first :: rest) =
          .object ((first :: rest).map fun (k, s) => (k, .string s)) :=
        congrArg Json.object (Json.members_textMap hc)
      refine ⟨?_, Json.normal_textMap _⟩
      rw [hmembers]
      rfl
  have hage : Writes ⟨"orphanResourceMaxAge", .optional, .string⟩ (c.orphanMaxAge.map .string) := by
    cases c.orphanMaxAge with
    | none => rfl
    | some age => exact ⟨rfl, .string age⟩
  exact .cons ⟨rfl, hnamespaces⟩ <| .cons ⟨rfl, rfl, .string _⟩ <|
    .cons ⟨rfl, rfl, Json.normal_texts _⟩ <| .cons ⟨rfl, hlabels⟩ <| .cons ⟨rfl, rfl, .bool _⟩ <|
    .cons ⟨rfl, rfl, .bool _⟩ <| .cons ⟨rfl, hage⟩ .nil

theorem survives : Codec.Survives CleanupConfig IsProper where
  hasNormals := hasNormals_shape
  normal c hc := normal_record (by decide) (writes_members hc)
  back c hc := by
    have hget (key : String) : (Codec.toJson c).get? key = (c.members.get? key).join :=
      get?_written (by decide) (writes_members hc) key
    have hnamespaces : (((Codec.toJson c).get? "namespaces").map Json.textsOf).getD [] =
        c.namespaces := by
      rw [hget]
      change (Option.map Json.textsOf (if c.namespaces.isEmpty then none else _)).getD [] = _
      cases c.namespaces with
      | nil => rfl
      | cons first rest => exact Json.textsOf_texts _
    have hlabels : (((Codec.toJson c).get? "labelSelector").map Json.textMapOf).getD [] =
        c.labelSelector := by
      unfold IsProper at hc
      rw [hget]
      change (Option.map Json.textMapOf (if c.labelSelector.isEmpty then none else _)).getD [] = _
      cases hlabels : c.labelSelector with
      | nil => rfl
      | cons first rest => exact Json.textMapOf_textMap (hlabels ▸ hc)
    have hkinds : ((Codec.toJson c).get? "resourceTypes").map Json.textsOf = some c.resourceTypes := by
      rw [hget]
      exact congrArg some (Json.textsOf_texts _)
    change CleanupConfig.mk _ _ _ _ _ _ _ = _
    rw [hnamespaces, Json.textOr_of_get? (hget "annotationKey"), hkinds, hlabels,
      Json.flagOf_of_get? (hget "dryRun"), Json.flagOf_of_get? (hget "cleanupOrphanResources"),
      Json.text?_of_get? (hget "orphanResourceMaxAge")]
    rfl
  proper v hv := by
    change (((v.get? "labelSelector").map Json.textMapOf).getD []).IsSorted
    cases hlabels : v.get? "labelSelector" with
    | none => exact .nil
    | some labels =>
      have hentry : (⟨"labelSelector", .hiddenDefault (.object []), .stringMap⟩ : Entry Shape) ∈
          shape.entries := by simp [shape, entries]
      exact Json.isSorted_textMapOf (hv.field hentry hlabels)

end CleanupConfig

/-! ## Specs -/

namespace ScheduleSpec

def IsProper (s : ScheduleSpec) : Prop := ∀ c ∈ s.cleanupConfig, c.IsProper

theorem hasNormals_shape : HasNormals shape := by
  refine .record (by decide) ?_ ?_
  · simp only [List.forall_mem_cons]
    exact ⟨Target.hasNormals_shape, .string, .string, .string, CleanupConfig.hasNormals_shape, .string,
      nofun⟩
  · simp only [List.forall_mem_cons]
    exact ⟨nofun, nofun, nofun, nofun, nofun, fun v hv => Option.some.inj hv ▸ .string _, nofun⟩

def members (s : ScheduleSpec) : Keyed (Option Json) :=
  [("targetRef", s.target.map Codec.toJson), ("scaleDownSchedule", Json.unlessEmpty s.scaleDown),
    ("scaleUpSchedule", Json.unlessEmpty s.scaleUp), ("cleanupSchedule", Json.unlessEmpty s.cleanup),
    ("cleanupConfig", s.cleanupConfig.map Codec.toJson), ("timeZone", some (.string s.timeZone))]

/-- A text that is left out when it is empty. -/
theorem writes_unlessEmpty (key text : String) :
    Writes ⟨key, .hiddenDefault (.string ""), .string⟩ (Json.unlessEmpty text) := by
  unfold Json.unlessEmpty
  split
  · rfl
  · rename_i hne
    exact ⟨decide_eq_false hne, .string text⟩

theorem writes_members {s : ScheduleSpec} (hs : s.IsProper) :
    List.Forall₂ (fun e m => e.key = m.1 ∧ Writes e m.2) shape.entries s.members := by
  have htarget : Writes ⟨"targetRef", .optional, Target.shape⟩ (s.target.map Codec.toJson) := by
    cases s.target with
    | none => rfl
    | some target => exact ⟨rfl, Target.survives.normal target trivial⟩
  have hconfig : Writes ⟨"cleanupConfig", .optional, CleanupConfig.shape⟩
      (s.cleanupConfig.map Codec.toJson) := by
    cases hconfig : s.cleanupConfig with
    | none => rfl
    | some config => exact ⟨rfl, CleanupConfig.survives.normal config (hs config hconfig)⟩
  exact .cons ⟨rfl, htarget⟩ <| .cons ⟨rfl, writes_unlessEmpty ..⟩ <|
    .cons ⟨rfl, writes_unlessEmpty ..⟩ <| .cons ⟨rfl, writes_unlessEmpty ..⟩ <|
    .cons ⟨rfl, hconfig⟩ <| .cons ⟨rfl, rfl, .string _⟩ .nil

theorem survives : Codec.Survives ScheduleSpec IsProper where
  hasNormals := hasNormals_shape
  normal s hs := normal_record (by decide) (writes_members hs)
  back s hs := by
    have hget (key : String) : (Codec.toJson s).get? key = (s.members.get? key).join :=
      get?_written (by decide) (writes_members hs) key
    have htarget : (Codec.toJson s).decoded? Target "targetRef" = s.target := by
      rw [Json.decoded?, hget]
      cases htarget : s.target with
      | none => simp [members, Keyed.get?, htarget]
      | some target =>
        simp [members, Keyed.get?, htarget, Target.survives.back target trivial]
    have hconfig : (Codec.toJson s).decoded? CleanupConfig "cleanupConfig" = s.cleanupConfig := by
      rw [Json.decoded?, hget]
      cases hconfig : s.cleanupConfig with
      | none => simp [members, Keyed.get?, hconfig]
      | some config =>
        simp [members, Keyed.get?, hconfig, CleanupConfig.survives.back config (hs config hconfig)]
    change ScheduleSpec.mk _ _ _ _ _ _ = _
    rw [htarget, Json.textOr_of_unlessEmpty (hget "scaleDownSchedule"),
      Json.textOr_of_unlessEmpty (hget "scaleUpSchedule"),
      Json.textOr_of_unlessEmpty (hget "cleanupSchedule"), hconfig,
      Json.textOr_of_get? (hget "timeZone")]
  proper v hv := by
    intro config hconfig
    obtain ⟨found, hfound, rfl⟩ := Option.map_eq_some_iff.1 hconfig
    have hentry : (⟨"cleanupConfig", .optional, CleanupConfig.shape⟩ : Entry Shape) ∈
        shape.entries := by simp [shape, entries]
    exact CleanupConfig.survives.proper found (hv.field hentry hfound)

end ScheduleSpec

/-! ## Statuses -/

namespace ScheduleStatus

/-- The times are those that can be written, and the numbers are of their words. -/
structure IsProper (s : ScheduleStatus) : Prop where
  named : s.HasNamedTimes
  replicas : Word.low32 ≤ s.replicas ∧ s.replicas ≤ Word.high32
  cleanedUp : Word.low32 ≤ s.cleanedUp ∧ s.cleanedUp ≤ Word.high32
  generation : ∀ n ∈ s.generation, Word.low64 ≤ n ∧ n ≤ Word.high64

theorem hasNormals_shape : HasNormals shape := by
  have hzero : Normal .i32 (.int 0) := .int (by decide)
  refine .record (by decide) ?_ ?_
  · simp only [List.forall_mem_cons]
    exact ⟨.time, .time, .time, .int, .int, .string, .int, nofun⟩
  · simp only [List.forall_mem_cons]
    exact ⟨nofun, nofun, nofun, fun v hv => Option.some.inj hv ▸ hzero,
      fun v hv => Option.some.inj hv ▸ hzero, nofun, nofun, nofun⟩

theorem writes_time {key : String} {t : Option Instant} (ht : ∀ t' ∈ t, t'.IsNamed) :
    Writes ⟨key, .optional, .time false⟩ (t.map .time) := by
  cases t with
  | none => rfl
  | some t => exact ⟨rfl, .time (ht t rfl)⟩

theorem writes_members {s : ScheduleStatus} (hs : s.IsProper) :
    List.Forall₂ (fun e m => e.key = m.1 ∧ Writes e m.2) shape.entries s.members := by
  have hmessage : Writes ⟨"message", .optional, .string⟩ (s.message.map .string) := by
    cases s.message with
    | none => rfl
    | some text => exact ⟨rfl, .string text⟩
  have hgeneration : Writes ⟨"observedGeneration", .optional, .i64⟩ (s.generation.map .int) := by
    cases hgeneration : s.generation with
    | none => rfl
    | some n => exact ⟨rfl, .int (hs.generation n hgeneration)⟩
  exact .cons ⟨rfl, writes_time hs.named.scaleDown⟩ <| .cons ⟨rfl, writes_time hs.named.scaleUp⟩ <|
    .cons ⟨rfl, writes_time hs.named.cleanup⟩ <| .cons ⟨rfl, rfl, .int hs.replicas⟩ <|
    .cons ⟨rfl, rfl, .int hs.cleanedUp⟩ <| .cons ⟨rfl, hmessage⟩ <| .cons ⟨rfl, hgeneration⟩ .nil

theorem survives : Codec.Survives ScheduleStatus IsProper where
  hasNormals := hasNormals_shape
  normal s hs := normal_record (by decide) (writes_members hs)
  back s hs := by
    have hget (key : String) : (Codec.toJson s).get? key = (s.members.get? key).join :=
      get?_written (by decide) (writes_members hs) key
    have hnumber {key : String} {n : Int} (h : (Codec.toJson s).get? key = some (.int n)) :
        ((Codec.toJson s).int? key).getD 0 = n := by
      rw [Json.int?, h]
      rfl
    change ScheduleStatus.mk _ _ _ _ _ _ _ = _
    rw [Json.time?_of_get? hs.named.scaleDown (hget "lastScaleDownTime"),
      Json.time?_of_get? hs.named.scaleUp (hget "lastScaleUpTime"),
      Json.time?_of_get? hs.named.cleanup (hget "lastCleanupTime"), hnumber (hget "currentReplicas"),
      hnumber (hget "lastCleanupResourceCount"), Json.text?_of_get? (hget "message"),
      Json.int?_of_get? (hget "observedGeneration")]
  proper v hv := by
    have hentries : (⟨"currentReplicas", .byDefault (.int 0), .i32⟩ : Entry Shape) ∈ shape.entries ∧
        (⟨"lastCleanupResourceCount", .byDefault (.int 0), .i32⟩ : Entry Shape) ∈ shape.entries ∧
        (⟨"observedGeneration", .optional, .i64⟩ : Entry Shape) ∈ shape.entries := by
      simp [shape, entries]
    have hrange {key : String} {name : String} {low high : Int} (n : Int) (hn : v.int? key = some n)
        (hfield : ∀ found, v.get? key = some found → Normal (.int name low high) found) :
        low ≤ n ∧ n ≤ high := by
      obtain ⟨found, hfound, hint⟩ := Option.bind_eq_some_iff.1 hn
      cases hfield found hfound with
      | int hbounds => exact Option.some.inj hint ▸ hbounds
    have hword {key : String} (hfield : ∀ found, v.get? key = some found → Normal .i32 found) :
        Word.low32 ≤ (v.int? key).getD 0 ∧ (v.int? key).getD 0 ≤ Word.high32 := by
      cases hn : v.int? key with
      | none => decide
      | some n => exact hrange n hn hfield
    exact
      { named := hasNamedTimes_ofNormal v
        replicas := hword fun found hfound => hv.field hentries.1 hfound
        cleanedUp := hword fun found hfound => hv.field hentries.2.1 hfound
        generation := fun n hn => hrange n hn fun found hfound => hv.field hentries.2.2 hfound }

end ScheduleStatus

/-! ## What is written and read again -/

namespace Codec

/-- Decodes a value, and encodes what it stands for. -/
def recode (α : Type) [Codec α] (doc : Json) : Except DecodeError Json :=
  toJson <$> (ofJson doc : Except DecodeError α)

/-- Just the proper values of a type are read as what was written, and no others are read at all. -/
structure RoundTrips (α : Type) [Codec α] (proper : α → Prop) : Prop where
  same : ∀ a : α, ofJson (toJson a) = .ok a ↔ proper a
  /-- What is to be left out is not written. -/
  normal : ∀ a : α, proper a → (shape α).Normal (toJson a)
  decoded : ∀ (doc : Json) (a : α), ofJson doc = .ok a → proper a
  decodedText : ∀ (text : String) (a : α), ofText text = .ok a → proper a
  idempotent : ∀ doc doc' : Json, recode α doc = .ok doc' → recode α doc' = .ok doc'

theorem Survives.roundTrips {α : Type} [Codec α] {proper : α → Prop} (h : Survives α proper) :
    RoundTrips α proper where
  same a := ⟨h.proper_of_ofJson, h.ofJson_toJson⟩
  normal := h.normal
  decoded doc a := h.proper_of_ofJson
  decodedText text a := h.proper_of_ofText
  idempotent doc doc' hdoc := by
    unfold recode at hdoc ⊢
    cases hread : (ofJson doc : Except DecodeError α) with
    | error e =>
      rw [hread] at hdoc
      cases hdoc
    | ok a =>
      rw [hread] at hdoc
      cases hdoc
      rw [h.ofJson_toJson (h.proper_of_ofJson hread)]
      rfl

end Codec

/-- Targets, cleanups, specs and statuses survive: all targets, the cleanups and specs whose labels are
in order, and the statuses whose times and numbers are in range. A spec that was read, and is written
and read again, is judged as it was, whatever zones there are. -/
theorem values_survive :
    Codec.RoundTrips Target (fun _ => True) ∧
      Codec.RoundTrips CleanupConfig CleanupConfig.IsProper ∧
      Codec.RoundTrips ScheduleSpec ScheduleSpec.IsProper ∧
      Codec.RoundTrips ScheduleStatus ScheduleStatus.IsProper ∧
      ∀ (zones : Zone.Lookup) (doc : Json) (spec : ScheduleSpec), Codec.ofJson doc = .ok spec →
        ∃ spec' : ScheduleSpec, Codec.ofJson (Codec.toJson spec) = .ok spec' ∧
          spec'.validate zones = spec.validate zones := by
  refine ⟨Target.survives.roundTrips, CleanupConfig.survives.roundTrips,
    ScheduleSpec.survives.roundTrips, ScheduleStatus.survives.roundTrips,
    fun zones doc spec hspec => ?_⟩
  have hproper := ScheduleSpec.survives.proper_of_ofJson hspec
  exact ⟨spec, ScheduleSpec.survives.ofJson_toJson hproper, rfl⟩

def sweepDocument : Json := .object
  [("cleanupConfig", .object
      [("annotationKey", .string "ttl"), ("labelSelector", .object [("app", .string "web")]),
        ("namespaces", .array []), ("resourceTypes", .array [])]),
    ("cleanupSchedule", .string "0 0 3 * * *"), ("scaleUpSchedule", .string ""),
    ("targetRef", .object
      [("kind", .string "Deployment"), ("name", .string "web"), ("namespace", .string "shop")])]

def sweepSpec : ScheduleSpec where
  target := some ⟨"web", "shop", "Deployment", "apps/v1"⟩
  scaleDown := ""
  scaleUp := ""
  cleanup := "0 0 3 * * *"
  cleanupConfig := some ⟨[], "ttl", [], [("app", "web")], false, false, none⟩
  timeZone := "UTC"

/-- Times before the year 0, in a leap second and at the end of all times. -/
def sweptStatus : ScheduleStatus where
  lastScaleDown := some ⟨-62300000000, 250000000⟩
  lastScaleUp := some ⟨1483228799, 1500000000⟩
  lastCleanup := some ⟨Instant.maxSecond, 999999999⟩
  replicas := -1
  cleanedUp := 0
  message := some ""
  generation := none

theorem values_survive_sweep :
    (Codec.ofJson sweepDocument = .ok sweepSpec ∧ sweepSpec.IsProper ∧
      Codec.ofJson (Codec.toJson sweepSpec) = .ok sweepSpec ∧
      Codec.recode ScheduleSpec (Codec.toJson sweepSpec) = .ok (Codec.toJson sweepSpec)) ∧
      (∃ spec' : ScheduleSpec, Codec.ofJson (Codec.toJson sweepSpec) = .ok spec' ∧
        spec'.validate = sweepSpec.validate) ∧
      sweptStatus.IsProper ∧ Codec.ofJson (Codec.toJson sweptStatus) = .ok sweptStatus := by
  obtain ⟨-, -, hspecs, hstatuses, hjudged⟩ := values_survive
  have hread : Codec.ofJson sweepDocument = .ok sweepSpec := rfl
  have hproper := hspecs.decoded sweepDocument sweepSpec hread
  have hstatus : sweptStatus.IsProper := by
    refine ⟨⟨?_, ?_, ?_⟩, by decide, by decide, nofun⟩ <;>
      refine fun t ht => Option.some.inj ht ▸ ⟨by decide, by decide⟩
  exact ⟨⟨hread, hproper, (hspecs.same sweepSpec).2 hproper,
    hspecs.idempotent sweepDocument (Codec.toJson sweepSpec) rfl⟩,
    hjudged Zone.find? sweepDocument sweepSpec hread, hstatus, (hstatuses.same sweptStatus).2 hstatus⟩

end ScheduledScaling
