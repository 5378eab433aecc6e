import Mathlib.Data.List.DropRight
import ScheduledScaling.Proofs.Pieces
import ScheduledScaling.Proofs.Wake
import ScheduledScaling.Schedule.Validation
/-!
# What a spec in order is good for

A spec is checked without the blanks around its schedules, and they are read with them. Blanks around
a text do not change its words, so the schedules of a spec in order can be read as they are written:
`parse_of_validate`.
-/
namespace ScheduledScaling

/-! ## Words of a text -/

namespace Text
variable {s : List Char}

theorem words_append {c : Char} (hc : isBlank c) (s rest : List Char) :
    words (s ++ c :: rest) = words s ++ words rest := by
  rw [words, pieces_append hc, List.filter_append]
  rfl

theorem words_append_blanks {blanks : List Char} (hb : blanks.all isBlank) (s : List Char) :
    words (s ++ blanks) = words s := by
  cases blanks with
  | nil => rw [List.append_nil]
  | cons c rest =>
    rw [List.all_cons, Bool.and_eq_true] at hb
    rw [words_append hb.1, words_of_blank hb.2, List.append_nil]

theorem words_trimStart (s : List Char) : words (trimStart s) = words s := by
  induction s with
  | nil => rfl
  | cons c rest ih =>
    by_cases hc : isBlank c
    · have hw := words_append hc [] rest
      rw [List.nil_append] at hw
      rw [trimStart, List.dropWhile_cons_of_pos hc, hw]
      exact ih
    · rw [trimStart, List.dropWhile_cons_of_neg hc]

theorem words_trimEnd (s : List Char) : words (trimEnd s) = words s := by
  have hsplit : trimEnd s ++ (s.reverse.takeWhile isBlank).reverse = s := by
    rw [trimEnd, ← List.reverse_append, List.takeWhile_append_dropWhile, List.reverse_reverse]
  have hblank : (s.reverse.takeWhile isBlank).reverse.all isBlank := by
    rw [List.all_reverse, List.all_takeWhile]
  rw [← words_append_blanks hblank (trimEnd s), hsplit]

theorem words_trim (s : List Char) : words (trim s) = words s := by
  rw [trim, words_trimEnd, words_trimStart]

/-- A text that has lost the blanks around it has none to lose. -/
theorem trim_trim (s : List Char) : trim (trim s) = trim s := by
  have hend : trimEnd (trim s) = trim s := List.rdropWhile_idempotent _ _
  have hstart : trimStart (trim s) = trim s := by
    refine List.dropWhile_eq_self_iff.2 fun hpos => ?_
    -- what is left begins as the text does after the blanks before it
    have hbegins : trim s <+: trimStart s := List.rdropWhile_prefix isBlank _
    have hlength : 0 < (trimStart s).length := hpos.trans_le hbegins.length_le
    rw [hbegins.getElem hpos]
    exact List.dropWhile_eq_self_iff.1 (List.dropWhile_idempotent _ _) hlength
  rw [trim, hstart, hend]

end Text

/-! ## Schedules in order -/

/-- A text without the blanks around it reads as the text does. -/
theorem CronExpression.parse_of_trimmed {text : String} {e : CronExpression}
    (h : parse (Text.trimmed text) = .ok e) : ∃ e', parse text = .ok e' ∧ e'.cron = e.cron := by
  -- Both are read from the same words.
  have hf : normalFields (Text.trimmed text).toList = normalFields text.toList := by
    rw [normalFields, Text.trimmed, String.toList_ofList, Text.words_trim]
    rfl
  unfold parse at *
  rw [hf] at h
  cases hr : Cron.read? ([' '].intercalate (normalFields text.toList)) with
  | none =>
    rw [hr] at h
    cases h
  | some cron =>
    rw [hr] at h
    obtain rfl := Except.ok.inj h
    exact ⟨_, rfl, rfl⟩

namespace Validation

theorem of_checkAll {α : Type} {check : α → Except ValidationError Unit} {items : List α}
    (h : checkAll check items = .ok ()) : ∀ a ∈ items, check a = .ok () := by
  induction items with
  | nil =>
    intro a ha
    cases ha
  | cons first rest ih =>
    intro a ha
    rw [checkAll] at h
    cases hf : check first with
    | error e =>
      rw [hf] at h
      cases h
    | ok u =>
      rw [hf] at h
      rcases List.mem_cons.1 ha with rfl | ha
      · exact hf
      · exact ih h a ha

/-- A check that comes after another was passed if both were. -/
theorem of_bind {x y : Except ValidationError Unit} (h : (x >>= fun _ => y) = .ok ()) :
    x = .ok () ∧ y = .ok () := by
  cases x with
  | error e => cases h
  | ok u => exact ⟨rfl, h⟩

theorem of_ensure {holds : Bool} {e : ValidationError} (h : ensure holds e = .ok ()) :
    holds = true := by
  cases holds with
  | false => cases h
  | true => rfl

theorem parse_of_checkSchedule {field text : String} (hne : text ≠ "")
    (h : checkSchedule (field, text) = .ok ()) : ∃ e, CronExpression.parse text = .ok e := by
  unfold checkSchedule at h
  dsimp only at h
  rw [if_neg hne] at h
  replace h := (of_bind (of_bind h).2).2
  cases hp : CronExpression.parse (Text.trimmed text) with
  | error e =>
    rw [hp] at h
    cases h
  | ok e =>
    obtain ⟨e', he', -⟩ := CronExpression.parse_of_trimmed hp
    exact ⟨e', he'⟩

end Validation

namespace ScheduleSpec
variable {spec : ScheduleSpec} {zones : Zone.Lookup}

/-- The checks that a spec in order has passed. -/
theorem checks_of_validate (h : spec.validate zones = .ok ()) :
    Validation.checkAll Validation.checkSchedule (Validation.schedules spec) = .ok () ∧
      (spec.cleanup ≠ "" → Validation.checkCleanup spec.cleanupConfig = .ok ()) ∧
      Validation.checkTimeZone zones spec.timeZone = .ok () ∧
      (spec.scaleDown ≠ "" ∨ spec.scaleUp ≠ "" → Validation.checkTarget spec.target = .ok ()) := by
  obtain ⟨hschedules, hchecks⟩ :=
    Validation.of_bind (Validation.of_bind (Validation.of_bind h).2).2
  refine ⟨hschedules, ?_⟩
  dsimp only at hchecks
  -- the check of the cleanup is left out where there is none
  have hparts : (spec.cleanup ≠ "" → Validation.checkCleanup spec.cleanupConfig = .ok ()) ∧
      (Validation.checkTimeZone zones spec.timeZone >>= fun _ =>
        if spec.scaleDown ≠ "" ∨ spec.scaleUp ≠ "" then Validation.checkTarget spec.target
        else pure ()) = .ok () := by
    by_cases hcleanup : spec.cleanup ≠ ""
    · rw [if_pos hcleanup] at hchecks
      obtain ⟨hcheck, hrest⟩ := Validation.of_bind hchecks
      exact ⟨fun _ => hcheck, hrest⟩
    · rw [if_neg hcleanup] at hchecks
      exact ⟨fun hne => absurd hne hcleanup, hchecks⟩
  obtain ⟨hcleanup, hrest⟩ := hparts
  obtain ⟨hzone, htarget⟩ := Validation.of_bind hrest
  refine ⟨hcleanup, hzone, fun hscales => ?_⟩
  rwa [if_pos hscales] at htarget

/-- A spec in order names a zone. -/
theorem zone_of_validate (h : spec.validate zones = .ok ()) :
    ∃ z, Zone.parse spec.timeZone zones = .ok z := by
  obtain ⟨-, -, hzone, -⟩ := checks_of_validate h
  have hparse := (Validation.of_bind (Validation.of_bind hzone).2).2
  -- the name is looked up without the blanks around it in any case
  have htrimmed : Text.trimmed (Text.trimmed spec.timeZone) = Text.trimmed spec.timeZone := by
    unfold Text.trimmed
    rw [String.toList_ofList, Text.trim_trim]
  unfold Zone.parse at hparse ⊢
  rw [htrimmed] at hparse
  cases hz : zones (Text.trimmed spec.timeZone) with
  | some z => exact ⟨z, rfl⟩
  | none =>
    rw [hz] at hparse
    cases hparse

/-- The schedules of a spec in order can be read as they are written. -/
theorem parse_of_validate (h : spec.validate zones = .ok ())
    {schedule : String} (hs : schedule ∈ spec.schedules) (hne : schedule ≠ "") :
    ∃ e, CronExpression.parse schedule = .ok e := by
  obtain ⟨hall, -⟩ := checks_of_validate h
  have hcheck := Validation.of_checkAll hall
  simp only [Validation.schedules, List.mem_cons, List.not_mem_nil, or_false, forall_eq_or_imp,
    forall_eq] at hcheck
  simp only [schedules, List.mem_cons, List.not_mem_nil, or_false] at hs
  rcases hs with rfl | rfl | rfl
  · exact Validation.parse_of_checkSchedule hne hcheck.1
  · exact Validation.parse_of_checkSchedule hne hcheck.2.1
  · exact Validation.parse_of_checkSchedule hne hcheck.2.2

/-- A spec in order that scales has a target of a kind that can be scaled. -/
theorem kind_of_validate (h : spec.validate zones = .ok ())
    (hscales : spec.scaleDown ≠ "" ∨ spec.scaleUp ≠ "") :
    ∃ target, spec.target = some target ∧ (WorkloadKind.ofName? target.kind).isSome := by
  obtain ⟨-, -, -, htarget⟩ := checks_of_validate h
  replace htarget := htarget hscales
  cases hspec : spec.target with
  | none =>
    rw [hspec] at htarget
    cases htarget
  | some target =>
    rw [hspec] at htarget
    have hkind := (Validation.of_bind (Validation.of_bind htarget).2).1
    exact ⟨target, rfl, Validation.of_ensure hkind⟩

/-- A spec in order that scales has a target. -/
theorem target_of_validate (h : spec.validate zones = .ok ())
    (hscales : spec.scaleDown ≠ "" ∨ spec.scaleUp ≠ "") : ∃ target, spec.target = some target := by
  obtain ⟨target, htarget, -⟩ := kind_of_validate h hscales
  exact ⟨target, htarget⟩

/-- A spec in order that cleans up is configured for kinds that can be cleaned up. -/
theorem config_of_validate (h : spec.validate zones = .ok ()) (hcleans : spec.cleanup ≠ "") :
    ∃ config, spec.cleanupConfig = some config ∧
      ∀ kind ∈ config.resourceTypes, (ResourceKind.ofName? kind).isSome := by
  obtain ⟨-, hcleanup, -⟩ := checks_of_validate h
  replace hcleanup := hcleanup hcleans
  cases hconfig : spec.cleanupConfig with
  | none =>
    rw [hconfig] at hcleanup
    cases hcleanup
  | some config =>
    rw [hconfig] at hcleanup
    have hkinds := (Validation.of_bind (Validation.of_bind hcleanup).2).2
    exact ⟨config, rfl, fun kind hkind =>
      Validation.of_ensure (Validation.of_checkAll hkinds kind hkind)⟩

end ScheduleSpec

end ScheduledScaling
