import ScheduledScaling.Proofs.Arbitration
/-!
# What is due

In a zone of one offset a schedule is due exactly if it reads and an occurrence was reached since its
last run: `isDue_iff`. An occurrence is told by the calendar, not by the search: its date and its
time of day lie in the fields of the expression (`Cron.OccursAt`).
-/
namespace ScheduledScaling

namespace Cron
variable {c : Cron} {z : Zone} {s : Int}

/-- The fields of an expression admit a date and a time of day. -/
structure Admits (c : Cron) (date : Date) (hour minute second : Nat) : Prop where
  second : second ∈ c.seconds
  minute : minute ∈ c.minutes
  hour : hour ∈ c.hours
  dayOfMonth : date.day ∈ c.daysOfMonth
  month : date.month ∈ c.months
  /-- In a field, Sunday is 1. -/
  dayOfWeek : weekdayOf date.toDay + 1 ∈ c.daysOfWeek
  year : ∃ year ∈ c.years, date.year = (year : Int)

/-- Clocks in the zone show an admitted date and time of day at a UTC second. -/
def OccursAt (c : Cron) (z : Zone) (s : Int) : Prop :=
  ∃ (date : Date) (hour minute second : Nat), date.IsValid ∧ hour < 24 ∧ minute < 60 ∧ second < 60 ∧
    z.wallAt s = date.toDay * 86400 + (hour * 3600 + minute * 60 + second : Nat) ∧
    c.Admits date hour minute second

/-- A date from 1970 on has a day that is counted from 0 on. -/
theorem toDay_nonneg {date : Date} (h : date.IsValid) (hyear : 1970 ≤ date.year) :
    0 ≤ date.toDay := by
  obtain ⟨hlow, hhigh, hfirst, -⟩ := h
  simp only [Date.toDay]
  split <;> split <;> omega

theorem clock_eq (hour : Nat) {minute second : Nat} (hminute : minute < 60) (hsecond : second < 60) :
    (hour * 3600 + minute * 60 + second) / 3600 = hour ∧
      (hour * 3600 + minute * 60 + second) / 60 % 60 = minute ∧
      (hour * 3600 + minute * 60 + second) % 60 = second := by
  omega

theorem Admits.fires {date : Date} {hour minute second : Nat} (hc : c.Ordered)
    (h : c.Admits date hour minute second) (hvalid : date.IsValid) (hhour : hour < 24)
    (hminute : minute < 60) (hsecond : second < 60)
    (hwall : z.wallAt s =
      date.toDay * 86400 + (hour * 3600 + minute * 60 + second : Nat)) : c.Fires z s := by
  obtain ⟨year, hyear, heq⟩ := h.year
  have hlow : 1970 ≤ year := (hc.years.2 year hyear).1
  obtain ⟨day, hday⟩ := Int.eq_ofNat_of_zero_le (toDay_nonneg hvalid (by omega))
  have hdate := Date.ofDay_toDay hvalid
  have hweekday := h.dayOfWeek
  obtain ⟨hhourOf, hminuteOf, hsecondOf⟩ := clock_eq hour hminute hsecond
  generalize htime : hour * 3600 + minute * 60 + second = time at *
  have hw : z.wallAt s = (day * 86400 + time : Nat) := by
    rw [hwall, hday]
    omega
  have hdayOf : (day * 86400 + time) / 86400 = day := by omega
  have htimeOf : (day * 86400 + time) % 86400 = time := by omega
  rw [hday] at hdate hweekday
  rw [Fires, hw, admits_natCast, hdayOf, htimeOf, admitsTime_iff, hhourOf, hminuteOf, hsecondOf]
  refine ⟨?_, h.hour, h.minute, h.second⟩
  simp only [admitsDay, hdate, heq, Bool.and_eq_true, List.contains_iff_mem, Int.toNat_natCast]
  exact ⟨⟨⟨h.dayOfMonth, h.month⟩, hweekday⟩, hyear⟩

/-- An expression fires exactly when clocks show a date and a time that its fields admit. -/
theorem occursAt_iff (hc : c.Ordered) : c.OccursAt z s ↔ c.Fires z s := by
  constructor
  · rintro ⟨date, hour, minute, second, hvalid, hhour, hminute, hsecond, hwall, hadmits⟩
    exact hadmits.fires hc hvalid hhour hminute hsecond hwall
  · intro h
    obtain ⟨w, hw⟩ := Int.eq_ofNat_of_zero_le h.nonneg
    rw [Fires, hw, admits_natCast] at h
    obtain ⟨hday, htime⟩ := h
    have hlt := lt_of_admitsTime hc htime
    rw [admitsTime_iff] at htime
    obtain ⟨hhour, hminute, hsecond⟩ := htime
    simp only [admitsDay, Bool.and_eq_true, List.contains_iff_mem] at hday
    obtain ⟨⟨⟨hdayOfMonth, hmonth⟩, hdayOfWeek⟩, hyear⟩ := hday
    have hlow : 1970 ≤ (Date.ofDay (w / 86400 : Nat)).year.toNat := (hc.years.2 _ hyear).1
    have htoDay := Date.toDay_ofDay (w / 86400 : Nat)
    refine ⟨Date.ofDay (w / 86400 : Nat), w % 86400 / 3600, w % 86400 / 60 % 60, w % 86400 % 60,
      Date.isValid_ofDay _, by omega, by omega, by omega, ?_, ?_⟩
    · rw [htoDay, hw]
      omega
    · exact ⟨hsecond, hminute, hhour, hdayOfMonth, hmonth, htoDay.symm ▸ hdayOfWeek, _, hyear,
        by omega⟩

end Cron

/-! ## Schedules that are due -/

section Due
variable {schedule : String} {z : Zone} {last : Option Instant} {now : Instant}

/-- A text that does not read has no occurrence. -/
theorem nextOccurrence_of_unreadable {x : ScheduleError}
    (h : CronExpression.parse schedule = .error x) (t : Instant) :
    nextOccurrence schedule z t = .ok none := by
  unfold nextOccurrence
  rw [h]
  split <;> rfl

/-- A text that does not read is never due. -/
theorem isDue_of_unreadable {x : ScheduleError} (h : CronExpression.parse schedule = .error x) :
    isDue schedule z last now = .ok false := by
  unfold isDue
  rw [nextOccurrence_of_unreadable h]
  rfl

/-- Nothing comes after the last second of time, so the search from there breaks off. -/
theorem nextOccurrence_of_maxSecond_le {e : CronExpression} {t : Instant}
    (he : CronExpression.parse schedule = .ok e) (ht : t.IsPlain)
    (hmax : Instant.maxSecond ≤ t.second) :
    nextOccurrence schedule z t = .error .instantPlus := by
  have hplus : t.plus 1 0 = .error .instantPlus := by
    rw [Instant.plus, Instant.shift_of_isPlain ht]
    refine if_neg ?_
    rw [Instant.inRange, Bool.and_eq_true, decide_eq_true_eq, decide_eq_true_eq]
    rintro ⟨-, hle⟩
    dsimp only at hle
    omega
  rw [nextOccurrence_eq he, CronExpression.nextAfter, hplus]
  rfl

theorem isDue_of_maxSecond_le {e : CronExpression} (he : CronExpression.parse schedule = .ok e)
    (hlast : (last.getD .epoch).IsPlain) (hmax : Instant.maxSecond ≤ (last.getD .epoch).second) :
    isDue schedule z last now = .error .instantPlus := by
  unfold isDue
  rw [nextOccurrence_of_maxSecond_le he hlast hmax]
  rfl

/-- Occurrences lie in the years of the calendar. -/
theorem Cron.Fires.lt_maxSecond {c : Cron} (hc : c.Ordered) (hz : z.IsConstant) {s : Int}
    (h : c.Fires z s) : s < Instant.maxSecond := by
  have hupper := h.upper hc
  have hoff := hz.offset
  have hend : Cron.endWall = 4133980800 := by decide +kernel
  rw [hz.wallAt] at hupper
  rw [Instant.maxSecond_eq]
  omega

/-- The occurrences since the last run, told by the fields of the expression. -/
theorem firesWithin_iff {c : Cron} (hc : c.Ordered) :
    c.FiresWithin z (anchor last) now.second ↔
      ∃ s, c.OccursAt z s ∧ last.getD .epoch < ⟨s, 0⟩ ∧ ⟨s, 0⟩ ≤ now := by
  simp only [Cron.FiresWithin, Cron.occursAt_iff hc, Instant.lt_whole, Instant.whole_le]
  rfl

/-- A last run of whole nanoseconds from 1970 on, or none, which counts as the beginning of 1970. -/
theorem plain_of_last (h : ∀ t ∈ last, t.IsPlain ∧ .epoch ≤ t) :
    (last.getD .epoch).IsPlain ∧ 0 ≤ (last.getD .epoch).second := by
  cases last with
  | none => exact ⟨by decide, Int.le_refl 0⟩
  | some t =>
    obtain ⟨hplain, hle⟩ := h t rfl
    rw [Instant.le_iff] at hle
    change t.IsPlain ∧ 0 ≤ t.second
    change 0 < t.second ∨ 0 = t.second ∧ 0 ≤ t.nano at hle
    exact ⟨hplain, by omega⟩

variable {e : CronExpression}

/-- Before the last second of time, a schedule that reads is found due or not by its fields. -/
theorem isDue_of_lt_maxSecond (he : CronExpression.parse schedule = .ok e) (hz : z.IsConstant)
    (hlast : (last.getD .epoch).IsPlain ∧ 0 ≤ (last.getD .epoch).second)
    (hmax : (last.getD .epoch).second < Instant.maxSecond) :
    ∃ due, isDue schedule z last now = .ok due ∧
      (due = true ↔ ∃ s, e.cron.OccursAt z s ∧ last.getD .epoch < ⟨s, 0⟩ ∧ ⟨s, 0⟩ ≤ now) := by
  obtain ⟨due, hdue, hiff⟩ := isDue_spec now he hz ⟨hlast.1, by omega, hmax⟩
  exact ⟨due, hdue, hiff.trans (firesWithin_iff (Cron.ordered_of_parse he))⟩

/-- What has occurred by now is not before the first occurrence. -/
theorem occurred_iff_of_isLeast {c : Cron} {first : Int}
    (h : IsLeast {s | c.OccursAt z s ∧ last.getD .epoch < ⟨s, 0⟩} first) :
    (∃ s, c.OccursAt z s ∧ last.getD .epoch < ⟨s, 0⟩ ∧ ⟨s, 0⟩ ≤ now) ↔ (⟨first, 0⟩ : Instant) ≤ now := by
  constructor
  · rintro ⟨s, hs, hlt, hle⟩
    have hfirst : first ≤ s := h.2 ⟨hs, hlt⟩
    rw [Instant.whole_le] at hle ⊢
    omega
  · exact fun hle => ⟨first, h.1.1, h.1.2, hle⟩

/-- No occurrence lies after the last second of time. -/
theorem not_lt_of_occursAt (he : CronExpression.parse schedule = .ok e) (hz : z.IsConstant)
    (hmax : Instant.maxSecond ≤ (last.getD .epoch).second) {s : Int} (hs : e.cron.OccursAt z s) :
    ¬ last.getD .epoch < ⟨s, 0⟩ := by
  have hord := Cron.ordered_of_parse he
  have hlt := ((Cron.occursAt_iff hord).1 hs).lt_maxSecond hord hz
  rw [Instant.lt_whole]
  omega

/-- In a zone of one offset, a schedule is due exactly if it reads, and its fields admit what clocks have
shown at some instant after its last run, up to now. So it is not due before the first of these
instants, and due from then on. Whether it is due is told for every last run before the last second of
time. -/
theorem isDue_iff (hz : z.IsConstant) (hlast : ∀ t ∈ last, t.IsPlain ∧ .epoch ≤ t) :
    (isDue schedule z last now = .ok true ↔ ∃ e, CronExpression.parse schedule = .ok e ∧
      ∃ s, e.cron.OccursAt z s ∧ last.getD .epoch < ⟨s, 0⟩ ∧ ⟨s, 0⟩ ≤ now) ∧
    (∀ e first, CronExpression.parse schedule = .ok e →
      IsLeast {s | e.cron.OccursAt z s ∧ last.getD .epoch < ⟨s, 0⟩} first →
      isDue schedule z last now = .ok (decide (⟨first, 0⟩ ≤ now))) ∧
    ((∃ due, isDue schedule z last now = .ok due) ∨
      Instant.maxSecond ≤ (last.getD .epoch).second ∧
        isDue schedule z last now = .error .instantPlus) := by
  have hplain := plain_of_last hlast
  cases he : CronExpression.parse schedule with
  | error x =>
    rw [isDue_of_unreadable he]
    refine ⟨⟨fun h => ?_, ?_⟩, ?_, .inl ⟨false, rfl⟩⟩
    · cases h
    · rintro ⟨e, h, -⟩
      cases h
    · intro e first h
      cases h
  | ok e =>
    by_cases hmax : (last.getD .epoch).second < Instant.maxSecond
    · obtain ⟨due, hdue, hiff⟩ := isDue_of_lt_maxSecond he hz hplain hmax
      refine ⟨?_, ?_, .inl ⟨due, hdue⟩⟩
      · rw [hdue, Except.ok.injEq, hiff]
        simp
      · intro e' first h hfirst
        obtain rfl := Except.ok.inj h
        rw [hdue, Except.ok.injEq, Bool.eq_iff_iff, hiff, decide_eq_true_eq]
        exact occurred_iff_of_isLeast hfirst
    · have hle : Instant.maxSecond ≤ (last.getD .epoch).second := Int.not_lt.1 hmax
      have hbreak : isDue schedule z last now = .error .instantPlus :=
        isDue_of_maxSecond_le he hplain.1 hle
      refine ⟨?_, ?_, .inr ⟨hle, hbreak⟩⟩
      · rw [hbreak]
        constructor
        · intro h
          cases h
        · rintro ⟨e', h, s, hs, hlt, -⟩
          obtain rfl := Except.ok.inj h
          exact absurd hlt (not_lt_of_occursAt he hz hle hs)
      · intro e' first h hfirst
        obtain rfl := Except.ok.inj h
        exact absurd hfirst.1.2 (not_lt_of_occursAt he hz hle hfirst.1.1)

end Due

/-- At ten in the evening, on every day. -/
def atTen : CronExpression where
  text := "0 22 * * *"
  cron :=
    { seconds := [0], minutes := [0], hours := [22], daysOfMonth := Cron.Field.dayOfMonth.values,
      months := Cron.Field.month.values, daysOfWeek := Cron.Field.dayOfWeek.values,
      years := Cron.Field.year.values }

/-- Three hours behind UTC. -/
def threeBehind : Zone := ⟨"Etc/GMT+3", -10800, []⟩

theorem isConstant_threeBehind : threeBehind.IsConstant :=
  Zone.isConstant_of_unchanged _ (by decide) (by decide)

/-- After a run one second before ten in the evening of 10 March 2025, three hours behind UTC, the
schedule is due at ten and not half a second earlier. -/
theorem isDue_iff_atTen :
    isDue atTen.text threeBehind (some ⟨1741654799, 0⟩) ⟨1741654799, 500000000⟩ = .ok false ∧
      isDue atTen.text threeBehind (some ⟨1741654799, 0⟩) ⟨1741654800, 0⟩ = .ok true := by
  have hread : CronExpression.parse atTen.text = .ok atTen := by decide +kernel
  have hoccurs : atTen.cron.OccursAt threeBehind 1741654800 :=
    (Cron.occursAt_iff (Cron.ordered_of_parse hread)).2 (by decide +kernel)
  have hlast : ∀ t ∈ some (⟨1741654799, 0⟩ : Instant), t.IsPlain ∧ .epoch ≤ t := by
    intro t ht
    obtain rfl := Option.some.inj ht
    decide
  have hfirst : IsLeast {s | atTen.cron.OccursAt threeBehind s ∧
      (some (⟨1741654799, 0⟩ : Instant)).getD .epoch < ⟨s, 0⟩} 1741654800 := by
    refine ⟨⟨hoccurs, by decide⟩, fun s hs => ?_⟩
    have hlt : (1741654799 : Int) < s := Instant.lt_whole.1 hs.2
    omega
  have hdue (now : Instant) : isDue atTen.text threeBehind (some ⟨1741654799, 0⟩) now =
      .ok (decide (⟨1741654800, 0⟩ ≤ now)) :=
    (isDue_iff isConstant_threeBehind hlast).2.1 atTen 1741654800 hread hfirst
  exact ⟨hdue _, hdue _⟩

theorem parse_utc : Zone.parse "UTC" = .ok .utc := by
  have hname : Zone.names.contains (Text.trimmed "UTC") = true := by decide +kernel
  unfold Zone.parse Zone.find?
  rw [if_pos hname]
  rfl

end ScheduledScaling
