import Mathlib.Tactic.SplitIfs
import ScheduledScaling.Time.Calendar
/-!
# Days and dates

Every day has one place in its era of 400 years (`Date.exists_place`), and its date can be told from
the place (`Date.ofDay_eq`). So the date of a day is one that the calendar has (`isValid_ofDay`),
and the day can be told from it again: `toDay_ofDay`. The other way round, each date that the
calendar has is the date of its day: `ofDay_toDay`.
-/
namespace ScheduledScaling.Date

/-- The place of a day: its era, the century in it, the cycle of four years, the year, and the day of
the year. All are counted from 0, and years begin in March. -/
structure Place (day era : Int) (century cycle year dayOfYear : Nat) : Prop where
  century_le : century ≤ 3
  cycle_le : cycle ≤ 24
  year_le : year ≤ 3
  dayOfYear_le : dayOfYear ≤ 365
  /-- The leap day ends a cycle. The last cycle of a century has one if it ends an era. -/
  leap : dayOfYear = 365 → year = 3 ∧ (cycle = 24 → century = 3)
  day_eq : day + 719468 =
    era * 146097 + (36524 * century + 1461 * cycle + 365 * year + dayOfYear : Nat)

variable {day era : Int} {c q y d : Nat}

theorem exists_place (day : Int) : ∃ era c q y d, Place day era c q y d := by
  -- The last day of an era would begin a fifth century, and that of a cycle a fifth year.
  have hsplit : ∀ n : Nat, n < 146097 → ∃ c q y d, c ≤ 3 ∧ q ≤ 24 ∧ y ≤ 3 ∧ d ≤ 365 ∧
      (d = 365 → y = 3 ∧ (q = 24 → c = 3)) ∧ n = 36524 * c + 1461 * q + 365 * y + d := by
    intro n hn
    obtain ⟨r, hr⟩ : ∃ r, n = 36524 * min (n / 36524) 3 + r :=
      ⟨n - 36524 * min (n / 36524) 3, by omega⟩
    obtain ⟨d, hd⟩ : ∃ d, r % 1461 = 365 * min (r % 1461 / 365) 3 + d :=
      ⟨r % 1461 - 365 * min (r % 1461 / 365) 3, by omega⟩
    exact ⟨min (n / 36524) 3, r / 1461, min (r % 1461 / 365) 3, d, by omega⟩
  obtain ⟨c, q, y, d, hc, hq, hy, hd, hl, hn⟩ :=
    hsplit ((day + 719468) % 146097).toNat (by omega)
  exact ⟨(day + 719468) / 146097, c, q, y, d, hc, hq, hy, hd, hl, by omega⟩

namespace Place

/-- The correction for leap days leaves 365 days to a year. -/
theorem yearOfEra (h : Place day era c q y d) {n : Nat}
    (hn : n = 36524 * c + 1461 * q + 365 * y + d) :
    (n - n / 1460 + n / 36524 - n / 146096) / 365 = 100 * c + 4 * q + y := by
  obtain ⟨hc, hq, hy, hd, hl, -⟩ := h
  by_cases hlast : c = 3 ∧ q = 24 ∧ y = 3 ∧ d = 365
  · obtain ⟨rfl, rfl, rfl, rfl⟩ := hlast
    subst hn
    rfl
  · have hcenturies : n / 36524 = c := by omega
    have hera : n / 146096 = 0 := by omega
    rw [hcenturies, hera]
    by_cases hcarry : 1460 ≤ 24 * c + q + 365 * y + d
    · have hcycles : n / 1460 = 25 * c + q + 1 := by omega
      rw [hcycles]
      omega
    · have hcycles : n / 1460 = 25 * c + q := by omega
      rw [hcycles]
      omega

end Place

/-- The date of a day from its place; January and February belong to the next year. -/
theorem ofDay_eq (h : Place day era c q y d) :
    ofDay day =
      { year := (100 * c + 4 * q + y : Nat) + era * 400 + if d < 306 then 0 else 1
        month := if d < 306 then (5 * d + 2) / 153 + 3 else (5 * d + 2) / 153 - 9
        day := d - (153 * ((5 * d + 2) / 153) + 2) / 5 + 1 } := by
  obtain ⟨n, hn⟩ : ∃ n, n = 36524 * c + 1461 * q + 365 * y + d := ⟨_, rfl⟩
  have hyear := h.yearOfEra hn
  obtain ⟨hc, hq, hy, hd, hl, hday⟩ := h
  rw [← hn] at hday
  have hera : (day + 719468) / 146097 = era := by omega
  have hrest : ((day + 719468) % 146097).toNat = n := by omega
  have hcycles : (100 * c + 4 * q + y) / 4 = 25 * c + q := by omega
  have hcenturies : (100 * c + 4 * q + y) / 100 = c := by omega
  have hdays : n - (365 * (100 * c + 4 * q + y) + (25 * c + q) - c) = d := by omega
  -- Months count from March; the eleventh and the twelfth are those of the next year.
  have hspring : (5 * d + 2) / 153 < 10 ↔ d < 306 := by omega
  simp only [ofDay, hera, hrest, hyear, hcycles, hcenturies, hdays, hspring]
  by_cases hearly : d < 306
  · have hmonth : ¬ (5 * d + 2) / 153 + 3 ≤ 2 := by omega
    simp only [if_pos hearly, if_neg hmonth, Int.add_zero]
  · have hmonth : (5 * d + 2) / 153 - 9 ≤ 2 := by omega
    simp only [if_neg hearly, if_pos hmonth]

theorem year_ofDay (h : Place day era c q y d) :
    (ofDay day).year = (100 * c + 4 * q + y : Nat) + era * 400 + if d < 306 then 0 else 1 := by
  rw [ofDay_eq h]

/-- A day that is not earlier than the year 5 lies in a year of our era. -/
theorem year_nonneg (h : -717593 ≤ day) : 0 ≤ (ofDay day).year := by
  obtain ⟨era, c, q, y, d, hp⟩ := exists_place day
  rw [year_ofDay hp]
  obtain ⟨hc, hq, hy, hd, hl, hday⟩ := hp
  omega

theorem toDay_ofDay (day : Int) : (ofDay day).toDay = day := by
  obtain ⟨era, c, q, y, d, h⟩ := exists_place day
  rw [ofDay_eq h]
  obtain ⟨hc, hq, hy, hd, hl, hday⟩ := h
  obtain ⟨m, hm⟩ : ∃ m, m = (5 * d + 2) / 153 := ⟨_, rfl⟩
  simp only [toDay, ← hm]
  by_cases hearly : d < 306
  · have hmonth : ¬ m + 3 ≤ 2 := by omega
    simp only [if_pos hearly, if_neg hmonth, if_pos (show m + 3 > 2 by omega), Int.add_zero]
    omega
  · have hmonth : m - 9 ≤ 2 := by omega
    simp only [if_neg hearly, if_pos hmonth, if_neg (show ¬ m - 9 > 2 by omega)]
    omega

theorem isValid_ofDay (day : Int) : (ofDay day).IsValid := by
  obtain ⟨era, c, q, y, d, h⟩ := exists_place day
  rw [ofDay_eq h]
  obtain ⟨hc, hq, hy, hd, hl, -⟩ := h
  obtain ⟨m, hm⟩ : ∃ m, m = (5 * d + 2) / 153 := ⟨_, rfl⟩
  simp only [IsValid, daysInMonth, ← hm]
  by_cases hearly : d < 306
  · simp only [if_pos hearly]
    refine ⟨by omega, by omega, by omega, ?_⟩
    split_ifs <;> omega
  · simp only [if_neg hearly]
    refine ⟨by omega, by omega, by omega, ?_⟩
    split_ifs with hfebruary hleap
    · omega
    · -- Only a leap year has a day 365, its 29th of February.
      have hlast : d ≠ 365 := by
        rintro rfl
        refine hleap ?_
        simp only [isLeapYear, Bool.and_eq_true, Bool.or_eq_true, beq_iff_eq, bne_iff_ne]
        omega
      omega
    all_goals omega

/-! ## The day of a date -/

/-- The count of a date in years that begin in March: the year, the month from 0 on, and the day of
the month. -/
structure FromMarch (date : Date) (year : Int) (month : Nat) : Prop where
  year_eq : year = if date.month ≤ 2 then date.year - 1 else date.year
  month_eq : month = if date.month > 2 then date.month - 3 else date.month + 9
  month_le : month ≤ 11
  day_pos : 1 ≤ date.day
  /-- No month is longer than what the count of days gives it. -/
  day_le : (153 * month + 2) / 5 + date.day ≤ (153 * (month + 1) + 2) / 5
  /-- The last month is the shortest. Only a leap year has a 29th of February. -/
  leap : month = 11 → date.day ≤ 28 ∨ date.day = 29 ∧ (year + 1) % 4 = 0 ∧
    ((year + 1) % 100 ≠ 0 ∨ (year + 1) % 400 = 0)

theorem daysInMonth_le (year : Int) {month : Nat} (hlow : 1 ≤ month) (hhigh : month ≤ 12) {m : Nat}
    (hm : m = if month > 2 then month - 3 else month + 9) :
    m ≤ 11 ∧ (153 * m + 2) / 5 + daysInMonth year month ≤ (153 * (m + 1) + 2) / 5 := by
  subst hm
  have hcases : month = 1 ∨ month = 2 ∨ month = 3 ∨ month = 4 ∨ month = 5 ∨ month = 6 ∨
      month = 7 ∨ month = 8 ∨ month = 9 ∨ month = 10 ∨ month = 11 ∨ month = 12 := by
    omega
  rcases hcases with rfl | rfl | rfl | rfl | rfl | rfl | rfl | rfl | rfl | rfl | rfl | rfl
  case inr.inl =>
    have hfeb : daysInMonth year 2 ≤ 29 := by
      rw [daysInMonth, if_pos rfl]
      split_ifs <;> decide
    exact ⟨by decide, Nat.le_trans (Nat.add_le_add_left hfeb 337) (by decide)⟩
  all_goals simp [daysInMonth]

theorem exists_fromMarch {date : Date} (h : date.IsValid) :
    ∃ year month, FromMarch date year month := by
  obtain ⟨year, month, day⟩ := date
  obtain ⟨hlow, hhigh, hfirst, hlast⟩ := h
  dsimp only at hlow hhigh hfirst hlast
  obtain ⟨hle, hlen⟩ := daysInMonth_le year hlow hhigh rfl
  refine ⟨_, _, rfl, rfl, hle, hfirst, Nat.le_trans (Nat.add_le_add_left hlast _) hlen,
    fun h11 => ?_⟩
  obtain rfl : month = 2 := by
    dsimp only at h11
    split at h11 <;> omega
  simp only [daysInMonth, isLeapYear, if_true, Bool.and_eq_true, beq_iff_eq, Bool.or_eq_true,
    bne_iff_ne] at hlast
  simp only [Nat.le_refl, if_true]
  split at hlast <;> omega

/-- The day of a date has its place in the era of the date. -/
theorem FromMarch.place {date : Date} {year : Int} {month n : Nat} (h : FromMarch date year month)
    (hn : (n : Int) = year % 400) :
    Place date.toDay (year / 400) (n / 100) (n % 100 / 4) (n % 4)
      ((153 * month + 2) / 5 + date.day - 1) := by
  obtain ⟨hyear, hmonth, hle, hpos, hlast, hleap⟩ := h
  -- Only the last month reaches the last day of a leap year.
  have hend : (153 * month + 2) / 5 + date.day - 1 ≤ 365 ∧
      ((153 * month + 2) / 5 + date.day - 1 = 365 → month = 11 ∧ date.day = 29) := by
    by_cases h11 : month = 11
    · have := hleap h11
      subst h11
      omega
    · omega
  refine ⟨by omega, by omega, by omega, hend.1, fun hd => ?_, ?_⟩
  · obtain ⟨h11, h29⟩ := hend.2 hd
    have := hleap h11
    omega
  · simp only [toDay]
    rw [← hyear, ← hmonth, ← hn]
    omega

/-- The date of the day of a date is that date. -/
theorem ofDay_toDay {date : Date} (h : date.IsValid) : ofDay date.toDay = date := by
  obtain ⟨year, month, hfrom⟩ := exists_fromMarch h
  obtain ⟨n, hn⟩ : ∃ n : Nat, (n : Int) = year % 400 :=
    ⟨_, Int.toNat_of_nonneg (Int.emod_nonneg _ (by decide))⟩
  rw [ofDay_eq (hfrom.place hn)]
  obtain ⟨hlow, hhigh, -⟩ := h
  obtain ⟨hyear, hmonth, hle, hpos, hlast, -⟩ := hfrom
  obtain ⟨d, hd⟩ : ∃ d, d = (153 * month + 2) / 5 + date.day - 1 := ⟨_, rfl⟩
  have hmonths : (5 * d + 2) / 153 = month := by omega
  have hdays : d - (153 * month + 2) / 5 + 1 = date.day := by omega
  have hyears : ((100 * (n / 100) + 4 * (n % 100 / 4) + n % 4 : Nat) : Int) + year / 400 * 400 =
      year := by
    omega
  have hspring : d < 306 ↔ date.month > 2 := by
    split at hmonth <;> omega
  rw [← hd, hmonths, hyears, hdays]
  simp only [hspring]
  by_cases hearly : date.month > 2
  · rw [if_neg (Nat.not_le.2 hearly)] at hyear
    rw [if_pos hearly] at hmonth
    simp only [if_pos hearly, hyear, hmonth, Int.add_zero, Nat.sub_add_cancel hearly]
  · rw [if_pos (Nat.not_lt.1 hearly)] at hyear
    rw [if_neg hearly] at hmonth
    simp only [if_neg hearly, hyear, hmonth, Int.sub_add_cancel, Nat.add_sub_cancel]

end ScheduledScaling.Date
