import Mathlib.Data.Int.LeastGreatest
import ScheduledScaling.Proofs.Plans
/-!
# How far back an occurrence is seen

An occurrence since the last run makes an action due, however long ago it was. Which of two actions
goes first is told by their last occurrences, and these are looked for in the last eight years only.
Within that time the search gives the greatest occurrence: `last_occurrence_in_reach`. What lies before
it counts as no occurrence, so of two actions the earlier one can go first:
`later_occurrence_goes_first`, `far_occurrence_is_overlooked`.
-/
namespace ScheduledScaling

/-- The instant after which the last occurrence is looked for, eight years of 367 days back. -/
def Instant.horizon (t : Instant) : Instant :=
  ⟨t.backFrom - CronExpression.maxLookback, t.nano % nanosPerSecond⟩

/-- The occurrences of an expression after an instant, up to another one. -/
def Cron.occurrences (c : Cron) (z : Zone) (start stop : Instant) : Set Int :=
  {s | c.OccursAt z s ∧ start < ⟨s, 0⟩ ∧ ⟨s, 0⟩ ≤ stop}

/-- The greatest occurrence up to an instant, however far back it lies. -/
def Cron.IsLastAt (c : Cron) (z : Zone) (t : Instant) (o : Int) : Prop :=
  IsGreatest {s | c.OccursAt z s ∧ (⟨s, 0⟩ : Instant) ≤ t} o

section
variable {c : Cron} {z : Zone} {t : Instant} {o : Int}

theorem Cron.isLastAt_iff (hc : c.Ordered) :
    c.IsLastAt z t o ↔ IsGreatest {s | c.Fires z s ∧ s ≤ t.second} o := by
  simp only [Cron.IsLastAt, Cron.occursAt_iff hc, Instant.whole_le]

/-- With an occurrence up to an instant there is a greatest one. -/
theorem Cron.exists_isLastAt {s : Int} (hs : c.OccursAt z s) (hle : (⟨s, 0⟩ : Instant) ≤ t) :
    ∃ o, c.IsLastAt z t o := by
  obtain ⟨o, ho, hgreatest⟩ := Int.exists_greatest_of_bdd
    (P := fun s => c.OccursAt z s ∧ (⟨s, 0⟩ : Instant) ≤ t)
    ⟨t.second, fun s hs => Instant.whole_le.1 hs.2⟩ ⟨s, hs, hle⟩
  exact ⟨o, ho, fun s hs => hgreatest s hs⟩

theorem Instant.horizon_lt_iff : t.horizon < ⟨o, 0⟩ ↔ t.backFrom - CronExpression.maxLookback < o :=
  Instant.lt_whole

end

/-! ## The last occurrence -/

section
variable {e : CronExpression} {z : Zone} {t : Instant}

/-- The greatest occurrence up to an instant is found exactly if it is in reach. -/
theorem CronExpression.latestAtOrBefore_of_isLastAt (he : e.cron.Ordered) (hz : z.IsConstant)
    (ht : t.HasPast) {o : Int} (ho : e.cron.IsLastAt z t o) :
    e.latestAtOrBefore z t = .ok (if t.horizon < ⟨o, 0⟩ then some ⟨o, 0⟩ else none) := by
  rw [Cron.isLastAt_iff he] at ho
  rcases latestAtOrBefore_spec he hz ht with ⟨o', hfound, hreach, ho'⟩ | ⟨hnone, hall⟩
  · obtain rfl := ho'.unique ho
    rw [if_pos (Instant.horizon_lt_iff.2 hreach), hfound]
  · rw [if_neg fun hreach => hall o ho.1.1 (Instant.horizon_lt_iff.1 hreach) ho.1.2, hnone]

/-- Without an occurrence nothing is found. -/
theorem CronExpression.latestAtOrBefore_of_none (he : e.cron.Ordered) (hz : z.IsConstant)
    (ht : t.HasPast) (hnone : ¬ ∃ o, e.cron.IsLastAt z t o) :
    e.latestAtOrBefore z t = .ok none := by
  rcases latestAtOrBefore_spec he hz ht with ⟨o, -, -, ho⟩ | ⟨h, -⟩
  · exact absurd ⟨o, (Cron.isLastAt_iff he).2 ho⟩ hnone
  · exact h

/-- The search backward gives the greatest occurrence in reach, and none exactly if there is none. -/
theorem CronExpression.latestAtOrBefore_in_reach (he : e.cron.Ordered) (hz : z.IsConstant)
    (ht : t.HasPast) :
    ∃ found, e.latestAtOrBefore z t = .ok found ∧
      (∀ o, found = some o ↔ ∃ s, o = ⟨s, 0⟩ ∧ IsGreatest (e.cron.occurrences z t.horizon t) s) ∧
      (found = none ↔ e.cron.occurrences z t.horizon t = ∅) := by
  -- where an occurrence is in reach, the greatest of all is
  have hreached {s : Int} (hs : s ∈ e.cron.occurrences z t.horizon t) :
      ∃ o, e.cron.IsLastAt z t o ∧ t.horizon < ⟨o, 0⟩ := by
    obtain ⟨hoccurs, hreach, hle⟩ := hs
    obtain ⟨o, ho⟩ := Cron.exists_isLastAt hoccurs hle
    have hso : s ≤ o := ho.2 ⟨hoccurs, hle⟩
    rw [Instant.horizon_lt_iff] at hreach
    exact ⟨o, ho, Instant.horizon_lt_iff.2 (by omega)⟩
  have hgreatest {o : Int} (ho : e.cron.IsLastAt z t o) (hreach : t.horizon < ⟨o, 0⟩) :
      IsGreatest (e.cron.occurrences z t.horizon t) o :=
    ⟨⟨ho.1.1, hreach, ho.1.2⟩, fun s hs => ho.2 ⟨hs.1, hs.2.2⟩⟩
  by_cases hany : ∃ o, e.cron.IsLastAt z t o ∧ t.horizon < ⟨o, 0⟩
  · obtain ⟨o, ho, hreach⟩ := hany
    refine ⟨some ⟨o, 0⟩, ?_, fun o' => ?_, ?_⟩
    · rw [latestAtOrBefore_of_isLastAt he hz ht ho, if_pos hreach]
    · constructor
      · intro h
        exact ⟨o, (Option.some.inj h).symm, hgreatest ho hreach⟩
      · rintro ⟨s, rfl, hs⟩
        rw [hs.unique (hgreatest ho hreach)]
    · refine iff_of_false nofun fun hempty => ?_
      have hmem := (hgreatest ho hreach).1
      rw [hempty] at hmem
      exact hmem
  · have hempty : e.cron.occurrences z t.horizon t = ∅ :=
      Set.eq_empty_of_forall_notMem fun s hs => hany (hreached hs)
    refine ⟨none, ?_, fun o => iff_of_false nofun ?_, iff_of_true rfl hempty⟩
    · by_cases hlast : ∃ o, e.cron.IsLastAt z t o
      · obtain ⟨o, ho⟩ := hlast
        rw [latestAtOrBefore_of_isLastAt he hz ht ho, if_neg fun hreach => hany ⟨o, ho, hreach⟩]
      · exact latestAtOrBefore_of_none he hz ht hlast
    · rintro ⟨s, -, hs⟩
      have hmem := hs.1
      rw [hempty] at hmem
      exact hmem

/-- From the year 0 on, an instant has all windows of the search behind it. -/
theorem Instant.hasPast_of_year (ht : t.IsValid) (hrange : t.inRange)
    (hyear : 0 ≤ (Date.ofDay (t.second / 86400)).year) : t.HasPast := by
  rw [Instant.inRange, Bool.and_eq_true, decide_eq_true_eq, decide_eq_true_eq] at hrange
  refine ⟨ht, ?_, hrange.2⟩
  obtain ⟨era, century, cycle, year, day, hplace⟩ := Date.exists_place (t.second / 86400)
  rw [Date.year_ofDay hplace] at hyear
  obtain ⟨hcentury, hcycle, hyearLe, hday, -, heq⟩ := hplace
  have hback : CronExpression.maxLookback = 253670400 := rfl
  rw [Instant.minSecond_eq, hback]
  split at hyear <;> omega

/-- In a zone of one offset, up to an instant from the year 0 on, the greatest occurrence of the last
eight years is found, and nothing is found exactly if there is none. -/
theorem last_occurrence_in_reach {text : String} (he : CronExpression.parse text = .ok e)
    (hz : z.IsConstant) (ht : t.IsPlain) (hrange : t.inRange)
    (hyear : 0 ≤ (Date.ofDay (t.second / 86400)).year) :
    ∃ found, e.latestAtOrBefore z t = .ok found ∧
      (∀ o, found = some o ↔ ∃ s, o = ⟨s, 0⟩ ∧
        IsGreatest (e.cron.occurrences z ⟨t.second - 8 * 367 * 86400, t.nano⟩ t) s) ∧
      (found = none ↔ e.cron.occurrences z ⟨t.second - 8 * 367 * 86400, t.nano⟩ t = ∅) := by
  have hhorizon : t.horizon = ⟨t.second - 8 * 367 * 86400, t.nano⟩ := by
    rw [Instant.horizon, Instant.backFrom_of_isPlain ht, Nat.mod_eq_of_lt ht]
    rfl
  rw [← hhorizon]
  exact CronExpression.latestAtOrBefore_in_reach (Cron.ordered_of_parse he) hz
    (Instant.hasPast_of_year ht.isValid hrange hyear)

end

/-- At midnight, on the first day of every month. -/
def monthly : CronExpression where
  text := "0 0 0 1 * *"
  cron :=
    { seconds := [0], minutes := [0], hours := [0], daysOfMonth := [1],
      months := Cron.Field.month.values, daysOfWeek := Cron.Field.dayOfWeek.values,
      years := Cron.Field.year.values }

/-- On the morning of 20 March 2025, the last midnight of a first day was that of 1 March. -/
theorem last_occurrence_in_reach_monthly :
    monthly.latestAtOrBefore .utc ⟨1742457600, 0⟩ = .ok (some ⟨1740787200, 0⟩) ∧
      IsGreatest (monthly.cron.occurrences .utc ⟨1742457600 - 8 * 367 * 86400, 0⟩ ⟨1742457600, 0⟩)
        1740787200 := by
  have hread : CronExpression.parse monthly.text = .ok monthly := by decide +kernel
  obtain ⟨found, hfound, hsome, -⟩ := last_occurrence_in_reach (t := ⟨1742457600, 0⟩) hread
    Zone.isConstant_utc (by decide) (by decide) (by decide +kernel)
  have hlast : monthly.latestAtOrBefore .utc ⟨1742457600, 0⟩ = .ok (some ⟨1740787200, 0⟩) := by
    decide +kernel
  obtain rfl := Except.ok.inj (hfound.symm.trans hlast)
  obtain ⟨s, hs, hgreatest⟩ := (hsome _).1 rfl
  obtain rfl : 1740787200 = s := congrArg Instant.second hs
  exact ⟨hlast, hgreatest⟩

/-! ## Two actions that are due -/

section
variable {schedule down up : String} {z : Zone} {last lastDown lastUp : Option Instant}
  {now : Instant}

/-- The last occurrence of a schedule is found exactly if it is in reach. -/
theorem latestOccurrence_of_isLastAt {e : CronExpression}
    (he : CronExpression.parse schedule = .ok e) (hz : z.IsConstant) (hnow : now.HasPast) {o : Int}
    (ho : e.cron.IsLastAt z now o) :
    latestOccurrence schedule z now = .ok (if now.horizon < ⟨o, 0⟩ then some ⟨o, 0⟩ else none) := by
  unfold latestOccurrence
  rw [he]
  exact CronExpression.latestAtOrBefore_of_isLastAt (Cron.ordered_of_parse he) hz hnow ho

/-- An action that is due has a last occurrence. -/
theorem exists_isLastAt_of_due (hz : z.Steady) (hlast : ∀ t ∈ last, t.IsValid)
    (hdue : isDue schedule z last now = .ok true) :
    ∃ e o, CronExpression.parse schedule = .ok e ∧ e.cron.IsLastAt z now o := by
  have hvalid : (last.getD .epoch).IsValid := by
    cases last with
    | none => decide
    | some t => exact hlast t rfl
  obtain ⟨e, s, he, -, hnext, hle⟩ := occurrence_of_due hz hvalid hdue
  have hoccurs := (Cron.occursAt_iff (Cron.ordered_of_parse he)).2 hnext.fires
  obtain ⟨o, ho⟩ := Cron.exists_isLastAt hoccurs hle
  exact ⟨e, o, he, ho⟩

/-- An occurrence out of reach is not later than any other. -/
theorem isLater_in_reach (horizon : Instant) (u d : Int) :
    isLater (if horizon < ⟨u, 0⟩ then some ⟨u, 0⟩ else none)
        (if horizon < ⟨d, 0⟩ then some ⟨d, 0⟩ else none) =
      decide (d < u ∧ horizon < ⟨u, 0⟩) := by
  simp only [Instant.lt_whole]
  by_cases hu : horizon.second < u
  · by_cases hd : horizon.second < d
    · rw [if_pos hu, if_pos hd, isLater_whole, decide_eq_decide]
      exact (and_iff_left hu).symm
    · -- what is in reach is later than what is not
      have hlater : d < u := by omega
      rw [if_pos hu, if_neg hd]
      exact (decide_eq_true ⟨hlater, hu⟩).symm
  · rw [if_neg hu]
    exact (decide_eq_false fun h => hu h.2).symm

/-- The plan for two actions that are due, from their last occurrences. -/
theorem planScaling_of_isLastAt {d u : CronExpression} {dAt uAt : Int}
    (hd : CronExpression.parse down = .ok d) (hu : CronExpression.parse up = .ok u)
    (hz : z.IsConstant) (hnow : now.HasPast) (hdown : isDue down z lastDown now = .ok true)
    (hup : isDue up z lastUp now = .ok true) (hdAt : d.cron.IsLastAt z now dAt)
    (huAt : u.cron.IsLastAt z now uAt) :
    planScaling down up z lastDown lastUp now =
      .ok (if dAt < uAt ∧ now.horizon < ⟨uAt, 0⟩ then .scaleUp true else .scaleDown true) := by
  rw [planScaling_of_due hdown hup, latestOccurrence_of_isLastAt hd hz hnow hdAt,
    latestOccurrence_of_isLastAt hu hz hnow huAt]
  change Except.ok (if isLater _ _ then _ else _) = _
  simp only [isLater_in_reach, decide_eq_true_eq]

/-- An instant at which an expression has fired has all windows of the search behind it. -/
theorem Instant.hasPast_of_isLastAt {c : Cron} {o : Int} (hc : c.Ordered) (hz : z.IsConstant)
    (hnow : now.IsValid) (hrange : now.inRange) (ho : c.IsLastAt z now o) : now.HasPast := by
  obtain ⟨hfires, hle⟩ := ((Cron.isLastAt_iff hc).1 ho).1
  have hlow := hfires.lower hz
  rw [Instant.inRange, Bool.and_eq_true, decide_eq_true_eq, decide_eq_true_eq] at hrange
  have hback : CronExpression.maxLookback = 253670400 := rfl
  refine ⟨hnow, ?_, hrange.2⟩
  rw [Instant.minSecond_eq]
  omega

/-- When both actions are due in a zone of one offset, scaling up goes first exactly if its last
occurrence is the later one and is in reach; otherwise scaling down goes first. The other action is
superseded. -/
theorem later_occurrence_goes_first (hz : z.IsConstant) (hnow : now.IsValid) (hrange : now.inRange)
    (hlastDown : ∀ t ∈ lastDown, t.IsValid) (hlastUp : ∀ t ∈ lastUp, t.IsValid)
    (hdown : isDue down z lastDown now = .ok true) (hup : isDue up z lastUp now = .ok true) :
    ∃ d u dAt uAt, CronExpression.parse down = .ok d ∧ CronExpression.parse up = .ok u ∧
      d.cron.IsLastAt z now dAt ∧ u.cron.IsLastAt z now uAt ∧
      planScaling down up z lastDown lastUp now =
        .ok (if dAt < uAt ∧ now.horizon < ⟨uAt, 0⟩ then .scaleUp true else .scaleDown true) := by
  obtain ⟨d, dAt, hd, hdAt⟩ := exists_isLastAt_of_due hz.steady hlastDown hdown
  obtain ⟨u, uAt, hu, huAt⟩ := exists_isLastAt_of_due hz.steady hlastUp hup
  have hpast := Instant.hasPast_of_isLastAt (Cron.ordered_of_parse hd) hz hnow hrange hdAt
  exact ⟨d, u, dAt, uAt, hd, hu, hdAt, huAt,
    planScaling_of_isLastAt hd hu hz hpast hdown hup hdAt huAt⟩

end

/-- In the last second of every day. -/
def atDayEnd : CronExpression where
  text := "59 59 23 * * *"
  cron := { atTen.cron with seconds := [59], minutes := [59], hours := [23] }

/-- In the leap second at the end of 2016. -/
def leapSecond : Instant := ⟨1483228799, 1500000000⟩

theorem later_occurrence_goes_first_leapSecond :
    isDue atTen.text .utc none leapSecond = .ok true ∧
      isDue atDayEnd.text .utc none leapSecond = .ok true ∧
      ∃ d u dAt uAt, CronExpression.parse atTen.text = .ok d ∧
        CronExpression.parse atDayEnd.text = .ok u ∧ d.cron.IsLastAt .utc leapSecond dAt ∧
        u.cron.IsLastAt .utc leapSecond uAt ∧
        planScaling atTen.text atDayEnd.text .utc none none leapSecond =
          .ok (if dAt < uAt ∧ leapSecond.horizon < ⟨uAt, 0⟩ then .scaleUp true
            else .scaleDown true) := by
  have hdown : isDue atTen.text .utc none leapSecond = .ok true := by decide +kernel
  have hup : isDue atDayEnd.text .utc none leapSecond = .ok true := by decide +kernel
  exact ⟨hdown, hup, later_occurrence_goes_first Zone.isConstant_utc (by decide) (by decide)
    nofun nofun hdown hup⟩

/-- At six on a New Year that is a Monday, -/
def newYearMorning : CronExpression where
  text := "0 0 6 1 1 Mon"
  cron := { atTen.cron with hours := [6], daysOfMonth := [1], months := [1], daysOfWeek := [2] }

/-- and at ten in the evening of that day. -/
def newYearEvening : CronExpression where
  text := "0 0 22 1 1 Mon"
  cron := { newYearMorning.cron with hours := [22] }

/-- At noon on 1 June 2016. The New Years before and after it that are Mondays are those of 2007 and
of 2018. -/
def between : Instant := ⟨1464782400, 0⟩

/-- An occurrence whose next one is still to come is the last one. -/
theorem isLastAt_of_next {e : CronExpression} {z : Zone} {now : Instant} {o : Int} (next : Instant)
    (he : e.cron.Ordered) (hz : z.IsConstant) (hordinary : Instant.IsOrdinary ⟨o, 0⟩)
    (ho : e.cron.Fires z o) (hle : (⟨o, 0⟩ : Instant) ≤ now)
    (hnext : e.nextAfter z ⟨o, 0⟩ = .ok (some next)) (hlater : now < next) :
    e.cron.IsLastAt z now o := by
  rw [Cron.isLastAt_iff he]
  refine ⟨⟨ho, Instant.whole_le.1 hle⟩, fun s hs => ?_⟩
  by_contra hgt
  rcases CronExpression.nextAfter_spec he hz hordinary with ⟨first, h, hleast⟩ | ⟨h, -⟩
  · obtain rfl := Option.some.inj (Except.ok.inj (hnext.symm.trans h))
    have hfirst : first ≤ s := hleast.2 ⟨hs.1, Int.not_le.1 hgt⟩
    have hbefore := hs.2
    rw [Instant.lt_whole] at hlater
    omega
  · cases hnext.symm.trans h

/-- Nine years after a New Year both actions are due that have their last occurrences on it, and
scaling down goes first, though its occurrence is the earlier one. -/
theorem far_occurrence_is_overlooked :
    isDue newYearMorning.text .utc none between = .ok true ∧
      isDue newYearEvening.text .utc none between = .ok true ∧
      newYearMorning.cron.IsLastAt .utc between 1167631200 ∧
      newYearEvening.cron.IsLastAt .utc between 1167688800 ∧
      planScaling newYearMorning.text newYearEvening.text .utc none none between =
        .ok (.scaleDown true) := by
  have hz : Zone.utc.IsConstant := Zone.isConstant_utc
  have hmorning : CronExpression.parse newYearMorning.text = .ok newYearMorning := by
    decide +kernel
  have hevening : CronExpression.parse newYearEvening.text = .ok newYearEvening := by
    decide +kernel
  have hlastMorning : newYearMorning.cron.IsLastAt .utc between 1167631200 := by
    exact isLastAt_of_next ⟨1514786400, 0⟩ (Cron.ordered_of_parse hmorning) hz
      ⟨by decide, by decide, by decide⟩ (by decide +kernel) (by decide) (by decide +kernel)
      (by decide)
  have hlastEvening : newYearEvening.cron.IsLastAt .utc between 1167688800 := by
    exact isLastAt_of_next ⟨1514844000, 0⟩ (Cron.ordered_of_parse hevening) hz
      ⟨by decide, by decide, by decide⟩ (by decide +kernel) (by decide) (by decide +kernel)
      (by decide)
  -- an action that never ran is due by its last occurrence
  have hdue {e : CronExpression} {o : Int} (he : CronExpression.parse e.text = .ok e)
      (ho : e.cron.IsLastAt .utc between o) (hpos : 0 < o) :
      isDue e.text .utc none between = .ok true := by
    have hepoch : ((none : Option Instant).getD .epoch).IsOrdinary := isOrdinary_epoch
    obtain ⟨due, hdue, hiff⟩ := isDue_spec between he hz hepoch
    rw [hdue, hiff.2 ⟨o, ((Cron.isLastAt_iff (Cron.ordered_of_parse he)).1 ho).1.1, hpos, ?_⟩]
    exact Instant.whole_le.1 ho.1.2
  have hdown := hdue hmorning hlastMorning (by decide)
  have hup := hdue hevening hlastEvening (by decide)
  have hplan := planScaling_of_isLastAt hmorning hevening hz ⟨by decide, by decide, by decide⟩
    hdown hup hlastMorning hlastEvening
  rw [if_neg (by decide)] at hplan
  exact ⟨hdown, hup, hlastMorning, hlastEvening, hplan⟩

end ScheduledScaling
