import ScheduledScaling.Proofs.Occurrences
import ScheduledScaling.Proofs.Steps
import ScheduledScaling.Store.Memory
/-!
# When a schedule is looked at again

A pass plans the next one for the first of the next occurrences that lies ahead. What was found but
has passed is dropped, so a pass can come to `Action.done` with occurrences ahead. This happens only
where clocks have fallen back, or at the end of a day with a leap second: `sleeps_only_without_next`.
-/
namespace ScheduledScaling

open Program

/-! ## Written schedules -/

theorem Text.words_of_blank {s : List Char} (h : s.all isBlank) : words s = [] := by
  have hp : ∀ w ∈ pieces isBlank s, w = [] := by
    induction s with
    | nil =>
      intro w hw
      exact List.mem_singleton.1 hw
    | cons c rest ih =>
      rw [List.all_cons, Bool.and_eq_true] at h
      intro w hw
      rw [pieces, if_pos h.1] at hw
      rcases List.mem_cons.1 hw with rfl | hw
      · rfl
      · exact ih h.2 w hw
  refine List.filter_eq_nil_iff.2 fun w hw => ?_
  rw [hp w hw]
  decide

/-- Blanks do not read. -/
theorem not_isEmptyTrimmed_of_parse {schedule : String} {e : CronExpression}
    (h : CronExpression.parse schedule = .ok e) : ¬ Text.isEmptyTrimmed schedule := by
  intro hb
  have hf : CronExpression.normalFields schedule.toList = [] := by
    unfold CronExpression.normalFields
    rw [Text.words_of_blank hb]
    rfl
  have hn : Cron.read? ([' '].intercalate []) = none := by decide +kernel
  unfold CronExpression.parse at h
  rw [hf, hn] at h
  cases h

theorem nextOccurrence_eq {schedule : String} {e : CronExpression} {z : Zone} {now : Instant}
    (h : CronExpression.parse schedule = .ok e) :
    nextOccurrence schedule z now = e.nextAfter z now := by
  unfold nextOccurrence
  rw [if_neg (not_isEmptyTrimmed_of_parse h), h]

/-- Occurrences are at whole seconds. -/
theorem nano_of_nextOccurrence {schedule : String} {z : Zone} {now o : Instant}
    (h : nextOccurrence schedule z now = .ok (some o)) : o.nano = 0 := by
  unfold nextOccurrence at h
  split at h
  · cases h
  split at h
  · cases h
  rename_i e _
  unfold CronExpression.nextAfter at h
  cases hp : now.plus 1 0 with
  | error x =>
    rw [hp] at h
    cases h
  | ok start =>
    rw [hp] at h
    replace h := Except.ok.inj h
    simp only [Option.bind_eq_bind, Option.pure_def, Option.bind_eq_some_iff] at h
    obtain ⟨w, -, s, -, hs⟩ := h
    rw [← Option.some.inj hs]

/-! ## The wait -/

def Duration.IsPositive (d : Duration) : Prop := 0 < d.seconds ∨ 0 < d.nanos

theorem earliest?_mem {ts : List Instant} {t : Instant} (h : earliest? ts = some t) : t ∈ ts := by
  induction ts generalizing t with
  | nil => cases h
  | cons a rest ih =>
    rw [earliest?] at h
    split at h
    · obtain rfl := Option.some.inj h
      exact List.mem_cons_self
    · rename_i u hu
      have hmem := ih hu
      split at h
      · obtain rfl := Option.some.inj h
        exact List.mem_cons_of_mem _ hmem
      · obtain rfl := Option.some.inj h
        exact List.mem_cons_self

theorem exists_earliest? {ts : List Instant} {t : Instant} (h : t ∈ ts) :
    ∃ u, earliest? ts = some u := by
  cases ts with
  | nil => cases h
  | cons a rest =>
    rw [earliest?]
    split <;> exact ⟨_, rfl⟩

theorem earliest?_le {ts : List Instant} {t : Instant} (h : earliest? ts = some t) :
    ∀ u ∈ ts, t ≤ u := by
  induction ts generalizing t with
  | nil => cases h
  | cons a rest ih =>
    intro u hu
    rw [earliest?] at h
    split at h
    · rename_i hnone
      obtain rfl := Option.some.inj h
      rcases List.mem_cons.1 hu with rfl | hu
      · exact Instant.le_refl u
      · obtain ⟨v, hv⟩ := exists_earliest? hu
        rw [hnone] at hv
        cases hv
    · rename_i v hv
      have hle := ih hv
      split at h
      · rename_i hlt
        obtain rfl := Option.some.inj h
        rcases List.mem_cons.1 hu with rfl | hu
        · rw [Instant.lt_iff_not_le] at hlt
          exact (Instant.le_total v u).resolve_right hlt
        · exact hle u hu
      · rename_i hlt
        obtain rfl := Option.some.inj h
        rw [Instant.lt_iff_not_le, Classical.not_not] at hlt
        rcases List.mem_cons.1 hu with rfl | hu
        · exact Instant.le_refl u
        · exact Instant.le_trans hlt (hle u hu)

/-- An instant lies in the leap second before the day that begins at `s`. The time that is left of
it is not counted as time to that day. -/
def Instant.LeapsTo (t : Instant) (s : Int) : Prop :=
  ¬ t.IsPlain ∧ s = t.second + 1 ∧ s % secondsPerDay = 0

/-- The time from an instant to a whole second. -/
theorem since_whole {t o : Instant} (ho : o.nano = 0) : ∃ leap : Int,
    (leap = 1 ∧ t.secondOfDay < o.secondOfDay ∧ ¬ t.IsPlain ∨
      leap = 0 ∧ ¬ (t.secondOfDay < o.secondOfDay ∧ ¬ t.IsPlain)) ∧
    o.since t = (o.second - t.second + leap + -t.nano / 1000000000,
      (-(t.nano : Int) % 1000000000).toNat) := by
  have hwhole : ¬ (o.secondOfDay < t.secondOfDay ∧ o.nano ≥ Instant.nanosPerSecond) := by
    rw [ho]
    exact fun h => absurd h.2 (by decide)
  have hborrow : (o.nano : Int) - t.nano = -t.nano := by omega
  unfold Instant.since
  rw [hborrow]
  by_cases hleap : o.secondOfDay > t.secondOfDay ∧ t.nano ≥ Instant.nanosPerSecond
  · rw [if_pos hleap]
    exact ⟨1, .inl ⟨rfl, hleap.1, Nat.not_lt.2 hleap.2⟩, rfl⟩
  · rw [if_neg hleap, if_neg hwhole]
    exact ⟨0, .inr ⟨rfl, fun h => hleap ⟨h.1, Nat.not_lt.1 h.2⟩⟩, rfl⟩

/-- The time to a later whole second is positive, but for the day after a leap second. -/
theorem since_whole_iff {t o : Instant} (ht : t.IsValid) (ho : o.nano = 0) (h : t < o) :
    0 ≤ (o.since t).1 ∧ (0 < (o.since t).1 ∨ 0 < (o.since t).2) ↔ ¬ t.LeapsTo o.second := by
  obtain ⟨leap, hleap, hsince⟩ := since_whole (t := t) ho
  rw [Instant.lt_iff, ho] at h
  simp only [Instant.secondOfDay, Instant.IsPlain, Instant.nanosPerSecond,
    Instant.secondsPerDay] at hleap
  simp only [Instant.IsValid, Instant.nanosPerSecond] at ht
  simp only [hsince, Instant.LeapsTo, Instant.IsPlain, Instant.nanosPerSecond,
    Instant.secondsPerDay]
  omega

/-- The wait is the time to the first of the instants ahead, if that can be counted. -/
theorem planWake_eq {now soonest : Instant} {next : List (Option Instant)}
    (h : earliest? ((next.filterMap id).filter fun t => decide (now < t)) = some soonest) :
    planWake now next = if (soonest.since now).1 < 0 then none
      else some ⟨(soonest.since now).1.toNat, (soonest.since now).2⟩ := by
  rw [planWake, h]
  rfl

theorem mem_ahead {now o : Instant} {next : List (Option Instant)} :
    (o ∈ (next.filterMap id).filter fun t => decide (now < t)) ↔ some o ∈ next ∧ now < o := by
  simp [List.mem_filter, List.mem_filterMap]

/-- The time to wait for the soonest of the instants ahead. -/
theorem isPositive_wait_iff {now soonest : Instant} (hnow : now.IsValid)
    {next : List (Option Instant)} (hwhole : soonest.nano = 0) (hlt : now < soonest)
    (h : earliest? ((next.filterMap id).filter fun t => decide (now < t)) = some soonest) :
    (∃ after, planWake now next = some after ∧ after.IsPositive) ↔
      ¬ now.LeapsTo soonest.second := by
  rw [← since_whole_iff hnow hwhole hlt, planWake_eq h]
  by_cases hneg : (soonest.since now).1 < 0
  · rw [if_pos hneg]
    constructor
    · rintro ⟨after, hafter, -⟩
      cases hafter
    · exact fun hpos => absurd hpos.1 (Int.not_le.2 hneg)
  · rw [if_neg hneg]
    simp only [Option.some.injEq, exists_eq_left', Duration.IsPositive, Int.lt_toNat,
      Int.not_lt.1 hneg, true_and]
    rfl

/-- A pass waits for a positive time exactly if something was found ahead, and not at the begin of
the day after a leap second. -/
theorem isPositive_planWake_iff {now : Instant} (hnow : now.IsValid) {next : List (Option Instant)}
    (hnext : ∀ o, some o ∈ next → o.nano = 0) :
    (∃ after, planWake now next = some after ∧ after.IsPositive) ↔
      (∃ o, some o ∈ next ∧ now < o) ∧ ∀ o, some o ∈ next → ¬ now.LeapsTo o.second := by
  cases hsoonest : earliest? ((next.filterMap id).filter fun t => decide (now < t)) with
  | none =>
    constructor
    · rintro ⟨after, hafter, -⟩
      rw [planWake, hsoonest] at hafter
      cases hafter
    · rintro ⟨⟨o, ho⟩, -⟩
      obtain ⟨u, hu⟩ := exists_earliest? (mem_ahead.2 ho)
      rw [hsoonest] at hu
      cases hu
  | some soonest =>
    obtain ⟨hin, hlt⟩ := mem_ahead.1 (earliest?_mem hsoonest)
    have hwhole := hnext soonest hin
    rw [isPositive_wait_iff hnow hwhole hlt hsoonest]
    constructor
    · refine fun hnot => ⟨⟨soonest, hin, hlt⟩, fun o ho hleap => hnot ?_⟩
      -- No instant ahead is before the next second, so the soonest one is in it as well.
      have hsecond := hleap.2.1
      have hahead : now < o := .inl (by omega)
      have hle := earliest?_le hsoonest o (mem_ahead.2 ⟨ho, hahead⟩)
      have hsame : soonest.second = o.second := by
        rw [Instant.le_iff] at hle
        rw [Instant.lt_iff, hwhole] at hlt
        omega
      rw [hsame]
      exact hleap
    · exact fun hall => hall.2 soonest hin

/-- The three schedules of a spec. -/
def ScheduleSpec.schedules (spec : ScheduleSpec) : List String :=
  [spec.scaleDown, spec.scaleUp, spec.cleanup]

namespace Pass

/-- The wait is planned from what each of the schedules has next. -/
theorem nextWake_spec {spec : ScheduleSpec} {z : Zone} {now : Instant} {wake : Option Duration}
    (h : nextWake spec z now = .ok wake) :
    ∃ next, wake = planWake now next ∧
      (∀ o, some o ∈ next →
        ∃ schedule ∈ spec.schedules, nextOccurrence schedule z now = .ok (some o)) ∧
      ∀ schedule ∈ spec.schedules, ∃ o ∈ next, nextOccurrence schedule z now = .ok o := by
  unfold nextWake at h
  cases hd : nextOccurrence spec.scaleDown z now with
  | error e =>
    rw [hd] at h
    cases h
  | ok down =>
    cases hu : nextOccurrence spec.scaleUp z now with
    | error e =>
      rw [hd, hu] at h
      cases h
    | ok up =>
      cases hc : nextOccurrence spec.cleanup z now with
      | error e =>
        rw [hd, hu, hc] at h
        cases h
      | ok cleanup =>
        rw [hd, hu, hc] at h
        refine ⟨[down, up, cleanup], (Except.ok.inj h).symm, fun o ho => ?_, fun schedule hs => ?_⟩
        · simp only [List.mem_cons, List.not_mem_nil, or_false] at ho
          rcases ho with rfl | rfl | rfl
          · exact ⟨_, by simp [ScheduleSpec.schedules], hd⟩
          · exact ⟨_, by simp [ScheduleSpec.schedules], hu⟩
          · exact ⟨_, by simp [ScheduleSpec.schedules], hc⟩
        · simp only [ScheduleSpec.schedules, List.mem_cons, List.not_mem_nil, or_false] at hs
          rcases hs with rfl | rfl | rfl
          · exact ⟨down, by simp, hd⟩
          · exact ⟨up, by simp, hu⟩
          · exact ⟨cleanup, by simp, hc⟩

theorem isPositive_shorter {a b : Duration} (ha : a.IsPositive) (hb : b.IsPositive) :
    (a.shorter b).IsPositive := by
  unfold Duration.shorter
  split
  · exact ha
  · exact hb

/-- Something that was found lies ahead, and nothing at the begin of the day after a leap second. -/
def HasNext (spec : ScheduleSpec) (z : Zone) (now : Instant) : Prop :=
  (∃ schedule ∈ spec.schedules, ∃ o, nextOccurrence schedule z now = .ok (some o) ∧ now < o) ∧
  ∀ schedule ∈ spec.schedules, ∀ o, nextOccurrence schedule z now = .ok (some o) →
    ¬ now.LeapsTo o.second

theorem isPositive_nextWake_iff {spec : ScheduleSpec} {z : Zone} {now : Instant}
    {wake : Option Duration} (hnow : now.IsValid) (h : nextWake spec z now = .ok wake) :
    (∃ after, wake = some after ∧ after.IsPositive) ↔ HasNext spec z now := by
  obtain ⟨next, rfl, hsound, hall⟩ := nextWake_spec h
  have hmem (o : Instant) : some o ∈ next ↔
      ∃ schedule ∈ spec.schedules, nextOccurrence schedule z now = .ok (some o) := by
    constructor
    · exact hsound o
    · rintro ⟨schedule, hs, ho⟩
      obtain ⟨o', hin, ho'⟩ := hall schedule hs
      rw [ho] at ho'
      obtain rfl := Except.ok.inj ho'
      exact hin
  have hwhole : ∀ o, some o ∈ next → o.nano = 0 := fun o ho => by
    obtain ⟨schedule, -, hn⟩ := hsound o ho
    exact nano_of_nextOccurrence hn
  rw [isPositive_planWake_iff hnow hwhole]
  constructor
  · rintro ⟨⟨o, ho, hlt⟩, hnot⟩
    obtain ⟨schedule, hs, hnext⟩ := (hmem o).1 ho
    exact ⟨⟨schedule, hs, o, hnext, hlt⟩, fun schedule hs o hnext => hnot o ((hmem o).2
      ⟨schedule, hs, hnext⟩)⟩
  · rintro ⟨⟨schedule, hs, o, hnext, hlt⟩, hnot⟩
    refine ⟨⟨o, (hmem o).2 ⟨schedule, hs, hnext⟩, hlt⟩, fun o ho => ?_⟩
    obtain ⟨schedule, hs, hnext⟩ := (hmem o).1 ho
    exact hnot schedule hs o hnext

section Action
variable {settings : Settings} {wake : Option Duration} {transientFailure : Bool}

theorem action_of_isPositive (h : ∃ after, wake = some after ∧ after.IsPositive) :
    ∃ after, actionOf settings wake transientFailure = .requeue after ∧
      (settings.errorRetry.IsPositive → after.IsPositive) := by
  obtain ⟨after, rfl, hpos⟩ := h
  cases transientFailure with
  | true => exact ⟨_, rfl, fun hretry => isPositive_shorter hpos hretry⟩
  | false => exact ⟨_, rfl, fun _ => hpos⟩

theorem action_of_not_isPositive (h : ¬ ∃ after, wake = some after ∧ after.IsPositive) :
    actionOf settings wake transientFailure = .done ∨
      ∃ after, actionOf settings wake transientFailure = .requeue after ∧
        (after = settings.errorRetry ∨ ¬ after.IsPositive) := by
  cases wake with
  | none =>
    cases transientFailure with
    | true => exact .inr ⟨_, rfl, .inl rfl⟩
    | false => exact .inl rfl
  | some after =>
    have hnot : ¬ after.IsPositive := fun hpos => h ⟨after, rfl, hpos⟩
    cases transientFailure with
    | true =>
      refine .inr ⟨after.shorter settings.errorRetry, rfl, ?_⟩
      unfold Duration.shorter
      split
      · exact .inr hnot
      · exact .inl rfl
    | false => exact .inr ⟨after, rfl, .inr hnot⟩

end Action

end Pass

/-! ## No sleep for good -/

/-- What is found after an instant lies ahead exactly if clocks have not shown its wall time before.
A pass asks to be repeated after a positive time exactly if what lies ahead was found (`HasNext`);
otherwise it is done, unless a failure is tried again. With an occurrence ahead of a wall time that
is shown once, something is found, and it lies ahead if clocks do not repeat themselves in the next
second. This holds whatever zones there are, as long as the one of the spec is steady and its offsets
are short. -/
theorem sleeps_only_without_next {now : Instant} (hnow : now.IsValid) :
    (∀ (text : String) (e : CronExpression) (z : Zone) (o : Instant),
      CronExpression.parse text = .ok e → z.Steady → e.nextAfter z now = .ok (some o) →
      (now < o ↔ ∀ s, s ≤ now.second → z.wallAt s ≠ z.wallAt o.second)) ∧
    ∀ (zones : Zone.Lookup) (registry : Registry) (settings : Settings) (s : Schedule) (ns : String)
      (trace : List Exchange) (action : Action),
      s.metadata.ns = some ns → s.spec.validate zones = .ok () → Instant.epoch ≤ now →
      Runs (reconcile registry settings s now zones).run trace (.ok (.ok action)) →
      ∃ z, Zone.parse s.spec.timeZone zones = .ok z ∧
        (Pass.HasNext s.spec z now → ∃ after, action = .requeue after ∧
          (settings.errorRetry.IsPositive → after.IsPositive)) ∧
        (¬ Pass.HasNext s.spec z now → action = .done ∨ ∃ after, action = .requeue after ∧
          (after = settings.errorRetry ∨ ¬ after.IsPositive)) ∧
        (z.Steady → z.IsShort → ∀ schedule ∈ s.spec.schedules, ∀ (e : CronExpression) (u : Int),
          CronExpression.parse schedule = .ok e → now.second < u → e.cron.FiresOnce z u →
          ∃ o, nextOccurrence schedule z now = .ok (some o) ∧
            (¬ z.Repeats (now.second + 1) → now < o)) := by
  refine ⟨fun text e z o he hz h =>
    CronExpression.lt_next_iff (Cron.ordered_of_parse he) hz hnow h, ?_⟩
  intro zones registry settings s ns trace action hns hv hepoch hrun
  obtain ⟨z, hzone⟩ := zone_of_runs hns hv hrun
  refine ⟨z, hzone, ?_⟩
  rw [reconcile_eq hns hv hzone] at hrun
  obtain ⟨wake, transientFailure, hwake, rfl⟩ := Pass.action_of_runs hrun
  have hiff := Pass.isPositive_nextWake_iff hnow hwake
  refine ⟨fun h => Pass.action_of_isPositive (hiff.2 h),
    fun h => Pass.action_of_not_isPositive (mt hiff.1 h), ?_⟩
  intro hz hshort schedule hs e u he hu hfires
  have hord := Cron.ordered_of_parse he
  have hy : -62000000000 ≤ z.wallAt (now.second + 1) := by
    have hoffset := hshort.offsetAt (now.second + 1)
    rw [Instant.le_iff] at hepoch
    have h0 : Instant.epoch.second = 0 := rfl
    rw [Zone.wallAt]
    omega
  obtain ⟨next, -, -, hall⟩ := Pass.nextWake_spec hwake
  obtain ⟨o, -, ho⟩ := hall schedule hs
  have hnext := ho
  rw [nextOccurrence_eq he] at hnext
  cases o with
  | none => exact absurd hnext (CronExpression.exists_next hord hz hnow hy hu hfires)
  | some o =>
    exact ⟨o, ho, fun hrep => CronExpression.lt_next_of_not_repeats hord hz hnow hnext hrep⟩

/-- At half past two and half past four, on the night that summer time ends in Berlin. -/
def nightTimes : CronExpression where
  text := "0 30 2,4 26 10 * 2025"
  cron :=
    { seconds := [0], minutes := [30], hours := [2, 4], daysOfMonth := [26], months := [10],
      daysOfWeek := Cron.Field.dayOfWeek.values, years := [2025] }

/-- A schedule that has scaled down at 02:30, before the clocks fell back. -/
def nightSchedule : Schedule where
  metadata := { (default : ObjectMeta) with name := some "night", ns := some "shop" }
  spec :=
    { target := some ⟨"web", "shop", "Deployment", "apps/v1"⟩, scaleDown := nightTimes.text,
      scaleUp := "", cleanup := "", cleanupConfig := none, timeZone := "Europe/Berlin" }
  status := some { ScheduleStatus.empty with lastScaleDown := some ⟨1761438600, 0⟩ }

/-- The instant at which summer time ends, an hour before 02:00 is shown again. -/
def summerEnd : Instant := ⟨1761440400, 0⟩

theorem parse_nightTimes : CronExpression.parse nightTimes.text = .ok nightTimes := by
  decide +kernel

theorem parse_berlin : Zone.parse "Europe/Berlin" = .ok Zone.berlin := (rfl)

theorem steady_berlin : Zone.berlin.Steady := by decide +kernel

theorem isShort_berlin : Zone.berlin.IsShort := by decide +kernel

/-- At half past four in the morning clocks do not repeat themselves. -/
theorem firesOnce_nightTimes : nightTimes.cron.FiresOnce Zone.berlin 1761449400 := by
  have hs : Zone.berlin.secondsAt (Zone.berlin.wallAt 1761449400) = [1761449400] := by
    decide +kernel
  refine ⟨by decide +kernel, fun s hw => ?_⟩
  have hm := (Zone.mem_secondsAt steady_berlin).2 hw
  rw [hs] at hm
  exact List.mem_singleton.1 hm

theorem sleeps_only_without_next_berlin :
    (summerEnd < ⟨1761438600, 0⟩ ↔
      ∀ s, s ≤ summerEnd.second → Zone.berlin.wallAt s ≠ Zone.berlin.wallAt 1761438600) ∧
    (∃ o, nextOccurrence nightTimes.text .berlin ⟨1761400000, 0⟩ = .ok (some o)) ∧
    ∃ trace action after, Runs (reconcile [] .default nightSchedule ⟨1761400000, 0⟩).run trace
      (.ok (.ok action)) ∧ action = .requeue after ∧ after.IsPositive := by
  constructor
  · have hnext : nightTimes.nextAfter Zone.berlin summerEnd = .ok (some ⟨1761438600, 0⟩) := by
      decide +kernel
    exact (sleeps_only_without_next (by decide)).1 _ _ _ _ parse_nightTimes steady_berlin hnext
  · have hrun : ((reconcile [] .default nightSchedule ⟨1761400000, 0⟩).run.run MemoryStore.handler
        .empty).1 = .ok (.ok (.requeue ⟨38600, 0⟩)) := by
      decide +kernel
    have h := runs_trace MemoryStore.handler
      (reconcile [] .default nightSchedule ⟨1761400000, 0⟩).run .empty
    rw [hrun] at h
    have hnow : (⟨1761400000, 0⟩ : Instant).IsPlain := by decide
    obtain ⟨z, hz, hnext, -, hahead⟩ := (sleeps_only_without_next hnow.isValid).2 Zone.find? _ _ _ _ _ _
      rfl (by decide +kernel) (by decide) h
    replace hz : Zone.parse "Europe/Berlin" = .ok z := hz
    rw [parse_berlin] at hz
    obtain rfl := Except.ok.inj hz
    have hfound : nextOccurrence nightTimes.text Zone.berlin ⟨1761400000, 0⟩ =
        .ok (some ⟨1761438600, 0⟩) := by
      decide +kernel
    obtain ⟨after, hafter, hpos⟩ := hnext
      ⟨⟨_, List.mem_cons_self, _, hfound, by decide⟩, fun _ _ _ _ hleap => hleap.1 hnow⟩
    obtain ⟨o, ho, -⟩ := hahead steady_berlin isShort_berlin nightTimes.text List.mem_cons_self
      nightTimes 1761449400 parse_nightTimes (by decide) firesOnce_nightTimes
    exact ⟨⟨o, ho⟩, _, _, after, h, hafter, hpos (.inl (by decide))⟩

/-- After summer time ended, what is found is half past two of the hour before, which has passed;
the pass comes to `Action.done`, with half past four ahead. -/
theorem done_before_occurrence :
    nightTimes.nextAfter Zone.berlin summerEnd = .ok (some ⟨1761438600, 0⟩) ∧
    ¬ summerEnd < ⟨1761438600, 0⟩ ∧
    nightSchedule.spec.validate = .ok () ∧ summerEnd.second < 1761449400 ∧
    nightTimes.cron.FiresOnce Zone.berlin 1761449400 ∧
    ∃ trace, Runs (reconcile [] .default nightSchedule summerEnd).run trace (.ok (.ok .done)) := by
  refine ⟨by decide +kernel, by decide, by decide +kernel, by decide, firesOnce_nightTimes, ?_⟩
  have hrun : ((reconcile [] .default nightSchedule summerEnd).run.run MemoryStore.handler
      .empty).1 = .ok (.ok .done) := by
    decide +kernel
  rw [← hrun]
  exact ⟨_, runs_trace MemoryStore.handler _ .empty⟩

end ScheduledScaling
