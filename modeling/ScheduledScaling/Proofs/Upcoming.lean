import ScheduledScaling.Proofs.Footprints
import ScheduledScaling.Proofs.Retries
/-!
# The wait is exact

In a zone of one offset, a pass waits for the first occurrence that lies ahead of any of the schedules,
to the nanosecond, and it has no next pass if there is none. Only a step that failed in a way that may
pass cuts the wait short: `wakes_at_first_occurrence`.
-/
namespace ScheduledScaling

open Program

/-- A length of time is the time from an instant to a whole second. -/
def Duration.Spans (d : Duration) (t : Instant) (o : Int) : Prop :=
  d.nanos < 1000000000 ∧
    (d.seconds : Int) * 1000000000 + d.nanos = (o - t.second) * 1000000000 - t.nano

/-- The occurrences of a written schedule after an instant. -/
def upcoming (schedule : String) (z : Zone) (now : Instant) : Set Int :=
  {o | ∃ e, CronExpression.parse schedule = .ok e ∧ e.cron.OccursAt z o ∧ now < ⟨o, 0⟩}

/-- The occurrences of any of the schedules of a spec after an instant. -/
def ScheduleSpec.upcoming (spec : ScheduleSpec) (z : Zone) (now : Instant) : Set Int :=
  {o | ∃ schedule ∈ spec.schedules, o ∈ ScheduledScaling.upcoming schedule z now}

/-! ## The search -/

section
variable {schedule : String} {spec : ScheduleSpec} {z : Zone} {now : Instant}

/-- What is found next is the first occurrence ahead, and nothing is found only if there is none. -/
theorem nextOccurrence_spec {next : Option Instant} (hz : z.IsConstant) (hplain : now.IsPlain)
    (hnow : .epoch ≤ now) (h : nextOccurrence schedule z now = .ok next) :
    (∃ o, next = some ⟨o, 0⟩ ∧ IsLeast (upcoming schedule z now) o) ∨
      next = none ∧ upcoming schedule z now = ∅ := by
  cases he : CronExpression.parse schedule with
  | error x =>
    rw [nextOccurrence_of_unreadable he] at h
    refine .inr ⟨(Except.ok.inj h).symm, Set.eq_empty_iff_forall_notMem.2 ?_⟩
    rintro o ⟨e, he', -⟩
    cases he.symm.trans he'
  | ok e =>
    have hord := Cron.ordered_of_parse he
    have hmax : now.second < Instant.maxSecond := by
      by_contra hle
      rw [nextOccurrence_of_maxSecond_le he hplain (Int.not_lt.1 hle)] at h
      cases h
    have hlow : (0 : Int) ≤ now.second := Instant.whole_le.1 hnow
    have hahead : upcoming schedule z now = {s | e.cron.Fires z s ∧ now.second < s} := by
      ext o
      simp only [upcoming, Set.mem_ofPred_eq, he, Except.ok.injEq, exists_eq_left',
        Cron.occursAt_iff hord, Instant.lt_whole]
    rw [nextOccurrence_eq he] at h
    rw [hahead]
    rcases CronExpression.nextAfter_spec hord hz ⟨hplain, by omega, hmax⟩ with
      ⟨o, ho, hleast⟩ | ⟨hnone, hall⟩
    · exact .inl ⟨o, Except.ok.inj (h.symm.trans ho), hleast⟩
    · refine .inr ⟨Except.ok.inj (h.symm.trans hnone), Set.eq_empty_iff_forall_notMem.2 ?_⟩
      exact fun o ho => hall o ho.1 ho.2

/-- Outside leap seconds, the time to a later whole second is counted in full. -/
theorem spans_since {o : Int} (hplain : now.IsPlain) (hlt : now < ⟨o, 0⟩) :
    0 ≤ ((⟨o, 0⟩ : Instant).since now).1 ∧
      Duration.Spans ⟨((⟨o, 0⟩ : Instant).since now).1.toNat, ((⟨o, 0⟩ : Instant).since now).2⟩
        now o := by
  obtain ⟨leap, ⟨-, -, hnot⟩ | ⟨rfl, -⟩, hsince⟩ := since_whole (t := now) (o := ⟨o, 0⟩) rfl
  · exact absurd hplain hnot
  · rw [Instant.lt_whole] at hlt
    simp only [Instant.IsPlain, Instant.nanosPerSecond] at hplain
    simp only [hsince, Duration.Spans]
    omega

/-- The wait that is planned from what was found is the time to the first instant ahead, if what was
found has the first one of those ahead. -/
theorem planWake_spec {next : List (Option Instant)} {ahead : Set Int} (hplain : now.IsPlain)
    (hsound : ∀ o, some o ∈ next → ∃ u ∈ ahead, o = ⟨u, 0⟩)
    (hahead : ∀ u ∈ ahead, now < ⟨u, 0⟩)
    (hfirst : ∀ u ∈ ahead, ∃ o ≤ u, some ⟨o, 0⟩ ∈ next) :
    (∃ o w, planWake now next = some w ∧ w.Spans now o ∧ IsLeast ahead o) ∨
      planWake now next = none ∧ ahead = ∅ := by
  cases hsoonest : earliest? ((next.filterMap id).filter fun t => decide (now < t)) with
  | none =>
    refine .inr ⟨by rw [planWake, hsoonest]; rfl, Set.eq_empty_iff_forall_notMem.2 fun u hu => ?_⟩
    obtain ⟨o, -, ho⟩ := hfirst u hu
    obtain ⟨v, hv, heq⟩ := hsound _ ho
    obtain ⟨t, ht⟩ := exists_earliest? (mem_ahead.2 ⟨ho, heq ▸ hahead v hv⟩)
    cases hsoonest.symm.trans ht
  | some soonest =>
    obtain ⟨hin, hlt⟩ := mem_ahead.1 (earliest?_mem hsoonest)
    obtain ⟨o, ho, rfl⟩ := hsound soonest hin
    obtain ⟨hnonneg, hspans⟩ := spans_since hplain hlt
    refine .inl ⟨o, _, ?_, hspans, ho, fun u hu => ?_⟩
    · rw [planWake_eq hsoonest, if_neg (Int.not_lt.2 hnonneg)]
    · -- what was found up to `u` lies ahead too, so it is not before the soonest
      obtain ⟨v, hle, hv⟩ := hfirst u hu
      obtain ⟨v', hv', heq⟩ := hsound _ hv
      have hsoon := earliest?_le hsoonest ⟨v, 0⟩ (mem_ahead.2 ⟨hv, heq ▸ hahead v' hv'⟩)
      exact (Instant.whole_le.1 hsoon).trans hle

/-- The wait of a pass is the time to the first occurrence ahead of any of its schedules. -/
theorem nextWake_isLeast {wake : Option Duration} (hz : z.IsConstant) (hplain : now.IsPlain)
    (hnow : .epoch ≤ now) (h : Pass.nextWake spec z now = .ok wake) :
    (∃ o w, wake = some w ∧ w.Spans now o ∧ IsLeast (spec.upcoming z now) o) ∨
      wake = none ∧ spec.upcoming z now = ∅ := by
  obtain ⟨next, rfl, hsound, hall⟩ := Pass.nextWake_spec h
  apply planWake_spec hplain
  · intro o ho
    obtain ⟨schedule, hs, hnext⟩ := hsound o ho
    rcases nextOccurrence_spec hz hplain hnow hnext with ⟨u, hu, hleast⟩ | ⟨hnone, -⟩
    · exact ⟨u, ⟨schedule, hs, hleast.1⟩, Option.some.inj hu⟩
    · cases hnone
  · rintro u ⟨schedule, -, e, -, -, hlt⟩
    exact hlt
  · rintro u ⟨schedule, hs, hu⟩
    obtain ⟨next', hmem, hnext⟩ := hall schedule hs
    rcases nextOccurrence_spec hz hplain hnow hnext with ⟨o, rfl, hleast⟩ | ⟨-, hempty⟩
    · exact ⟨o, hleast.2 hu, hmem⟩
    · rw [hempty] at hu
      exact absurd hu (Set.notMem_empty u)

end

/-! ## What has failed -/

namespace Pass
variable {registry : Registry} {settings : Settings} {s : Schedule} {ns : String} {z : Zone}
  {now : Instant} {trace : List Exchange}

/-- A step of a pass with these calls has failed: the planned scaling, with which they begin, or the
cleanup after it. A list or a delete that fails is noted in the report of the cleanup, which goes on. -/
inductive StepFails (registry : Registry) (s : Schedule) (ns : String) (z : Zone) (now : Instant)
    (trace : List Exchange) (e : Failure) : Prop
  | scaling {direction supersedes} :
    Attempts s.spec z s.recorded now trace direction supersedes (.error e) →
    StepFails registry s ns z now trace e
  | cleanup {scaled first middle last} : trace = first ++ (middle ++ last) →
    Runs (scalingOf s z now) first (.ok scaled) →
    Runs (cleanupOf registry s ns z now) middle (.ok (some (.error e))) →
    StepFails registry s ns z now trace e

/-- A step of a pass with these calls has failed in a way that may pass. -/
def FailsTransiently (registry : Registry) (s : Schedule) (ns : String) (z : Zone) (now : Instant)
    (trace : List Exchange) : Prop :=
  ∃ e, StepFails registry s ns z now trace e ∧ e.isTransient = true

/-- The scaling notes a failure that may pass exactly if it has failed so. -/
theorem transientFailure_of_runScaling {first : List Exchange} {scaled : Progress}
    (h : Runs (scalingOf s z now) first (.ok scaled)) (rest : List Exchange) :
    scaled.transientFailure = true ↔ ∃ direction supersedes e,
      Attempts s.spec z s.recorded now (first ++ rest) direction supersedes (.error e) ∧
        e.isTransient = true := by
  rcases runs_runScaling h with ⟨rfl, hnot⟩ | ⟨target, direction, supersedes, f, observed, hplans,
    rfl, ⟨e, hrun, -, rfl⟩ | ⟨outcome, replicas, hrun, -, rfl⟩⟩
  · -- nothing is planned
    refine iff_of_false (by simp [Progress.start]) ?_
    rintro ⟨direction, supersedes, e, ⟨target, _, _, hplans, -⟩, -⟩
    exact hnot target direction supersedes hplans
  · -- what is planned fails
    have hattempts : Attempts s.spec z s.recorded now (f ++ observed ++ rest) direction supersedes
        (.error e) := ⟨target, f, _, hplans, List.append_assoc .., hrun⟩
    constructor
    · intro htransient
      exact ⟨direction, supersedes, e, hattempts, by simpa [Progress.fail, Progress.start] using
        htransient⟩
    · rintro ⟨direction', supersedes', e', hfails, htransient⟩
      obtain ⟨-, -, hresult⟩ := hattempts.unique hfails
      obtain rfl := Except.error.inj hresult
      simp [Progress.fail, htransient]
  · -- what is planned succeeds
    have hattempts : Attempts s.spec z s.recorded now (f ++ observed ++ rest) direction supersedes
        (.ok outcome) := ⟨target, f, _, hplans, List.append_assoc .., hrun⟩
    refine iff_of_false (by simp [Progress.succeed, Progress.start]) ?_
    rintro ⟨direction', supersedes', e, hfails, -⟩
    cases (hattempts.unique hfails).2.2

/-- After its two steps a pass has noted a failure that may pass exactly if one of them has failed
so. -/
theorem transientFailure_iff {first middle : List Exchange} {scaled progress : Progress}
    (last : List Exchange) (hscaled : Runs (scalingOf s z now) first (.ok scaled))
    (hprogress : Runs (runCleanup registry s.spec z ns s.recorded now scaled) middle
      (.ok progress)) :
    progress.transientFailure = true ↔
      FailsTransiently registry s ns z now (first ++ (middle ++ last)) := by
  obtain ⟨result, hcleanup, hnoted⟩ := runs_runCleanup.1 hprogress
  cases result with
  | error x => cases hnoted
  | ok result =>
    obtain rfl := Except.ok.inj hnoted
    have hscaling := transientFailure_of_runScaling hscaled (middle ++ last)
    -- the answers decide what the cleanup comes to
    have hcleanups {e : Failure} : (∃ scaled' first' middle' last',
        first ++ (middle ++ last) = first' ++ (middle' ++ last') ∧
          Runs (scalingOf s z now) first' (.ok scaled') ∧
          Runs (cleanupOf registry s ns z now) middle' (.ok (some (.error e)))) ↔
        result = some (.error e) := by
      constructor
      · rintro ⟨scaled', first', middle', last', heq, hscaled', hcleanup'⟩
        obtain ⟨rfl, -⟩ := hscaled.unique hscaled' heq
        obtain ⟨-, hresult⟩ := hcleanup.unique hcleanup' (List.append_cancel_left heq)
        exact Except.ok.inj hresult
      · rintro rfl
        exact ⟨scaled, first, middle, last, rfl, hscaled, hcleanup⟩
    have hfails : FailsTransiently registry s ns z now (first ++ (middle ++ last)) ↔
        scaled.transientFailure = true ∨ ∃ e, result = some (.error e) ∧ e.isTransient = true := by
      rw [hscaling]
      constructor
      · rintro ⟨e, hattempts | ⟨heq, hscaled', hcleanup'⟩, htransient⟩
        · exact .inl ⟨_, _, e, hattempts, htransient⟩
        · exact .inr ⟨e, hcleanups.1 ⟨_, _, _, _, heq, hscaled', hcleanup'⟩, htransient⟩
      · rintro (⟨_, _, e, hattempts, htransient⟩ | ⟨e, hresult, htransient⟩)
        · exact ⟨e, .scaling hattempts, htransient⟩
        · obtain ⟨_, _, _, _, heq, hscaled', hcleanup'⟩ := hcleanups.2 hresult
          exact ⟨e, .cleanup heq hscaled' hcleanup', htransient⟩
    rw [hfails]
    rcases result with _ | ⟨e⟩ | ⟨report⟩
    · simp [noted]
    · simp [noted, Progress.fail]
    · simp [noted, Progress.succeed]

/-- A pass that comes to an action has planned its wait, and has noted whether a step failed in a way
that may pass. -/
theorem exists_wake_of_runs {action : Action}
    (h : Runs (runSteps registry settings s ns z now).run trace (.ok (.ok action))) :
    ∃ wake transientFailure, nextWake s.spec z now = .ok wake ∧
      (transientFailure = true ↔ FailsTransiently registry s ns z now trace) ∧
      action = actionOf settings wake transientFailure := by
  rcases runs_runSteps h with ⟨e, he, -⟩ | ⟨scaled, first, rest, rfl, hscaled, ⟨e, he, -⟩ |
    ⟨progress, middle, last, written, rfl, hprogress, -, hr⟩⟩
  · cases he
  · cases he
  · cases written with
    | error e => cases hr
    | ok u =>
      cases hwake : nextWake s.spec z now with
      | error x =>
        rw [hwake] at hr
        cases hr
      | ok wake =>
        rw [hwake] at hr
        cases hr
        exact ⟨wake, _, rfl, transientFailure_iff last hscaled hprogress, rfl⟩

end Pass

/-! ## The pass -/

open Pass

/-- In a zone of one offset, a pass that comes to an action waits for the first occurrence that any of
the schedules has after it, for exactly the time to it, and is done if there is none. After a failure
that may pass it waits no longer than the retry time; any other failure leaves the wait as it is. -/
theorem wakes_at_first_occurrence {zones : Zone.Lookup} {registry : Registry} {settings : Settings}
    {s : Schedule} {ns : String} {z : Zone} {now : Instant} {trace : List Exchange} {action : Action}
    (hns : s.metadata.ns = some ns) (hv : s.spec.validate zones = .ok ())
    (hparse : Zone.parse s.spec.timeZone zones = .ok z) (hz : z.IsConstant)
    (hplain : now.IsPlain) (hnow : .epoch ≤ now)
    (h : Runs (reconcile registry settings s now zones).run trace (.ok (.ok action))) :
    (∃ o wait, IsLeast (s.spec.upcoming z now) o ∧ wait.Spans now o ∧
        (¬ FailsTransiently registry s ns z now trace → action = .requeue wait) ∧
        (FailsTransiently registry s ns z now trace →
          action = .requeue (wait.shorter settings.errorRetry))) ∨
      s.spec.upcoming z now = ∅ ∧
        (¬ FailsTransiently registry s ns z now trace → action = .done) ∧
        (FailsTransiently registry s ns z now trace → action = .requeue settings.errorRetry) := by
  rw [reconcile_eq hns hv hparse] at h
  obtain ⟨wake, transientFailure, hwake, hfails, rfl⟩ := exists_wake_of_runs h
  rw [← hfails]
  rcases nextWake_isLeast hz hplain hnow hwake with
    ⟨o, wait, rfl, hspans, hleast⟩ | ⟨rfl, hempty⟩
  · refine .inl ⟨o, wait, hleast, hspans, ?_⟩
    cases transientFailure <;> simp [actionOf]
  · refine .inr ⟨hempty, ?_⟩
    cases transientFailure <;> simp [actionOf]

/-- Half a second into the evening. -/
def lateEvening : Instant := ⟨1741645800, 500000000⟩

/-- The pass at that time without a workload to scale. -/
def missedLate : PassRecord := passOver Zone.find? [] nightly .empty lateEvening .empty

/-- It waits for half a minute, and not until the morning. -/
theorem wakes_at_first_occurrence_missed :
    missedLate.result = .ok (.ok (.requeue ⟨30, 0⟩)) ∧
      FailsTransiently [] { nightly with status := some .empty } "shop" .utc lateEvening
        missedLate.trace ∧
      ∃ o wait, IsLeast (nightly.spec.upcoming .utc lateEvening) o ∧
        Duration.Spans wait lateEvening o ∧ wait.shorter (.ofSeconds 30) = ⟨30, 0⟩ := by
  have hresult : missedLate.result = .ok (.ok (.requeue ⟨30, 0⟩)) := by decide +kernel
  have hruns : Runs (reconcile [] .default { nightly with status := some .empty } lateEvening).run
      missedLate.trace missedLate.result := runs_trace MemoryStore.handler _ _
  rw [hresult] at hruns
  rcases wakes_at_first_occurrence (s := { nightly with status := some .empty }) rfl
    validate_nightly parse_utc Zone.isConstant_utc (by decide) (by decide) hruns with
    ⟨o, wait, hleast, hspans, hlong, hshort⟩ | ⟨hempty, -⟩
  · have hfails : FailsTransiently [] { nightly with status := some .empty } "shop" .utc lateEvening
        missedLate.trace := by
      by_contra hnot
      -- no occurrence is a whole number of seconds away
      obtain rfl := Action.requeue.inj (hlong hnot)
      simp only [Duration.Spans, lateEvening] at hspans
      omega
    exact ⟨hresult, hfails, o, wait, hleast, hspans, (Action.requeue.inj (hshort hfails)).symm⟩
  · have hread : CronExpression.parse nightly.spec.scaleUp = .ok nightlyUp := by decide +kernel
    have hmorning : 1741672800 ∈ nightly.spec.upcoming .utc lateEvening :=
      ⟨nightly.spec.scaleUp, by simp [ScheduleSpec.schedules], nightlyUp, hread,
        (Cron.occursAt_iff (Cron.ordered_of_parse hread)).2 (by decide +kernel), by decide⟩
    change nightly.spec.upcoming .utc lateEvening = ∅ at hempty
    rw [hempty] at hmorning
    exact absurd hmorning (Set.notMem_empty _)

end ScheduledScaling
