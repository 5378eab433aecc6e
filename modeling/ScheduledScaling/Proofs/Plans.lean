import ScheduledScaling.Proofs.Due
import ScheduledScaling.Proofs.Timestamps
/-!
# Plans as time goes on

Whether an action is due changes in one direction: what is due stays due until its last run is
recorded (`isDue_of_le`), and what is not due, or has been recorded, becomes due only when an
occurrence comes (`not_due_of_quiet`, `not_due_of_recorded`). So a plan that is not idle is not idle
later (`planScaling_of_le`).
-/
namespace ScheduledScaling

/-! ## Instants -/

namespace Instant
variable {t : Instant}

theorem IsNamed.isValid (h : t.IsNamed) : t.IsValid := by
  rcases h.leap with hplain | ⟨-, hnano⟩
  · exact hplain.isValid
  · exact hnano

theorem IsNamed.bounds (h : t.IsNamed) : minSecond ≤ t.second ∧ t.second ≤ maxSecond := by
  have hrange := h.inRange
  simp only [Instant.inRange, Bool.and_eq_true, decide_eq_true_eq] at hrange
  exact hrange

theorem IsOrdinary.isNamed (h : t.IsOrdinary) : t.IsNamed := by
  obtain ⟨hplain, hlow, hhigh⟩ := h
  refine ⟨?_, .inl hplain⟩
  rw [Instant.inRange, Bool.and_eq_true, decide_eq_true_eq, decide_eq_true_eq, minSecond_eq]
  omega

/-- Going back some seconds from an instant: the time that is left of a leap second counts. -/
theorem shift_back (ht : t.IsValid) {n : Nat} (hn : 0 < n) :
    (t.shift (-(n : Int)) 0).IsPlain ∧ t.second - n ≤ (t.shift (-(n : Int)) 0).second ∧
      (t.shift (-(n : Int)) 0).second ≤ t.second - n + 1 := by
  obtain ⟨hleast, hmost⟩ := t.backFrom_bounds
  rw [shift_neg ht hn]
  refine ⟨Nat.mod_lt _ (by decide), ?_, ?_⟩ <;> simp only <;> omega

end Instant

/-- The last run of an action, or the beginning of 1970, can be written. -/
theorem isNamed_getD {last : Option Instant} (h : ∀ t ∈ last, t.IsNamed) :
    (last.getD .epoch).IsNamed := by
  cases last with
  | none => exact ⟨by decide, .inl (by decide)⟩
  | some t => exact h t rfl

/-! ## What is due -/

section Due
variable {schedule : String} {z : Zone} {last : Option Instant} {now later : Instant} {due : Bool}

/-- What is due is told by the next occurrence after the last run. -/
theorem isDue_eq_ok_iff : isDue schedule z last now = .ok due ↔
    ∃ next, nextOccurrence schedule z (last.getD .epoch) = .ok next ∧
      due = next.any fun t => decide (t ≤ now) := by
  unfold isDue
  cases nextOccurrence schedule z (last.getD .epoch) with
  | error x =>
    constructor
    · intro h
      cases h
    · rintro ⟨next, h, -⟩
      cases h
  | ok next =>
    constructor
    · intro h
      exact ⟨next, rfl, (Except.ok.inj h).symm⟩
    · rintro ⟨next', h, rfl⟩
      rw [← Except.ok.inj h]
      rfl

/-- What is due stays due while its last run is the same. -/
theorem isDue_of_le (h : isDue schedule z last now = .ok due) (hle : now ≤ later) :
    ∃ due', isDue schedule z last later = .ok due' ∧ (due = true → due' = true) := by
  obtain ⟨next, hnext, rfl⟩ := isDue_eq_ok_iff.1 h
  refine ⟨_, isDue_eq_ok_iff.2 ⟨next, hnext, rfl⟩, fun hdue => ?_⟩
  rw [Option.any_eq_true] at hdue ⊢
  obtain ⟨o, ho, hpast⟩ := hdue
  rw [decide_eq_true_eq] at hpast
  exact ⟨o, ho, decide_eq_true (Instant.le_trans hpast hle)⟩

/-- What is due has an occurrence behind it, the next one after its last run. -/
theorem occurrence_of_due (hz : z.Steady) (hlast : (last.getD .epoch).IsValid)
    (h : isDue schedule z last now = .ok true) :
    ∃ e s, CronExpression.parse schedule = .ok e ∧
      nextOccurrence schedule z (last.getD .epoch) = .ok (some ⟨s, 0⟩) ∧
      e.cron.IsNext z (z.wallAt ((last.getD .epoch).second + 1)) s ∧ (⟨s, 0⟩ : Instant) ≤ now := by
  obtain ⟨next, hnext, hdue⟩ := isDue_eq_ok_iff.1 h
  obtain ⟨⟨second, nano⟩, rfl, hpast⟩ := (Option.any_eq_true _ _).1 hdue.symm
  rw [decide_eq_true_eq] at hpast
  cases he : CronExpression.parse schedule with
  | error x =>
    unfold nextOccurrence at hnext
    rw [he] at hnext
    split at hnext <;> cases hnext
  | ok e =>
    have hfound := hnext
    rw [nextOccurrence_eq he] at hfound
    obtain ⟨hnano, hisNext⟩ :=
      CronExpression.nextAfter_some (Cron.ordered_of_parse he) hz hlast hfound
    obtain rfl : nano = 0 := hnano
    exact ⟨e, second, rfl, hnext, hisNext, hpast⟩

/-- Nothing is due before the first day of the calendar of schedules. -/
theorem low_of_due (hz : z.Steady) (hshort : z.IsShort) (hlast : (last.getD .epoch).IsValid)
    (h : isDue schedule z last now = .ok true) : -86400 < now.second := by
  obtain ⟨e, s, -, -, hnext, hpast⟩ := occurrence_of_due hz hlast h
  have hwall := hnext.fires.nonneg
  have hoff := hshort.offsetAt s
  rw [Zone.wallAt] at hwall
  rw [Instant.whole_le] at hpast
  omega

/-- A schedule has no occurrence after one instant, up to another. -/
def IsQuiet (schedule : String) (z : Zone) (now later : Instant) : Prop :=
  ∀ e o, CronExpression.parse schedule = .ok e → e.cron.OccursAt z o → now < ⟨o, 0⟩ →
    ¬ (⟨o, 0⟩ : Instant) ≤ later

/-- In a zone of one offset, a schedule is quiet up to its next occurrence. -/
theorem isQuiet_of_nextOccurrence {next : Option Instant} (hz : z.IsConstant)
    (hnow : now.IsOrdinary) (h : nextOccurrence schedule z now = .ok next)
    (hlater : ∀ o ∈ next, later < o) : IsQuiet schedule z now later := by
  intro e o he hoccurs hlt hle
  rw [Instant.lt_whole] at hlt
  have hord := Cron.ordered_of_parse he
  have hfires := (Cron.occursAt_iff hord).1 hoccurs
  rw [nextOccurrence_eq he] at h
  rcases CronExpression.nextAfter_spec hord hz hnow with ⟨first, hfirst, hleast⟩ | ⟨-, hnone⟩
  · obtain rfl := Except.ok.inj (h.symm.trans hfirst)
    have hfirstLater := hlater _ rfl
    have hbefore : first ≤ o := hleast.2 ⟨hfires, hlt⟩
    rw [Instant.lt_whole] at hfirstLater
    rw [Instant.whole_le] at hle
    omega
  · exact hnone o hfires hlt

/-- What is not due stays so until an occurrence comes. -/
theorem not_due_of_quiet (hz : z.Steady) (hlast : (last.getD .epoch).IsValid)
    (hquiet : IsQuiet schedule z now later) (h : isDue schedule z last now = .ok false) :
    isDue schedule z last later ≠ .ok true := by
  intro hdue
  obtain ⟨e, s, he, hnext, hisNext, hpast⟩ := occurrence_of_due hz hlast hdue
  have hoccurs := (Cron.occursAt_iff (Cron.ordered_of_parse he)).2 hisNext.fires
  refine hquiet e s he hoccurs (Instant.lt_iff_not_le.2 fun hle => ?_) hpast
  -- the occurrence would have been found to be due before
  have hbefore := isDue_eq_ok_iff.2 ⟨_, hnext, rfl⟩ |>.symm.trans h
  rw [Option.any_some, decide_eq_true hle] at hbefore
  cases hbefore

/-- In a zone of one offset, what was recorded is not due until an occurrence comes. -/
theorem not_due_of_recorded {t : Instant} (hz : z.IsConstant) (ht : t.IsValid) (hle : now ≤ t)
    (hquiet : IsQuiet schedule z now later) : isDue schedule z (some t) later ≠ .ok true := by
  intro hdue
  have hlast : ((some t).getD Instant.epoch).IsValid := ht
  obtain ⟨e, s, he, -, hisNext, hpast⟩ := occurrence_of_due hz.steady hlast hdue
  have hoccurs := (Cron.occursAt_iff (Cron.ordered_of_parse he)).2 hisNext.fires
  refine hquiet e s he hoccurs ?_ hpast
  -- where clocks are never changed, what comes next on the clock comes next in time
  have hstart := hisNext.start_le
  rw [hz.wallAt, hz.wallAt, Option.getD_some] at hstart
  rw [Instant.lt_whole]
  rw [Instant.le_iff] at hle
  omega

end Due

/-! ## What is planned -/

/-- Scaling down was due when the plan was made. -/
def ScalingPlan.downDue : ScalingPlan → Bool
  | idle => false
  | scaleDown _ => true
  | scaleUp supersedes => supersedes

/-- Scaling up was due when the plan was made. -/
def ScalingPlan.upDue : ScalingPlan → Bool
  | idle => false
  | scaleDown supersedes => supersedes
  | scaleUp _ => true

section Plan
variable {down up : String} {z : Zone} {lastDown lastUp : Option Instant} {now later : Instant}
  {plan : ScalingPlan}

/-- When both actions are due, their last occurrences decide. -/
theorem planScaling_of_due (hdown : isDue down z lastDown now = .ok true)
    (hup : isDue up z lastUp now = .ok true) :
    planScaling down up z lastDown lastUp now = (do
      let lastDownAt ← latestOccurrence down z now
      let lastUpAt ← latestOccurrence up z now
      return if isLater lastUpAt lastDownAt then .scaleUp true else .scaleDown true) := by
  unfold planScaling
  rw [hdown, hup]
  rfl

/-- Steps in a row that come to a result have each come to one. -/
theorem exists_of_bind_ok {α β : Type} {x : Except Overflow α} {f : α → Except Overflow β} {b : β}
    (h : (x >>= f) = .ok b) : ∃ a, x = .ok a ∧ f a = .ok b := by
  cases x with
  | error e => cases h
  | ok a => exact ⟨a, rfl, h⟩

/-- A plan tells what is due. -/
theorem due_of_planScaling (h : planScaling down up z lastDown lastUp now = .ok plan) :
    isDue down z lastDown now = .ok plan.downDue ∧ isDue up z lastUp now = .ok plan.upDue := by
  unfold planScaling at h
  obtain ⟨downDue, hdown, h⟩ := exists_of_bind_ok h
  obtain ⟨upDue, hup, h⟩ := exists_of_bind_ok h
  rw [hdown, hup]
  cases downDue with
  | false =>
    cases upDue with
    | false =>
      cases h
      exact ⟨rfl, rfl⟩
    | true =>
      cases h
      exact ⟨rfl, rfl⟩
  | true =>
    cases upDue with
    | false =>
      cases h
      exact ⟨rfl, rfl⟩
    | true =>
      -- both are due, and their last occurrences decide which of the two plans this is
      obtain ⟨lastDownAt, -, h⟩ := exists_of_bind_ok h
      obtain ⟨lastUpAt, -, h⟩ := exists_of_bind_ok h
      rw [← Except.ok.inj h]
      by_cases hlater : isLater lastUpAt lastDownAt = true
      · rw [if_pos hlater]
        exact ⟨rfl, rfl⟩
      · rw [if_neg hlater]
        exact ⟨rfl, rfl⟩

/-- A plan is made unless both actions are due and looking for their last occurrences leaves the
range of times. -/
theorem exists_planScaling {downDue upDue : Bool} (hdown : isDue down z lastDown now = .ok downDue)
    (hup : isDue up z lastUp now = .ok upDue)
    (hlatest : downDue = true → ∀ schedule, ∃ o, latestOccurrence schedule z now = .ok o) :
    ∃ plan, planScaling down up z lastDown lastUp now = .ok plan := by
  by_cases hboth : downDue = true ∧ upDue = true
  · obtain ⟨rfl, rfl⟩ := hboth
    obtain ⟨lastDownAt, hlastDown⟩ := hlatest rfl down
    obtain ⟨lastUpAt, hlastUp⟩ := hlatest rfl up
    rw [planScaling_of_due hdown hup, hlastDown, hlastUp]
    exact ⟨_, rfl⟩
  · unfold planScaling
    rw [hdown, hup]
    cases downDue <;> cases upDue <;> first | exact absurd ⟨rfl, rfl⟩ hboth | exact ⟨_, rfl⟩

/-- A plan is idle exactly if nothing is due. -/
theorem eq_idle_iff : plan = .idle ↔ plan.downDue = false ∧ plan.upDue = false := by
  cases plan with
  | idle => exact iff_of_true rfl ⟨rfl, rfl⟩
  | scaleDown supersedes => exact iff_of_false nofun nofun
  | scaleUp supersedes => exact iff_of_false nofun nofun

/-- The search for the last occurrence ends if it does not begin near the beginning of time. -/
theorem exists_latestOccurrence (hnow : now.IsNamed) (hlow : -86400 < now.second)
    (schedule : String) : ∃ o, latestOccurrence schedule z now = .ok o := by
  unfold latestOccurrence
  split
  · exact ⟨none, rfl⟩
  rename_i e _
  have hwindows : ∀ window ∈ CronExpression.lookback,
      1 < window ∧ window ≤ CronExpression.maxLookback := by decide
  unfold CronExpression.latestAtOrBefore
  generalize CronExpression.lookback = windows at hwindows
  induction windows with
  | nil => exact ⟨none, rfl⟩
  | cons window wider ih =>
    obtain ⟨⟨hpos, hmost⟩, hwider⟩ := List.forall_mem_cons.1 hwindows
    obtain ⟨hplain, hleast, hnear⟩ := Instant.shift_back hnow.isValid (n := window) (by omega)
    have hmax : CronExpression.maxLookback = 253670400 := rfl
    have hhigh := hnow.bounds.2
    rw [Instant.maxSecond_eq] at hhigh
    have hminus : now.minusSeconds window = .ok (now.shift (-(window : Int)) 0) := by
      refine if_pos ?_
      rw [Instant.inRange, Instant.minSecond_eq, Instant.maxSecond_eq, Bool.and_eq_true,
        decide_eq_true_eq, decide_eq_true_eq]
      omega
    have hplus := Instant.plus_eq hplain (n := 1) (by rw [Instant.minSecond_eq]; omega)
      (by rw [Instant.maxSecond_eq]; omega)
    simp only [CronExpression.latestWithin, bind, Except.bind, hminus, hplus]
    split
    · exact ⟨_, rfl⟩
    · exact ih hwider

/-- A plan that is not idle is not idle later, while nothing is recorded. -/
theorem planScaling_of_le (hz : z.Steady) (hshort : z.IsShort)
    (hlastDown : (lastDown.getD .epoch).IsValid) (hlater : later.IsNamed) (hle : now ≤ later)
    (h : planScaling down up z lastDown lastUp now = .ok plan) (hplan : plan ≠ .idle) :
    ∃ plan', planScaling down up z lastDown lastUp later = .ok plan' ∧ plan' ≠ .idle := by
  obtain ⟨hdown, hup⟩ := due_of_planScaling h
  obtain ⟨downDue, hdown', hdownStays⟩ := isDue_of_le hdown hle
  obtain ⟨upDue, hup', hupStays⟩ := isDue_of_le hup hle
  obtain ⟨plan', hplan'⟩ := exists_planScaling hdown' hup' fun hdue =>
    exists_latestOccurrence hlater (low_of_due hz hshort hlastDown (hdue ▸ hdown'))
  refine ⟨plan', hplan', fun hidle => hplan (eq_idle_iff.2 ?_)⟩
  obtain ⟨hdownDue, hupDue⟩ := due_of_planScaling hplan'
  rw [hidle] at hdownDue hupDue
  obtain rfl := Except.ok.inj (hdown'.symm.trans hdownDue)
  obtain rfl := Except.ok.inj (hup'.symm.trans hupDue)
  exact ⟨Bool.eq_false_iff.2 fun hdue => Bool.false_ne_true (hdownStays hdue),
    Bool.eq_false_iff.2 fun hdue => Bool.false_ne_true (hupStays hdue)⟩

end Plan

end ScheduledScaling
