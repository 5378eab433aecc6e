import ScheduledScaling.Proofs.Due
import ScheduledScaling.Proofs.Passes
import ScheduledScaling.Proofs.Validation
/-!
# The schedules decide the final state

A schedule is visited again and again, and each pass may fail anywhere or lose its status. The
scaling that was carried out last is still the one whose schedule has fired last, as soon as a pass
has nothing to do or its scaling succeeds: `last_scaling_follows_schedules`.

The invariant of a run, `Settled`, compares the two recorded times: between the one and the other
the schedule with the earlier one has not fired. So an action that is due alone is not older than
what was done already.
-/
namespace ScheduledScaling

open Pass Program

/-! ## Runs -/

/-- What a run of passes has come to. -/
structure Standing where
  status : ScheduleStatus
  /-- The scaling that was carried out last. -/
  last : Option Direction

section Visits
variable (zones : Zone.Lookup) (registry : Registry) (settings : Settings) (s : Schedule) (z : Zone)

/-- A pass over a schedule with the status of `σ`, whatever the store answers. -/
inductive Visit (now : Instant) (σ : Standing) (trace : List Exchange) : Standing → Prop
  | scaled {r direction supersedes} :
    Runs (reconcile registry settings { s with status := some σ.status } now zones).run trace r →
    Scales s.spec z σ.status now trace direction supersedes →
    Visit now σ trace ⟨σ.status.after trace, some direction⟩
  | unscaled {r} :
    Runs (reconcile registry settings { s with status := some σ.status } now zones).run trace r →
    (∀ direction supersedes, ¬ Scales s.spec z σ.status now trace direction supersedes) →
    Visit now σ trace ⟨σ.status.after trace, σ.last⟩

/-- Passes at instants that do not go back, from an empty status. The last instant stands first. -/
inductive VisitedAt : List Instant → Standing → Prop
  | start : VisitedAt [] ⟨.empty, none⟩
  | visit {times σ now trace σ'} : VisitedAt times σ → (∀ t ∈ times, t ≤ now) →
    Visit zones registry settings s z now σ trace σ' → VisitedAt (now :: times) σ'

end Visits

/-- Every run of a pass is a visit. -/
theorem exists_visit {zones : Zone.Lookup} {registry : Registry} {settings : Settings}
    {s : Schedule} {z : Zone} {now : Instant} {σ : Standing} {trace : List Exchange}
    {r : Except Overflow (Except Failure Action)}
    (h : Runs (reconcile registry settings { s with status := some σ.status } now zones).run
      trace r) :
    ∃ last, Visit zones registry settings s z now σ trace ⟨σ.status.after trace, last⟩ := by
  by_cases hscales :
      ∃ direction supersedes, Scales s.spec z σ.status now trace direction supersedes
  · obtain ⟨direction, supersedes, hscales⟩ := hscales
    exact ⟨_, .scaled h hscales⟩
  · exact ⟨_, .unscaled h fun direction supersedes h => hscales ⟨direction, supersedes, h⟩⟩

/-! ## The rule -/

/-- The scaling whose schedule has fired last; scaling down wins a tie. -/
def ruled (dAt uAt : Int) : Direction := if dAt < uAt then .up else .down

/-- An occurrence that is not after an instant, and that the search backward reaches. -/
def Cron.IsRecent (c : Cron) (z : Zone) (now : Instant) : Prop :=
  ∃ o, c.Fires z o ∧ now.second - CronExpression.maxLookback < o ∧ o ≤ now.second

variable {z : Zone} {down up : CronExpression} {now : Instant} {dAt uAt a b : Int}

/-- An instant with a recent occurrence lies in the years of the schedules. -/
theorem Cron.IsRecent.bounds {c : Cron} (h : c.IsRecent z now) (hc : c.Ordered)
    (hz : z.IsConstant) : -86400 < now.second ∧ now.second < 5000000000 := by
  obtain ⟨o, hfires, hlow, hhigh⟩ := h
  have hupper := hfires.upper hc
  have hlower := hfires.lower hz
  have hoff := hz.offset
  have hend : Cron.endWall = 4133980800 := by decide +kernel
  have hback : CronExpression.maxLookback = 253670400 := rfl
  rw [hz.wallAt] at hupper
  omega

theorem Cron.IsRecent.isOrdinary {c : Cron} (h : c.IsRecent z now) (hc : c.Ordered)
    (hz : z.IsConstant) (hnow : now.IsPlain) : now.IsOrdinary := by
  have hbounds := h.bounds hc hz
  refine ⟨hnow, by omega, ?_⟩
  rw [Instant.maxSecond_eq]
  omega

theorem Cron.IsRecent.isNamed {c : Cron} (h : c.IsRecent z now) (hc : c.Ordered)
    (hz : z.IsConstant) (hnow : now.IsPlain) : now.IsNamed := by
  have hbounds := h.bounds hc hz
  refine ⟨?_, .inl hnow⟩
  rw [Instant.inRange, Instant.minSecond_eq, Instant.maxSecond_eq, Bool.and_eq_true,
    decide_eq_true_eq, decide_eq_true_eq]
  omega

/-- With a recent occurrence there is a last one, and it is recent. -/
theorem Cron.IsRecent.exists_isLatest {e : CronExpression} (h : e.cron.IsRecent z now)
    (he : e.cron.Ordered) (hz : z.IsConstant) (hnow : now.IsPlain) :
    ∃ o, e.cron.IsLatest z now.second o ∧ now.second - CronExpression.maxLookback < o := by
  have hspec := CronExpression.latestAtOrBefore_spec he hz (h.isOrdinary he hz hnow).hasPast
  rw [Instant.backFrom_of_isPlain hnow] at hspec
  obtain ⟨o, hfires, hlow, hhigh⟩ := h
  rcases hspec with ⟨o', -, hrecent, hlatest⟩ | ⟨-, hnone⟩
  · exact ⟨o', hlatest, hrecent⟩
  · exact absurd hhigh (hnone o hfires hlow)

/-- What a plan that is not idle tells: its action is due, and the other one is not due or gives
way to it. -/
theorem due_of_planFrom {direction : Direction} {supersedes : Bool}
    (h : directionOf (planFrom a b dAt uAt) = some (direction, supersedes)) :
    (direction = .down ∧ a < dAt ∧ if supersedes then uAt ≤ dAt else uAt ≤ b) ∨
      (direction = .up ∧ b < uAt ∧ if supersedes then dAt < uAt else dAt ≤ a) := by
  unfold planFrom at h
  split at h
  · rename_i hdown
    split at h
    · rename_i hup
      split at h
      · rename_i hlater
        cases h
        exact .inr ⟨rfl, hup, hlater⟩
      · rename_i hlater
        cases h
        exact .inl ⟨rfl, hdown, Int.not_lt.1 hlater⟩
    · rename_i hup
      cases h
      exact .inl ⟨rfl, hdown, Int.not_lt.1 hup⟩
  · rename_i hdown
    split at h
    · rename_i hup
      cases h
      exact .inr ⟨rfl, hup, Int.not_lt.1 hdown⟩
    · cases h

theorem idle_of_planFrom (h : planFrom a b dAt uAt = .idle) : dAt ≤ a ∧ uAt ≤ b := by
  unfold planFrom at h
  split at h
  · split at h
    · split at h <;> cases h
    · cases h
  · split at h
    · cases h
    · omega

/-- An action that is due alone is the one that the rule calls for, if between the two times from
which the actions count the one with the earlier time has not fired. -/
theorem direction_of_planFrom (hd : down.cron.IsLatest z now.second dAt)
    (hu : up.cron.IsLatest z now.second uAt)
    (hdown : ¬ down.cron.FiresWithin z a b) (hup : ¬ up.cron.FiresWithin z b a)
    {direction : Direction} {supersedes : Bool}
    (h : directionOf (planFrom a b dAt uAt) = some (direction, supersedes)) :
    direction = ruled dAt uAt := by
  rcases due_of_planFrom h with ⟨rfl, hdue, hother⟩ | ⟨rfl, hdue, hother⟩
  · -- Scaling down has fired since `a`, so not up to `b`.
    have hb : b < dAt := by
      by_contra hle
      exact hdown ⟨dAt, hd.1.1, hdue, by omega⟩
    cases supersedes with
    | false => rw [ruled, if_neg (by simp at hother; omega)]
    | true => rw [ruled, if_neg (by simp at hother; omega)]
  · have ha : a < uAt := by
      by_contra hle
      exact hup ⟨uAt, hu.1.1, hdue, by omega⟩
    cases supersedes with
    | false => rw [ruled, if_pos (by simp at hother; omega)]
    | true => rw [ruled, if_pos (by simp at hother; omega)]

/-! ## The invariant -/

/-- The invariant of a run with passes at some instants. -/
structure Settled (down up : Cron) (z : Zone) (times : List Instant) (σ : Standing) : Prop where
  named : σ.status.HasNamedTimes
  seenDown : ∀ t ∈ σ.status.lastScaleDown, t ∈ times
  seenUp : ∀ t ∈ σ.status.lastScaleUp, t ∈ times
  epochDown : 0 ≤ anchor σ.status.lastScaleDown
  epochUp : 0 ≤ anchor σ.status.lastScaleUp
  /-- Neither schedule has fired between its own time and a later one of the other. -/
  quietDown : ¬ down.FiresWithin z (anchor σ.status.lastScaleDown) (anchor σ.status.lastScaleUp)
  quietUp : ¬ up.FiresWithin z (anchor σ.status.lastScaleUp) (anchor σ.status.lastScaleDown)
  /-- While nothing is due, the last scaling is the one that the rule calls for. -/
  last : ∀ limit dAt uAt, (∀ t ∈ times, t.second ≤ limit) → down.IsLatest z limit dAt →
    up.IsLatest z limit uAt → dAt ≤ anchor σ.status.lastScaleDown →
    uAt ≤ anchor σ.status.lastScaleUp → ∀ direction ∈ σ.last, direction = ruled dAt uAt

theorem not_firesWithin_of_le {c : Cron} (h : b ≤ a) : ¬ c.FiresWithin z a b := by
  rintro ⟨s, -, hlow, hhigh⟩
  omega

theorem settled_start (down up : Cron) (z : Zone) : Settled down up z [] ⟨.empty, none⟩ where
  named := by constructor <;> intro t ht <;> cases ht
  seenDown t ht := by cases ht
  seenUp t ht := by cases ht
  epochDown := Int.le_refl 0
  epochUp := Int.le_refl 0
  quietDown := not_firesWithin_of_le (Int.le_refl 0)
  quietUp := not_firesWithin_of_le (Int.le_refl 0)
  last _ _ _ _ _ _ _ _ direction h := by cases h

/-- Up to a later second at which nothing is due, the rule calls for the same scaling. -/
theorem ruled_eq {limit dAt' uAt' : Int} (hd : down.cron.IsLatest z now.second dAt)
    (hu : up.cron.IsLatest z now.second uAt) (hlimit : now.second ≤ limit)
    (hd' : down.cron.IsLatest z limit dAt') (hu' : up.cron.IsLatest z limit uAt')
    (hdle : dAt' ≤ now.second) (hule : uAt' ≤ now.second) : ruled dAt' uAt' = ruled dAt uAt := by
  rw [(hd'.mono hdle hlimit).unique hd, (hu'.mono hule hlimit).unique hu]

theorem second_le {t : Instant} (h : t ≤ now) : t.second ≤ now.second := by
  rw [Instant.le_iff] at h
  omega

theorem anchor_le {last : Option Instant} (h : ∀ t ∈ last, t ≤ now) (h0 : 0 ≤ now.second) :
    anchor last ≤ now.second := by
  cases last with
  | none => exact h0
  | some t => exact second_le (h t rfl)

theorem advance_eq {previous : Option Instant} (h : ∀ t ∈ previous, t ≤ now) :
    advance previous now = now := by
  cases previous with
  | none => rfl
  | some t => exact if_pos (h t rfl)

section Step
variable {times : List Instant} {σ : Standing} {status' : ScheduleStatus}

/-- A pass that leaves the recorded times alone keeps the invariant: it has not scaled, or what is
due is still due. -/
theorem Settled.keep (h : Settled down.cron up.cron z times σ)
    (hd : down.cron.IsLatest z now.second dAt) (hu : up.cron.IsLatest z now.second uAt)
    (hnamed : status'.HasNamedTimes) (hdown : status'.lastScaleDown = σ.status.lastScaleDown)
    (hup : status'.lastScaleUp = σ.status.lastScaleUp) {last : Option Direction}
    (hlast : last = σ.last ∨ anchor σ.status.lastScaleDown < dAt ∨
      anchor σ.status.lastScaleUp < uAt) :
    Settled down.cron up.cron z (now :: times) ⟨status', last⟩ where
  named := hnamed
  seenDown t ht := List.mem_cons_of_mem _ (h.seenDown t (hdown ▸ ht))
  seenUp t ht := List.mem_cons_of_mem _ (h.seenUp t (hup ▸ ht))
  epochDown := by
    rw [hdown]
    exact h.epochDown
  epochUp := by
    rw [hup]
    exact h.epochUp
  quietDown := by
    rw [hdown, hup]
    exact h.quietDown
  quietUp := by
    rw [hdown, hup]
    exact h.quietUp
  last := by
    intro limit dAt' uAt' hlimit hd' hu' hdle hule direction hdirection
    simp only [hdown, hup] at hdle hule
    have hnow : now.second ≤ limit := hlimit now List.mem_cons_self
    rcases hlast with rfl | hlt | hlt
    · exact h.last limit dAt' uAt' (fun t ht => hlimit t (List.mem_cons_of_mem _ ht)) hd' hu' hdle
        hule direction hdirection
    · -- What is due now is still due at `limit`.
      have hle := hd'.2 ⟨hd.1.1, hd.1.2.trans hnow⟩
      omega
    · have hle := hu'.2 ⟨hu.1.1, hu.1.2.trans hnow⟩
      omega

/-- A time of scaling that is written is now; one that is not written was seen before. -/
theorem seen_of_written {last last' : Option Instant} (h : last' = some now ∨ last' = last)
    (hseen : ∀ t ∈ last, t ∈ times) (hepoch : 0 ≤ anchor last) (hle : ∀ t ∈ times, t ≤ now)
    (h0 : 0 ≤ now.second) :
    (∀ t ∈ last', t ∈ now :: times) ∧ 0 ≤ anchor last' ∧ anchor last' ≤ now.second := by
  rcases h with rfl | rfl
  · refine ⟨fun t ht => ?_, h0, Int.le_refl _⟩
    obtain rfl := Option.some.inj ht
    exact List.mem_cons_self
  · exact ⟨fun t ht => List.mem_cons_of_mem _ (hseen t ht), hepoch,
      anchor_le (fun t ht => hle t (hseen t ht)) h0⟩

/-- A scaling that the rule calls for keeps the invariant, if the times that it changes are now. -/
theorem Settled.of_times (h : Settled down.cron up.cron z times σ) (hle : ∀ t ∈ times, t ≤ now)
    (h0 : 0 ≤ now.second) (hd : down.cron.IsLatest z now.second dAt)
    (hu : up.cron.IsLatest z now.second uAt) (hnamed : status'.HasNamedTimes)
    (hdown : status'.lastScaleDown = some now ∨ status'.lastScaleDown = σ.status.lastScaleDown)
    (hup : status'.lastScaleUp = some now ∨ status'.lastScaleUp = σ.status.lastScaleUp)
    (hquietDown : ¬ down.cron.FiresWithin z (anchor status'.lastScaleDown)
      (anchor status'.lastScaleUp))
    (hquietUp : ¬ up.cron.FiresWithin z (anchor status'.lastScaleUp)
      (anchor status'.lastScaleDown)) :
    Settled down.cron up.cron z (now :: times) ⟨status', some (ruled dAt uAt)⟩ := by
  obtain ⟨hseenDown, hepochDown, hdownLe⟩ :=
    seen_of_written hdown h.seenDown h.epochDown hle h0
  obtain ⟨hseenUp, hepochUp, hupLe⟩ := seen_of_written hup h.seenUp h.epochUp hle h0
  refine
    { named := hnamed, seenDown := hseenDown, seenUp := hseenUp, epochDown := hepochDown
      epochUp := hepochUp, quietDown := hquietDown, quietUp := hquietUp, last := ?_ }
  -- nothing has fired since now if nothing is due, so the rule still calls for this scaling
  intro limit dAt' uAt' hlimit hd' hu' hdle hule direction hdirection
  obtain rfl := Option.some.inj hdirection
  have hnow : now.second ≤ limit := hlimit now List.mem_cons_self
  exact (ruled_eq hd hu hnow hd' hu' (hdle.trans hdownLe) (hule.trans hupLe)).symm

/-- A scaling that is recorded keeps the invariant. -/
theorem Settled.record (h : Settled down.cron up.cron z times σ) (hle : ∀ t ∈ times, t ≤ now)
    (hd : down.cron.IsLatest z now.second dAt) (hu : up.cron.IsLatest z now.second uAt)
    {direction : Direction} {supersedes : Bool}
    (hplan : directionOf (planFrom (anchor σ.status.lastScaleDown) (anchor σ.status.lastScaleUp)
      dAt uAt) = some (direction, supersedes)) (hnamed : status'.HasNamedTimes)
    (hdown : status'.lastScaleDown =
      (scaleTimes direction supersedes σ.status now .empty).lastScaleDown.or σ.status.lastScaleDown)
    (hup : status'.lastScaleUp =
      (scaleTimes direction supersedes σ.status now .empty).lastScaleUp.or σ.status.lastScaleUp) :
    Settled down.cron up.cron z (now :: times) ⟨status', some (ruled dAt uAt)⟩ := by
  have hnowDown : advance σ.status.lastScaleDown now = now :=
    advance_eq fun t ht => hle t (h.seenDown t ht)
  have hnowUp : advance σ.status.lastScaleUp now = now :=
    advance_eq fun t ht => hle t (h.seenUp t ht)
  have hdLe : dAt ≤ now.second := hd.1.2
  have huLe : uAt ≤ now.second := hu.1.2
  have hepochDown := h.epochDown
  have hepochUp := h.epochUp
  rcases due_of_planFrom hplan with ⟨rfl, hdue, hother⟩ | ⟨rfl, hdue, hother⟩
  · have h0 : 0 ≤ now.second := by omega
    have hupLe := anchor_le (fun t ht => hle t (h.seenUp t ht)) h0
    have hdown' : status'.lastScaleDown = some now := hdown.trans (congrArg some hnowDown)
    cases supersedes with
    | false =>
      -- Scaling up is not due: it has not fired since its own time.
      replace hup : status'.lastScaleUp = σ.status.lastScaleUp := hup
      refine h.of_times hle h0 hd hu hnamed (.inl hdown') (.inr hup) ?_ ?_ <;> rw [hdown', hup]
      · exact not_firesWithin_of_le hupLe
      · exact fun hfires => absurd (hu.firesWithin_iff.1 hfires) (Int.not_lt.2 hother)
    | true =>
      -- Both times are now.
      replace hup : status'.lastScaleUp = some now := hup.trans (congrArg some hnowUp)
      refine h.of_times hle h0 hd hu hnamed (.inl hdown') (.inl hup) ?_ ?_ <;> rw [hdown', hup]
      · exact not_firesWithin_of_le (Int.le_refl _)
      · exact not_firesWithin_of_le (Int.le_refl _)
  · have h0 : 0 ≤ now.second := by omega
    have hdownLe := anchor_le (fun t ht => hle t (h.seenDown t ht)) h0
    have hup' : status'.lastScaleUp = some now := hup.trans (congrArg some hnowUp)
    cases supersedes with
    | false =>
      -- Scaling down is not due: it has not fired since its own time.
      replace hdown : status'.lastScaleDown = σ.status.lastScaleDown := hdown
      refine h.of_times hle h0 hd hu hnamed (.inr hdown) (.inl hup') ?_ ?_ <;> rw [hdown, hup']
      · exact fun hfires => absurd (hd.firesWithin_iff.1 hfires) (Int.not_lt.2 hother)
      · exact not_firesWithin_of_le hdownLe
    | true =>
      replace hdown : status'.lastScaleDown = some now := hdown.trans (congrArg some hnowDown)
      refine h.of_times hle h0 hd hu hnamed (.inl hdown) (.inl hup') ?_ ?_ <;> rw [hdown, hup']
      · exact not_firesWithin_of_le (Int.le_refl _)
      · exact not_firesWithin_of_le (Int.le_refl _)

end Step

/-! ## The passes of a run -/

/-- Both schedules have a recent occurrence. -/
structure IsVisitable (down up : Cron) (z : Zone) (now : Instant) : Prop where
  plain : now.IsPlain
  down : down.IsRecent z now
  up : up.IsRecent z now

section Run
variable {zones : Zone.Lookup} {registry : Registry} {settings : Settings} {s : Schedule}
  {times : List Instant} {σ σ' : Standing} {trace : List Exchange}

theorem Pass.Scales.directionOf_eq {spec : ScheduleSpec} {status : ScheduleStatus}
    {plan : ScalingPlan} {direction : Direction} {supersedes : Bool}
    (hplan : planScaling spec.scaleDown spec.scaleUp z status.lastScaleDown status.lastScaleUp now =
      .ok plan) (h : Scales spec z status now trace direction supersedes) :
    directionOf plan = some (direction, supersedes) := by
  obtain ⟨target, plan', outcome, first, rest, -, hplan', hdirection, -, -⟩ := h
  rw [hplan] at hplan'
  obtain rfl := Except.ok.inj hplan'
  exact hdirection

variable (hdown : CronExpression.parse s.spec.scaleDown = .ok down)
  (hup : CronExpression.parse s.spec.scaleUp = .ok up)
  (hv : s.spec.validate zones = .ok ()) (hparse : Zone.parse s.spec.timeZone zones = .ok z)
  (hz : z.IsConstant)

include hdown hup hz

/-- The plan of a pass from the two last occurrences. -/
theorem Settled.plan_eq (h : Settled down.cron up.cron z times σ)
    (htimes : ∀ t ∈ now :: times, IsVisitable down.cron up.cron z t) :
    ∃ dAt uAt, down.cron.IsLatest z now.second dAt ∧ up.cron.IsLatest z now.second uAt ∧
      planScaling s.spec.scaleDown s.spec.scaleUp z σ.status.lastScaleDown σ.status.lastScaleUp
        now = .ok (planFrom (anchor σ.status.lastScaleDown) (anchor σ.status.lastScaleUp)
          dAt uAt) := by
  have hd := Cron.ordered_of_parse hdown
  have hu := Cron.ordered_of_parse hup
  have hordinary : ∀ t ∈ now :: times, t.IsOrdinary := fun t ht =>
    (htimes t ht).down.isOrdinary hd hz (htimes t ht).plain
  have hlast : ∀ last : Option Instant, (∀ t ∈ last, t ∈ times) →
      (last.getD .epoch).IsOrdinary := by
    intro last hlast
    cases last with
    | none => exact isOrdinary_epoch
    | some t => exact hordinary t (List.mem_cons_of_mem _ (hlast t rfl))
  obtain ⟨hplain, hdownRecent, hupRecent⟩ := htimes now List.mem_cons_self
  obtain ⟨dAt, hdAt, hdNear⟩ := hdownRecent.exists_isLatest hd hz hplain
  obtain ⟨uAt, huAt, huNear⟩ := hupRecent.exists_isLatest hu hz hplain
  exact ⟨dAt, uAt, hdAt, huAt, planScaling_eq hdown hup hz (hordinary now List.mem_cons_self)
    (hlast _ h.seenDown) (hlast _ h.seenUp) hdAt huAt hdNear huNear⟩

include hv hparse

/-- A pass keeps the invariant, whatever fails in it. -/
theorem Settled.visit (h : Settled down.cron up.cron z times σ)
    (htimes : ∀ t ∈ now :: times, IsVisitable down.cron up.cron z t) (hle : ∀ t ∈ times, t ≤ now)
    (hvisit : Visit zones registry settings s z now σ trace σ') :
    Settled down.cron up.cron z (now :: times) σ' := by
  obtain ⟨dAt, uAt, hdAt, huAt, hplan⟩ := h.plan_eq hdown hup hz htimes
  have hnow := htimes now List.mem_cons_self
  have hnamed := hnow.down.isNamed (Cron.ordered_of_parse hdown) hz hnow.plain
  cases hvisit with
  | scaled hrun hscales =>
    obtain ⟨hafter, hrecords⟩ := records_of_reconcile hv hparse h.named hnamed hrun
    have hdirection := hscales.directionOf_eq hplan
    rw [direction_of_planFrom hdAt huAt h.quietDown h.quietUp hdirection]
    rcases hrecords with ⟨hd, hu⟩ | ⟨direction', supersedes', hscales', hd, hu⟩
    · -- The status was lost: the scaling is still due, and will be done again.
      refine h.keep hdAt huAt hafter hd hu (.inr ?_)
      rcases due_of_planFrom hdirection with ⟨-, hdue, -⟩ | ⟨-, hdue, -⟩
      · exact .inl hdue
      · exact .inr hdue
    · exact h.record hle hdAt huAt (hscales'.directionOf_eq hplan) hafter hd hu
  | unscaled hrun hnot =>
    obtain ⟨hafter, hrecords⟩ := records_of_reconcile hv hparse h.named hnamed hrun
    rcases hrecords with ⟨hd, hu⟩ | ⟨direction', supersedes', hscales', -⟩
    · exact h.keep hdAt huAt hafter hd hu (.inl rfl)
    · exact absurd hscales' (hnot direction' supersedes')

/-- The invariant holds after every run. -/
theorem settled_of_visitedAt (h : VisitedAt zones registry settings s z times σ)
    (htimes : ∀ t ∈ times, IsVisitable down.cron up.cron z t) :
    Settled down.cron up.cron z times σ := by
  induction h with
  | start => exact settled_start _ _ _
  | visit hbefore hle hvisit ih =>
    have hsettled := ih fun t ht => htimes t (List.mem_cons_of_mem _ ht)
    exact hsettled.visit hdown hup hv hparse hz htimes hle hvisit

end Run

/-- In a zone of one offset, the schedules decide the final state. A plan that is not idle asks for
the scaling whose schedule has fired last, also if only one of the two is due. After a pass that is
idle, or whose scaling succeeds, the last scaling of the run is the one that this rule calls for. -/
theorem last_scaling_follows_schedules {zones : Zone.Lookup} {registry : Registry}
    {settings : Settings} {s : Schedule} (hv : s.spec.validate zones = .ok ())
    (hdown : s.spec.scaleDown ≠ "") (hup : s.spec.scaleUp ≠ "")
    (hparse : Zone.parse s.spec.timeZone zones = .ok z) (hz : z.IsConstant) :
    ∃ down up, CronExpression.parse s.spec.scaleDown = .ok down ∧
      CronExpression.parse s.spec.scaleUp = .ok up ∧
      ∀ times σ now, VisitedAt zones registry settings s z times σ → (∀ t ∈ times, t ≤ now) →
        (∀ t ∈ now :: times, IsVisitable down.cron up.cron z t) →
        ∃ dAt uAt plan, down.cron.IsLatest z now.second dAt ∧
          up.cron.IsLatest z now.second uAt ∧
          planScaling s.spec.scaleDown s.spec.scaleUp z σ.status.lastScaleDown
            σ.status.lastScaleUp now = .ok plan ∧
          (∀ direction supersedes, directionOf plan = some (direction, supersedes) →
            direction = ruled dAt uAt) ∧
          ∀ trace σ', Visit zones registry settings s z now σ trace σ' →
            (plan = .idle ∨ ∃ direction supersedes,
              Scales s.spec z σ.status now trace direction supersedes) →
            ∀ direction ∈ σ'.last, direction = ruled dAt uAt := by
  obtain ⟨down, hd⟩ := ScheduleSpec.parse_of_validate hv (List.mem_cons_self) hdown
  obtain ⟨up, hu⟩ := ScheduleSpec.parse_of_validate hv
    (List.mem_cons_of_mem _ List.mem_cons_self) hup
  refine ⟨down, up, hd, hu, fun times σ now hrun hle htimes => ?_⟩
  have hsettled := settled_of_visitedAt hd hu hv hparse hz hrun
    fun t ht => htimes t (List.mem_cons_of_mem _ ht)
  obtain ⟨dAt, uAt, hdAt, huAt, hplan⟩ := hsettled.plan_eq hd hu hz htimes
  have hrule {direction : Direction} {supersedes : Bool} (h : _ = some (direction, supersedes)) :=
    direction_of_planFrom hdAt huAt hsettled.quietDown hsettled.quietUp h
  refine ⟨dAt, uAt, _, hdAt, huAt, hplan, fun direction supersedes h => hrule h, ?_⟩
  intro trace σ' hvisit hsettles direction hdirection
  have hseconds : ∀ t ∈ times, t.second ≤ now.second := fun t ht => second_le (hle t ht)
  cases hvisit with
  | scaled _ hscales =>
    -- The scaling of this pass is the last one.
    obtain rfl := Option.some.inj hdirection
    exact hrule (hscales.directionOf_eq hplan)
  | unscaled _ hnot =>
    rcases hsettles with hidle | ⟨direction', supersedes', hscales⟩
    · -- Nothing is due, so the invariant tells of the scaling before.
      obtain ⟨hdle, hule⟩ := idle_of_planFrom hidle
      exact hsettled.last now.second dAt uAt hseconds hdAt huAt hdle hule direction hdirection
    · exact absurd hscales (hnot direction' supersedes')

/-- Every day at a full hour. -/
def daily (text : String) (hour : Nat) : CronExpression where
  text := text
  cron :=
    { seconds := [0], minutes := [0], hours := [hour], daysOfMonth := Cron.Field.dayOfMonth.values,
      months := Cron.Field.month.values, daysOfWeek := Cron.Field.dayOfWeek.values,
      years := Cron.Field.year.values }

def nightlyDown : CronExpression := daily "0 0 22 * * *" 22

def nightlyUp : CronExpression := daily "0 0 6 * * *" 6

/-- Scales down at ten in the evening and up at six in the morning. -/
def nightly : Schedule where
  metadata := { (default : ObjectMeta) with name := some "nightly", ns := some "shop" }
  spec :=
    { target := some ⟨"web", "shop", "Deployment", "apps/v1"⟩, scaleDown := nightlyDown.text,
      scaleUp := nightlyUp.text, cleanup := "", cleanupConfig := none, timeZone := "UTC" }
  status := none

/-- The store with the deployment that is scaled. -/
def nightlyStore : MemoryStore :=
  MemoryStore.empty.put
    { kind := .deployment
      metadata := { (default : ObjectMeta) with
        name := some "web", ns := some "shop", resourceVersion := some "1" }
      spec := some ⟨some 3, []⟩
      status := none }

/-- Half past ten in the evening of 10 March 2025. -/
def evening : Instant := ⟨1741645800, 0⟩

/-- Half past six in the next morning. -/
def morning : Instant := ⟨1741674600, 0⟩

def eveningPass : Program (Except Failure Action) :=
  (reconcile [] .default { nightly with status := some .empty } evening).run

/-- The status that the pass in the evening leaves. -/
def eveningStatus : ScheduleStatus :=
  .after .empty (eveningPass.trace MemoryStore.handler nightlyStore)

/-- The store that it leaves. -/
def morningStore : MemoryStore := (eveningPass.run MemoryStore.handler nightlyStore).2

def morningPass : Program (Except Failure Action) :=
  (reconcile [] .default { nightly with status := some eveningStatus } morning).run

def morningTrace : List Exchange :=
  morningPass.trace MemoryStore.handler morningStore

theorem validate_nightly : nightly.spec.validate = .ok () := by decide +kernel

theorem isVisitable_nightly {t : Instant} (h : t = morning ∨ t = evening) :
    IsVisitable nightlyDown.cron nightlyUp.cron .utc t := by
  rcases h with rfl | rfl
  · exact ⟨by decide, ⟨1741644000, by decide +kernel⟩, ⟨1741672800, by decide +kernel⟩⟩
  · exact ⟨by decide, ⟨1741644000, by decide +kernel⟩, ⟨1741586400, by decide +kernel⟩⟩

/-- The pass in the evening, after which the last scaling is not spelled out. -/
theorem visitedAt_nightly :
    ∃ last, VisitedAt Zone.find? [] .default nightly .utc [evening] ⟨eveningStatus, last⟩ := by
  have hrun := runs_trace MemoryStore.handler eveningPass nightlyStore
  obtain ⟨last, hvisit⟩ := exists_visit (z := .utc) (σ := ⟨.empty, none⟩) hrun
  exact ⟨last, .visit .start (fun t ht => by cases ht) hvisit⟩

/-- The pass in the morning scales, since it changes the time of scaling up. -/
theorem scales_nightly : ∃ direction supersedes,
    Scales nightly.spec .utc eveningStatus morning morningTrace direction supersedes := by
  have hempty : ScheduleStatus.empty.HasNamedTimes := by
    constructor <;> intro t ht <;> cases ht
  have hnamed (t : Instant) (h : t = morning ∨ t = evening) : t.IsNamed := by
    rcases h with rfl | rfl <;> exact ⟨by decide, .inl (by decide)⟩
  have hevening := records_of_reconcile validate_nightly parse_utc hempty (hnamed _ (.inr rfl))
    (runs_trace MemoryStore.handler eveningPass nightlyStore)
  have hmorning := records_of_reconcile validate_nightly parse_utc hevening.1 (hnamed _ (.inl rfl))
    (runs_trace MemoryStore.handler morningPass morningStore)
  rcases hmorning.2 with ⟨-, hup⟩ | ⟨direction, supersedes, h, -⟩
  · exact absurd hup (by decide +kernel)
  · exact ⟨direction, supersedes, h⟩

theorem last_scaling_follows_schedules_nightly :
    ∃ last, VisitedAt Zone.find? [] .default nightly .utc [evening] ⟨eveningStatus, last⟩ ∧
      Visit Zone.find? [] .default nightly .utc morning ⟨eveningStatus, last⟩ morningTrace
        ⟨eveningStatus.after morningTrace, some .up⟩ := by
  obtain ⟨last, hbefore⟩ := visitedAt_nightly
  obtain ⟨direction, supersedes, hscales⟩ := scales_nightly
  have hafter : Visit Zone.find? [] .default nightly .utc morning ⟨eveningStatus, last⟩ morningTrace
      ⟨eveningStatus.after morningTrace, some direction⟩ :=
    .scaled (runs_trace MemoryStore.handler morningPass morningStore) hscales
  obtain ⟨down, up, hdown, hup, hall⟩ := @last_scaling_follows_schedules .utc Zone.find? []
    .default nightly validate_nightly (by decide) (by decide) parse_utc Zone.isConstant_utc
  have hdown' : CronExpression.parse nightly.spec.scaleDown = .ok nightlyDown := by decide +kernel
  have hup' : CronExpression.parse nightly.spec.scaleUp = .ok nightlyUp := by decide +kernel
  obtain rfl := Except.ok.inj (hdown'.symm.trans hdown)
  obtain rfl := Except.ok.inj (hup'.symm.trans hup)
  have hle : ∀ t ∈ [evening], t ≤ morning := by
    simp only [List.mem_singleton, forall_eq]
    decide
  have hvisitable : ∀ t ∈ [morning, evening], IsVisitable nightlyDown.cron nightlyUp.cron .utc t :=
    fun t ht => isVisitable_nightly (by simpa using ht)
  obtain ⟨dAt, uAt, plan, -, -, hplan, hrule, hlast⟩ := hall _ _ morning hbefore hle hvisitable
  have hplan' : planScaling nightly.spec.scaleDown nightly.spec.scaleUp .utc
      eveningStatus.lastScaleDown eveningStatus.lastScaleUp morning = .ok (.scaleUp false) := by
    decide +kernel
  obtain rfl := Except.ok.inj (hplan'.symm.trans hplan)
  -- the plan tells which scaling the rule calls for, and the pass has carried out that one
  have hruled : direction = ruled dAt uAt :=
    hlast _ _ hafter (.inr ⟨direction, supersedes, hscales⟩) direction rfl
  rw [← hrule .up false rfl] at hruled
  subst hruled
  exact ⟨last, hbefore, hafter⟩

end ScheduledScaling
