import ScheduledScaling.Proofs.Series
/-!
# A scaling that fails is tried again

A pass in which a scaling is due attempts it (`attempts_of_plan`). If the scaling fails, neither of
its times is recorded, so it is still due in the next pass, whatever the cleanup writes in between:
`due_scaling_is_tried_again`. A failure that may pass brings the next pass after the retry time at the
latest, with or without a next occurrence; only what breaks the pass off keeps it from saying so.
-/
namespace ScheduledScaling

open Pass Program

/-! ## The last second of time -/

section
variable {t now : Instant} {schedule : String} {z : Zone}

/-- Every instant but those of the last second has a next second. -/
theorem Instant.plus_one (ht : t.IsNamed) :
    t.plus 1 0 = if t.second < maxSecond then .ok (t.shift 1 0) else .error .instantPlus := by
  have hsecond : (t.shift (1 : Nat) 0).second = t.second + 1 := second_of_shift ht.isValid Nat.one_pos
  have hlow := ht.bounds.1
  unfold plus
  refine if_congr ?_ rfl rfl
  rw [inRange, Bool.and_eq_true, decide_eq_true_eq, decide_eq_true_eq, hsecond]
  omega

theorem nextOccurrence_of_lt (schedule : String) (z : Zone) (hnow : now.IsNamed)
    (hlt : now.second < Instant.maxSecond) :
    ∃ next, nextOccurrence schedule z now = .ok next := by
  unfold nextOccurrence
  split
  · exact ⟨none, rfl⟩
  split
  · exact ⟨none, rfl⟩
  · unfold CronExpression.nextAfter
    rw [Instant.plus_one hnow, if_pos hlt]
    exact ⟨_, rfl⟩

theorem nextOccurrence_of_le {e : CronExpression} (he : CronExpression.parse schedule = .ok e)
    (hnow : now.IsNamed) (hle : Instant.maxSecond ≤ now.second) :
    nextOccurrence schedule z now = .error .instantPlus := by
  rw [nextOccurrence_eq he, CronExpression.nextAfter, Instant.plus_one hnow,
    if_neg (Int.not_lt.2 hle)]
  rfl

theorem Duration.shorter_le (a b : Duration) : a.shorter b ≤ b := by
  unfold Duration.shorter
  split
  · assumption
  · exact Or.inr ⟨rfl, Nat.le_refl _⟩

end

/-- How a fetch has failed. -/
def Exchange.fetchFailure? : Exchange → Option Failure
  | ⟨.fetch _, .error e⟩ => some e
  | _ => none

namespace Pass
variable {zones : Zone.Lookup} {registry : Registry} {settings : Settings} {s : Schedule}
  {spec : ScheduleSpec} {ns : String} {z : Zone} {status : ScheduleStatus} {now : Instant}
  {trace : List Exchange} {plan : ScalingPlan} {target : Target}

/-- The next pass is planned before the last second of time. -/
theorem exists_nextWake_of_lt (spec : ScheduleSpec) (z : Zone) (hnow : now.IsNamed)
    (hlt : now.second < Instant.maxSecond) : ∃ wake, nextWake spec z now = .ok wake := by
  obtain ⟨down, hdown⟩ := nextOccurrence_of_lt spec.scaleDown z hnow hlt
  obtain ⟨up, hup⟩ := nextOccurrence_of_lt spec.scaleUp z hnow hlt
  obtain ⟨cleanup, hcleanup⟩ := nextOccurrence_of_lt spec.cleanup z hnow hlt
  unfold nextWake
  rw [hdown, hup, hcleanup]
  exact ⟨_, rfl⟩

/-- The next pass is planned unless time ends with this second. -/
theorem exists_nextWake_iff (hnow : now.IsNamed)
    (hreads : ∃ schedule ∈ spec.schedules, ∃ e, CronExpression.parse schedule = .ok e) :
    (∃ wake, nextWake spec z now = .ok wake) ↔ now.second < Instant.maxSecond := by
  constructor
  · rintro ⟨wake, hwake⟩
    by_contra hle
    obtain ⟨schedule, hmem, e, he⟩ := hreads
    obtain ⟨next, -, -, hall⟩ := nextWake_spec hwake
    obtain ⟨o, -, ho⟩ := hall schedule hmem
    rw [nextOccurrence_of_le he hnow (Int.not_lt.1 hle)] at ho
    cases ho
  · exact exists_nextWake_of_lt spec z hnow

/-! ## One pass -/

/-- A plan that is not idle is for a schedule that reads. -/
theorem parse_of_plan (hz : z.Steady) (hs : status.HasNamedTimes)
    (hplan : planScaling spec.scaleDown spec.scaleUp z status.lastScaleDown status.lastScaleUp now =
      .ok plan) (hidle : plan ≠ .idle) :
    ∃ schedule ∈ [spec.scaleDown, spec.scaleUp], ∃ e, CronExpression.parse schedule = .ok e := by
  obtain ⟨hdown, hup⟩ := due_of_planScaling hplan
  by_cases hdownDue : plan.downDue = true
  · rw [hdownDue] at hdown
    obtain ⟨e, -, he, -⟩ := occurrence_of_due hz (isNamed_getD hs.scaleDown).isValid hdown
    exact ⟨_, List.mem_cons_self, e, he⟩
  · have hupDue : plan.upDue = true := by
      by_contra hupDue
      rw [Bool.not_eq_true] at hdownDue hupDue
      exact hidle (eq_idle_iff.2 ⟨hdownDue, hupDue⟩)
    rw [hupDue] at hup
    obtain ⟨e, -, he, -⟩ := occurrence_of_due hz (isNamed_getD hs.scaleUp).isValid hup
    exact ⟨_, List.mem_cons_of_mem _ List.mem_cons_self, e, he⟩

/-- A spec in order whose plan is not idle has a target. -/
theorem target_of_plan (hv : spec.validate zones = .ok ())
    (hreads : ∃ schedule ∈ [spec.scaleDown, spec.scaleUp], ∃ e,
      CronExpression.parse schedule = .ok e) : ∃ target, spec.target = some target := by
  have hne {schedule : String} {e : CronExpression} (he : CronExpression.parse schedule = .ok e) :
      schedule ≠ "" := by
    rintro rfl
    exact not_isEmptyTrimmed_of_parse he (by decide)
  obtain ⟨schedule, hmem, e, he⟩ := hreads
  apply ScheduleSpec.target_of_validate hv
  simp only [List.mem_cons, List.not_mem_nil, or_false] at hmem
  rcases hmem with rfl | rfl
  · exact .inl (hne he)
  · exact .inr (hne he)

/-- A failure stays noted over the cleanup. -/
theorem transientFailure_of_runCleanup {scaled progress : Progress}
    (hscaled : scaled.transientFailure = true)
    (h : Runs (runCleanup registry spec z ns status now scaled) trace (.ok progress)) :
    progress.transientFailure = true := by
  obtain ⟨result, -, hnoted⟩ := runs_runCleanup.1 h
  cases result with
  | error x => cases hnoted
  | ok result =>
    obtain rfl := Except.ok.inj hnoted
    rcases result with _ | ⟨e⟩ | ⟨report⟩
    · exact hscaled
    · simp [noted, Progress.fail, hscaled]
    · exact hscaled

/-- After a failure that may pass, the next pass comes after the retry time at the latest. -/
theorem actionOf_transient (wake : Option Duration) :
    ∃ w, actionOf settings wake true = .requeue w ∧ w ≤ settings.errorRetry := by
  cases wake with
  | none => exact ⟨_, rfl, Or.inr ⟨rfl, Nat.le_refl _⟩⟩
  | some after => exact ⟨_, rfl, Duration.shorter_le after settings.errorRetry⟩

/-- The result of a pass whose scaling failed in a way that may pass, and whose status was not
refused: it asks for the next pass unless it breaks off. -/
def RequeuesUnlessBroken (settings : Settings) (spec : ScheduleSpec) (z : Zone) (ns : String)
    (p : PassRecord) : Prop :=
  (∃ w, p.result = .ok (.ok (.requeue w)) ∧ w ≤ settings.errorRetry) ↔
    ¬ CleanupOverruns spec z ns p.status p.now p.trace ∧ p.now.second < Instant.maxSecond

/-- What follows a scaling that failed in a way that may pass. -/
theorem requeues_of_transientFailure {scaled : Progress} {first rest : List Exchange}
    {r : Except Overflow (Except Failure Action)}
    (hscaled : Runs (runScaling s.spec z s.recorded now .start) first (.ok scaled))
    (htransient : scaled.transientFailure = true)
    (hrest : (∃ x, r = .error x ∧
        Runs (runCleanup registry s.spec z ns s.recorded now scaled) rest (.error x)) ∨
      ∃ progress middle last written, rest = middle ++ last ∧
        Runs (runCleanup registry s.spec z ns s.recorded now scaled) middle (.ok progress) ∧
        Runs (writeStatus s ns progress).run last (.ok written) ∧
        r = match written with
          | .error e => .ok (.error e)
          | .ok () => (nextWake s.spec z now).map fun wake =>
              .ok (actionOf settings wake progress.transientFailure))
    (hwake : (∃ wake, nextWake s.spec z now = .ok wake) ↔ now.second < Instant.maxSecond)
    (hkeeps : KeepsStatus (first ++ rest)) :
    RequeuesUnlessBroken settings s.spec z ns ⟨s.recorded, now, first ++ rest, r⟩ := by
  have hfirst : ∀ x ∈ first, ¬ x.call.IsResourceCall := fun x hx hresource => by
    have hworkload := hscaled.call_of_mem (onlyCalls_runScaling ..) x hx
    revert hworkload hresource
    cases x.call <;> exact fun h h' => by trivial
  rcases hrest with ⟨x, rfl, hx⟩ | ⟨progress, middle, last, written, rfl, hprogress, hwritten, rfl⟩
  · -- the cleanup breaks off
    have hover := (breaks_runCleanup_iff hx).1 ⟨x, rfl⟩
    constructor
    · rintro ⟨w, hw, -⟩
      cases hw
    · rintro ⟨hnot, -⟩
      exact absurd (hover.mono (List.subset_append_right _ _)) hnot
  · have hlast : ∀ x ∈ last, ¬ x.call.IsResourceCall := fun x hx hresource => by
      rcases runs_writeStatus.1 hwritten with ⟨-, rfl, -⟩ | ⟨-, answer, rfl, -⟩
      · cases hx
      · obtain rfl := List.mem_singleton.1 hx
        exact hresource
    have hnot : ¬ CleanupOverruns s.spec z ns s.recorded now (first ++ (middle ++ last)) := by
      intro hover
      obtain ⟨x, hx⟩ := (breaks_runCleanup_iff hprogress).2 (hover.of_append hfirst hlast)
      cases hx
    obtain rfl := written_of_keepsStatus hwritten fun x hx =>
      hkeeps x (List.mem_append_right _ (List.mem_append_right _ hx))
    have hstill := transientFailure_of_runCleanup htransient hprogress
    simp only [RequeuesUnlessBroken, hnot, not_false_eq_true, true_and]
    rw [← hwake]
    constructor
    · rintro ⟨w, hw, -⟩
      cases hnext : nextWake s.spec z now with
      | error x =>
        rw [hnext] at hw
        cases hw
      | ok wake => exact ⟨wake, rfl⟩
    · rintro ⟨wake, hnext⟩
      obtain ⟨w, hw, hle⟩ := actionOf_transient wake
      rw [hnext, hstill]
      exact ⟨w, congrArg (fun action => Except.ok (Except.ok action)) hw, hle⟩

/-- A pass in which a scaling is due, and does not succeed, has attempted it. -/
theorem attempts_of_plan {p : PassRecord} (hns : s.metadata.ns = some ns)
    (hv : s.spec.validate zones = .ok ()) (hparse : Zone.parse s.spec.timeZone zones = .ok z)
    (hz : z.Steady) (hs : p.status.HasNamedTimes) (hnow : p.now.IsNamed)
    (hplan : planScaling s.spec.scaleDown s.spec.scaleUp z p.status.lastScaleDown
      p.status.lastScaleUp p.now = .ok plan) (hidle : plan ≠ .idle)
    (h : Runs (reconcile registry settings { s with status := some p.status } p.now zones).run p.trace
      p.result)
    (hfails : ∀ direction supersedes,
      ¬ Scales s.spec z p.status p.now p.trace direction supersedes) :
    ∃ direction supersedes e,
      Attempts s.spec z p.status p.now p.trace direction supersedes (.error e) ∧
        (e.isTransient = true → KeepsStatus p.trace →
          RequeuesUnlessBroken settings s.spec z ns p) := by
  obtain ⟨status, now, trace, r⟩ := p
  dsimp only at hs hnow hplan h hfails ⊢
  have hreads := parse_of_plan hz hs hplan hidle
  obtain ⟨target, htarget⟩ := target_of_plan hv hreads
  obtain ⟨direction, supersedes, hplans⟩ := plans_of_planScaling htarget hplan hidle
  rw [reconcile_status hns hv hparse] at h
  rcases runs_runSteps h with ⟨x, -, hx⟩ | ⟨scaled, first, rest, rfl, hscaled, hrest⟩
  · -- the plan is made, so the scaling comes to a result
    obtain ⟨scaled, hscaled⟩ := hx.ok_of_completes (completes_runScaling .start hplan)
    cases hscaled
  rcases runs_runScaling hscaled with ⟨-, hnot⟩ | ⟨target', direction, supersedes, f, observed,
    hplans', rfl, ⟨e, hrun, -, rfl⟩ | ⟨outcome, _, hrun, -, -⟩⟩
  · exact absurd hplans (hnot _ _ _)
  · refine ⟨direction, supersedes, e, ⟨target', f, _, hplans', List.append_assoc .., hrun⟩, ?_⟩
    intro htransient hkeeps
    have hschedules : ∃ schedule ∈ s.spec.schedules, ∃ e,
        CronExpression.parse schedule = .ok e := by
      obtain ⟨schedule, hmem, he⟩ := hreads
      simp only [List.mem_cons, List.not_mem_nil, or_false] at hmem
      exact ⟨schedule, by rcases hmem with rfl | rfl <;> simp [ScheduleSpec.schedules], he⟩
    exact requeues_of_transientFailure hscaled (by simp [Progress.fail, htransient]) hrest
      (exists_nextWake_iff hnow hschedules) hkeeps
  · exact absurd (scales_iff_attempts.2 ⟨outcome, target', f, _, hplans', List.append_assoc ..,
      hrun⟩) (hfails direction supersedes)

end Pass

/-! ## Passes in turn -/

section
variable {zones : Zone.Lookup} {registry : Registry} {settings : Settings} {s : Schedule}
  {ns : String} {z : Zone} {status : ScheduleStatus} {now : Instant} {plan : ScalingPlan}
  {passes : List PassRecord}

/-- A scaling that is due is never dropped, in a steady zone with short offsets. While none succeeds,
each pass attempts one, whatever fails, and whatever the cleanup does and writes. A failure that may
pass brings the next pass after the retry time at the latest, unless the cleanup leaves the range of
times or durations or this is the last second of time. -/
theorem due_scaling_is_tried_again (hns : s.metadata.ns = some ns)
    (hv : s.spec.validate zones = .ok ()) (hparse : Zone.parse s.spec.timeZone zones = .ok z)
    (hz : z.Steady) (hshort : z.IsShort) (hs : status.HasNamedTimes)
    (hplan : planScaling s.spec.scaleDown s.spec.scaleUp z status.lastScaleDown status.lastScaleUp
      now = .ok plan) (hidle : plan ≠ .idle)
    (hpasses : InTurn zones registry settings s status passes)
    (htimes : ∀ p ∈ passes, p.now.IsNamed ∧ now ≤ p.now)
    (hfails : ∀ p ∈ passes, ∀ direction supersedes,
      ¬ Scales s.spec z p.status p.now p.trace direction supersedes) :
    ∀ p ∈ passes, ∃ direction supersedes e,
      Attempts s.spec z p.status p.now p.trace direction supersedes (.error e) ∧
        (e.isTransient = true → KeepsStatus p.trace →
          RequeuesUnlessBroken settings s.spec z ns p) := by
  induction hpasses with
  | nil => exact fun p hp => absurd hp List.not_mem_nil
  | @cons status time trace r later hrun hlater ih =>
    obtain ⟨⟨hnamed, hle⟩, hlaterTimes⟩ := List.forall_mem_cons.1 htimes
    obtain ⟨hnot, hlaterFails⟩ := List.forall_mem_cons.1 hfails
    refine List.forall_mem_cons.2 ⟨?_, ?_⟩
    · obtain ⟨plan', hplan', hidle'⟩ := planScaling_of_le hz hshort
        (isNamed_getD hs.scaleDown).isValid hnamed hle hplan hidle
      exact attempts_of_plan hns hv hparse hz hs hnamed hplan' hidle' hrun hnot
    · -- the times of scaling are as they were, so the same is due
      obtain ⟨hafter, ⟨hdown, hup⟩ | ⟨direction, supersedes, hscales, -⟩⟩ :=
        records_of_reconcile hv hparse hs hnamed hrun
      · rw [← hdown, ← hup] at hplan
        exact ih hafter hplan hlaterTimes hlaterFails
      · exact absurd hscales (hnot direction supersedes)

end

/-! ## A workload that is missing -/

/-- A scaling fails as its first fetch does. -/
theorem Pass.Attempts.of_fetchFailure {spec : ScheduleSpec} {z : Zone} {status : ScheduleStatus}
    {now : Instant} {trace : List Exchange} {direction : Direction} {supersedes : Bool}
    {result : Except Failure ScaleOutcome} {e : Failure}
    (h : Attempts spec z status now trace direction supersedes result)
    (hfetch : trace.head?.bind Exchange.fetchFailure? = some e) : result = .error e := by
  obtain ⟨target, first, rest, -, rfl, hrun⟩ := h
  rw [Scaling.scale_run] at hrun
  obtain ⟨answer, first, rfl, hafter⟩ := runs_call.1 hrun
  cases answer with
  | ok w => cases hfetch
  | error e' =>
    obtain rfl := Option.some.inj hfetch
    exact Except.ok.inj (runs_done.1 hafter).2

/-- The failure when there is no workload to scale. -/
def missing : Failure := MemoryStore.notFound ⟨"web", "shop", "Deployment", "apps/v1"⟩

/-- The pass in the evening without a workload, -/
def missedEvening : PassRecord := passOver Zone.find? [] nightly .empty evening .empty

/-- and the one in the morning, when scaling up has become the scaling to do. -/
def missedMorning : PassRecord :=
  passOver Zone.find? [] nightly (.after .empty missedEvening.trace) morning .empty

theorem not_scales_of_missed {p : PassRecord} (hp : p ∈ [missedEvening, missedMorning])
    (direction : Direction) (supersedes : Bool) :
    ¬ Scales nightly.spec .utc p.status p.now p.trace direction supersedes := by
  have hfetch : ∀ p ∈ [missedEvening, missedMorning],
      p.trace.head?.bind Exchange.fetchFailure? = some missing := by decide +kernel
  intro hscales
  obtain ⟨outcome, hattempts⟩ := scales_iff_attempts.1 hscales
  cases hattempts.of_fetchFailure (hfetch p hp)

theorem due_scaling_is_tried_again_missed :
    InTurn Zone.find? [] .default nightly .empty [missedEvening, missedMorning] ∧
      ∀ p ∈ [missedEvening, missedMorning], ∃ direction supersedes e,
        Attempts nightly.spec .utc p.status p.now p.trace direction supersedes (.error e) ∧
          (e.isTransient = true → KeepsStatus p.trace →
            RequeuesUnlessBroken .default nightly.spec .utc "shop" p) := by
  have hturn : InTurn Zone.find? [] .default nightly .empty [missedEvening, missedMorning] :=
    .passOver (.passOver .nil)
  have hplan : planScaling nightly.spec.scaleDown nightly.spec.scaleUp .utc none none evening =
      .ok (.scaleDown true) := by decide +kernel
  have htimes : ∀ p ∈ [missedEvening, missedMorning], p.now.IsNamed ∧ evening ≤ p.now := by
    simp only [List.forall_mem_cons, missedEvening, missedMorning, now_passOver]
    exact ⟨⟨isOrdinary_evening.isNamed, by decide⟩, ⟨isOrdinary_morning.isNamed, by decide⟩,
      fun p hp => absurd hp List.not_mem_nil⟩
  exact ⟨hturn, due_scaling_is_tried_again rfl validate_nightly parse_utc
    Zone.isConstant_utc.steady Zone.isConstant_utc.short ScheduleStatus.hasNamedTimes_empty hplan
    (by decide) hturn htimes fun p hp => not_scales_of_missed hp⟩

/-! ## A scaling that fails beside a resource that is kept for 300000 years -/

/-- The pass that scales and cleans up, without the workload. -/
def brokenPass : PassRecord :=
  passOver Zone.find? relicStore.registry tidied .empty evening { relicStore with workloads := [] }

/-- The scaling is due, and fails because its workload is missing, which may pass; no write of the
status fails. Yet the pass breaks off at the resource, and does not ask for the next pass. -/
theorem failed_scaling_is_not_requeued :
    tidied.spec.validate = .ok () ∧
      planScaling tidied.spec.scaleDown tidied.spec.scaleUp .utc none none evening =
        .ok (.scaleDown true) ∧
      InTurn Zone.find? relicStore.registry .default tidied .empty [brokenPass] ∧
      (∀ direction supersedes,
        ¬ Scales tidied.spec .utc .empty evening brokenPass.trace direction supersedes) ∧
      (∃ direction supersedes, Attempts tidied.spec .utc .empty evening brokenPass.trace direction
        supersedes (.error missing)) ∧
      missing.isTransient = true ∧ KeepsStatus brokenPass.trace ∧
      ∀ w, brokenPass.result ≠ .ok (.ok (.requeue w)) := by
  have hplan : planScaling tidied.spec.scaleDown tidied.spec.scaleUp .utc none none evening =
      .ok (.scaleDown true) := by decide +kernel
  obtain ⟨hfetch, hkeeps, hresult⟩ :
      brokenPass.trace.head?.bind Exchange.fetchFailure? = some missing ∧
        KeepsStatus brokenPass.trace ∧ brokenPass.result = .error .instantPlus := by
    decide +kernel
  have hfails (direction : Direction) (supersedes : Bool) :
      ¬ Scales tidied.spec .utc .empty evening brokenPass.trace direction supersedes := by
    intro hscales
    obtain ⟨outcome, hattempts⟩ := scales_iff_attempts.1 hscales
    cases hattempts.of_fetchFailure hfetch
  obtain ⟨direction, supersedes, e, hattempts, -⟩ := attempts_of_plan (p := brokenPass) rfl
    validate_tidied parse_utc Zone.isConstant_utc.steady ScheduleStatus.hasNamedTimes_empty
    isOrdinary_evening.isNamed hplan (by decide) (runs_trace MemoryStore.handler _ _) hfails
  obtain rfl := Except.error.inj (hattempts.of_fetchFailure hfetch)
  refine ⟨validate_tidied, hplan, .passOver .nil, hfails, ⟨direction, supersedes, hattempts⟩, rfl,
    hkeeps, ?_⟩
  intro w hw
  rw [hresult] at hw
  cases hw

end ScheduledScaling
