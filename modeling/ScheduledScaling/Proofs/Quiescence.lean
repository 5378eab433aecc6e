import ScheduledScaling.Proofs.Series
/-!
# A settled schedule

A pass at rest makes no call (`trace_of_atRest`). In a zone of one offset, a pass in which nothing
failed leaves a status that is at rest until one of the schedules has its next occurrence
(`atRest_of_nothingFailed`): what was due has been recorded, also if the other action superseded it,
and what was not due comes due by an occurrence only. So the passes up to then make no call at all:
`settled_schedule_stays_quiet`.
-/
namespace ScheduledScaling

open Pass Program

namespace Pass
variable {registry : Registry} {settings : Settings} {s : Schedule} {spec : ScheduleSpec}
  {ns : String} {z : Zone} {status : ScheduleStatus} {now later : Instant} {trace : List Exchange}
  {progress : Progress}

/-! ## Rest -/

/-- Nothing is due about which a pass could do something: no scaling of a target, and no cleanup that
has somewhere to look. -/
structure AtRest (spec : ScheduleSpec) (z : Zone) (ns : String) (status : ScheduleStatus)
    (now : Instant) : Prop where
  scaling : ∀ target ∈ spec.target, isDue spec.scaleDown z status.lastScaleDown now ≠ .ok true ∧
    isDue spec.scaleUp z status.lastScaleUp now ≠ .ok true
  cleanup : ∀ config ∈ spec.cleanupConfig, isDue spec.cleanup z status.lastCleanup now = .ok true →
    ∃ e, Cleanup.namespacesOf config ns = .error e

theorem runs_runScaling_of_atRest {r : Except Overflow Progress} (hrest : AtRest spec z ns status now)
    (h : Runs (runScaling spec z status now progress) trace r) :
    trace = [] ∧ ∀ scaled, r = .ok scaled → scaled = progress := by
  unfold runScaling at h
  cases htarget : spec.target with
  | none =>
    rw [htarget] at h
    obtain ⟨rfl, rfl⟩ := runs_pure.1 h
    exact ⟨rfl, fun scaled hr => (Except.ok.inj hr).symm⟩
  | some target =>
    rw [htarget] at h
    rcases runs_lift_bind.1 h with ⟨plan, hplan, h⟩ | ⟨x, -, rfl, rfl⟩
    · obtain ⟨hdown, hup⟩ := due_of_planScaling hplan
      obtain ⟨hnotDown, hnotUp⟩ := hrest.scaling target htarget
      have hidle : plan = .idle := by
        rw [eq_idle_iff, ← Bool.not_eq_true, ← Bool.not_eq_true]
        exact ⟨fun hdue => hnotDown (hdue ▸ hdown), fun hdue => hnotUp (hdue ▸ hup)⟩
      subst hidle
      obtain ⟨rfl, rfl⟩ := runs_pure.1 h
      exact ⟨rfl, fun scaled hr => (Except.ok.inj hr).symm⟩
    · exact ⟨rfl, fun scaled hr => by cases hr⟩

theorem runs_runCleanup_of_atRest {r : Except Overflow Progress} (hrest : AtRest spec z ns status now)
    (h : Runs (runCleanup registry spec z ns status now progress) trace r) :
    trace = [] ∧ ∀ progress', r = .ok progress' → progress'.succeeded = progress.succeeded := by
  obtain ⟨result, hresult, rfl⟩ := runs_runCleanup.1 h
  rcases runs_cleanupResult hresult with ⟨x, -, rfl, rfl⟩ | ⟨due, -, -, rfl, rfl⟩ |
    ⟨config, r, hdue, hconfig, hrun, rfl⟩
  · exact ⟨rfl, fun progress' hr => by cases hr⟩
  · refine ⟨rfl, fun progress' hr => ?_⟩
    rw [← Except.ok.inj hr]
    rfl
  · -- the cleanup is due but has nowhere to look
    obtain ⟨e, hnamespaces⟩ := hrest.cleanup config hconfig hdue
    rw [Cleanup.run_of_namespacesOf registry config hnamespaces] at hrun
    obtain ⟨rfl, rfl⟩ := runs_pure.1 hrun
    refine ⟨rfl, fun progress' hr => ?_⟩
    rw [← Except.ok.inj hr]
    rfl

/-- A pass at rest makes no call. -/
theorem trace_of_atRest {r : Except Overflow (Except Failure Action)}
    (hrest : AtRest s.spec z ns s.recorded now)
    (h : Runs (runSteps registry settings s ns z now).run trace r) : trace = [] := by
  rcases runs_runSteps h with ⟨x, -, hx⟩ | ⟨scaled, first, rest, rfl, hscaled, hafter⟩
  · exact (runs_runScaling_of_atRest hrest hx).1
  obtain ⟨rfl, hscaledEq⟩ := runs_runScaling_of_atRest hrest hscaled
  obtain rfl := hscaledEq scaled rfl
  rcases hafter with ⟨x, -, hx⟩ | ⟨progress, middle, last, written, rfl, hprogress, hwritten, -⟩
  · exact (runs_runCleanup_of_atRest hrest hx).1
  obtain ⟨rfl, hsucceeded⟩ := runs_runCleanup_of_atRest hrest hprogress
  rcases runs_writeStatus.1 hwritten with ⟨-, rfl, -⟩ | ⟨hpos, -⟩
  · rfl
  · rw [hsucceeded progress rfl] at hpos
    exact absurd hpos (Nat.lt_irrefl 0)

/-! ## After a pass -/

/-- What was due is recorded, and what was not due comes due by an occurrence only. -/
theorem not_due_of_recording {schedule : String} {last : Option Instant} {due : Bool}
    (hz : z.IsConstant) (hlast : ∀ t ∈ last, t.IsNamed) (hnow : now.IsNamed)
    (hdue : isDue schedule z last now = .ok due) (hquiet : IsQuiet schedule z now later) :
    isDue schedule z (if due then some (advance last now) else last) later ≠ .ok true := by
  cases due with
  | false => exact not_due_of_quiet hz.steady (isNamed_getD hlast).isValid hquiet hdue
  | true =>
    exact not_due_of_recorded hz (isNamed_advance hlast hnow).isValid (le_advance last now) hquiet

/-- A pass in which nothing failed leaves a status that is at rest until an occurrence comes. -/
theorem atRest_of_nothingFailed {r : Except Overflow (Except Failure Action)} (hz : z.IsConstant)
    (hs : s.recorded.HasNamedTimes) (hnow : now.IsNamed)
    (h : Runs (runSteps registry settings s ns z now).run trace r)
    (hdone : NothingFailed s.spec z ns s.recorded now trace)
    (hquiet : ∀ schedule ∈ s.spec.schedules, IsQuiet schedule z now later) :
    AtRest s.spec z ns (s.recorded.after trace) later := by
  simp only [ScheduleSpec.schedules, List.forall_mem_cons] at hquiet
  obtain ⟨hquietDown, hquietUp, hquietCleanup, -⟩ := hquiet
  constructor
  · intro target htarget
    obtain ⟨plan, hplan, hdown, hup⟩ := recorded_of_nothingFailed hs hnow htarget h hdone
    obtain ⟨hdownDue, hupDue⟩ := due_of_planScaling hplan
    rw [hdown, hup]
    exact ⟨not_due_of_recording hz hs.scaleDown hnow hdownDue hquietDown,
      not_due_of_recording hz hs.scaleUp hnow hupDue hquietUp⟩
  · intro config hconfig hlater
    obtain ⟨due, hdue, hkept, hrecorded⟩ := cleanup_of_nothingFailed hs hnow h hdone
    have hnot := not_due_of_recording hz hs.cleanup hnow hdue hquietCleanup
    cases due with
    | false =>
      rw [hkept rfl] at hlater
      exact absurd hlater hnot
    | true =>
      rcases hrecorded rfl config hconfig with hnowhere | hlast
      · exact hnowhere
      · rw [hlast] at hlater
        exact absurd hlater hnot

end Pass

/-! ## The passes after it -/

section
variable {zones : Zone.Lookup} {registry : Registry} {settings : Settings} {s : Schedule}
  {ns : String} {z : Zone} {status : ScheduleStatus} {now : Instant} {trace : List Exchange}
  {passes : List PassRecord}

/-- Passes at rest, one after the other, leave the status as it is, so none of them makes a call. -/
theorem traces_of_atRest (hns : s.metadata.ns = some ns) (hv : s.spec.validate zones = .ok ())
    (hparse : Zone.parse s.spec.timeZone zones = .ok z)
    (hpasses : InTurn zones registry settings s status passes)
    (hrest : ∀ p ∈ passes, AtRest s.spec z ns status p.now) : ∀ p ∈ passes, p.trace = [] := by
  induction hpasses with
  | nil => exact fun p hp => absurd hp List.not_mem_nil
  | cons hrun hlater ih =>
    obtain ⟨hfirst, hothers⟩ := List.forall_mem_cons.1 hrest
    rw [reconcile_status hns hv hparse] at hrun
    have htrace := trace_of_atRest hfirst hrun
    rw [htrace] at ih
    exact List.forall_mem_cons.2 ⟨htrace, ih hothers⟩

/-- Outside of namespaces a pass makes no call. -/
theorem trace_of_no_namespace {r : Except Overflow (Except Failure Action)}
    (hns : s.metadata.ns = none)
    (h : Runs (reconcile registry settings { s with status := some status } now zones).run trace r) :
    trace = [] := by
  unfold reconcile at h
  simp only [hns] at h
  exact (runs_done.1 h).1

/-- In a zone of one offset, a pass in which nothing failed settles the schedule. The passes after it,
at instants up to which none of the schedules has an occurrence, make no call: they fetch, replace,
list, delete and write nothing, also in the same instant and if the scaling of the first pass
superseded the other one. -/
theorem settled_schedule_stays_quiet {r : Except Overflow (Except Failure Action)}
    (hv : s.spec.validate zones = .ok ()) (hparse : Zone.parse s.spec.timeZone zones = .ok z)
    (hz : z.IsConstant) (hs : status.HasNamedTimes) (hnow : now.IsNamed)
    (h : Runs (reconcile registry settings { s with status := some status } now zones).run trace r)
    (hdone : ∀ ns ∈ s.metadata.ns, NothingFailed s.spec z ns status now trace)
    (hpasses : InTurn zones registry settings s (status.after trace) passes)
    (hquiet : ∀ p ∈ passes, ∀ schedule ∈ s.spec.schedules, IsQuiet schedule z now p.now) :
    ∀ p ∈ passes, p.trace = [] := by
  cases hns : s.metadata.ns with
  | none => exact fun p hp => trace_of_no_namespace hns (hpasses.runs_of_mem p hp)
  | some ns =>
    have hrecorded : ({ s with status := some status } : Schedule).recorded.HasNamedTimes := hs
    rw [reconcile_status hns hv hparse] at h
    exact traces_of_atRest hns hv hparse hpasses fun p hp =>
      atRest_of_nothingFailed hz hrecorded hnow h (hdone ns hns) (hquiet p hp)

end

/-! ## The night after a scaling -/

/-- Midnight after that evening. -/
def midnight : Instant := ⟨1741651200, 0⟩

/-- The pass in the evening is repeated at once. -/
def repeatedPass : PassRecord := passOver Zone.find? [] nightly eveningStatus evening morningStore

/-- After that, the schedule is passed over at midnight. -/
def midnightPass : PassRecord :=
  passOver Zone.find? [] nightly (eveningStatus.after repeatedPass.trace) midnight morningStore

theorem inTurn_night :
    InTurn Zone.find? [] .default nightly eveningStatus [repeatedPass, midnightPass] :=
  .passOver (.passOver .nil)

/-- Nothing is scheduled from that evening up to midnight. -/
theorem isQuiet_night {later : Instant} (hlater : later ≤ midnight) :
    ∀ schedule ∈ nightly.spec.schedules, IsQuiet schedule .utc evening later := by
  have hnext : ∀ schedule ∈ nightly.spec.schedules, ∃ next,
      nextOccurrence schedule .utc evening = .ok next ∧ ∀ o ∈ next, midnight < o := by
    simp only [ScheduleSpec.schedules, List.forall_mem_cons]
    exact ⟨⟨some ⟨1741730400, 0⟩, by decide +kernel, by decide⟩,
      ⟨some ⟨1741672800, 0⟩, by decide +kernel, by decide⟩, ⟨none, by decide +kernel, by decide⟩,
      fun schedule hschedule => absurd hschedule List.not_mem_nil⟩
  intro schedule hschedule
  obtain ⟨next, hnext, hmidnight⟩ := hnext schedule hschedule
  apply isQuiet_of_nextOccurrence Zone.isConstant_utc isOrdinary_evening hnext
  intro o ho
  rw [Instant.lt_iff_not_le]
  exact fun hle => Instant.lt_iff_not_le.1 (hmidnight o ho) (Instant.le_trans hle hlater)

/-- The pass in the evening has scaled down, and this superseded scaling up. -/
theorem not_attempts_evening {direction : Direction} {supersedes : Bool} {e : Failure} :
    ¬ Attempts nightly.spec .utc .empty evening (eveningPass.trace MemoryStore.handler nightlyStore)
      direction supersedes (.error e) := by
  intro hfails
  have hrecords := records_of_reconcile validate_nightly parse_utc
    ScheduleStatus.hasNamedTimes_empty isOrdinary_evening.isNamed
    (runs_trace MemoryStore.handler eveningPass nightlyStore)
  rcases hrecords.2 with ⟨hsame, -⟩ | ⟨direction', supersedes', hscales, -⟩
  · exact absurd hsame (by decide +kernel)
  · obtain ⟨outcome, hsucceeds⟩ := scales_iff_attempts.1 hscales
    cases (hfails.unique hsucceeds).2.2

/-- Nothing has failed in that pass. -/
theorem nothingFailed_evening : NothingFailed nightly.spec .utc "shop" .empty evening
    (eveningPass.trace MemoryStore.handler nightlyStore) where
  plans target _ := ⟨.scaleDown true, by decide +kernel⟩
  scales _ _ _ := not_attempts_evening
  cleans := by
    have hdue : isDue nightly.spec.cleanup .utc none evening = .ok false := by decide +kernel
    exact not_cleanupOverruns_of_idle hdue (by decide)
  writes := by decide +kernel

theorem settled_schedule_stays_quiet_nightly :
    InTurn Zone.find? [] .default nightly eveningStatus [repeatedPass, midnightPass] ∧
      ∀ p ∈ [repeatedPass, midnightPass], p.trace = [] := by
  have htimes : ∀ p ∈ [repeatedPass, midnightPass], p.now ≤ midnight := by
    simp only [List.forall_mem_cons, repeatedPass, midnightPass, now_passOver]
    exact ⟨by decide, by decide, fun p hp => absurd hp List.not_mem_nil⟩
  refine ⟨inTurn_night, ?_⟩
  apply settled_schedule_stays_quiet validate_nightly parse_utc Zone.isConstant_utc
    ScheduleStatus.hasNamedTimes_empty isOrdinary_evening.isNamed
    (runs_trace MemoryStore.handler eveningPass nightlyStore)
  · intro ns hns
    obtain rfl : "shop" = ns := Option.some.inj hns
    exact nothingFailed_evening
  · exact inTurn_night
  · exact fun p hp => isQuiet_night (htimes p hp)

end ScheduledScaling
