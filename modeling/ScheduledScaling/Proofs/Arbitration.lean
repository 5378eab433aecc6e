import Mathlib.Order.Bounds.Basic
import ScheduledScaling.Proofs.Constant
import ScheduledScaling.Proofs.Wake
/-!
# What is due, and which goes first

In a zone of one offset an action is due exactly if an occurrence was reached since its last run
(`isDue_spec`). With the greatest occurrences of both schedules up to now, a plan can then be told
from four numbers: `planScaling_eq`.
-/
namespace ScheduledScaling

variable {z : Zone} {now : Instant}

/-- An occurrence lies after `a`, and not after `b`. -/
def Cron.FiresWithin (c : Cron) (z : Zone) (a b : Int) : Prop := ∃ s, c.Fires z s ∧ a < s ∧ s ≤ b

/-- The last occurrence up to a second. -/
abbrev Cron.IsLatest (c : Cron) (z : Zone) (limit o : Int) : Prop :=
  IsGreatest {s | c.Fires z s ∧ s ≤ limit} o

/-- The second from which the occurrences of an action count. -/
def anchor (last : Option Instant) : Int := (last.getD .epoch).second

namespace Cron
variable {c : Cron} {a b o : Int}

/-- Whether there is an occurrence since `a` is told by the last one. -/
theorem IsLatest.firesWithin_iff (h : c.IsLatest z b o) : c.FiresWithin z a b ↔ a < o := by
  constructor
  · rintro ⟨s, hs, hlt, hle⟩
    exact hlt.trans_le (h.2 ⟨hs, hle⟩)
  · intro hlt
    exact ⟨o, h.1.1, hlt, h.1.2⟩

/-- A second without later occurrences up to another has the same last one. -/
theorem IsLatest.mono {b' : Int} (h : c.IsLatest z b' o) (hob : o ≤ b) (hb : b ≤ b') :
    c.IsLatest z b o := by
  refine ⟨⟨h.1.1, hob⟩, ?_⟩
  rintro s ⟨hs, hle⟩
  exact h.2 ⟨hs, hle.trans hb⟩

end Cron

section Due
variable {schedule : String} {e : CronExpression} {last : Option Instant}

/-- An action is due exactly if an occurrence was reached since its last run. -/
theorem isDue_spec (now : Instant) (he : CronExpression.parse schedule = .ok e) (hz : z.IsConstant)
    (hlast : (last.getD .epoch).IsOrdinary) :
    ∃ due, isDue schedule z last now = .ok due ∧
      (due = true ↔ e.cron.FiresWithin z (anchor last) now.second) := by
  have heq : isDue schedule z last now =
      (e.nextAfter z (last.getD .epoch)).map fun next => next.any fun t => decide (t ≤ now) := by
    unfold isDue
    rw [nextOccurrence_eq he]
    rfl
  rw [heq]
  rcases CronExpression.nextAfter_spec (Cron.ordered_of_parse he) hz hlast with
    ⟨o, ho, ⟨hfires, hlt⟩, hleast⟩ | ⟨hn, hnone⟩
  · rw [ho]
    refine ⟨_, rfl, ?_⟩
    simp only [Option.any_some, decide_eq_true_eq, Instant.whole_le]
    constructor
    · intro hle
      exact ⟨o, hfires, hlt, hle⟩
    · rintro ⟨s, hs, hlt', hle⟩
      exact (hleast ⟨hs, hlt'⟩).trans hle
  · rw [hn]
    refine ⟨_, rfl, ?_⟩
    simp only [Option.any_none, Bool.false_eq_true, false_iff]
    rintro ⟨s, hs, hlt, -⟩
    exact hnone s hs hlt

/-- The last occurrence is found if it does not lie too far back. -/
theorem latestOccurrence_eq (he : CronExpression.parse schedule = .ok e) (hz : z.IsConstant)
    (hnow : now.IsOrdinary) {o : Int} (ho : e.cron.IsLatest z now.second o)
    (hrecent : now.second - CronExpression.maxLookback < o) :
    latestOccurrence schedule z now = .ok (some ⟨o, 0⟩) := by
  unfold latestOccurrence
  rw [he]
  rcases CronExpression.latestAtOrBefore_spec (Cron.ordered_of_parse he) hz hnow.hasPast with
    ⟨o', ho', -, hgreatest⟩ | ⟨-, hnone⟩
  · obtain rfl := hgreatest.unique ho
    exact ho'
  · rw [Instant.backFrom_of_isPlain hnow.plain] at hnone
    exact absurd ho.1.2 (hnone o ho.1.1 hrecent)

end Due

/-! ## The plan -/

theorem isLater_whole {a b : Int} : isLater (some ⟨a, 0⟩) (some ⟨b, 0⟩) = decide (b < a) := by
  rw [isLater, decide_eq_decide, Instant.lt_whole]

section Plan
variable {down up : String} {d u : CronExpression} {lastDown lastUp : Option Instant} {dAt uAt : Int}

/-- The plan for two actions that count from `a` and `b`, and whose last occurrences are `d` and
`u`. -/
def planFrom (a b d u : Int) : ScalingPlan :=
  if a < d then
    if b < u then if d < u then .scaleUp true else .scaleDown true
    else .scaleDown false
  else if b < u then .scaleUp false
  else .idle

theorem planScaling_eq (hd : CronExpression.parse down = .ok d)
    (hu : CronExpression.parse up = .ok u) (hz : z.IsConstant) (hnow : now.IsOrdinary)
    (hlastDown : (lastDown.getD .epoch).IsOrdinary) (hlastUp : (lastUp.getD .epoch).IsOrdinary)
    (hdAt : d.cron.IsLatest z now.second dAt) (huAt : u.cron.IsLatest z now.second uAt)
    (hdRecent : now.second - CronExpression.maxLookback < dAt)
    (huRecent : now.second - CronExpression.maxLookback < uAt) :
    planScaling down up z lastDown lastUp now =
      .ok (planFrom (anchor lastDown) (anchor lastUp) dAt uAt) := by
  obtain ⟨downDue, hdownDue, hdown⟩ := isDue_spec now hd hz hlastDown
  obtain ⟨upDue, hupDue, hup⟩ := isDue_spec now hu hz hlastUp
  rw [hdAt.firesWithin_iff] at hdown
  rw [huAt.firesWithin_iff] at hup
  unfold planScaling planFrom
  rw [hdownDue, hupDue]
  cases downDue with
  | false =>
    rw [if_neg fun h => absurd (hdown.2 h) Bool.false_ne_true]
    cases upDue with
    | false =>
      rw [if_neg fun h => absurd (hup.2 h) Bool.false_ne_true]
      rfl
    | true =>
      rw [if_pos (hup.1 rfl)]
      rfl
  | true =>
    rw [if_pos (hdown.1 rfl)]
    cases upDue with
    | false =>
      rw [if_neg fun h => absurd (hup.2 h) Bool.false_ne_true]
      rfl
    | true =>
      -- Both are due, and the later of the last occurrences decides.
      rw [if_pos (hup.1 rfl)]
      change (latestOccurrence down z now >>= fun lastDownAt => latestOccurrence up z now >>=
        fun lastUpAt => pure (if isLater lastUpAt lastDownAt then _ else _)) = _
      rw [latestOccurrence_eq hd hz hnow hdAt hdRecent,
        latestOccurrence_eq hu hz hnow huAt huRecent]
      change Except.ok (if isLater _ _ then _ else _) = _
      simp only [isLater_whole, decide_eq_true_eq]

end Plan

end ScheduledScaling
