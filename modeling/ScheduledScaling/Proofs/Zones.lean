import Mathlib.Data.Int.Order.Basic
import Mathlib.Data.List.Chain
import ScheduledScaling.Cron.Expression
/-!
# Wall times of a zone

What clocks in a zone show, and which instants show a wall time. Two things are asked of a zone where
they are needed. A zone is `Steady`: its changes are in order, and a clock that falls back does not fall
behind the last change before. And it `IsShort`: its offsets are shorter than a day.

- `mem_secondsAt`, `head_secondsAt`: the instants of a wall time are those at which clocks show
  it, the first one first.
- `shown_before`: a clock that shows less than it did earlier shows what it has shown before.
-/
namespace ScheduledScaling.Zone

/-- Each change comes after the one before it and at no earlier wall time. -/
def Steady (z : Zone) : Prop :=
  z.changes.IsChain fun a b => a.1 < b.1 ∧ a.1 + a.2 ≤ b.1 + b.2

/-- Clocks show what they have shown before. -/
def Repeats (z : Zone) (s : Int) : Prop := ∃ r, r < s ∧ z.wallAt r = z.wallAt s

instance (z : Zone) : Decidable z.Steady := by unfold Steady; infer_instance

/-! ## The instants of a wall time -/

section Spans
variable {wall offset s : Int} {start : Option Int}

/-- The span after the last change has no end. -/
theorem mem_secondsFrom_nil :
    s ∈ secondsFrom wall start offset [] ↔ start.all (· ≤ s) ∧ s + offset = wall := by
  have heq : s = wall - offset ↔ s + offset = wall := by omega
  rw [secondsFrom, ← heq]
  split
  · rename_i h
    rw [List.mem_singleton]
    constructor
    · rintro rfl
      exact ⟨h, rfl⟩
    · exact And.right
  · rename_i h
    constructor
    · intro hm
      cases hm
    · rintro ⟨hs, rfl⟩
      exact absurd hs h

/-- A span before a change shows a wall time once, or not at all. -/
theorem mem_secondsFrom_cons {stop next : Int} {later : List (Int × Int)} :
    s ∈ secondsFrom wall start offset ((stop, next) :: later) ↔
      (start.all (· ≤ s) ∧ s < stop ∧ s + offset = wall) ∨
        s ∈ secondsFrom wall (some stop) next later := by
  have heq : s = wall - offset ↔ s + offset = wall := by omega
  simp only [secondsFrom, ← heq]
  split
  · rename_i h
    simp only [Bool.and_eq_true, decide_eq_true_eq] at h
    rw [List.mem_cons]
    constructor
    · rintro (rfl | hm)
      · exact .inl ⟨h.1, h.2, rfl⟩
      · exact .inr hm
    · rintro (⟨-, -, rfl⟩ | hm)
      · exact .inl rfl
      · exact .inr hm
  · rename_i h
    simp only [Bool.and_eq_true, decide_eq_true_eq] at h
    constructor
    · exact .inr
    · rintro (⟨hs, hstop, rfl⟩ | hm)
      · exact absurd ⟨hs, hstop⟩ h
      · exact hm

theorem mem_secondsFrom {changes : List (Int × Int)}
    (hc : changes.Pairwise fun a b => a.1 < b.1) (hs : ∀ c ∈ changes, start.all (· ≤ c.1)) :
    s ∈ secondsFrom wall start offset changes ↔
      start.all (· ≤ s) ∧ s + offsetFrom offset s changes = wall := by
  induction changes generalizing start offset with
  | nil => rw [mem_secondsFrom_nil, offsetFrom]
  | cons c later ih =>
    obtain ⟨stop, next⟩ := c
    rw [List.pairwise_cons] at hc
    have htail : s ∈ secondsFrom wall (some stop) next later ↔
        stop ≤ s ∧ s + offsetFrom next s later = wall := by
      rw [ih hc.2 fun c h => by simpa using (hc.1 c h).le]
      simp
    rw [mem_secondsFrom_cons, htail, offsetFrom]
    by_cases hstop : stop ≤ s
    · -- The instant is after the change, so it is after the start of the span as well.
      have hstart : start.all (· ≤ s) := by
        have hfirst := hs _ List.mem_cons_self
        cases start with
        | none => rfl
        | some t =>
          simp only [Option.all_some, decide_eq_true_eq] at hfirst ⊢
          omega
      have hnot : ¬ s < stop := Int.not_lt.2 hstop
      simp [hstop, hstart, hnot]
    · have hlt : s < stop := Int.not_le.1 hstop
      simp [hstop, hlt]

end Spans

theorem pairwise_secondsFrom {wall offset : Int} {start : Option Int} {changes : List (Int × Int)}
    (hc : changes.Pairwise fun a b => a.1 < b.1) :
    (secondsFrom wall start offset changes).Pairwise (· < ·) := by
  induction changes generalizing start offset with
  | nil =>
    rw [secondsFrom]
    split
    · exact List.pairwise_singleton ..
    · exact .nil
  | cons c later ih =>
    obtain ⟨stop, next⟩ := c
    rw [List.pairwise_cons] at hc
    simp only [secondsFrom]
    split
    · rename_i h
      simp only [Bool.and_eq_true, decide_eq_true_eq] at h
      refine List.pairwise_cons.2 ⟨fun s hm => ?_, ih hc.2⟩
      rw [mem_secondsFrom hc.2 fun c h => by simpa using (hc.1 c h).le] at hm
      have := hm.1
      simp only [Option.all_some, decide_eq_true_eq] at this
      omega
    · exact ih hc.2

section Steady
variable {z : Zone}

theorem Steady.pairwise (hz : z.Steady) : z.changes.Pairwise fun a b => a.1 < b.1 := by
  have : IsTrans (Int × Int) fun a b => a.1 < b.1 := ⟨fun _ _ _ => lt_trans⟩
  exact List.isChain_iff_pairwise.1 (hz.imp fun _ _ h => h.1)

/-- The instants of a wall time are those at which clocks show it. -/
theorem mem_secondsAt (hz : z.Steady) {wall s : Int} : s ∈ z.secondsAt wall ↔ z.wallAt s = wall := by
  rw [secondsAt, mem_secondsFrom hz.pairwise fun _ _ => rfl]
  simp [wallAt, offsetAt]

theorem pairwise_secondsAt (hz : z.Steady) (wall : Int) : (z.secondsAt wall).Pairwise (· < ·) :=
  pairwise_secondsFrom hz.pairwise

theorem head_secondsAt (hz : z.Steady) {wall s : Int} (h : (z.secondsAt wall).head? = some s) :
    z.wallAt s = wall ∧ ∀ s', z.wallAt s' = wall → s ≤ s' := by
  have hp := pairwise_secondsAt hz wall
  obtain ⟨rest, hl⟩ := List.head?_eq_some_iff.1 h
  refine ⟨(mem_secondsAt hz).1 (hl ▸ List.mem_cons_self), fun s' hs' => ?_⟩
  have hm := (mem_secondsAt hz).2 hs'
  rw [hl] at hm hp
  rcases List.mem_cons.1 hm with rfl | hm
  · exact le_rfl
  · exact ((List.pairwise_cons.1 hp).1 s' hm).le

theorem shows_iff (hz : z.Steady) {wall : Int} : z.shows wall ↔ ∃ s, z.wallAt s = wall := by
  rw [shows, Bool.not_eq_true', List.isEmpty_eq_false_iff_exists_mem]
  exact exists_congr fun s => mem_secondsAt hz

/-! ## Clocks that fall back -/

/-- From a change on, clocks show nothing before its wall time. -/
theorem start_le_wall {start offset s : Int} {changes : List (Int × Int)}
    (hc : ((start, offset) :: changes).IsChain fun a b => a.1 < b.1 ∧ a.1 + a.2 ≤ b.1 + b.2)
    (hs : start ≤ s) : start + offset ≤ s + offsetFrom offset s changes := by
  induction changes generalizing start offset with
  | nil =>
    rw [offsetFrom]
    omega
  | cons c later ih =>
    obtain ⟨stop, next⟩ := c
    obtain ⟨⟨-, hw⟩, hc⟩ := List.isChain_cons_cons.1 hc
    rw [offsetFrom]
    split
    · rename_i h
      exact hw.trans (ih hc h)
    · omega

theorem shown_before_from {start offset s s' : Int} {changes : List (Int × Int)}
    (hc : ((start, offset) :: changes).IsChain fun a b => a.1 < b.1 ∧ a.1 + a.2 ≤ b.1 + b.2)
    (hs : start ≤ s) (h : s < s')
    (hw : s' + offsetFrom offset s' changes < s + offsetFrom offset s changes) :
    ∃ r, start ≤ r ∧ r < s ∧
      r + offsetFrom offset r changes = s' + offsetFrom offset s' changes := by
  induction changes generalizing start offset with
  | nil =>
    simp only [offsetFrom] at hw
    omega
  | cons c later ih =>
    obtain ⟨stop, next⟩ := c
    have hfloor := start_le_wall hc (hs.trans h.le)
    obtain ⟨⟨hlt, -⟩, hc'⟩ := List.isChain_cons_cons.1 hc
    by_cases h1 : stop ≤ s
    · -- Both are after the change.
      simp only [offsetFrom, if_pos h1, if_pos (h1.trans h.le)] at hw ⊢
      obtain ⟨r, hr, hrs, hrw⟩ := ih hc' h1 hw
      refine ⟨r, by omega, hrs, ?_⟩
      rw [if_pos hr, hrw]
    · -- The span before the change has shown it already.
      rw [offsetFrom, offsetFrom, if_neg h1] at hw
      rw [offsetFrom] at hfloor
      refine ⟨(s' + offsetFrom offset s' ((stop, next) :: later)) - offset, ?_, ?_, ?_⟩
      · rw [offsetFrom]
        omega
      · rw [offsetFrom]
        omega
      · generalize hw' : s' + offsetFrom offset s' ((stop, next) :: later) = w at *
        rw [offsetFrom] at hw'
        rw [offsetFrom, if_neg (by omega)]
        omega

/-- Clocks that show less than they did earlier show what they showed still earlier. -/
theorem shown_before (hz : z.Steady) {s s' : Int} (h : s < s') (hw : z.wallAt s' < z.wallAt s) :
    ∃ r, r < s ∧ z.wallAt r = z.wallAt s' := by
  -- The span before the first change has no start; one that is early enough will do.
  obtain ⟨start, hs, hc⟩ : ∃ start, start ≤ s ∧ ((start, z.initial) :: z.changes).IsChain
      fun a b => a.1 < b.1 ∧ a.1 + a.2 ≤ b.1 + b.2 := by
    unfold Steady at hz
    cases hcs : z.changes with
    | nil => exact ⟨s, le_rfl, .singleton _⟩
    | cons c later =>
      refine ⟨min s (min (c.1 - 1) (c.1 + c.2 - z.initial)), by omega, ?_⟩
      rw [hcs] at hz
      exact .cons_cons ⟨by simp only; omega, by simp only; omega⟩ hz
  obtain ⟨r, -, hr, hrw⟩ := shown_before_from hc hs h hw
  exact ⟨r, hr, hrw⟩

end Steady

/-! ## Offsets -/

/-- Offsets are shorter than a day. -/
def IsShort (z : Zone) : Prop := ∀ o ∈ z.initial :: z.changes.map (·.2), -86400 < o ∧ o < 86400

instance (z : Zone) : Decidable z.IsShort := by unfold IsShort; infer_instance

theorem offsetFrom_mem (offset s : Int) (changes : List (Int × Int)) :
    offsetFrom offset s changes ∈ offset :: changes.map (·.2) := by
  induction changes generalizing offset with
  | nil => exact List.mem_cons_self
  | cons c later ih =>
    obtain ⟨stop, next⟩ := c
    rw [offsetFrom]
    split
    · exact List.mem_cons_of_mem _ (ih next)
    · exact List.mem_cons_self

theorem IsShort.offsetAt {z : Zone} (h : z.IsShort) (s : Int) :
    -86400 < z.offsetAt s ∧ z.offsetAt s < 86400 := h _ (offsetFrom_mem ..)

end ScheduledScaling.Zone
