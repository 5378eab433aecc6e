import Mathlib.Data.List.Nodup
import Mathlib.Order.Bounds.Defs
import ScheduledScaling.Plan.Due
import ScheduledScaling.Proofs.Occurrences
/-!
# Occurrences in a zone of one offset

Where clocks are never changed, wall times and instants go in step, so the next occurrence is the
least one after an instant, and the walk back gives the greatest one up to it. What is due and
which of two scalings goes first can then be told from the occurrences alone.
-/
namespace ScheduledScaling

/-- An instant outside leap seconds, after the first years of the calendar and before the last
second of time. -/
structure Instant.IsOrdinary (t : Instant) : Prop where
  plain : t.IsPlain
  low : -61000000000 ≤ t.second
  high : t.second < Instant.maxSecond

theorem isOrdinary_epoch : Instant.epoch.IsOrdinary := ⟨by decide, by decide, by decide⟩

/-- A zone of one offset, which is shorter than a day. Changes that keep it are in order. -/
structure Zone.IsConstant (z : Zone) : Prop where
  steady : z.Steady
  short : z.IsShort
  offsetAt_eq : ∀ s, z.offsetAt s = z.offsetAt 0

namespace Zone
variable {z : Zone}

theorem IsConstant.wallAt (hz : z.IsConstant) (s : Int) : z.wallAt s = s + z.offsetAt 0 := by
  rw [Zone.wallAt, hz.offsetAt_eq]

theorem IsConstant.secondsAt (hz : z.IsConstant) (wall : Int) :
    z.secondsAt wall = [wall - z.offsetAt 0] := by
  have hnodup : (z.secondsAt wall).Nodup := (pairwise_secondsAt hz.steady wall).imp ne_of_lt
  refine List.perm_singleton.1 ((List.perm_ext_iff_of_nodup hnodup (List.nodup_singleton _)).2 ?_)
  intro s
  rw [mem_secondsAt hz.steady, hz.wallAt, List.mem_singleton]
  omega

theorem IsConstant.offset (hz : z.IsConstant) : -86400 < z.offsetAt 0 ∧ z.offsetAt 0 < 86400 :=
  hz.short.offsetAt 0

/-- A zone whose clocks are never changed. -/
theorem isConstant_of_unchanged (name : String) {offset : Int} (hlow : -86400 < offset)
    (hhigh : offset < 86400) : IsConstant ⟨name, offset, []⟩ where
  steady := .nil
  short o ho := by
    obtain rfl := List.mem_singleton.1 ho
    exact ⟨hlow, hhigh⟩
  offsetAt_eq _ := rfl

theorem isConstant_utc : utc.IsConstant := isConstant_of_unchanged _ (by decide) (by decide)

end Zone

namespace Cron
variable {c : Cron} {z : Zone}

theorem Fires.lower (hz : z.IsConstant) {s : Int} (h : c.Fires z s) : -86400 < s := by
  have hw := h.nonneg
  have ho := hz.offset
  rw [hz.wallAt] at hw
  omega

theorem Fires.upper (hc : c.Ordered) {s : Int} (h : c.Fires z s) :
    z.wallAt s < endWall := by
  obtain ⟨n, hn⟩ := Int.eq_ofNat_of_zero_le (h.nonneg)
  rw [Fires, hn] at h
  have hday := lt_endDay_of_admitsDay hc (admits_natCast.1 h).1
  rw [hn, endWall]
  omega

/-! ## The next occurrence -/

/-- What is found from a wall time on is the least occurrence from there on. -/
theorem IsNext.isLeast (hz : z.IsConstant) {start o : Int} (h : c.IsNext z start o) :
    IsLeast {s | c.Fires z s ∧ start ≤ z.wallAt s} o := by
  refine ⟨⟨h.fires, h.start_le⟩, fun s ⟨hs, hle⟩ => ?_⟩
  have := h.least s hs hle
  rw [hz.wallAt, hz.wallAt] at this
  omega

/-! ## The last occurrence -/

/-- One step of a walk: it goes on behind the next wall time unless that is after `limit`. -/
theorem lastUpTo_step (hz : z.IsConstant) {limit wall : Int} {last : Option Int} {w : Nat}
    (hw : c.nextWall z wall = some w) (hle : wall ≤ w) (hlt : (w : Int) < endWall) :
    lastUpTo (c.nextWall z) (fun w => z.secondsAt w) endWall limit wall last =
      if w - z.offsetAt 0 ≤ limit then
        lastUpTo (c.nextWall z) (fun w => z.secondsAt w) endWall limit (w + 1)
          (some (w - z.offsetAt 0))
      else last := by
  rw [lastUpTo, hw]
  simp only [hz.secondsAt]
  by_cases h : (w : Int) - z.offsetAt 0 ≤ limit
  · rw [if_pos h, List.takeWhile_cons_of_pos (by simpa using h), List.takeWhile_nil]
    exact if_pos ⟨rfl, hle, hlt⟩
  · rw [if_neg h, List.takeWhile_cons_of_neg (by simpa using h)]
    exact if_neg fun hc => absurd hc.1 (by simp)

/-- An occurrence with none after it, up to `limit`, is the last one. -/
theorem isGreatest_of_none (hz : z.IsConstant) {limit wall o : Int} (hfires : c.Fires z o)
    (hwall : wall ≤ z.wallAt o) (hlim : o ≤ limit)
    (hnone : ∀ s, c.Fires z s → z.wallAt o + 1 ≤ z.wallAt s → ¬ s ≤ limit) :
    IsGreatest {s | (c.Fires z s ∧ wall ≤ z.wallAt s) ∧ s ≤ limit} o := by
  refine ⟨⟨⟨hfires, hwall⟩, hlim⟩, ?_⟩
  rintro s ⟨⟨hs, -⟩, hle⟩
  by_contra hgt
  refine hnone s hs ?_ hle
  rw [hz.wallAt, hz.wallAt]
  omega

/-- The last occurrence behind another one is the last one from there on as well. -/
theorem isGreatest_of_later (hz : z.IsConstant) {limit wall o o' : Int} (hwall : wall ≤ z.wallAt o)
    (h : IsGreatest {s | (c.Fires z s ∧ z.wallAt o + 1 ≤ z.wallAt s) ∧ s ≤ limit} o') :
    IsGreatest {s | (c.Fires z s ∧ wall ≤ z.wallAt s) ∧ s ≤ limit} o' := by
  obtain ⟨⟨⟨hfires, hlater⟩, hlim⟩, hgreatest⟩ := h
  refine ⟨⟨⟨hfires, by omega⟩, hlim⟩, ?_⟩
  rintro s ⟨⟨hs, -⟩, hle⟩
  by_cases hcase : z.wallAt o + 1 ≤ z.wallAt s
  · exact hgreatest ⟨⟨hs, hcase⟩, hle⟩
  · rw [hz.wallAt, hz.wallAt] at hcase hlater
    omega

theorem nearer {last wall w : Int} (hle : wall ≤ w) (hlt : w < last) :
    (last - (w + 1)).toNat < (last - wall).toNat := by
  omega

/-- A walk from the wall time `wall` up to `limit` ends at the last occurrence that it meets, or
with what it started with if it meets none. -/
theorem lastUpTo_spec (hc : c.Ordered) (hz : z.IsConstant) {limit wall : Int} {last r : Option Int}
    (hs : -62000000000 ≤ wall)
    (hr : lastUpTo (c.nextWall z) (fun w => z.secondsAt w) endWall limit wall last = r) :
    (r = last ∧ ∀ o, c.Fires z o → wall ≤ z.wallAt o → ¬ o ≤ limit) ∨
      ∃ o, r = some o ∧ IsGreatest {s | (c.Fires z s ∧ wall ≤ z.wallAt s) ∧ s ≤ limit} o := by
  have hy := year_nonneg hs
  -- No expression fires from `endWall` on, and each step of the walk brings it nearer.
  induction hn : (endWall - wall).toNat using Nat.strong_induction_on generalizing wall last with
  | _ n ih =>
    cases hw : c.nextWall z wall with
    | none =>
      rw [lastUpTo, hw] at hr
      refine .inl ⟨hr.symm, fun o ho hle _ => ?_⟩
      obtain ⟨w, hw', -⟩ := exists_nextWall_le hc hz.steady hy ho hle
      rw [hw] at hw'
      cases hw'
    | some w =>
      obtain ⟨o, ho, how, hnext⟩ := isNext_of_nextWall hc hz.steady hy hw
      obtain ⟨⟨hfires, hwall⟩, hleast⟩ := hnext.isLeast hz
      have hlt : (w : Int) < endWall := how ▸ hfires.upper hc
      have hsecond : w - z.offsetAt 0 = o := by
        rw [hz.wallAt] at how
        omega
      have hle : wall ≤ w := how ▸ hwall
      rw [lastUpTo_step hz hw hle hlt, hsecond] at hr
      split at hr
      · rename_i hlim
        have hw1 : -62000000000 ≤ (w : Int) + 1 := by omega
        rcases ih _ (hn ▸ nearer hle hlt) hw1 hr (year_nonneg hw1) rfl with
          ⟨rfl, hnone⟩ | ⟨o', rfl, ho'⟩
        · exact .inr ⟨o, rfl, isGreatest_of_none hz hfires hwall hlim (how ▸ hnone)⟩
        · exact .inr ⟨o', rfl, isGreatest_of_later hz hwall (how ▸ ho')⟩
      · rename_i hlim
        refine .inl ⟨hr.symm, fun s hsf hsw hsl => ?_⟩
        have hos : o ≤ s := hleast ⟨hsf, hsw⟩
        omega

/-- A walk begins at its wall time, or later at an occurrence that is not after `limit`. -/
theorem walkStart_cases (hc : c.Ordered) (hz : z.IsConstant) (limit wall : Int) :
    c.walkStart z limit wall = wall ∨
      ∃ o, c.walkStart z limit wall = z.wallAt o ∧ c.Fires z o ∧ wall ≤ z.wallAt o ∧ o ≤ limit := by
  unfold walkStart
  cases hw : c.lastWall z wall (limit - 86400) with
  | none => exact .inl rfl
  | some w =>
    obtain ⟨hle, hlt, ha, -⟩ := lastWall_sound hc hw
    have how : z.wallAt (w - z.offsetAt 0) = w := by
      rw [hz.wallAt]
      omega
    have hoff := hz.offset
    refine .inr ⟨w - z.offsetAt 0, how.symm, ?_, how.symm ▸ hle, by omega⟩
    rw [Fires, how]
    exact ha

/-- Before the first occurrence of all nothing is found, wherever the walk begins. -/
theorem lastOccurrence_of_early (hc : c.Ordered) (hz : z.IsConstant) {limit : Int}
    (hearly : limit ≤ -86400) (wall : Int) : c.lastOccurrence z limit wall = none := by
  have hstart : c.walkStart z limit wall = wall := by
    rcases walkStart_cases hc hz limit wall with h | ⟨o, -, hfires, -, hle⟩
    · exact h
    · have := hfires.lower hz
      omega
  rw [lastOccurrence, hstart]
  cases hw : c.nextWall z wall with
  | none => rw [lastUpTo, hw]
  | some w =>
    have hy : 0 ≤ (Date.ofDay (wall / 86400)).year := by
      by_contra hlt
      rw [nextWall, if_pos (by omega)] at hw
      cases hw
    obtain ⟨o, -, how, hnext⟩ := isNext_of_nextWall hc hz.steady hy hw
    have hlower := hnext.fires.lower hz
    have hoff := hz.wallAt o
    rw [lastUpTo_step hz hw (how ▸ hnext.start_le) (how ▸ hnext.fires.upper hc)]
    exact if_neg (by omega)

/-- The last occurrence up to `limit` is found if it is not before the wall time `wall`. -/
theorem lastOccurrence_spec (hc : c.Ordered) (hz : z.IsConstant) (limit : Int) {wall : Int}
    (hs : -62000000000 ≤ wall ∨ limit ≤ -86400) :
    (∃ o, c.lastOccurrence z limit wall = some o ∧ wall ≤ z.wallAt o ∧
        IsGreatest {s | c.Fires z s ∧ s ≤ limit} o) ∨
      (c.lastOccurrence z limit wall = none ∧
        ∀ o, c.Fires z o → wall ≤ z.wallAt o → ¬ o ≤ limit) := by
  by_cases hearly : limit ≤ -86400
  · refine .inr ⟨lastOccurrence_of_early hc hz hearly wall, fun o hfires _ hlim => ?_⟩
    have := hfires.lower hz
    omega
  replace hs := hs.resolve_right hearly
  have hcases := walkStart_cases hc hz limit wall
  have hwall : wall ≤ c.walkStart z limit wall := by
    rcases hcases with h | ⟨o, h, -, hle, -⟩ <;> rw [h]
    exact hle
  rcases lastUpTo_spec hc hz (hs.trans hwall) (r := c.lastOccurrence z limit wall) rfl with
    ⟨hr, hnone⟩ | ⟨o, hr, ho⟩
  · refine .inr ⟨hr, fun o hfires hle hlim => ?_⟩
    rcases hcases with h | ⟨o', h, hfires', -, hlim'⟩
    · exact hnone o hfires (h.le.trans hle) hlim
    · -- A walk that begins at an occurrence meets at least that one.
      exact hnone o' hfires' h.le hlim'
  · refine .inl ⟨o, hr, hwall.trans ho.1.1.2, ⟨ho.1.1.1, ho.1.2⟩, fun s ⟨hfires, hlim⟩ => ?_⟩
    by_cases hle : c.walkStart z limit wall ≤ z.wallAt s
    · exact ho.2 ⟨⟨hfires, hle⟩, hlim⟩
    · -- What is before the walk is before what it has met.
      have h1 := ho.1.1.2
      rw [hz.wallAt] at h1 hle
      omega

end Cron

namespace CronExpression
variable {e : CronExpression} {z : Zone} {t : Instant}

/-! ## What an expression gives -/

/-- The next occurrence is the least one after an instant. -/
theorem nextAfter_spec (he : e.cron.Ordered) (hz : z.IsConstant) (ht : t.IsOrdinary) :
    (∃ o, e.nextAfter z t = .ok (some ⟨o, 0⟩) ∧ IsLeast {s | e.cron.Fires z s ∧ t.second < s} o) ∨
      (e.nextAfter z t = .ok none ∧ ∀ s, e.cron.Fires z s → ¬ t.second < s) := by
  have hoff := hz.offset
  have hwall := hz.wallAt (t.second + 1)
  obtain ⟨ht, hlow, hhigh⟩ := ht
  have hplus : t.plus 1 0 = .ok ⟨t.second + 1, t.nano⟩ :=
    Instant.plus_eq ht (by rw [Instant.minSecond_eq]; omega) hhigh
  cases hr : e.nextAfter z t with
  | error x =>
    rw [nextAfter, hplus] at hr
    cases hr
  | ok next =>
    cases next with
    | none =>
      refine .inr ⟨rfl, fun s hs hlt => ?_⟩
      refine nextAfter_none he hz.steady ht.isValid (by omega) hr ?_ hs
      rw [hwall, hz.wallAt]
      omega
    | some o =>
      obtain ⟨hn, hnext⟩ := nextAfter_some he hz.steady ht.isValid hr
      obtain ⟨⟨hfires, hle⟩, hleast⟩ := hnext.isLeast hz
      obtain ⟨o, _⟩ := o
      obtain rfl : _ = 0 := hn
      have hlt : t.second < o := by
        rw [hwall, hz.wallAt] at hle
        change t.second + 1 + z.offsetAt 0 ≤ o + z.offsetAt 0 at hle
        omega
      refine .inl ⟨o, rfl, ⟨hfires, hlt⟩, fun s ⟨hs, hlt⟩ => hleast ⟨hs, ?_⟩⟩
      rw [hwall, hz.wallAt]
      omega

/-- The widest window of the search backward. -/
def maxLookback : Nat := 8 * 367 * 86400

end CronExpression

/-- An instant of the calendar, as far from its begin as the search backward goes. -/
structure Instant.HasPast (t : Instant) : Prop where
  valid : t.IsValid
  low : Instant.minSecond + CronExpression.maxLookback ≤ t.second
  high : t.second ≤ Instant.maxSecond

theorem Instant.IsOrdinary.hasPast {t : Instant} (ht : t.IsOrdinary) : t.HasPast := by
  refine ⟨ht.plain.isValid, Int.le_trans ?_ ht.low, ht.high.le⟩
  decide

namespace CronExpression
variable {e : CronExpression} {z : Zone} {t : Instant}

/-- A window that has an occurrence decides; otherwise the wider ones are searched. -/
theorem latestWithin_cons (ht : t.HasPast) {window : Nat} (hpos : 2 ≤ window)
    (hle : window ≤ maxLookback) (wider : List Nat) :
    (∀ second, e.cron.lastOccurrence z t.second (z.wallAt (t.backFrom - window + 1)) = some second →
        e.latestWithin z t (window :: wider) = .ok (some ⟨second, 0⟩)) ∧
      (e.cron.lastOccurrence z t.second (z.wallAt (t.backFrom - window + 1)) = none →
        e.latestWithin z t (window :: wider) = e.latestWithin z t wider) := by
  obtain ⟨hvalid, hlow, hhigh⟩ := ht
  obtain ⟨hleast, hmost⟩ := t.backFrom_bounds
  have hminus : t.minusSeconds window = .ok ⟨t.backFrom - window, t.nano % Instant.nanosPerSecond⟩ :=
    Instant.minusSeconds_eq hvalid (by omega) (by omega) (by omega)
  have hplus : Instant.plus ⟨t.backFrom - window, t.nano % Instant.nanosPerSecond⟩ 1 0 =
      .ok ⟨t.backFrom - window + 1, t.nano % Instant.nanosPerSecond⟩ := by
    refine Instant.plus_eq (Nat.mod_lt _ (by decide)) ?_ ?_ <;> dsimp only <;> omega
  constructor
  · intro second hsecond
    simp only [latestWithin, bind, Except.bind, hminus, hplus, hsecond]
    rfl
  · intro hnone
    simp only [latestWithin, bind, Except.bind, hminus, hplus, hnone]

/-- A window after the other is searched; the first that has an occurrence tells the last one. -/
theorem latestWithin_spec (he : e.cron.Ordered) (hz : z.IsConstant) (ht : t.HasPast)
    {windows : List Nat}
    (hw : ∀ w ∈ windows, 2 ≤ w ∧ w ≤ maxLookback) :
    (∃ o, e.latestWithin z t windows = .ok (some ⟨o, 0⟩) ∧ t.backFrom - maxLookback < o ∧
        IsGreatest {s | e.cron.Fires z s ∧ s ≤ t.second} o) ∨
      (e.latestWithin z t windows = .ok none ∧
        ∀ w ∈ windows, ∀ s, e.cron.Fires z s → t.backFrom - w < s → ¬ s ≤ t.second) := by
  have hoff := hz.offset
  have hmax : maxLookback = 253670400 := rfl
  obtain ⟨hleast, hmost⟩ := t.backFrom_bounds
  induction windows with
  | nil =>
    refine .inr ⟨rfl, fun w hw => ?_⟩
    cases hw
  | cons window wider ih =>
    obtain ⟨hpos, hle⟩ := hw window List.mem_cons_self
    obtain ⟨hfound, hskipped⟩ := latestWithin_cons (e := e) (z := z) ht hpos hle wider
    have hwall := hz.wallAt (t.backFrom - window + 1)
    have hstart : -62000000000 ≤ z.wallAt (t.backFrom - window + 1) ∨ t.second ≤ -86400 := by
      omega
    rcases Cron.lastOccurrence_spec he hz t.second hstart with
      ⟨o, ho, hle', hgreatest⟩ | ⟨hn, hnone⟩
    · rw [hwall, hz.wallAt] at hle'
      exact .inl ⟨o, hfound o ho, by omega, hgreatest⟩
    · rw [hskipped hn]
      rcases ih fun w h => hw w (List.mem_cons_of_mem _ h) with hsome | ⟨hnone', hall⟩
      · exact .inl hsome
      · refine .inr ⟨hnone', fun w hmem s hs hlt => ?_⟩
        rcases List.mem_cons.1 hmem with rfl | hmem
        · refine hnone s hs ?_
          rw [hwall, hz.wallAt]
          omega
        · exact hall w hmem s hs hlt

/-- The most recent occurrence is the greatest one, unless it lies too far back to be found. -/
theorem latestAtOrBefore_spec (he : e.cron.Ordered) (hz : z.IsConstant) (ht : t.HasPast) :
    (∃ o, e.latestAtOrBefore z t = .ok (some ⟨o, 0⟩) ∧ t.backFrom - maxLookback < o ∧
        IsGreatest {s | e.cron.Fires z s ∧ s ≤ t.second} o) ∨
      (e.latestAtOrBefore z t = .ok none ∧
        ∀ s, e.cron.Fires z s → t.backFrom - maxLookback < s → ¬ s ≤ t.second) := by
  have hw : ∀ w ∈ lookback, 2 ≤ w ∧ w ≤ maxLookback := by decide
  rcases latestWithin_spec he hz ht hw with hsome | ⟨hnone, hall⟩
  · exact .inl hsome
  · exact .inr ⟨hnone, hall maxLookback (by decide)⟩

end CronExpression

end ScheduledScaling
