import ScheduledScaling.Proofs.Search
import ScheduledScaling.Proofs.Zones
/-!
# Occurrences after an instant

`CronExpression.nextAfter` looks for the least wall time that an expression admits, from the wall
time of the next second on (`Cron.IsNext`). It gives the first instant of that wall time. Where clocks go
forward only, this is the first occurrence after the instant. Where they fall back, it can be an
instant that has passed.

- `lt_next_iff`: what is found lies ahead unless clocks have shown its wall time before.
- `lt_next_of_not_repeats`: that is so where clocks do not repeat themselves.
- `exists_next`: an occurrence ahead, of a wall time that is shown once, leads to something found.
-/
namespace ScheduledScaling

/-! ## The next second -/

namespace Instant

/-- An instant outside leap seconds. -/
def IsPlain (t : Instant) : Prop := t.nano < nanosPerSecond

instance (t : Instant) : Decidable t.IsPlain := inferInstanceAs (Decidable (_ < _))

/-- An instant that may lie in a leap second. -/
def IsValid (t : Instant) : Prop := t.nano < 2 * nanosPerSecond

instance (t : Instant) : Decidable t.IsValid := inferInstanceAs (Decidable (_ < _))

theorem IsPlain.isValid {t : Instant} (h : t.IsPlain) : t.IsValid := by
  rw [IsPlain] at h
  rw [IsValid]
  omega

theorem carry_of_lt {n nano : Nat} (h : nano < n) :
    ((nano : Int) + (0 : Nat)) / (n : Int) = 0 ∧ (nano + 0) % n = nano := by
  refine ⟨?_, Nat.mod_eq_of_lt h⟩
  exact Int.ediv_eq_zero_of_lt (by omega) (by omega)

/-- Outside leap seconds the nanoseconds are carried. -/
theorem shift_eq {t : Instant} (ht : t.IsPlain) (seconds : Int) (nanos : Nat) :
    t.shift seconds nanos =
      ⟨t.second + seconds + ((t.nano : Int) + nanos) / nanosPerSecond,
        (t.nano + nanos) % nanosPerSecond⟩ := if_pos ht

theorem shift_of_isPlain {t : Instant} (ht : t.IsPlain) (seconds : Int) :
    t.shift seconds 0 = ⟨t.second + seconds, t.nano⟩ := by
  obtain ⟨hdiv, hmod⟩ := carry_of_lt ht
  rw [shift_eq ht, hdiv, hmod, Int.add_zero]

/-- The second after some seconds; the time that is left of a leap second counts for nothing. -/
theorem second_of_shift {t : Instant} (ht : t.IsValid) {n : Nat} (hn : 0 < n) :
    (t.shift n 0).second = t.second + n := by
  by_cases hplain : t.IsPlain
  · rw [shift_of_isPlain hplain]
  · -- A leap second is left as if it had begun with the next one.
    have hlt : t.nano - nanosPerSecond < nanosPerSecond := by
      rw [IsPlain] at hplain
      rw [IsValid] at ht
      omega
    have hleap : t.shift n 0 =
        ⟨t.second + n + (((t.nano - nanosPerSecond : Nat) : Int) + (0 : Nat)) / nanosPerSecond,
          (t.nano - nanosPerSecond + 0) % nanosPerSecond⟩ :=
      (if_neg hplain).trans (if_pos (.inl (by omega)))
    rw [hleap, (carry_of_lt hlt).1]
    exact Int.add_zero _

theorem second_of_plus {t later : Instant} (ht : t.IsValid) {n : Nat} (hn : 0 < n)
    (h : t.plus n 0 = .ok later) : later.second = t.second + n := by
  unfold plus at h
  dsimp only at h
  split at h
  · rw [← Except.ok.inj h, second_of_shift ht hn]
  · cases h

theorem minSecond_eq : minSecond = -8334601228800 := by decide

theorem maxSecond_eq : maxSecond = 8210266876799 := by decide

theorem plus_eq {t : Instant} (ht : t.IsPlain) {n : Nat} (hlow : minSecond ≤ t.second + n)
    (hhigh : t.second + n ≤ maxSecond) : t.plus n 0 = .ok ⟨t.second + n, t.nano⟩ := by
  rw [plus, shift_of_isPlain ht]
  refine if_pos ?_
  rw [inRange, Bool.and_eq_true, decide_eq_true_eq, decide_eq_true_eq]
  exact ⟨hlow, hhigh⟩

/-- The second from which time is counted back: a leap second counts as the one after it. -/
def backFrom (t : Instant) : Int := if t.IsPlain then t.second else t.second + 1

theorem backFrom_of_isPlain {t : Instant} (ht : t.IsPlain) : t.backFrom = t.second := if_pos ht

theorem backFrom_bounds (t : Instant) : t.second ≤ t.backFrom ∧ t.backFrom ≤ t.second + 1 := by
  unfold backFrom
  split <;> omega

theorem shift_neg {t : Instant} (ht : t.IsValid) {n : Nat} (hn : 0 < n) :
    t.shift (-(n : Int)) 0 = ⟨t.backFrom - n, t.nano % nanosPerSecond⟩ := by
  by_cases hplain : t.IsPlain
  · rw [shift_of_isPlain hplain, backFrom_of_isPlain hplain, Nat.mod_eq_of_lt hplain]
    rfl
  · -- Going back from a leap second counts the time that is left of it.
    have hlt : t.nano - nanosPerSecond < nanosPerSecond := by
      rw [IsPlain] at hplain
      rw [IsValid] at ht
      omega
    have hleap : t.shift (-(n : Int)) 0 =
        ⟨t.second + 1 + -(n : Int) + (((t.nano - nanosPerSecond : Nat) : Int) + (0 : Nat)) /
          nanosPerSecond, (t.nano - nanosPerSecond + 0) % nanosPerSecond⟩ :=
      (if_neg hplain).trans ((if_neg (by rw [IsValid] at ht; omega)).trans (if_pos (by omega)))
    have hmod : t.nano % nanosPerSecond = t.nano - nanosPerSecond := by
      rw [Nat.mod_eq_sub_mod (Nat.not_lt.1 hplain), Nat.mod_eq_of_lt hlt]
    obtain ⟨hdiv, hrest⟩ := carry_of_lt hlt
    rw [hleap, hdiv, hrest, hmod, backFrom, if_neg hplain, Int.add_zero]
    rfl

theorem minusSeconds_eq {t : Instant} (ht : t.IsValid) {n : Nat} (hn : 0 < n)
    (hlow : minSecond ≤ t.backFrom - n) (hhigh : t.backFrom - n ≤ maxSecond) :
    t.minusSeconds n = .ok ⟨t.backFrom - n, t.nano % nanosPerSecond⟩ := by
  rw [minusSeconds, shift_neg ht hn]
  refine if_pos ?_
  rw [inRange, Bool.and_eq_true, decide_eq_true_eq, decide_eq_true_eq]
  exact ⟨hlow, hhigh⟩

/-- A whole second is later than an instant if its second is. -/
theorem lt_whole {t : Instant} {s : Int} : t < ⟨s, 0⟩ ↔ t.second < s := by
  simp only [lt_iff]
  omega

/-- A whole second is not later than an instant if its second is not. -/
theorem whole_le {t : Instant} {s : Int} : (⟨s, 0⟩ : Instant) ≤ t ↔ s ≤ t.second := by
  simp only [le_iff]
  omega

end Instant

/-! ## What is found -/

namespace Cron
variable {c : Cron} {z : Zone}

/-- An expression fires at a UTC second if it admits what clocks in the zone show. -/
def Fires (c : Cron) (z : Zone) (s : Int) : Prop := c.admits (z.wallAt s)

instance (c : Cron) (z : Zone) (s : Int) : Decidable (c.Fires z s) :=
  inferInstanceAs (Decidable (_ = true))

/-- An occurrence whose wall time no other instant has. -/
def FiresOnce (c : Cron) (z : Zone) (s : Int) : Prop :=
  c.Fires z s ∧ ∀ s', z.wallAt s' = z.wallAt s → s' = s

/-- `o` is what a search from the wall time `start` finds: the first instant of the least wall time
that is admitted. -/
structure IsNext (c : Cron) (z : Zone) (start o : Int) : Prop where
  fires : c.Fires z o
  start_le : start ≤ z.wallAt o
  first : ∀ s, z.wallAt s = z.wallAt o → o ≤ s
  least : ∀ s, c.Fires z s → start ≤ z.wallAt s → z.wallAt o ≤ z.wallAt s

theorem Fires.nonneg {s : Int} (h : c.Fires z s) : 0 ≤ z.wallAt s := by
  simp only [Fires, admits, Bool.and_eq_true, decide_eq_true_eq] at h
  exact h.1.1

/-- An occurrence from a wall time on is not before what the search gives. -/
theorem exists_nextWall_le (hc : c.Ordered) (hz : z.Steady) {start s : Int}
    (hy : 0 ≤ (Date.ofDay (start / 86400)).year) (hs : c.Fires z s) (hle : start ≤ z.wallAt s) :
    ∃ w, c.nextWall z start = some w ∧ w ≤ z.wallAt s := by
  obtain ⟨n, hn⟩ := Int.eq_ofNat_of_zero_le hs.nonneg
  rw [Fires, hn] at hs
  rw [hn] at hle
  obtain ⟨w, hw, hwn⟩ := (nextWall_isFirst hc z hy).least n
    ⟨hle, hs, (Zone.shows_iff hz).2 ⟨s, hn⟩⟩
  exact ⟨w, hw, by omega⟩

/-- A wall time that the search gives is shown first by some instant. -/
theorem isNext_of_nextWall (hc : c.Ordered) (hz : z.Steady) {start : Int} {w : Nat}
    (hy : 0 ≤ (Date.ofDay (start / 86400)).year) (hw : c.nextWall z start = some w) :
    ∃ o, (z.secondsAt w).head? = some o ∧ z.wallAt o = w ∧ c.IsNext z start o := by
  obtain ⟨hs, ha, hshows⟩ := (nextWall_isFirst hc z hy).holds w hw
  cases ho : (z.secondsAt w).head? with
  | none =>
    rw [List.head?_eq_none_iff] at ho
    rw [Zone.shows, ho] at hshows
    cases hshows
  | some o =>
    obtain ⟨how, hmin⟩ := Zone.head_secondsAt hz ho
    refine ⟨o, rfl, how, by rw [Fires, how]; exact ha, how ▸ hs, fun s h => hmin s (h.trans how),
      fun s hfires hle => ?_⟩
    obtain ⟨w', hw', hle'⟩ := exists_nextWall_le hc hz hy hfires hle
    rw [hw] at hw'
    obtain rfl := Option.some.inj hw'
    exact how ▸ hle'

end Cron

namespace CronExpression

section Next
variable {e : CronExpression} {z : Zone} {t : Instant}

theorem nextAfter_eq (ht : t.IsValid) {result : Option Instant} (h : e.nextAfter z t = .ok result) :
    result = do
      let wall ← e.cron.nextWall z (z.wallAt (t.second + 1))
      let second ← (z.secondsAt wall).head?
      return ⟨second, 0⟩ := by
  unfold nextAfter at h
  cases hp : t.plus 1 0 with
  | error x =>
    rw [hp] at h
    cases h
  | ok start =>
    rw [hp] at h
    replace h := Except.ok.inj h
    rw [Instant.second_of_plus ht Nat.one_pos hp] at h
    exact h.symm

theorem nextAfter_some (he : e.cron.Ordered) (hz : z.Steady) (ht : t.IsValid)
    {o : Instant} (h : e.nextAfter z t = .ok (some o)) :
    o.nano = 0 ∧ e.cron.IsNext z (z.wallAt (t.second + 1)) o.second := by
  have hr := nextAfter_eq ht h
  have hy : 0 ≤ (Date.ofDay (z.wallAt (t.second + 1) / 86400)).year := by
    by_contra hlt
    rw [Cron.nextWall, if_pos (by omega)] at hr
    cases hr
  cases hw : e.cron.nextWall z (z.wallAt (t.second + 1)) with
  | none =>
    rw [hw] at hr
    cases hr
  | some w =>
    obtain ⟨s, hs, -, hf⟩ := Cron.isNext_of_nextWall he hz hy hw
    rw [hw] at hr
    simp only [Option.bind_eq_bind, Option.bind_some, hs] at hr
    obtain rfl := Option.some.inj hr
    exact ⟨rfl, hf⟩

/-- Nothing is found only if there is no occurrence from the wall time of the next second on. -/
theorem nextAfter_none (he : e.cron.Ordered) (hz : z.Steady) (ht : t.IsValid)
    (hy : -62000000000 ≤ z.wallAt (t.second + 1)) (h : e.nextAfter z t = .ok none) {s : Int}
    (hs : z.wallAt (t.second + 1) ≤ z.wallAt s) : ¬ e.cron.Fires z s := by
  intro hfires
  have hr := nextAfter_eq ht h
  have hyear := Cron.year_nonneg hy
  obtain ⟨w, hw, -⟩ := Cron.exists_nextWall_le he hz hyear hfires hs
  obtain ⟨o, ho, -⟩ := Cron.isNext_of_nextWall he hz hyear hw
  rw [hw] at hr
  simp only [Option.bind_eq_bind, Option.bind_some, ho] at hr
  cases hr

/-- What is found lies ahead unless clocks have shown its wall time before. -/
theorem lt_next_iff (he : e.cron.Ordered) (hz : z.Steady) (ht : t.IsValid) {o : Instant}
    (h : e.nextAfter z t = .ok (some o)) :
    t < o ↔ ∀ s, s ≤ t.second → z.wallAt s ≠ z.wallAt o.second := by
  obtain ⟨hn, hf⟩ := nextAfter_some he hz ht h
  obtain ⟨o, _⟩ := o
  obtain rfl : _ = 0 := hn
  rw [Instant.lt_whole]
  constructor
  · intro hlt s hs heq
    have hle : o ≤ s := hf.first s heq
    omega
  · intro hall
    by_contra hle
    exact hall o (by omega) rfl

/-- A wall time ahead that is admitted and shown once leads to something found. -/
theorem exists_next (he : e.cron.Ordered) (hz : z.Steady) (ht : t.IsValid)
    (hy : -62000000000 ≤ z.wallAt (t.second + 1)) {u : Int} (hu : t.second < u)
    (honce : e.cron.FiresOnce z u) : e.nextAfter z t ≠ .ok none := by
  obtain ⟨ha, honce⟩ := honce
  intro h
  refine nextAfter_none he hz ht hy h (s := u) ?_ ha
  by_contra hlt
  have hne : t.second + 1 ≠ u := by
    rintro rfl
    omega
  have hlt' : t.second + 1 < u := by omega
  -- Clocks have fallen back in between, so they have shown that wall time before.
  obtain ⟨r, hr, hrw⟩ := Zone.shown_before hz hlt' (by omega)
  have := honce r hrw
  omega

/-- What is found lies ahead if clocks show the next second's time for the first time. -/
theorem lt_next_of_not_repeats (he : e.cron.Ordered) (hz : z.Steady) (ht : t.IsValid) {o : Instant}
    (h : e.nextAfter z t = .ok (some o)) (hr : ¬ z.Repeats (t.second + 1)) : t < o := by
  obtain ⟨-, hf⟩ := nextAfter_some he hz ht h
  rw [lt_next_iff he hz ht h]
  intro s hs heq
  have hle : z.wallAt (t.second + 1) ≤ z.wallAt s := heq ▸ hf.start_le
  refine hr ?_
  rcases Int.lt_or_eq_of_le hle with hlt | hsame
  · obtain ⟨r, hrs, hrw⟩ := Zone.shown_before hz (by omega) hlt
    exact ⟨r, by omega, hrw⟩
  · exact ⟨s, by omega, hsame.symm⟩

end Next

end CronExpression

end ScheduledScaling
