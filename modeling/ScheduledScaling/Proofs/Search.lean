import Mathlib.Tactic.Tauto
import ScheduledScaling.Cron.Occurrence
import ScheduledScaling.Proofs.Calendar
import ScheduledScaling.Proofs.Fields
/-!
# The search for wall times

An expression is searched by hours, minutes and seconds within a day, and day by day. Each loop goes
through ascending numbers, and gives the first value that it meets; `IsFirst` says that this is the
least value of all. `firstOf_keys` carries it from the parts of a loop to the whole.

- `firstTime_isFirst`, `nextWall_isFirst`: the first time of a day, and the first wall time.
- `lastWall_sound`: what the search backward gives is an occurrence.
-/
namespace ScheduledScaling.Cron

/-- `r` is the least number with a property, if there is any. -/
structure IsFirst (p : Nat → Prop) (r : Option Nat) : Prop where
  holds : ∀ n, r = some n → p n
  least : ∀ m, p m → ∃ n, r = some n ∧ n ≤ m

section IsFirst
variable {p q : Nat → Prop} {r : Option Nat}

theorem IsFirst.congr (h : IsFirst p r) (hpq : ∀ n, p n ↔ q n) : IsFirst q r where
  holds n hn := (hpq n).1 (h.holds n hn)
  least m hm := h.least m ((hpq m).2 hm)

theorem isFirst_none (h : ∀ n, ¬ p n) : IsFirst p none where
  holds _ hn := by cases hn
  least m hm := absurd hm (h m)

theorem IsFirst.map_add (h : IsFirst p r) (base : Nat) (hq : ∀ n, q n ↔ ∃ k, n = base + k ∧ p k) :
    IsFirst q (r.map (base + ·)) where
  holds n hn := by
    obtain ⟨k, hk, rfl⟩ := Option.map_eq_some_iff.1 hn
    exact (hq _).2 ⟨k, rfl, h.holds k hk⟩
  least m hm := by
    obtain ⟨k, rfl, hk⟩ := (hq m).1 hm
    obtain ⟨n, hn, hle⟩ := h.least k hk
    exact ⟨base + n, by rw [hn]; rfl, by omega⟩

/-- A loop over ascending keys, each with the least of the numbers of that key, gives the least of
all numbers. -/
theorem firstOf_keys {keys : List Nat} {g : Nat → Option Nat} (key : Nat → Nat)
    (hkeys : keys.Pairwise (· < ·)) (hkey : ∀ m n, p m → p n → key m < key n → m < n)
    (hg : ∀ x ∈ keys, IsFirst (fun n => key n = x ∧ p n) (g x)) :
    IsFirst (fun n => key n ∈ keys ∧ p n) (keys.findSome? g) := by
  induction keys with
  | nil => exact isFirst_none fun n hn => by simpa using hn.1
  | cons x xs ih =>
    rw [List.pairwise_cons] at hkeys
    have hx := hg x List.mem_cons_self
    have htail := ih hkeys.2 fun y hy => hg y (List.mem_cons_of_mem _ hy)
    rw [List.findSome?_cons]
    cases hgx : g x with
    | some n =>
      obtain ⟨hn, hpn⟩ := hx.holds n hgx
      refine ⟨fun m hm => ?_, fun m hm => ⟨n, rfl, ?_⟩⟩
      · obtain rfl := Option.some.inj hm
        exact ⟨hn ▸ List.mem_cons_self, hpn⟩
      · rcases List.mem_cons.1 hm.1 with hmx | hmx
        · obtain ⟨n', hn', hle⟩ := hx.least m ⟨hmx, hm.2⟩
          rw [hgx] at hn'
          exact Option.some.inj hn' ▸ hle
        · exact Nat.le_of_lt (hkey n m hpn hm.2 (hn ▸ hkeys.1 _ hmx))
    | none =>
      refine ⟨fun m hm => ?_, fun m hm => ?_⟩
      · obtain ⟨h1, h2⟩ := htail.holds m hm
        exact ⟨List.mem_cons_of_mem _ h1, h2⟩
      · rcases List.mem_cons.1 hm.1 with hmx | hmx
        · obtain ⟨n, hn, -⟩ := hx.least m ⟨hmx, hm.2⟩
          rw [hgx] at hn
          cases hn
        · exact htail.least m ⟨hmx, hm.2⟩

theorem find?_isFirst {xs : List Nat} (hxs : xs.Pairwise (· < ·)) (ok : Nat → Bool) :
    IsFirst (fun n => n ∈ xs ∧ ok n) (xs.find? ok) := by
  rw [List.find?_eq_findSome?_guard]
  refine firstOf_keys id hxs (fun _ _ _ _ h => h) fun x _ => ?_
  refine ⟨fun n hn => ?_, fun m hm => ⟨m, ?_, Nat.le_refl m⟩⟩
  · rw [Option.guard_eq_some_iff] at hn
    exact ⟨hn.1.symm, hn.1 ▸ hn.2⟩
  · obtain ⟨rfl, hok⟩ := hm
    exact Option.guard_eq_some_iff.2 ⟨rfl, hok⟩

end IsFirst

/-! ## The first time of a day -/

theorem admitsTime_iff {c : Cron} {t : Nat} :
    c.admitsTime t ↔ t / 3600 ∈ c.hours ∧ t / 60 % 60 ∈ c.minutes ∧ t % 60 ∈ c.seconds := by
  simp [admitsTime, and_assoc]

theorem firstTime_isFirst {c : Cron} (hc : c.Ordered) (start : Nat) (ok : Nat → Bool) :
    IsFirst (fun t => c.admitsTime t ∧ start ≤ t ∧ ok t) (c.firstTime start ok) := by
  have hours : IsFirst (fun t => t / 3600 ∈ c.hours ∧
      (t / 60 % 60 ∈ c.minutes ∧ t % 60 ∈ c.seconds) ∧ start ≤ t ∧ ok t) (c.firstTime start ok) := by
    refine firstOf_keys (· / 3600) hc.hours.1 (fun m n _ _ h => by omega) fun h _ => ?_
    split
    · -- The hour is over before the start.
      exact isFirst_none fun t ⟨ht, _, hs, _⟩ => by omega
    refine IsFirst.congr (p := fun t => t / 60 % 60 ∈ c.minutes ∧ t / 3600 = h ∧
      t % 60 ∈ c.seconds ∧ start ≤ t ∧ ok t) ?_ fun t => by tauto
    refine firstOf_keys (· / 60 % 60) hc.minutes.1 (fun m n hm hn h => ?_) fun m hm => ?_
    · have := hm.1
      have := hn.1
      omega
    have hm60 := (hc.minutes.2 m hm).2
    split
    · -- The minute is over before the start.
      exact isFirst_none fun t ⟨ht, hth, _, hs, _⟩ => by
        simp only [Field.high] at hm60
        omega
    · refine (find?_isFirst hc.seconds.1 _).map_add _ fun t => ?_
      simp only [Bool.and_eq_true, decide_eq_true_eq]
      constructor
      · rintro ⟨ht, hth, hs, hstart, hok⟩
        refine ⟨t % 60, by omega, hs, ?_, ?_⟩
        · omega
        · rw [show h * 3600 + m * 60 + t % 60 = t by omega]
          exact hok
      · rintro ⟨s, rfl, hs, hstart, hok⟩
        have hs60 := (hc.seconds.2 s hs).2
        simp only [Field.high] at hm60 hs60
        refine ⟨by omega, by omega, ?_, hstart, hok⟩
        rw [show (h * 3600 + m * 60 + s) % 60 = s by omega]
        exact hs
  refine hours.congr fun t => ?_
  rw [admitsTime_iff]
  tauto

/-! ## Years -/

/-- A wall time that is not earlier than the year 5 lies in a year of our era. -/
theorem year_nonneg {wall : Int} (h : -62000000000 ≤ wall) :
    0 ≤ (Date.ofDay (wall / 86400)).year :=
  Date.year_nonneg (by omega)

/-- No expression fires from the last day on. -/
theorem year_of_endDay_le {day : Nat} (h : endDay ≤ day) : 2100 < (Date.ofDay day).year := by
  have hend : endDay = 47847 := by decide +kernel
  rw [hend] at h
  obtain ⟨era, c, q, y, d, hp⟩ := Date.exists_place day
  rw [Date.year_ofDay hp]
  obtain ⟨hc, hq, hy, hd, -, hday⟩ := hp
  omega

theorem lt_endDay_of_admitsDay {c : Cron} (hc : c.Ordered) {day : Nat} (h : c.admitsDay day) :
    day < endDay := by
  refine Nat.lt_of_not_le fun hle => ?_
  have hyear := year_of_endDay_le hle
  simp only [admitsDay, Bool.and_eq_true, List.contains_iff_mem] at h
  have := (hc.years.2 _ h.2).2
  simp only [Field.high] at this
  omega

/-! ## Wall times -/

theorem firstFrom_eq {α : Type} (f : Nat → Option α) (low count : Nat) :
    firstFrom f low count = (List.range' low count).findSome? f := by
  induction count generalizing low with
  | zero => rfl
  | succ count ih =>
    rw [firstFrom, List.range'_succ, List.findSome?_cons]
    cases f low with
    | none => exact ih (low + 1)
    | some a => rfl

theorem admits_natCast {c : Cron} {w : Nat} :
    c.admits w ↔ c.admitsDay (w / 86400) ∧ c.admitsTime (w % 86400) := by
  simp [admits]

theorem lt_of_admitsTime {c : Cron} (hc : c.Ordered) {t : Nat} (h : c.admitsTime t) : t < 86400 := by
  have := (hc.hours.2 _ (admitsTime_iff.1 h).1).2
  simp only [Field.high] at this
  omega

/-- The next wall time is the least one that the expression admits and clocks show. -/
theorem nextWall_isFirst {c : Cron} (hc : c.Ordered) (z : Zone) {start : Int}
    (hy : 0 ≤ (Date.ofDay (start / 86400)).year) :
    IsFirst (fun w => start ≤ w ∧ c.admits w ∧ z.shows w) (c.nextWall z start) := by
  unfold nextWall
  rw [if_neg (by omega)]
  simp only [firstFrom_eq]
  refine IsFirst.congr (p := fun w => w / 86400 ∈
      List.range' (start.toNat / 86400) (endDay - start.toNat / 86400) ∧
      start ≤ w ∧ c.admits w ∧ z.shows w) ?_ fun w => ⟨And.right, fun hw => ⟨?_, hw⟩⟩
  rotate_left
  · -- The days that are searched leave none out: no expression fires after them.
    have := lt_endDay_of_admitsDay hc (admits_natCast.1 hw.2.1).1
    rw [List.mem_range'_1]
    omega
  refine firstOf_keys (· / 86400) List.pairwise_lt_range' (fun m n _ _ h => by omega)
    fun day _ => ?_
  split
  · rename_i hday
    refine (firstTime_isFirst hc _ _).map_add _ fun w => ?_
    constructor
    · rintro ⟨rfl, hs, ha, hz⟩
      refine ⟨w % 86400, by omega, (admits_natCast.1 ha).2, by omega, ?_⟩
      rw [show w / 86400 * 86400 + w % 86400 = w by omega]
      exact hz
    · rintro ⟨t, rfl, ht, hs, hz⟩
      have htd := lt_of_admitsTime hc ht
      refine ⟨by omega, by omega, ?_, hz⟩
      rw [admits_natCast, show (day * 86400 + t) / 86400 = day by omega,
        show (day * 86400 + t) % 86400 = t by omega]
      exact ⟨hday, ht⟩
  · rename_i hday
    refine isFirst_none fun w ⟨hw, _, ha, _⟩ => hday ?_
    rw [← hw]
    exact (admits_natCast.1 ha).1

/-! ## The search backward -/

theorem lastTime_sound {c : Cron} (hc : c.Ordered) {stop t : Nat} {ok : Nat → Bool}
    (h : c.lastTime stop ok = some t) : c.admitsTime t ∧ t < stop ∧ ok t := by
  unfold lastTime at h
  obtain ⟨hour, hh, h⟩ := List.exists_of_findSome?_eq_some h
  split at h
  · cases h
  obtain ⟨m, hm, h⟩ := List.exists_of_findSome?_eq_some h
  split at h
  · cases h
  obtain ⟨s, hf, rfl⟩ := Option.map_eq_some_iff.1 h
  have hok := List.find?_some hf
  simp only [Bool.and_eq_true, decide_eq_true_eq] at hok
  rw [List.mem_reverse] at hh hm
  have hs := List.mem_reverse.1 (List.mem_of_find?_eq_some hf)
  have hm60 := (hc.minutes.2 m hm).2
  have hs60 := (hc.seconds.2 s hs).2
  simp only [Field.high] at hm60 hs60
  refine ⟨?_, hok⟩
  rw [admitsTime_iff, show (hour * 3600 + m * 60 + s) / 3600 = hour by omega,
    show (hour * 3600 + m * 60 + s) / 60 % 60 = m by omega,
    show (hour * 3600 + m * 60 + s) % 60 = s by omega]
  exact ⟨hh, hm, hs⟩

theorem exists_of_lastFrom {α : Type} {f : Nat → Option α} {low count : Nat} {a : α}
    (h : lastFrom f low count = some a) : ∃ n, f n = some a := by
  induction count with
  | zero => cases h
  | succ count ih =>
    rw [lastFrom] at h
    split at h
    · rename_i b hb
      exact ⟨low + count, hb.trans h⟩
    · exact ih h

/-- What the search backward gives is an occurrence between the bounds. -/
theorem lastWall_sound {c : Cron} (hc : c.Ordered) {z : Zone} {start stop : Int} {w : Nat}
    (h : c.lastWall z start stop = some w) :
    start ≤ w ∧ w < stop ∧ c.admits w ∧ z.shows w := by
  unfold lastWall at h
  obtain ⟨day, h⟩ := exists_of_lastFrom h
  split at h
  · rename_i hday
    obtain ⟨t, ht, rfl⟩ := Option.map_eq_some_iff.1 h
    obtain ⟨hta, hstop, hok⟩ := lastTime_sound hc ht
    have htd := lt_of_admitsTime hc hta
    simp only [Bool.and_eq_true, decide_eq_true_eq] at hok
    refine ⟨by omega, by omega, ?_, hok.2⟩
    rw [admits_natCast, show (day * 86400 + t) / 86400 = day by omega,
      show (day * 86400 + t) % 86400 = t by omega]
    exact ⟨hday, hta⟩
  · cases h

end ScheduledScaling.Cron
