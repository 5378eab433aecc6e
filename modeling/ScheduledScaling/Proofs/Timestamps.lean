import Mathlib.Algebra.Group.Nat.Defs
import ScheduledScaling.Proofs.Calendar
import ScheduledScaling.Proofs.Objects
import ScheduledScaling.Proofs.Occurrences
import ScheduledScaling.Time.Timestamp
/-!
# Times read back

The text of an instant is read as that instant: `readLenient_text`. Each part of the text is taken
off by its reader, and `Parts.instant` puts the parts together again.
-/
namespace ScheduledScaling

/-! ## Padded numerals -/

namespace Text
variable {width n : Nat}

theorem toList_padded (width n : Nat) :
    (padded width n).toList =
      List.replicate (width - (toString n).length) '0' ++ (toString n).toList := by
  simp [padded]

theorem isDigit_of_mem_padded {c : Char} (h : c ∈ (padded width n).toList) : c.isDigit := by
  rw [toList_padded] at h
  rcases List.mem_append.1 h with h | h
  · obtain rfl := List.eq_of_mem_replicate h
    rfl
  · exact isDigit_of_mem_toString h

theorem valueOfDigits_zeros (count : Nat) (digits : List Char) :
    valueOfDigits (List.replicate count '0' ++ digits) = valueOfDigits digits := by
  induction count with
  | zero => rfl
  | succ count ih => exact ih

theorem valueOfDigits_padded (width n : Nat) : valueOfDigits (padded width n).toList = n := by
  rw [toList_padded, valueOfDigits_zeros]
  exact (readNat?_eq_some_iff.1 (readNat?_toString n)).2.2

theorem length_padded (hw : 0 < width) (h : n < 10 ^ width) :
    (padded width n).toList.length = width := by
  have hl : (toString n).length ≤ width := (Nat.length_repr_le_iff hw).2 h
  rw [toList_padded, List.length_append, List.length_replicate, String.length_toList]
  omega

theorem le_length_padded (width n : Nat) : width ≤ (padded width n).toList.length := by
  rw [toList_padded, List.length_append, List.length_replicate, String.length_toList]
  omega

end Text

/-! ## Readers -/

namespace Timestamp

/-- What follows a number does not begin with a digit. -/
def EndsNumber (rest : List Char) : Prop := ∀ c ∈ rest.head?, c.isDigit = false

theorem takeWhile_digits {digits rest : List Char} (hd : ∀ c ∈ digits, c.isDigit)
    (hr : EndsNumber rest) : (digits ++ rest).takeWhile Char.isDigit = digits := by
  rw [List.takeWhile_append_of_pos hd]
  cases rest with
  | nil => rw [List.takeWhile_nil, List.append_nil]
  | cons c rest =>
    rw [List.takeWhile_cons_of_neg (by simp [hr c rfl]), List.append_nil]

/-- A number is read up to its greatest length, or up to what is no digit. -/
theorem number_append {least most : Nat} {digits rest : List Char}
    (hd : ∀ c ∈ digits, c.isDigit) (hleast : least ≤ digits.length) (hmost : digits.length ≤ most)
    (hr : digits.length = most ∨ EndsNumber rest) (hv : Text.valueOfDigits digits ≤ maxCount) :
    number least most (digits ++ rest) = .ok (Text.valueOfDigits digits, rest) := by
  have htake : ((digits ++ rest).take most).takeWhile Char.isDigit = digits := by
    rw [List.take_append, List.take_of_length_le hmost]
    rcases hr with hfull | hr
    · rw [hfull, Nat.sub_self, List.take_zero]
      exact takeWhile_digits hd (by simp [EndsNumber])
    · refine takeWhile_digits hd ?_
      cases rest with
      | nil => simp [EndsNumber]
      | cons c rest =>
        cases hcount : most - digits.length with
        | zero => simp [EndsNumber]
        | succ count => simpa [EndsNumber] using hr
  unfold number
  simp only [htake]
  rw [if_neg (by simp; omega), if_neg (by omega), if_neg (by omega)]
  simp

theorem bind_ok {α β : Type} {r : Reader α} {f : α → Reader β} {s s' : List Char} {a : α}
    (h : r s = .ok (a, s')) : (r >>= f) s = f a s' := by
  change (r s >>= fun p => f p.1 p.2) = _
  rw [h]
  rfl

theorem get_eq (s : List Char) : (get : Reader (List Char)) s = .ok (s, s) := rfl

theorem set_eq (s s' : List Char) : (set s' : Reader PUnit) s = .ok (PUnit.unit, s') := rfl

theorem modify_eq (f : List Char → List Char) (s : List Char) :
    (modify f : Reader PUnit) s = .ok (PUnit.unit, f s) := rfl

/-- A digit or a sign is no blank. -/
theorem blanks_cons {c : Char} (rest : List Char) (h : Text.isBlank c = false) :
    blanks (c :: rest) = .ok ((), c :: rest) := by
  have ht : Text.trimStart (c :: rest) = c :: rest := by
    rw [Text.trimStart, List.dropWhile_cons_of_neg (by simp [h])]
  change Except.ok ((), Text.trimStart (c :: rest)) = _
  rw [ht]

theorem isBlank_of_isDigit {c : Char} (h : c.isDigit) : Text.isBlank c = false := by
  simp only [Char.isDigit, Bool.and_eq_true, decide_eq_true_eq, ge_iff_le, UInt32.le_iff_toNat_le] at h
  have h1 : 48 ≤ c.toNat := h.1
  have h2 : c.toNat ≤ 57 := h.2
  simp only [Text.isBlank]
  simp
  omega

theorem exists_padded_cons {width : Nat} (hw : 0 < width) (n : Nat) :
    ∃ c digits, (Text.padded width n).toList = c :: digits ∧ c.isDigit := by
  cases hp : (Text.padded width n).toList with
  | nil =>
    have hl := Text.le_length_padded width n
    rw [hp, List.length_nil] at hl
    omega
  | cons c digits =>
    have hc : c ∈ (Text.padded width n).toList := by
      rw [hp]
      exact List.mem_cons_self
    exact ⟨c, digits, rfl, Text.isDigit_of_mem_padded hc⟩

theorem blanks_padded {width n : Nat} (rest : List Char) (hw : 0 < width) :
    blanks ((Text.padded width n).toList ++ rest) =
      .ok ((), (Text.padded width n).toList ++ rest) := by
  obtain ⟨c, digits, hp, hc⟩ := exists_padded_cons hw n
  rw [hp]
  exact blanks_cons _ (isBlank_of_isDigit hc)

theorem literal_cons (c : Char) (rest : List Char) : literal c (c :: rest) = .ok ((), rest) :=
  if_pos rfl

theorem separator_t (rest : List Char) : separator ('T' :: rest) = .ok ((), rest) := by
  rw [separator, if_pos (by decide)]

theorem within_of_mem {low high n : Nat} {s : List Char} (h : low ≤ n ∧ n ≤ high) :
    within low high n s = .ok (n, s) := by
  rw [within, if_pos h]
  rfl

theorem number_padded {least most width n : Nat} {rest : List Char} (hwidth : 0 < width)
    (hleast : least ≤ width) (hn : n < 10 ^ width) (hmost : width ≤ most)
    (hr : width = most ∨ EndsNumber rest) (hv : n ≤ maxCount) :
    number least most ((Text.padded width n).toList ++ rest) = .ok (n, rest) := by
  have hl := Text.length_padded hwidth hn
  have hvalue := Text.valueOfDigits_padded width n
  have h := number_append (fun c hc => Text.isDigit_of_mem_padded hc) (hl ▸ hleast) (hl ▸ hmost)
    (hl.symm ▸ hr) (hvalue.symm ▸ hv)
  rwa [hvalue] at h

/-- Two digits are read whatever follows them. -/
theorem short_padded {low high n : Nat} (rest : List Char) (h : low ≤ n ∧ n ≤ high) (hn : n < 100) :
    short low high ((Text.padded 2 n).toList ++ rest) = .ok (n, rest) := by
  have hnum : number 1 2 ((Text.padded 2 n).toList ++ rest) = .ok (n, rest) :=
    number_padded (by decide) (by decide) hn (by decide) (.inl rfl) (by rw [maxCount]; omega)
  rw [short, bind_ok (blanks_padded rest (by decide)), bind_ok hnum]
  exact within_of_mem h

/-- The digits after the sign of a year. -/
theorem number_signed {n : Nat} {rest : List Char} (hr : EndsNumber rest) (hv : n ≤ maxCount) :
    number 1 ((Text.padded 4 n).toList ++ rest).length.succ ((Text.padded 4 n).toList ++ rest) =
      .ok (n, rest) := by
  have hl := Text.le_length_padded 4 n
  have hvalue := Text.valueOfDigits_padded 4 n
  have hmost : (Text.padded 4 n).toList.length ≤ ((Text.padded 4 n).toList ++ rest).length.succ := by
    rw [List.length_append]
    omega
  have hleast : 1 ≤ (Text.padded 4 n).toList.length := by omega
  have h := number_append (fun c hc => Text.isDigit_of_mem_padded hc) hleast hmost (.inr hr)
    (hvalue.symm ▸ hv)
  rwa [hvalue] at h

/-- A number that a year may be. -/
def boundedYear (n : Int) : Reader Int :=
  if -2147483648 ≤ n ∧ n ≤ 2147483647 then pure n else throw .outOfRange

theorem boundedYear_eq {n : Int} {s : List Char} (hlow : -2147483648 ≤ n)
    (hhigh : n ≤ 2147483647) : boundedYear n s = .ok (n, s) := by
  rw [boundedYear, if_pos ⟨hlow, hhigh⟩]
  rfl

/-- The first character tells whether a year has a sign. -/
theorem year_cons {c : Char} (rest : List Char) (hc : Text.isBlank c = false) :
    year (c :: rest) =
      if c = '-' then (number 1 rest.length.succ >>= fun n => boundedYear (-(n : Int))) rest
      else if c = '+' then (number 1 rest.length.succ >>= fun n => boundedYear n) rest
      else (number 1 4 >>= fun n => boundedYear n) (c :: rest) := by
  unfold year
  rw [bind_ok (blanks_cons rest hc)]
  split
  · rename_i hminus
    subst hminus
    rfl
  · split
    · rename_i hplus
      subst hplus
      rfl
    · rename_i hminus hplus
      rw [bind_ok (get_eq _)]
      simp only [↓Char.isValue, List.cons.injEq, hminus, hplus, false_and, imp_self, implies_true]
      rfl

/-- A year is read up to the dash after it. -/
theorem year_yearText {y : Int} {rest : List Char} (hlow : -2147483648 ≤ y)
    (hhigh : y ≤ 2147483647) (hr : EndsNumber rest) :
    year ((Instant.yearText y).toList ++ rest) = .ok (y, rest) := by
  have hmax : maxCount = 9223372036854775807 := rfl
  unfold Instant.yearText
  split
  · have hnum : number 1 4 ((Text.padded 4 y.toNat).toList ++ rest) = .ok (y.toNat, rest) :=
      number_padded (by decide) (by decide) (by omega) (by decide) (.inl rfl) (by omega)
    obtain ⟨c, digits, hp, hc⟩ := exists_padded_cons (show 0 < 4 by decide) y.toNat
    have hminus : c ≠ '-' := by
      rintro rfl
      exact absurd hc (by decide)
    have hplus : c ≠ '+' := by
      rintro rfl
      exact absurd hc (by decide)
    rw [hp, List.cons_append] at hnum ⊢
    rw [year_cons _ (isBlank_of_isDigit hc), if_neg hminus, if_neg hplus, bind_ok hnum,
      Int.toNat_of_nonneg (by omega)]
    exact boundedYear_eq hlow hhigh
  · have hnum := number_signed hr (show y.natAbs ≤ maxCount by omega)
    split
    · have hsign : "-".toList = ['-'] := rfl
      rw [String.toList_append, List.append_assoc, hsign, List.singleton_append]
      rw [year_cons _ (by decide), if_pos rfl, bind_ok hnum, show -(y.natAbs : Int) = y by omega]
      exact boundedYear_eq hlow hhigh
    · have hsign : "+".toList = ['+'] := rfl
      rw [String.toList_append, List.append_assoc, hsign, List.singleton_append]
      rw [year_cons _ (by decide), if_neg (by decide), if_pos rfl, bind_ok hnum,
        show (y.natAbs : Int) = y by omega]
      exact boundedYear_eq hlow hhigh

/-- Digits of a fraction count as many powers of ten as they do not reach. -/
theorem fraction_padded {width n : Nat} {rest : List Char} (hwidth : 0 < width) (hmost : width ≤ 9)
    (hn : n < 10 ^ width) (hr : EndsNumber rest) :
    fraction ('.' :: ((Text.padded width n).toList ++ rest)) =
      .ok (n * 10 ^ (9 - width), rest) := by
  have hmax : n ≤ maxCount := by
    have hpow : 10 ^ width ≤ 10 ^ 9 := Nat.pow_le_pow_right (by decide) hmost
    rw [maxCount]
    omega
  have hnum : number 1 9 ((Text.padded width n).toList ++ rest) = .ok (n, rest) :=
    number_padded hwidth hwidth hn hmost (.inr hr) hmax
  have hdrop : rest.dropWhile Char.isDigit = rest := by
    cases rest with
    | nil => rfl
    | cons c rest => exact List.dropWhile_cons_of_neg (by simp [hr c rfl])
  -- The reader tells the number of digits from what is left of the text.
  have hread : ((Text.padded width n).toList ++ rest).length - rest.length = width := by
    rw [List.length_append, Text.length_padded hwidth hn]
    omega
  unfold fraction
  rw [bind_ok (get_eq _)]
  simp only [↓Char.isValue]
  rw [bind_ok (set_eq _ _), bind_ok hnum, bind_ok (get_eq _), bind_ok (modify_eq _ _), hdrop, hread]
  rfl

theorem fraction_of_head {rest : List Char} (h : rest.head? ≠ some '.') :
    fraction rest = .ok (0, rest) := by
  unfold fraction
  rw [bind_ok (get_eq _)]
  split
  · exact absurd rfl h
  · rfl

theorem fraction_fractionText {nano : Nat} {rest : List Char} (h : nano < 1000000000)
    (hr : EndsNumber rest) (hdot : rest.head? ≠ some '.') :
    fraction ((Instant.fractionText nano).toList ++ rest) = .ok (nano, rest) := by
  have hpoint (digits : String) : ("." ++ digits).toList ++ rest = '.' :: (digits.toList ++ rest) := by
    rw [String.toList_append]
    rfl
  unfold Instant.fractionText
  split
  · rename_i hzero
    rw [hzero]
    exact fraction_of_head hdot
  split
  · rw [hpoint, fraction_padded (by decide) (by decide) (by omega) hr,
      show nano / 1000000 * 10 ^ (9 - 3) = nano by omega]
  split
  · rw [hpoint, fraction_padded (by decide) (by decide) (by omega) hr,
      show nano / 1000 * 10 ^ (9 - 6) = nano by omega]
  · rw [hpoint, fraction_padded (by decide) (by decide) (by omega) hr,
      show nano * 10 ^ (9 - 9) = nano by omega]

theorem lenientOffset_z : lenientOffset ['Z'] = .ok (0, []) := by
  rfl

/-- The text of the parts of a time in UTC. -/
def Parts.text (p : Parts) : List Char :=
  (Instant.yearText p.date.year).toList ++ '-' :: ((Text.padded 2 p.date.month).toList ++
    '-' :: ((Text.padded 2 p.date.day).toList ++ 'T' :: ((Text.padded 2 p.hour).toList ++
    ':' :: ((Text.padded 2 p.minute).toList ++ ':' :: ((Text.padded 2 p.second).toList ++
    ((Instant.fractionText p.nano).toList ++ ['Z']))))))

/-- Parts that a text of a time can have. -/
structure Parts.IsWritten (p : Parts) : Prop where
  year : -2147483648 ≤ p.date.year ∧ p.date.year ≤ 2147483647
  month : 1 ≤ p.date.month ∧ p.date.month ≤ 12
  day : 1 ≤ p.date.day ∧ p.date.day ≤ 31
  hour : p.hour ≤ 23
  minute : p.minute ≤ 59
  second : p.second ≤ 60
  nano : p.nano < 1000000000
  offset : p.offset = 0

theorem endsNumber_cons {c : Char} (rest : List Char) (h : c.isDigit = false) :
    EndsNumber (c :: rest) := by
  intro c' hc'
  obtain rfl := Option.some.inj hc'
  exact h

theorem lenientParts_text {p : Parts} (hp : p.IsWritten) : lenientParts p.text = .ok (p, []) := by
  have hz : EndsNumber ['Z'] := endsNumber_cons _ (by decide)
  unfold lenientParts Parts.text
  rw [bind_ok (year_yearText hp.year.1 hp.year.2 (endsNumber_cons _ (by decide))),
    bind_ok (blanks_cons _ (by decide)), bind_ok (literal_cons _ _),
    bind_ok (short_padded _ hp.month (by have := hp.month; omega)),
    bind_ok (blanks_cons _ (by decide)), bind_ok (literal_cons _ _),
    bind_ok (short_padded _ hp.day (by have := hp.day; omega)),
    bind_ok (separator_t _),
    bind_ok (short_padded _ ⟨Nat.zero_le _, hp.hour⟩ (by have := hp.hour; omega)),
    bind_ok (blanks_cons _ (by decide)), bind_ok (literal_cons _ _),
    bind_ok (short_padded _ ⟨Nat.zero_le _, hp.minute⟩ (by have := hp.minute; omega)),
    bind_ok (blanks_cons _ (by decide)), bind_ok (literal_cons _ _),
    bind_ok (short_padded _ ⟨Nat.zero_le _, hp.second⟩ (by have := hp.second; omega)),
    bind_ok (fraction_fractionText hp.nano hz (by decide)), bind_ok lenientOffset_z, ← hp.offset]
  rfl

end Timestamp

namespace Instant

/-- The parts of the text of an instant. -/
def parts (t : Instant) : Timestamp.Parts where
  date := Date.ofDay (t.second / secondsPerDay)
  hour := t.secondOfDay.toNat / 3600
  minute := t.secondOfDay.toNat / 60 % 60
  second := t.secondOfDay.toNat % 60 + t.nano / nanosPerSecond
  nano := t.nano % nanosPerSecond
  offset := 0

theorem toList_text (t : Instant) : t.text.toList = t.parts.text := by
  have hdash : "-".toList = ['-'] := rfl
  have htime : "T".toList = ['T'] := rfl
  have hcolon : ":".toList = [':'] := rfl
  have hutc : "Z".toList = ['Z'] := rfl
  simp only [text, parts, Timestamp.Parts.text, String.toList_append, List.append_assoc, hdash, htime,
    hcolon, hutc, List.cons_append, List.nil_append]

/-- An instant that a text can name: a leap second follows the last second of a minute. -/
structure IsNamed (t : Instant) : Prop where
  inRange : t.inRange
  leap : t.IsPlain ∨ t.second % 60 = 59 ∧ t.nano < 2 * nanosPerSecond

variable {t : Instant}

theorem secondOfDay_bounds (t : Instant) : 0 ≤ t.secondOfDay ∧ t.secondOfDay < 86400 := by
  unfold secondOfDay secondsPerDay
  omega

theorem nanosPerSecond_eq : nanosPerSecond = 1000000000 := rfl

/-- The second of a minute is 60 in a leap second only. -/
theorem leap_le (h : t.IsNamed) : t.nano / nanosPerSecond ≤ 1 ∧
    (t.nano / nanosPerSecond = 1 → t.secondOfDay % 60 = 59) := by
  rcases h.leap with hplain | ⟨hlast, hnano⟩
  · rw [Nat.div_eq_of_lt hplain]
    exact ⟨Nat.zero_le _, fun h0 => absurd h0 (by decide)⟩
  · refine ⟨?_, fun _ => ?_⟩
    · rw [nanosPerSecond_eq] at *
      omega
    · unfold secondOfDay secondsPerDay
      omega

theorem min_leap {second leap : Nat} (hleap : leap ≤ 1) (hlast : leap = 1 → second % 60 = 59) :
    min (second % 60 + leap) 59 = second % 60 := by
  omega

theorem year_bounds (h : t.inRange) :
    minYear ≤ (Date.ofDay (t.second / secondsPerDay)).year ∧
      (Date.ofDay (t.second / secondsPerDay)).year ≤ maxYear := by
  rw [inRange, minSecond_eq, maxSecond_eq, Bool.and_eq_true, decide_eq_true_eq,
    decide_eq_true_eq] at h
  have hlow : -96465292 ≤ t.second / secondsPerDay := by
    unfold secondsPerDay
    omega
  have hhigh : t.second / secondsPerDay ≤ 95026236 := by
    unfold secondsPerDay
    omega
  obtain ⟨era, c, q, y, d, hp⟩ := Date.exists_place (t.second / secondsPerDay)
  rw [Date.year_ofDay hp, minYear, maxYear]
  obtain ⟨hc, hq, hy, hd, -, hday⟩ := hp
  constructor
  · omega
  · -- The last era is not over: its years are bounded by the centuries that have passed in it.
    rcases (show era < 655 ∨ era = 655 by omega) with hlt | rfl
    · omega
    · have hcycle : c = 0 ∨ c = 1 ∧ q ≤ 10 := by omega
      omega

theorem isWritten_parts (h : t.IsNamed) : t.parts.IsWritten := by
  obtain ⟨hlow, hhigh⟩ := year_bounds h.inRange
  obtain ⟨hmonth, hmonth', hday, hday'⟩ := Date.isValid_ofDay (t.second / secondsPerDay)
  obtain ⟨hclock, hclock'⟩ := secondOfDay_bounds t
  obtain ⟨hleap, -⟩ := leap_le h
  have hdays : daysInMonth (Date.ofDay (t.second / secondsPerDay)).year
      (Date.ofDay (t.second / secondsPerDay)).month ≤ 31 := by
    unfold daysInMonth
    split_ifs <;> omega
  rw [minYear] at hlow
  rw [maxYear] at hhigh
  exact
    { year := ⟨hlow.trans' (by decide), hhigh.trans (by decide)⟩
      month := ⟨hmonth, hmonth'⟩
      day := ⟨hday, hday'.trans hdays⟩
      hour := by change t.secondOfDay.toNat / 3600 ≤ 23; omega
      minute := by change t.secondOfDay.toNat / 60 % 60 ≤ 59; omega
      second := by change t.secondOfDay.toNat % 60 + t.nano / nanosPerSecond ≤ 60; omega
      nano := Nat.mod_lt _ (by decide)
      offset := rfl }

/-- The parts of an instant give the instant again. -/
theorem instant_parts (h : t.IsNamed) : t.parts.instant = .ok t := by
  obtain ⟨hlow, hhigh⟩ := year_bounds h.inRange
  obtain ⟨hclock, hclock'⟩ := secondOfDay_bounds t
  obtain ⟨hleap, hlast⟩ := leap_le h
  have hdate : (decide t.parts.date.IsValid && decide (minYear ≤ t.parts.date.year) &&
      decide (t.parts.date.year ≤ maxYear)) = true := by
    rw [Bool.and_eq_true, Bool.and_eq_true, decide_eq_true_eq, decide_eq_true_eq, decide_eq_true_eq]
    exact ⟨⟨Date.isValid_ofDay _, hlow⟩, hhigh⟩
  have hday : t.parts.date.toDay = t.second / secondsPerDay := Date.toDay_ofDay _
  have hminute : t.parts.second = t.secondOfDay.toNat % 60 + t.nano / nanosPerSecond := rfl
  have hoffset : t.parts.offset = 0 := rfl
  -- In a leap second the text has the second 60, which is kept as 59.
  have hmin : min t.parts.second 59 = t.secondOfDay.toNat % 60 := by
    rw [hminute]
    exact min_leap hleap fun h1 => by have := hlast h1; omega
  have hsecond : t.parts.date.toDay * secondsPerDay +
      (t.parts.hour * 3600 + t.parts.minute * 60 + min t.parts.second 59 : Nat) -
        t.parts.offset = t.second := by
    have hrest : t.second / secondsPerDay * secondsPerDay + t.secondOfDay = t.second := by
      unfold secondOfDay secondsPerDay
      omega
    have hparts : t.parts.hour * 3600 + t.parts.minute * 60 + t.secondOfDay.toNat % 60 =
        t.secondOfDay.toNat := by
      change t.secondOfDay.toNat / 3600 * 3600 + t.secondOfDay.toNat / 60 % 60 * 60 +
        t.secondOfDay.toNat % 60 = t.secondOfDay.toNat
      omega
    rw [hday, hmin, hparts, hoffset, Int.toNat_of_nonneg hclock, Int.sub_zero, hrest]
  have hnano : t.parts.nano + (if t.parts.second = 60 then nanosPerSecond else 0) = t.nano := by
    have hrest := Nat.mod_add_div t.nano nanosPerSecond
    have hrest' : t.parts.nano + nanosPerSecond * (t.nano / nanosPerSecond) = t.nano := hrest
    rcases (show t.nano / nanosPerSecond = 0 ∨ t.nano / nanosPerSecond = 1 by omega) with h0 | h1
    · rw [hminute, if_neg (by omega)]
      rw [h0] at hrest'
      exact hrest'
    · have hlast' := hlast h1
      rw [hminute, if_pos (by omega)]
      rw [h1, Nat.mul_one] at hrest'
      exact hrest'
  unfold Timestamp.Parts.instant
  rw [hdate]
  simp only [hsecond, hnano]
  rw [hoffset, if_neg (by decide)]
  exact if_pos h.inRange

/-- The text of an instant is read as that instant. -/
theorem readLenient_text (h : t.IsNamed) : Timestamp.readLenient t.text = .ok t := by
  have hparts : Timestamp.lenientParts.run t.text.toList = .ok (t.parts, []) := by
    rw [toList_text]
    exact Timestamp.lenientParts_text (isWritten_parts h)
  unfold Timestamp.readLenient
  rw [hparts]
  exact instant_parts h

end Instant

end ScheduledScaling
