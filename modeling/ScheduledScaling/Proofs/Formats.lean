import Mathlib.Data.List.DropRight
import ScheduledScaling.Proofs.Readings
import ScheduledScaling.Time.Duration
/-!
# Texts of durations, times and dates

No text is read in two of the three ways in which a moment can be written. The year of a time or a date
ends at a dash, where a duration needs a unit (`read_of_readRfc3339`, `read_of_readDate`), and a time
goes on after its day, where a date ends (`readDate?_of_readRfc3339`).
-/
namespace ScheduledScaling

namespace Timestamp
variable {s rest : List Char}

/-! ## What readers have taken off a text -/

theorem eq_of_literal {c : Char} (h : literal c s = .ok ((), rest)) : s = c :: rest := by
  cases s with
  | nil => cases h
  | cons first after =>
    rw [literal] at h
    split at h
    · rename_i heq
      cases h
      rw [heq]
    · cases h

theorem exists_of_separator (h : separator s = .ok ((), rest)) :
    ∃ c, s = c :: rest ∧ c.isDigit = false := by
  cases s with
  | nil => cases h
  | cons c after =>
    rw [separator] at h
    split at h
    · rename_i hc
      cases h
      exact ⟨c, rfl, by rcases hc with rfl | rfl | rfl <;> rfl⟩
    · cases h

theorem rest_of_within {low high m n : Nat} (h : within low high m s = .ok (n, rest)) :
    rest = s := by
  unfold within at h
  split at h
  · cases h
    rfl
  · cases h

theorem exists_digits_of_short {low high n : Nat} (h : short low high s = .ok (n, rest)) :
    ∃ digits, Text.trimStart s = digits ++ rest ∧ (∀ c ∈ digits, c.isDigit) ∧
      1 ≤ digits.length := by
  obtain ⟨_, after, hblanks, h⟩ := bind_eq_ok h
  cases hblanks
  obtain ⟨m, after, hnumber, h⟩ := bind_eq_ok h
  obtain ⟨digits, heq, hdigits, hleast, -⟩ := exists_digits_of_number hnumber
  exact ⟨digits, rest_of_within h ▸ heq, hdigits, hleast⟩

/-- A year is a sign and what follows it, or digits. -/
theorem cases_of_year {y : Int} (h : year s = .ok (y, rest)) :
    (∃ c after, Text.trimStart s = c :: after ∧ (c = '-' ∨ c = '+')) ∨
      ∃ digits, Text.trimStart s = digits ++ rest ∧ (∀ c ∈ digits, c.isDigit) ∧
        1 ≤ digits.length := by
  have hblanks : year s = year (Text.trimStart s) := by
    have hagain : blanks (Text.trimStart s) = .ok ((), Text.trimStart s) :=
      congrArg (fun text => Except.ok ((), text)) (List.dropWhile_idempotent _ s)
    have hfirst : blanks s = .ok ((), Text.trimStart s) := rfl
    unfold year
    rw [bind_ok hfirst, bind_ok hagain]
  cases hs : Text.trimStart s with
  | nil =>
    rw [hblanks, hs] at h
    cases h
  | cons c after =>
    have hc : Text.isBlank c = false := by
      have hhead := List.head?_dropWhile_not Text.isBlank s
      rw [show s.dropWhile Text.isBlank = c :: after from hs] at hhead
      exact hhead
    rw [hblanks, hs, year_cons after hc] at h
    split at h
    · rename_i hminus
      exact .inl ⟨c, after, rfl, .inl hminus⟩
    split at h
    · rename_i hplus
      exact .inl ⟨c, after, rfl, .inr hplus⟩
    obtain ⟨m, last, hnumber, h⟩ := bind_eq_ok h
    have hrest : rest = last := by
      unfold boundedYear at h
      split at h
      · cases h
        rfl
      · cases h
    obtain ⟨digits, heq, hdigits, hleast, -⟩ := exists_digits_of_number hnumber
    exact .inr ⟨digits, hrest ▸ heq, hdigits, hleast⟩

/-! ## Times are no dates -/

/-- Digits up to a dash are parted from what follows in one way. -/
theorem append_dash_inj {digits digits' after after' : List Char} (h : ∀ c ∈ digits, c.isDigit)
    (h' : ∀ c ∈ digits', c.isDigit) (heq : digits ++ '-' :: after = digits' ++ '-' :: after') :
    digits = digits' ∧ after = after' := by
  have hends (after : List Char) : EndsNumber ('-' :: after) := endsNumber_cons after rfl
  have hdigits : digits = digits' := by
    rw [← takeWhile_digits h (hends after), heq, takeWhile_digits h' (hends after')]
  subst hdigits
  exact ⟨rfl, (List.cons.inj (List.append_cancel_left heq)).2⟩

theorem trimStart_of_digits {digits : List Char} (h : ∀ c ∈ digits, c.isDigit)
    (hlength : 1 ≤ digits.length) (rest : List Char) :
    Text.trimStart (digits ++ rest) = digits ++ rest := by
  cases digits with
  | nil => cases hlength
  | cons c digits =>
    have hc := isBlank_of_isDigit (h c List.mem_cons_self)
    exact List.dropWhile_cons_of_neg (by simp [hc])

theorem isDigit_of_append_eq_cons {digits after : List Char} {c : Char}
    (h : ∀ c ∈ digits, c.isDigit) (hlength : 1 ≤ digits.length) (heq : digits ++ rest = c :: after) :
    c.isDigit := by
  cases digits with
  | nil => cases hlength
  | cons d digits => exact (List.cons.inj heq).1 ▸ h d List.mem_cons_self

/-- A time starts with the year, the month and the day, and goes on after them. -/
theorem exists_of_strictParts {p : Parts} (h : strictParts s = .ok (p, rest)) :
    ∃ year month day c after, s = year ++ '-' :: month ++ '-' :: day ++ c :: after ∧
      (∀ d ∈ year, d.isDigit) ∧ 1 ≤ year.length ∧ (∀ d ∈ month, d.isDigit) ∧ 1 ≤ month.length ∧
      (∀ d ∈ day, d.isDigit) ∧ 1 ≤ day.length ∧ c.isDigit = false := by
  have hexactly {low high n : Nat} {s rest : List Char}
      (h : (number 2 2 >>= within low high) s = .ok (n, rest)) :
      ∃ digits, s = digits ++ rest ∧ (∀ c ∈ digits, c.isDigit) ∧ 1 ≤ digits.length := by
    obtain ⟨m, after, hnumber, h⟩ := bind_eq_ok h
    obtain ⟨digits, heq, hdigits, hleast, -⟩ := exists_digits_of_number hnumber
    exact ⟨digits, rest_of_within h ▸ heq, hdigits, by omega⟩
  unfold strictParts at h
  dsimp only at h
  obtain ⟨y, s1, hyear, h⟩ := bind_eq_ok h
  obtain ⟨_, s2, hdash, h⟩ := bind_eq_ok h
  obtain ⟨m, s3, hmonth, h⟩ := bind_eq_ok h
  obtain ⟨_, s4, hdash', h⟩ := bind_eq_ok h
  obtain ⟨d, s5, hday, h⟩ := bind_eq_ok h
  obtain ⟨_, s6, hseparator, -⟩ := bind_eq_ok h
  obtain ⟨year, rfl, hyears, hyear', -⟩ := exists_digits_of_number hyear
  obtain rfl := eq_of_literal hdash
  obtain ⟨month, rfl, hmonths, hmonth'⟩ := hexactly hmonth
  obtain rfl := eq_of_literal hdash'
  obtain ⟨day, rfl, hdays, hday'⟩ := hexactly hday
  obtain ⟨c, rfl, hc⟩ := exists_of_separator hseparator
  exact ⟨year, month, day, c, s6, by simp, hyears, by omega, hmonths, hmonth', hdays, hday', hc⟩

theorem exists_strictParts (h : (readRfc3339? s).isSome) : ∃ p, strictParts s = .ok (p, []) := by
  unfold readRfc3339? at h
  split at h
  · exact ⟨_, ‹_›⟩
  · cases h

/-- A date is a year, a month and a day with dashes between them, and nothing after them. -/
theorem exists_of_readDate (h : (readDate? s).isSome) :
    ∃ y m d afterYear afterMonth, year s = .ok (y, '-' :: afterYear) ∧
      short 1 12 afterYear = .ok (m, '-' :: afterMonth) ∧ short 1 31 afterMonth = .ok (d, []) := by
  unfold readDate? at h
  split at h
  · rename_i date hdate
    change dateParts s = _ at hdate
    unfold dateParts at hdate
    obtain ⟨y, s1, hyear, hdate⟩ := bind_eq_ok hdate
    obtain ⟨_, s2, hdash, hdate⟩ := bind_eq_ok hdate
    obtain ⟨m, s3, hmonth, hdate⟩ := bind_eq_ok hdate
    obtain ⟨_, s4, hdash', hdate⟩ := bind_eq_ok hdate
    obtain ⟨d, s5, hday, hdate⟩ := bind_eq_ok hdate
    cases hdate
    obtain rfl := eq_of_literal hdash
    obtain rfl := eq_of_literal hdash'
    exact ⟨y, m, d, s2, s4, hyear, hmonth, hday⟩
  · cases h

/-- A time is no date: it goes on after the day. -/
theorem readDate?_of_readRfc3339 (h : (readRfc3339? s).isSome) : readDate? s = none := by
  obtain ⟨p, hp⟩ := exists_strictParts h
  obtain ⟨year, month, day, c, after, rfl, hyears, hyear, hmonths, hmonth, hdays, hday, hc⟩ :=
    exists_of_strictParts hp
  by_contra hdate
  obtain ⟨y, m, d, s1, s2, hy, hm, hd⟩ := exists_of_readDate (Option.isSome_iff_ne_none.2 hdate)
  simp only [List.append_assoc, List.cons_append] at hy
  -- The year, the month and the day of the date are those of the time, after which it goes on.
  rcases cases_of_year hy with ⟨sign, after', hsign, hsign'⟩ | ⟨year', hyear', hyears', -⟩
  · rw [trimStart_of_digits hyears hyear] at hsign
    have hdigit := isDigit_of_append_eq_cons hyears hyear hsign
    rcases hsign' with rfl | rfl <;> cases hdigit
  rw [trimStart_of_digits hyears hyear] at hyear'
  obtain ⟨rfl, rfl⟩ := append_dash_inj hyears hyears' hyear'
  obtain ⟨month', hmonth', hmonths', -⟩ := exists_digits_of_short hm
  rw [trimStart_of_digits hmonths hmonth] at hmonth'
  obtain ⟨rfl, rfl⟩ := append_dash_inj hmonths hmonths' hmonth'
  obtain ⟨day', hday', hdays', -⟩ := exists_digits_of_short hd
  rw [trimStart_of_digits hdays hday, List.append_nil] at hday'
  have hdigit := hdays' c (hday' ▸ List.mem_append_right day List.mem_cons_self)
  exact Bool.noConfusion (hc.symm.trans hdigit)

/-! ## Times and dates are no durations -/

/-- Digits and blanks, and then a dash or a sign. -/
def IsDashed (s : List Char) : Prop :=
  ∃ c rest, s.dropWhile (fun c => c.isDigit || Text.isBlank c) = c :: rest ∧ (c = '-' ∨ c = '+')

/-- A number has to be followed by a point or a unit. -/
theorem IsDashed.readAmount? (h : IsDashed s) : Duration.readAmount? s = none := by
  obtain ⟨c, rest, hrest, hc⟩ := h
  have hloose : (Duration.looseDigits s).2 = c :: rest := hrest
  unfold Duration.readAmount?
  generalize Duration.looseDigits s = read at hloose
  obtain ⟨whole, after⟩ := read
  obtain rfl : after = c :: rest := hloose
  rcases hc with rfl | rfl <;> exact if_pos (Bool.or_eq_true_iff.2 (.inr rfl))

theorem IsDashed.read (h : IsDashed s) : Duration.read s = .ok none := by
  unfold Duration.read
  split
  · rename_i hzero
    obtain ⟨c, rest, hrest, -⟩ := h
    rw [hzero] at hrest
    cases hrest
  · rw [Duration.readAmounts, h.readAmount?]

theorem isDashed_of_digits {digits : List Char} (h : ∀ c ∈ digits, c.isDigit)
    (heq : Text.trimStart s = digits ++ '-' :: rest) : IsDashed s := by
  refine ⟨'-', rest, ?_, .inl rfl⟩
  have hsplit : s = s.takeWhile Text.isBlank ++ (digits ++ '-' :: rest) :=
    heq ▸ (List.takeWhile_append_dropWhile).symm
  rw [hsplit, List.dropWhile_append_of_pos fun c hc => by simp [List.mem_takeWhile_imp hc],
    List.dropWhile_append_of_pos fun c hc => by simp [h c hc]]
  rfl

theorem isDashed_of_sign {c : Char} (hc : c = '-' ∨ c = '+') (heq : Text.trimStart s = c :: rest) :
    IsDashed s := by
  refine ⟨c, rest, ?_, hc⟩
  have hsplit : s = s.takeWhile Text.isBlank ++ c :: rest :=
    heq ▸ (List.takeWhile_append_dropWhile).symm
  rw [hsplit, List.dropWhile_append_of_pos fun c hc => by simp [List.mem_takeWhile_imp hc]]
  rcases hc with rfl | rfl <;> rfl

/-- A time is no duration. -/
theorem read_of_readRfc3339 (h : (readRfc3339? s).isSome) : Duration.read s = .ok none := by
  obtain ⟨p, hp⟩ := exists_strictParts h
  obtain ⟨year, month, day, c, after, rfl, hyears, hyear, -⟩ := exists_of_strictParts hp
  have hyear := trimStart_of_digits hyears hyear ('-' :: (month ++ '-' :: (day ++ c :: after)))
  simp only [List.append_assoc, List.cons_append]
  exact (isDashed_of_digits hyears hyear).read

/-- A date is no duration. -/
theorem read_of_readDate (h : (readDate? s).isSome) : Duration.read s = .ok none := by
  obtain ⟨y, m, d, afterYear, afterMonth, hyear, -⟩ := exists_of_readDate h
  rcases cases_of_year hyear with ⟨c, after, hsign, hc⟩ | ⟨digits, heq, hdigits, -⟩
  · exact (isDashed_of_sign hc hsign).read
  · exact (isDashed_of_digits hdigits heq).read

end Timestamp

end ScheduledScaling
