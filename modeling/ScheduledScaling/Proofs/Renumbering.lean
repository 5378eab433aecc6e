import ScheduledScaling.Proofs.FieldTexts
import ScheduledScaling.Proofs.Objects
import ScheduledScaling.Proofs.Validation
/-!
# The renumbering of weekdays

`classicDays?_eq_some_iff` says which items of a weekday field are renumbered, and
`exists_mem_iff_firesOn` what they are then read as. `firesOn_of_kept` is about the items that are left to
the grammar: those with names and marks mean what they say, and from 7 on in steps is the one numeric
item that is left to it and read. A renumbered field is a list of items again (`renumber_line`).
-/
namespace ScheduledScaling

namespace Cron

variable {w : List Char}

/-! ## Numbers -/

theorem readWord?_digits {bound : Nat} (hd : IsRun Char.isDigit w) :
    Text.readWord? bound w =
      if Text.valueOfDigits w < bound then some (Text.valueOfDigits w) else none := by
  have hnat : Text.readNat? w = some (Text.valueOfDigits w) :=
    Text.readNat?_eq_some_iff.2 ⟨hd.1, hd.2, rfl⟩
  obtain ⟨c, rest, rfl, hc⟩ := hd.cons
  unfold Text.readWord?
  split
  · rename_i heq
    obtain ⟨rfl, -⟩ := List.cons.inj heq
    exact absurd hc (by decide)
  · dsimp only
    rw [hnat]
    by_cases hlt : Text.valueOfDigits (c :: rest) < bound <;> simp [Option.filter, hlt]

theorem readWord?_of_not_digit {bound : Nat} {c : Char} {rest : List Char}
    (hc : c.isDigit = false) (hplus : c ≠ '+') : Text.readWord? bound (c :: rest) = none := by
  unfold Text.readWord?
  split
  · rename_i heq
    exact absurd (List.cons.inj heq).1 hplus
  · simp [Text.readNat?, hc, Option.filter]

theorem readWord?_letters {bound : Nat} (hw : IsRun Char.isAlpha w) : Text.readWord? bound w = none := by
  obtain ⟨c, rest, rfl, hc⟩ := hw.cons
  refine readWord?_of_not_digit (not_isDigit_of_isAlpha hc) ?_
  rintro rfl
  exact absurd hc (by decide)

/-! ## Days -/

/-- A course from one number to another in steps comes to a weekday. Sunday is 0 and 7. -/
def Reaches (first last step day : Nat) : Prop :=
  ∃ k, first + k * step ≤ last ∧ (first + k * step) % 7 = day

/-- A course from one named day to another in steps comes to a weekday. In the grammar's numbering
Sunday is 1. -/
def NameReaches (first last : String) (step day : Nat) : Prop :=
  ∃ m n, Field.dayOfWeek.named? first = some m ∧ Field.dayOfWeek.named? last = some n ∧
    ∃ k, m + k * step ≤ n ∧ m + k * step = day + 1

/-- The weekdays of an item in the classic numbering, in which Sunday is 0. A number with a step goes
on to Saturday; names keep their days. -/
def Item.IsOn : Item → Nat → Prop
  | .span .all, _ => True
  | .span (.point n), day => n % 7 = day
  | .span (.range first last), day => Reaches first last 1 day
  | .span (.namedRange first last), day => NameReaches first last 1 day
  | .step .all interval, day => Reaches 0 6 interval day
  | .step (.point n) interval, day => if n = 7 then day = 0 else Reaches n 6 interval day
  | .step (.range first last) interval, day => Reaches first last interval day
  | .step (.namedRange first last) interval, day => NameReaches first last interval day
  | .name text, day => Field.dayOfWeek.named? text = some (day + 1)

/-- The weekdays that an item is read as. From 7 on in steps is read as Saturday. -/
def Item.FiresOn : Item → Nat → Prop
  | .step (.point 7) _, day => day = 6
  | i, day => i.IsOn day

/-- An item has a number for a day. -/
def Item.IsNumeric : Item → Prop
  | .span (.point _) | .span (.range ..) | .step (.point _) _ | .step (.range ..) _ => True
  | _ => False

/-- Every `k`-th number from `a` on. -/
theorem mem_everyNth_range' {k a len n : Nat} :
    n ∈ everyNth k (List.range' a len) ↔ ∃ j, j * k < len ∧ a + j * k = n := by
  simp only [everyNth, List.mem_map, List.mem_filter, decide_eq_true_eq, Prod.exists,
    List.mem_zipIdx_iff_getElem?, List.getElem?_eq_some_iff, List.length_range',
    List.getElem_range', Nat.one_mul, exists_and_right, exists_eq_right]
  constructor
  · rintro ⟨i, ⟨hlt, rfl⟩, hmod⟩
    obtain ⟨j, rfl⟩ := Nat.dvd_of_mod_eq_zero hmod
    exact ⟨j, by rwa [Nat.mul_comm], by rw [Nat.mul_comm]⟩
  · rintro ⟨j, hlt, rfl⟩
    exact ⟨j * k, ⟨hlt, rfl⟩, Nat.mul_mod_left j k⟩

/-- The days from the first to the last number in steps, if there are any. -/
def courseDays? (first last interval : Nat) : Option (List Nat) :=
  if last < first ∨ 7 < last then none
  else some ((List.range' first (last + 1 - first)).filter fun d => (d - first) % interval = 0)

theorem exists_mem_courseDays {first last interval day : Nat} {days : List Nat}
    (h : courseDays? first last interval = some days) :
    (∃ d ∈ days, d % 7 = day) ↔ Reaches first last interval day := by
  unfold courseDays? at h
  split at h
  · cases h
  rename_i hbounds
  obtain rfl := Option.some.inj h
  rw [not_or, Nat.not_lt, Nat.not_lt] at hbounds
  constructor
  · rintro ⟨d, hd, hday⟩
    simp only [List.mem_filter, List.mem_range'_1, decide_eq_true_eq] at hd
    obtain ⟨⟨hlow, hhigh⟩, hmod⟩ := hd
    obtain ⟨k, hk⟩ := Nat.dvd_of_mod_eq_zero hmod
    have hd : first + k * interval = d := by rw [Nat.mul_comm, ← hk]; omega
    exact ⟨k, by omega, by rw [hd]; exact hday⟩
  · rintro ⟨k, hle, hday⟩
    refine ⟨first + k * interval, ?_, hday⟩
    simp only [List.mem_filter, List.mem_range'_1, decide_eq_true_eq, Nat.add_sub_cancel_left,
      Nat.mul_mod_left, and_true]
    omega

/-! ## What is renumbered -/

/-- The first and the last number of a run; a number before a step goes on to Saturday. -/
def Span.bounds? (hasStep : Bool) : Span → Option (Nat × Nat)
  | .all => some (0, 6)
  | .point n => some (n, if hasStep then 6 else n)
  | .range first last => some (first, last)
  | .namedRange .. => none

theorem ne_singleton_of_isRun {isPart : Char → Bool} {c : Char} (hw : IsRun isPart w)
    (hc : isPart c = false) (r : List Char) : w ++ r ≠ [c] := by
  obtain ⟨d, rest, rfl, hd⟩ := hw.cons
  intro heq
  rw [(List.cons.inj heq).1, hc] at hd
  cases hd

/-- The renumbering takes a run as it is written, if its numbers fit. -/
theorem bounds?_eq_some_iff {x : Span} {f : Field} (h : x.Spells f w) (hq : w ≠ ['?'])
    {hasStep : Bool} {p : Nat × Nat} :
    Weekday.bounds? w hasStep = some p ↔ x.Fits ∧ x.bounds? hasStep = some p := by
  cases h with
  | question => exact absurd rfl hq
  | star => simp [Weekday.bounds?, Span.bounds?, Span.Fits]
  | point hd =>
    have hcut := Text.cut?_of_not_mem (not_mem_of_digits hd (c := '-') (by decide))
    have hne := ne_singleton_of_isRun hd (c := '*') (by decide) []
    rw [List.append_nil] at hne
    rw [Weekday.bounds?, if_neg hne, hcut]
    by_cases hfits : Text.valueOfDigits w < Word.bound32 <;>
      simp [readWord?_digits hd, hfits, Span.bounds?, Span.Fits]
  | @range first last hfirst hlast =>
    have hcut := Text.cut?_append (not_mem_of_digits hfirst (c := '-') (by decide)) last
    rw [Weekday.bounds?, if_neg (ne_singleton_of_isRun hfirst (by decide) _), hcut]
    by_cases hfits : Text.valueOfDigits first < Word.bound32 <;>
      by_cases hfits' : Text.valueOfDigits last < Word.bound32 <;>
      simp [readWord?_digits hfirst, readWord?_digits hlast, hfits, hfits', Span.bounds?, Span.Fits]
  | @namedRange first last hfirst hlast =>
    have hcut := Text.cut?_append (not_mem_of_letters hfirst (c := '-') (by decide)) last
    rw [Weekday.bounds?, if_neg (ne_singleton_of_isRun hfirst (by decide) _), hcut]
    simp [readWord?_letters hfirst, Span.bounds?]

/-- The renumbering takes an item by its bounds and its step. -/
theorem classicDays?_of_base (hstar : w ≠ ['*']) (hq : w ≠ ['?']) (hslash : '/' ∉ w) :
    Weekday.classicDays? w = (Weekday.bounds? w false).bind fun p => courseDays? p.1 p.2 1 := by
  unfold Weekday.classicDays?
  simp [hstar, hq, Text.cut?_of_not_mem hslash]
  rfl

theorem classicDays?_of_step {digits : List Char} (hne : w ≠ []) (hslash : '/' ∉ w)
    (hd : IsRun Char.isDigit digits) : Weekday.classicDays? (w ++ '/' :: digits) =
      if 0 < Text.valueOfDigits digits ∧ Text.valueOfDigits digits < Word.bound32 then
        (Weekday.bounds? w true).bind fun p => courseDays? p.1 p.2 (Text.valueOfDigits digits)
      else none := by
  have hlong (c : Char) : w ++ '/' :: digits ≠ [c] := by
    obtain ⟨d, rest, rfl⟩ := List.exists_cons_of_ne_nil hne
    simp
  have hstep : ((Text.readWord? Word.bound32 digits).filter fun n => decide (0 < n)) =
      if 0 < Text.valueOfDigits digits ∧ Text.valueOfDigits digits < Word.bound32 then
        some (Text.valueOfDigits digits) else none := by
    rw [readWord?_digits hd]
    split <;> simp [Option.filter, *]
  unfold Weekday.classicDays?
  simp only [hlong, decide_false, Bool.or_self, Bool.false_eq_true, if_false,
    Text.cut?_append hslash, hstep]
  split
  · simp
    rfl
  · simp

/-- The course of the days of an item, as the renumbering takes it: the first number, the last one and
the step. -/
def Item.course? : Item → Option (Nat × Nat × Nat)
  | .span .all => none
  | .span x => (x.bounds? false).map fun p => (p.1, p.2, 1)
  | .step x interval => (x.bounds? true).map fun p => (p.1, p.2, interval)
  | .name _ => none

/-- A run is a mark, or begins with a digit or a letter. -/
theorem Span.Spells.mark_or {x : Span} {f : Field} (h : x.Spells f w) :
    x = .all ∧ (w = ['?'] ∨ w = ['*']) ∨ x ≠ .all ∧ w.head? ≠ some '?' ∧ w.head? ≠ some '*' := by
  have hrun {isPart : Char → Bool} {u : List Char} (hu : IsRun isPart u) (hq : isPart '?' = false)
      (hs : isPart '*' = false) (r : List Char) :
      (u ++ r).head? ≠ some '?' ∧ (u ++ r).head? ≠ some '*' := by
    obtain ⟨c, rest, rfl, hc⟩ := hu.cons
    constructor <;> rintro heq <;> obtain rfl := Option.some.inj heq <;> simp_all
  cases h with
  | question => exact .inl ⟨rfl, .inl rfl⟩
  | star => exact .inl ⟨rfl, .inr rfl⟩
  | point hd =>
    have hhead := hrun hd (by decide) (by decide) []
    rw [List.append_nil] at hhead
    exact .inr ⟨nofun, hhead⟩
  | range hd => exact .inr ⟨nofun, hrun hd (by decide) (by decide) _⟩
  | namedRange hw => exact .inr ⟨nofun, hrun hw (by decide) (by decide) _⟩

theorem course?_span {x : Span} (hx : x ≠ .all) :
    (Item.span x).course? = (x.bounds? false).map fun p => (p.1, p.2, 1) := by
  cases x with
  | all => exact absurd rfl hx
  | _ => rfl

/-- The days that an item stands for in the renumbering. -/
def Item.StandsFor (i : Item) (days : List Nat) : Prop :=
  ∃ first last interval, i.course? = some (first, last, interval) ∧ 0 < interval ∧
    courseDays? first last interval = some days

section Classic
variable {f : Field} {x : Span} {days : List Nat}

theorem classicDays?_span (h : x.Spells f w) :
    Weekday.classicDays? w = some days ↔
      x.Fits ∧ w.head? ≠ some '?' ∧ (Item.span x).StandsFor days := by
  rcases h.mark_or with ⟨rfl, rfl | rfl⟩ | ⟨hall, hq, hs⟩
  · exact ⟨nofun, fun h => absurd rfl h.2.1⟩
  · refine ⟨nofun, ?_⟩
    rintro ⟨-, -, first, last, interval, hcourse, -⟩
    cases hcourse
  · have hq' : w ≠ ['?'] := fun heq => hq (heq ▸ rfl)
    have hs' : w ≠ ['*'] := fun heq => hs (heq ▸ rfl)
    have hslash : '/' ∉ w := h.not_mem (by decide) (by decide)
    rw [classicDays?_of_base hs' hq' hslash, Item.StandsFor, course?_span hall]
    simp only [Option.bind_eq_some_iff, bounds?_eq_some_iff h hq', Option.map_eq_some_iff,
      Prod.exists, Prod.mk.injEq]
    constructor
    · rintro ⟨first, last, ⟨hfits, hbounds⟩, hdays⟩
      exact ⟨hfits, hq, first, last, 1, ⟨first, last, hbounds, rfl, rfl, rfl⟩, Nat.one_pos, hdays⟩
    · rintro ⟨hfits, -, _, _, _, ⟨first, last, hbounds, rfl, rfl, rfl⟩, -, hdays⟩
      exact ⟨first, last, ⟨hfits, hbounds⟩, hdays⟩

theorem classicDays?_step {digits : List Char} (h : x.Spells f w) (hd : IsRun Char.isDigit digits) :
    Weekday.classicDays? (w ++ '/' :: digits) = some days ↔
      (x.Fits ∧ Text.valueOfDigits digits < Word.bound32) ∧ w.head? ≠ some '?' ∧
        (Item.step x (Text.valueOfDigits digits)).StandsFor days := by
  have hne : w ≠ [] := by
    obtain ⟨c, rest, rfl, -⟩ := h.begins
    exact List.cons_ne_nil c rest
  rw [classicDays?_of_step hne (h.not_mem (by decide) (by decide)) hd]
  by_cases hq : w = ['?']
  · -- the mark for any day has no bounds
    subst hq
    have hnone : Weekday.bounds? ['?'] true = none := by decide
    rw [hnone]
    simp
  · have hq' : w.head? ≠ some '?' := by
      rcases h.mark_or with ⟨-, rfl | rfl⟩ | ⟨-, hq', -⟩
      · exact absurd rfl hq
      · decide
      · exact hq'
    simp only [Option.ite_none_right_eq_some, Option.bind_eq_some_iff, bounds?_eq_some_iff h hq,
      Item.StandsFor, Item.course?, Option.map_eq_some_iff, Prod.exists, Prod.mk.injEq]
    constructor
    · rintro ⟨⟨hpos, hlt⟩, first, last, ⟨hfits, hbounds⟩, hdays⟩
      exact ⟨⟨hfits, hlt⟩, hq', first, last, _, ⟨first, last, hbounds, rfl, rfl, rfl⟩, hpos, hdays⟩
    · rintro ⟨⟨hfits, hlt⟩, -, _, _, _, ⟨first, last, hbounds, rfl, rfl, rfl⟩, hpos, hdays⟩
      exact ⟨⟨hpos, hlt⟩, first, last, ⟨hfits, hbounds⟩, hdays⟩

theorem classicDays?_name (h : IsRun Char.isAlpha w) : Weekday.classicDays? w = none := by
  have hmark {c : Char} (hc : c.isAlpha = false) : w ≠ [c] := by
    have hne := ne_singleton_of_isRun h hc []
    rwa [List.append_nil] at hne
  have hcut := Text.cut?_of_not_mem (not_mem_of_letters h (c := '-') (by decide))
  rw [classicDays?_of_base (hmark (by decide)) (hmark (by decide))
    (not_mem_of_letters h (by decide)), Weekday.bounds?, if_neg (hmark (by decide)), hcut]
  simp [readWord?_letters h]

/-- The renumbering rewrites an item exactly if its numbers fit and there is a course of its days; it
knows no question mark. -/
theorem classicDays?_eq_some_iff {i : Item} (h : i.Spells f w) :
    Weekday.classicDays? w = some days ↔ i.Fits ∧ w.head? ≠ some '?' ∧ i.StandsFor days := by
  cases h with
  | span hx => exact classicDays?_span hx
  | @step u x digits hx hd =>
    have hhead : (u ++ '/' :: digits).head? = u.head? := by
      obtain ⟨c, rest, rfl, -⟩ := hx.begins
      rfl
    rw [classicDays?_step hx hd, hhead]
    rfl
  | name hw =>
    rw [classicDays?_name hw]
    refine iff_of_false nofun ?_
    rintro ⟨-, -, first, last, interval, hcourse, -⟩
    cases hcourse

end Classic

/-! ## What an item is read as -/

theorem firesOn_step_point {n interval day : Nat} (hn : n ≠ 7) :
    (Item.step (.point n) interval).FiresOn day ↔ Reaches n 6 interval day := by
  rw [Item.FiresOn, Item.IsOn, if_neg hn]
  rintro interval' heq
  exact hn (Span.point.inj (Item.step.inj heq).1)

/-- The days of a renumbered item are those that it means. -/
theorem reaches_iff_firesOn {i : Item} {first last interval day : Nat} {days : List Nat}
    (hcourse : i.course? = some (first, last, interval))
    (hdays : courseDays? first last interval = some days) :
    Reaches first last interval day ↔ i.FiresOn day := by
  cases i with
  | span x =>
    cases x with
    | all => cases hcourse
    | point n =>
      obtain ⟨rfl, rfl, rfl⟩ : n = first ∧ n = last ∧ 1 = interval := by
        simpa [Item.course?, Span.bounds?] using hcourse
      constructor
      · rintro ⟨k, hle, hday⟩
        obtain rfl : k = 0 := by omega
        exact hday
      · exact fun hday => ⟨0, Nat.le_refl _, hday⟩
    | range => cases hcourse; rfl
    | namedRange => cases hcourse
  | step x =>
    cases x with
    | all => cases hcourse; rfl
    | point n =>
      cases hcourse
      have hn : n ≠ 7 := by
        rintro rfl
        cases hdays
      exact (firesOn_step_point hn).symm
    | range => cases hcourse; rfl
    | namedRange => cases hcourse
  | name => cases hcourse

theorem exists_mem_iff_firesOn {i : Item} {day : Nat} {days : List Nat} (h : i.StandsFor days) :
    (∃ d ∈ days, d % 7 = day) ↔ i.FiresOn day := by
  obtain ⟨first, last, interval, hcourse, -, hdays⟩ := h
  rw [exists_mem_courseDays hdays, reaches_iff_firesOn hcourse hdays]

theorem rangeValues?_eq_some_iff {f : Field} {first last : Nat} {vs : List Nat} :
    rangeValues? f first last = some vs ↔
      f.low ≤ first ∧ first ≤ last ∧ last ≤ f.high ∧ vs = List.range' first (last + 1 - first) := by
  unfold rangeValues?
  simp only [Option.ite_none_right_eq_some, Bool.and_eq_true, Field.admits_iff, decide_eq_true_eq,
    Option.some.injEq]
  constructor
  · rintro ⟨⟨⟨hfirst, hlast⟩, hle⟩, rfl⟩
    exact ⟨hfirst.1, hle, hlast.2, rfl⟩
  · rintro ⟨hlow, hle, hhigh, rfl⟩
    exact ⟨⟨⟨⟨hlow, by omega⟩, by omega, hhigh⟩, hle⟩, rfl⟩

/-- The values that a step takes every so many of. -/
def Span.steppedValues? (f : Field) : Span → Option (List Nat)
  | .point n => rangeValues? f n f.high
  | x => x.values? f

theorem values?_step {f : Field} {x : Span} {interval : Nat} {vs : List Nat}
    (h : (Item.step x interval).values? f = some vs) :
    0 < interval ∧ ∃ run, x.steppedValues? f = some run ∧ everyNth interval run = vs := by
  unfold Item.values? at h
  dsimp only at h
  rw [Option.ite_none_left_eq_some] at h
  obtain ⟨hinterval, h⟩ := h
  simp only [Bool.or_eq_true, decide_eq_true_eq, not_or, Nat.not_lt] at hinterval
  refine ⟨hinterval.1, ?_⟩
  cases x <;> exact Option.map_eq_some_iff.1 h

/-- Every so many of a range of days with names. -/
theorem mem_of_namedRange {first last : String} {interval day : Nat} {vs : List Nat}
    (h : (Span.namedRange first last).values? .dayOfWeek = some vs) :
    day + 1 ∈ everyNth interval vs ↔ NameReaches first last interval day := by
  simp only [Span.values?, Option.bind_eq_bind, Option.bind_eq_some_iff,
    rangeValues?_eq_some_iff] at h
  obtain ⟨m, hm, n, hn, -, hle, -, rfl⟩ := h
  rw [mem_everyNth_range']
  constructor
  · rintro ⟨j, hlt, heq⟩
    exact ⟨m, n, hm, hn, j, by omega, heq⟩
  · rintro ⟨m', n', hm', hn', k, hle', heq⟩
    obtain rfl := Option.some.inj (hm.symm.trans hm')
    obtain rfl := Option.some.inj (hn.symm.trans hn')
    exact ⟨k, by omega, heq⟩

theorem everyNth_one (xs : List Nat) : everyNth 1 xs = xs := by
  simp [everyNth, Nat.mod_one]

/-- An item with a number does not begin with the mark for any day. -/
theorem Item.Spells.head_ne {i : Item} {f : Field} (h : i.Spells f w) (hnumeric : i.IsNumeric) :
    w.head? ≠ some '?' := by
  cases h with
  | span hx =>
    rcases hx.mark_or with ⟨rfl, -⟩ | ⟨-, hq, -⟩
    · exact hnumeric.elim
    · exact hq
  | step hx =>
    rcases hx.mark_or with ⟨rfl, -⟩ | ⟨-, hq, -⟩
    · exact hnumeric.elim
    · obtain ⟨c, rest, rfl, -⟩ := hx.begins
      exact hq
  | name => exact hnumeric.elim

section Kept
variable {i : Item} {vs : List Nat} {day : Nat}

/-- A numeric item that is kept has no course of days. -/
theorem course_of_kept (h : i.Spells .dayOfWeek w) (hkept : Weekday.classicDays? w = none)
    (hfits : i.Fits) (hnumeric : i.IsNumeric) {first last interval : Nat}
    (hcourse : i.course? = some (first, last, interval)) (hpos : 0 < interval) :
    last < first ∨ 7 < last := by
  by_contra hnot
  obtain ⟨days, hdays⟩ : ∃ days, courseDays? first last interval = some days := ⟨_, if_neg hnot⟩
  have hsome := (classicDays?_eq_some_iff h).2
    ⟨hfits, h.head_ne hnumeric, first, last, interval, hcourse, hpos, hdays⟩
  rw [hkept] at hsome
  cases hsome

/-- A run without a step that is kept and read has no numeric day. -/
theorem firesOn_span_of_kept {x : Span} (h : (Item.span x).Spells .dayOfWeek w)
    (hkept : Weekday.classicDays? w = none) (hfits : (Item.span x).Fits)
    (hvs : (Item.span x).values? .dayOfWeek = some vs) (hday : day < 7) :
    (day + 1 ∈ vs ↔ (Item.span x).FiresOn day) ∧ ¬ (Item.span x).IsNumeric := by
  have hcourse := @course_of_kept _ _ h hkept hfits
  cases x with
  | all =>
    obtain rfl := Option.some.inj hvs
    refine ⟨iff_of_true ?_ trivial, id⟩
    exact Field.mem_values.2 ⟨by simp [Field.low], by simp only [Field.high]; omega⟩
  | point n =>
    -- a day past 7, which is no day of the grammar
    have hlast : n < n ∨ 7 < n := hcourse trivial rfl Nat.one_pos
    simp only [Item.values?, Span.values?, Option.ite_none_right_eq_some, Field.admits_iff,
      Field.high] at hvs
    omega
  | range first last =>
    have hlast : last < first ∨ 7 < last := hcourse trivial rfl Nat.one_pos
    simp only [Item.values?, Span.values?, rangeValues?_eq_some_iff, Field.high] at hvs
    omega
  | namedRange first last =>
    refine ⟨?_, id⟩
    rw [← everyNth_one vs]
    exact mem_of_namedRange hvs

/-- One with a step has none either, or it is from 7 on, which is read as Saturday. -/
theorem firesOn_step_of_kept {x : Span} {interval : Nat}
    (h : (Item.step x interval).Spells .dayOfWeek w) (hkept : Weekday.classicDays? w = none)
    (hfits : (Item.step x interval).Fits)
    (hvs : (Item.step x interval).values? .dayOfWeek = some vs) :
    (day + 1 ∈ vs ↔ (Item.step x interval).FiresOn day) ∧
      ((Item.step x interval).IsNumeric → x = .point 7) := by
  have hcourse := @course_of_kept _ _ h hkept hfits
  obtain ⟨hinterval, run, hrun, rfl⟩ := values?_step hvs
  cases x with
  | all =>
    obtain rfl := Option.some.inj hrun
    refine ⟨?_, False.elim⟩
    rw [Field.values, mem_everyNth_range']
    simp only [Field.low, Field.high, Item.FiresOn, Item.IsOn, Reaches]
    constructor
    · rintro ⟨j, hlt, heq⟩
      exact ⟨j, by omega, by omega⟩
    · rintro ⟨k, hle, heq⟩
      exact ⟨k, by omega, by omega⟩
  | point n =>
    -- Saturday is past, and 7 is the last day of the grammar
    have hlast : 6 < n ∨ 7 < 6 := hcourse trivial rfl hinterval
    obtain ⟨-, hle, -, rfl⟩ := rangeValues?_eq_some_iff.1 hrun
    have hn : n ≤ 7 := hle
    obtain rfl : n = 7 := by omega
    refine ⟨?_, fun _ => rfl⟩
    rw [mem_everyNth_range']
    simp only [Field.high, Item.FiresOn]
    constructor
    · rintro ⟨j, hlt, heq⟩
      omega
    · rintro rfl
      exact ⟨0, by omega, by omega⟩
  | range first last =>
    have hlast : last < first ∨ 7 < last := hcourse trivial rfl hinterval
    obtain ⟨-, hle, hhigh, -⟩ := rangeValues?_eq_some_iff.1 hrun
    simp only [Field.high] at hhigh
    omega
  | namedRange first last => exact ⟨mem_of_namedRange hrun, False.elim⟩

/-- The grammar reads an item that is kept by the names of its days, or as any day. From 7 on in steps
is the one numeric item that is kept and read. -/
theorem firesOn_of_kept (h : i.Spells .dayOfWeek w) (hkept : Weekday.classicDays? w = none)
    (hfits : i.Fits) (hvs : i.values? .dayOfWeek = some vs) (hday : day < 7) :
    (day + 1 ∈ vs ↔ i.FiresOn day) ∧
      (i.IsNumeric → ∃ interval, i = .step (.point 7) interval) := by
  cases i with
  | span x =>
    obtain ⟨hfires, hnot⟩ := firesOn_span_of_kept h hkept hfits hvs hday
    exact ⟨hfires, fun hnumeric => absurd hnumeric hnot⟩
  | step x interval =>
    obtain ⟨hfires, hseven⟩ := firesOn_step_of_kept h hkept hfits hvs
    refine ⟨hfires, fun hnumeric => ⟨interval, ?_⟩⟩
    rw [hseven hnumeric]
  | name text =>
    simp only [Item.values?, Option.map_eq_some_iff] at hvs
    obtain ⟨n, hn, rfl⟩ := hvs
    refine ⟨?_, False.elim⟩
    rw [List.mem_singleton]
    simp only [Item.FiresOn, Item.IsOn, hn, Option.some.injEq]
    exact eq_comm

end Kept

/-! ## Renumbered fields -/

theorem isRun_toString (n : Nat) : IsRun Char.isDigit (toString n).toList := by
  obtain ⟨hne, hdigits, -⟩ := Text.readNat?_eq_some_iff.1 (Text.readNat?_toString n)
  exact ⟨hne, hdigits⟩

/-- A day as the renumbering writes it. -/
def writtenDay (n : Nat) : Written .dayOfWeek where
  text := (toString n).toList
  item := .span (.point n)
  spells := by
    have hvalue := (Text.readNat?_eq_some_iff.1 (Text.readNat?_toString n)).2.2
    have hspells := Span.Spells.point (f := .dayOfWeek) (isRun_toString n)
    rw [hvalue] at hspells
    exact .span hspells

/-- The grammar's numbers of some days, in ascending order. -/
def fieldDays (days : List Nat) : List Nat :=
  (List.range' 1 7).filter fun d => (days.map Weekday.fieldDay).contains d

/-- The items that the renumbering makes of an item. -/
def renumbered (i : Written .dayOfWeek) : List (Written .dayOfWeek) :=
  match Weekday.classicDays? i.text with
  | none => [i]
  | some days => (fieldDays days).map writtenDay

theorem renumberItem_text (i : Written .dayOfWeek) :
    Weekday.renumberItem i.text = line (renumbered i) := by
  unfold Weekday.renumberItem renumbered
  cases Weekday.classicDays? i.text with
  | none => simp [line, List.intercalate]
  | some days =>
    simp only [line, List.map_map]
    rfl

theorem mem_fieldDays {days : List Nat} {n : Nat} :
    n ∈ fieldDays days ↔ ∃ d ∈ days, d % 7 + 1 = n := by
  simp only [fieldDays, List.mem_filter, List.mem_range'_1, List.contains_iff_mem, List.mem_map,
    Weekday.fieldDay]
  constructor
  · exact fun h => h.2
  · rintro ⟨d, hd, rfl⟩
    exact ⟨by omega, d, hd, rfl⟩

theorem courseDays_ne_nil {first last interval : Nat} {days : List Nat}
    (h : courseDays? first last interval = some days) : days ≠ [] := by
  unfold courseDays? at h
  split at h
  · cases h
  · rename_i hbounds
    obtain rfl := Option.some.inj h
    refine List.ne_nil_of_mem (a := first) ?_
    simp only [List.mem_filter, List.mem_range'_1, Nat.sub_self, Nat.zero_mod, decide_true,
      and_true]
    omega

theorem renumbered_ne_nil (i : Written .dayOfWeek) : renumbered i ≠ [] := by
  unfold renumbered
  cases hdays : Weekday.classicDays? i.text with
  | none => exact List.cons_ne_nil i []
  | some days =>
    obtain ⟨-, -, first, last, interval, -, -, hcourse⟩ :=
      (classicDays?_eq_some_iff i.spells).1 hdays
    obtain ⟨d, rest, rfl⟩ := List.exists_cons_of_ne_nil (courseDays_ne_nil hcourse)
    have hmem : d % 7 + 1 ∈ fieldDays (d :: rest) :=
      mem_fieldDays.2 ⟨d, List.mem_cons_self, rfl⟩
    exact List.ne_nil_of_mem (List.mem_map_of_mem hmem)

theorem pieces_line {f : Field} {items : List (Written f)} (hne : items ≠ []) :
    Text.pieces (· == ',') (line items) = items.map (·.text) := by
  have hone (i : Written f) : Text.pieces (· == ',') i.text = [i.text] := by
    apply Text.pieces_of_forall
    intro c hc
    rw [beq_eq_false_iff_ne]
    rintro rfl
    exact i.spells.not_mem (by decide) (by decide) (by decide) hc
  cases items with
  | nil => exact absurd rfl hne
  | cons i items =>
    rw [line_cons]
    induction items generalizing i with
    | nil => simp [hone]
    | cons j items ih =>
      rw [moreText_cons, Text.pieces_append (by decide), hone, ih j (List.cons_ne_nil j items)]
      rfl

theorem line_append {f : Field} {items items' : List (Written f)} (hne : items ≠ [])
    (hne' : items' ≠ []) : line (items ++ items') = line items ++ ',' :: line items' := by
  obtain ⟨i, items, rfl⟩ := List.exists_cons_of_ne_nil hne
  obtain ⟨j, items', rfl⟩ := List.exists_cons_of_ne_nil hne'
  simp [line_cons, moreText, List.flatMap_append]

/-- A renumbered field is a list of items too. -/
theorem renumber_line {items : List (Written .dayOfWeek)} (hne : items ≠ []) :
    Weekday.renumber (line items) = line (items.flatMap renumbered) := by
  rw [Weekday.renumber, pieces_line hne, List.map_map]
  cases items with
  | nil => exact absurd rfl hne
  | cons i items =>
    induction items generalizing i with
    | nil => simp [List.intercalate, renumberItem_text]
    | cons j items ih =>
      have hmore : (j :: items).flatMap renumbered ≠ [] := by
        simp [renumbered_ne_nil]
      have hfirst : [','].intercalate ((i :: j :: items).map (Weekday.renumberItem ∘ Written.text)) =
          Weekday.renumberItem i.text ++ ',' ::
            [','].intercalate ((j :: items).map (Weekday.renumberItem ∘ Written.text)) := rfl
      rw [List.flatMap_cons, line_append (renumbered_ne_nil i) hmore,
        ← ih j (List.cons_ne_nil j items), ← renumberItem_text]
      exact hfirst

end Cron
end ScheduledScaling
