import ScheduledScaling.Proofs.Renumbering
/-!
# The weekdays of an expression

`weekdays_are_classic`: an expression fires on the weekdays that its weekday field names in the classic
numbering, with one exception. A number with a step is a course to Saturday, day 6; from 7 on there is
none, so the item is left to the grammar, to which 7 is Saturday.
-/
namespace ScheduledScaling

namespace Cron

/-! ## Expressions -/

section Expression
variable {s mi h d m w r : List Char} {items : List (Written .dayOfWeek)} {days : List Nat}

theorem longhand_run (s : List Char) : longhand.run s =
    ((field .second).run s).bind fun p₁ => ((field .minute).run p₁.2).bind fun p₂ =>
    ((field .hour).run p₂.2).bind fun p₃ => ((field .dayOfMonth).run p₃.2).bind fun p₄ =>
    ((field .month).run p₄.2).bind fun p₅ => ((field .dayOfWeek).run p₅.2).bind fun p₆ =>
    ((field .year <|> pure Field.year.values : Reader (List Nat)).run p₆.2).bind fun p₇ =>
    (done.run p₇.2).bind fun p₈ =>
      some (⟨p₁.1, p₂.1, p₃.1, p₄.1, p₅.1, p₆.1, p₇.1⟩, p₈.2) := rfl

/-- After the fields before it, the weekday field is read, and then the rest. -/
theorem longhand_run_words (hs : IsField .second s) (hmi : IsField .minute mi)
    (hh : IsField .hour h) (hd : IsField .dayOfMonth d) (hm : IsField .month m) (hw : Begins w) :
    ∃ seconds minutes hours daysOfMonth months,
      longhand.run (s ++ ' ' :: (mi ++ ' ' :: (h ++ ' ' :: (d ++ ' ' :: (m ++ ' ' :: w))))) =
        ((field .dayOfWeek).run w).bind fun p =>
          ((field .year <|> pure Field.year.values : Reader (List Nat)).run p.2).bind fun q =>
            (done.run q.2).bind fun t =>
              some (⟨seconds, minutes, hours, daysOfMonth, months, p.1, q.1⟩, t.2) := by
  have hm' := hm.begins.append (' ' :: w)
  have hd' := hd.begins.append (' ' :: (m ++ ' ' :: w))
  have hh' := hh.begins.append (' ' :: (d ++ ' ' :: (m ++ ' ' :: w)))
  have hmi' := hmi.begins.append (' ' :: (h ++ ' ' :: (d ++ ' ' :: (m ++ ' ' :: w))))
  obtain ⟨seconds, h₁⟩ := hs.run hmi'
  obtain ⟨minutes, h₂⟩ := hmi.run hh'
  obtain ⟨hours, h₃⟩ := hh.run hd'
  obtain ⟨daysOfMonth, h₄⟩ := hd.run hm'
  obtain ⟨months, h₅⟩ := hm.run hw
  refine ⟨seconds, minutes, hours, daysOfMonth, months, ?_⟩
  simp only [longhand_run, h₁, h₂, h₃, h₄, h₅, Option.bind_some]

/-- What follows the weekday field: nothing, or a year. -/
def EndsExpression (r : List Char) : Prop := r = [] ∨ ∃ y, r = ' ' :: y ∧ IsField .year y

theorem EndsExpression.endsField (hr : EndsExpression r) : EndsField r := by
  rcases hr with rfl | ⟨y, rfl, hy⟩
  · exact .inl rfl
  · exact endsField_cons hy.begins

/-- Then the years are read to the end. -/
theorem EndsExpression.run (hr : EndsExpression r) : ∃ years,
    (field .year <|> pure Field.year.values : Reader (List Nat)).run (r.drop 1) =
      some (years, []) := by
  rcases hr with rfl | ⟨y, rfl, -, years, hread⟩
  · exact ⟨Field.year.values, rfl⟩
  · refine ⟨years, ?_⟩
    rw [run_orElse, List.drop_one, List.tail_cons, hread]
    rfl

/-- No year is read where reading has stopped inside of a field. -/
theorem run_years_of_sticks (h : Sticks r) :
    (field .year <|> pure Field.year.values : Reader (List Nat)).run r =
      some (Field.year.values, r) := by
  have hnone : (field .year).run r = none := by
    have hspace : Stops isSpace r := h.dropWhile_eq ▸ stops_dropWhile isSpace r
    obtain ⟨c, hc, hhead⟩ := h
    obtain ⟨rest, rfl⟩ := List.head?_eq_some_iff.1 hhead
    rw [field_run, dropWhile_of_stops hspace,
      run_item_of_stops hspace (stops_cons.2 (not_isStart_of (.inr hc)))]
    rfl
  rw [run_orElse, hnone]
  rfl

theorem done_run_eq_some_iff {p : Unit × List Char} : done.run r = some p ↔ r = [] ∧ p = ((), []) := by
  change (if r.isEmpty then some ((), r) else none) = some p ↔ _
  cases r with
  | nil => simp [eq_comm]
  | cons c r => simp

/-- An expression reads with these weekdays exactly if its weekday field does, up to its end. -/
theorem longhand_daysOfWeek_iff (hs : IsField .second s) (hmi : IsField .minute mi)
    (hh : IsField .hour h) (hd : IsField .dayOfMonth d) (hm : IsField .month m) (hne : items ≠ [])
    (hr : EndsExpression r) :
    (∃ c rest, longhand.run (s ++ ' ' :: (mi ++ ' ' :: (h ++ ' ' :: (d ++ ' ' :: (m ++ ' ' ::
        (line items ++ r)))))) = some (c, rest) ∧ c.daysOfWeek = days) ↔
      (∀ i ∈ items, i.item.Fits) ∧ fieldValues? .dayOfWeek (items.map (·.item)) = some days := by
  obtain ⟨seconds, minutes, hours, daysOfMonth, months, hrun⟩ :=
    longhand_run_words hs hmi hh hd hm ((begins_line hne).append r)
  rw [hrun]
  by_cases hfits : ∀ i ∈ items, i.item.Fits
  · obtain ⟨years, hyears⟩ := hr.run
    rw [run_field_line hne hfits hr.endsField, hr.endsField.dropWhile_eq]
    rw [and_iff_right hfits]
    cases hvalues : fieldValues? .dayOfWeek (items.map (·.item)) with
    | none => simp
    | some days' =>
      simp only [Option.map_some, Option.bind_some, hyears]
      constructor
      · rintro ⟨c, rest, hc, rfl⟩
        cases hc
        rfl
      · rintro heq
        cases heq
        exact ⟨_, _, rfl, rfl⟩
  · -- reading stops inside of the field, where there is no year, and not the end
    refine iff_of_false ?_ (fun hall => hfits hall.1)
    rintro ⟨c, rest, hc, -⟩
    simp only [Option.bind_eq_some_iff] at hc
    obtain ⟨⟨ns, r'⟩, hfield, ⟨years, r''⟩, hyears, p, hdone, -⟩ := hc
    have hsticks := sticks_of_run_field (by simpa using hfits) hr.endsField hfield
    rw [run_years_of_sticks hsticks] at hyears
    obtain ⟨-, rfl⟩ := Prod.mk.inj (Option.some.inj hyears)
    obtain ⟨rfl, -⟩ := done_run_eq_some_iff.1 hdone
    obtain ⟨c, -, hc⟩ := hsticks
    cases hc

/-- The fields around the weekday field of an expression: five fields begin with the minutes, six
with the seconds, and seven end with the year. -/
def forms : List (List Field × List Field) :=
  [([.minute, .hour, .dayOfMonth, .month], []),
    ([.second, .minute, .hour, .dayOfMonth, .month], []),
    ([.second, .minute, .hour, .dayOfMonth, .month], [.year])]

theorem read?_of_space {s : List Char} (h : ' ' ∈ s) : read? s = (longhand.run s).map (·.1) := by
  have hnone : shorthands.find? (fun p => p.1.toList = s) = none := by
    rw [List.find?_eq_none]
    have hshort : ∀ p ∈ shorthands, ' ' ∉ p.1.toList := by decide
    intro p hp heq
    rw [decide_eq_true_eq] at heq
    exact hshort p hp (heq ▸ h)
  unfold read?
  rw [hnone]

variable {text : String} {before after : List Field} {ws ws' : List (List Char)}

/-- An expression of words that are fields reads with these weekdays exactly if its renumbered weekday
field does. -/
theorem parse_daysOfWeek_iff (hform : (before, after) ∈ forms) (hne : items ≠ [])
    (hwords : Text.words text.toList = ws ++ line items :: ws')
    (hbefore : List.Forall₂ IsField before ws) (hafter : List.Forall₂ IsField after ws') :
    (∃ e, CronExpression.parse text = .ok e ∧ e.cron.daysOfWeek = days) ↔
      (∀ i ∈ items.flatMap renumbered, i.item.Fits) ∧
        fieldValues? .dayOfWeek ((items.flatMap renumbered).map (·.item)) = some days := by
  -- second 0 stands before five fields
  obtain ⟨s, mi, h, d, m, r, hs, hmi, hh, hd, hm, hr, hnormal⟩ : ∃ s mi h d m r,
      IsField .second s ∧ IsField .minute mi ∧ IsField .hour h ∧ IsField .dayOfMonth d ∧
      IsField .month m ∧ EndsExpression r ∧
      [' '].intercalate (CronExpression.normalFields text.toList) =
        s ++ ' ' :: (mi ++ ' ' :: (h ++ ' ' :: (d ++ ' ' :: (m ++ ' ' ::
          (line (items.flatMap renumbered) ++ r))))) := by
    rw [← renumber_line hne]
    have hzero : IsField .second ['0'] := ⟨by simp [Spaceless, isSpace], [0], by decide +kernel⟩
    simp only [forms, List.mem_cons, Prod.mk.injEq, List.not_mem_nil, or_false] at hform
    rcases hform with ⟨rfl, rfl⟩ | ⟨rfl, rfl⟩ | ⟨rfl, rfl⟩
    · obtain _ | ⟨hmi, _ | ⟨hh, _ | ⟨hd, _ | ⟨hm, _ | _⟩⟩⟩⟩ := hbefore
      cases hafter
      refine ⟨_, _, _, _, _, [], hzero, hmi, hh, hd, hm, .inl rfl, ?_⟩
      simp [CronExpression.normalFields, CronExpression.weekdayIndex, hwords, List.intercalate]
    · obtain _ | ⟨hs, _ | ⟨hmi, _ | ⟨hh, _ | ⟨hd, _ | ⟨hm, _ | _⟩⟩⟩⟩⟩ := hbefore
      cases hafter
      refine ⟨_, _, _, _, _, [], hs, hmi, hh, hd, hm, .inl rfl, ?_⟩
      simp [CronExpression.normalFields, CronExpression.weekdayIndex, hwords, List.intercalate]
    · obtain _ | ⟨hs, _ | ⟨hmi, _ | ⟨hh, _ | ⟨hd, _ | ⟨hm, _ | _⟩⟩⟩⟩⟩ := hbefore
      obtain _ | ⟨hy, _ | _⟩ := hafter
      refine ⟨_, _, _, _, _, _, hs, hmi, hh, hd, hm, .inr ⟨_, rfl, hy⟩, ?_⟩
      simp [CronExpression.normalFields, CronExpression.weekdayIndex, hwords, List.intercalate]
  have hmore : items.flatMap renumbered ≠ [] := by
    obtain ⟨i, items, rfl⟩ := List.exists_cons_of_ne_nil hne
    simp [renumbered_ne_nil]
  rw [← longhand_daysOfWeek_iff hs hmi hh hd hm hmore hr, ← hnormal]
  have hspace : ' ' ∈ [' '].intercalate (CronExpression.normalFields text.toList) := by
    rw [hnormal]
    simp
  unfold CronExpression.parse
  rw [read?_of_space hspace]
  constructor
  · rintro ⟨e, he, rfl⟩
    split at he
    · rename_i cron hread
      obtain ⟨⟨c, rest⟩, hrun, rfl⟩ := Option.map_eq_some_iff.1 hread
      cases he
      exact ⟨c, rest, hrun, rfl⟩
    · cases he
  · rintro ⟨c, rest, hrun, rfl⟩
    rw [hrun]
    exact ⟨_, rfl, rfl⟩

end Expression

/-! ## Accepted items -/

/-- An item is renumbered, or the grammar has values for it as it is. -/
def IsAccepted (i : Written .dayOfWeek) : Prop :=
  (∃ days, Weekday.classicDays? i.text = some days) ∨
    i.item.Fits ∧ ∃ vs, i.item.values? .dayOfWeek = some vs

theorem values?_writtenDay {n : Nat} (hlow : 1 ≤ n) (hhigh : n ≤ 7) :
    (writtenDay n).item.values? .dayOfWeek = some [n] :=
  if_pos (Field.admits_iff.2 ⟨hlow, hhigh⟩)

theorem mem_range_of_mem_fieldDays {days : List Nat} {n : Nat} (h : n ∈ fieldDays days) :
    1 ≤ n ∧ n ≤ 7 := by
  obtain ⟨d, -, rfl⟩ := mem_fieldDays.1 h
  omega

/-- An item is accepted exactly if what the renumbering makes of it has values. -/
theorem forall_renumbered_iff (i : Written .dayOfWeek) :
    (∀ j ∈ renumbered i, j.item.Fits ∧ ∃ vs, j.item.values? .dayOfWeek = some vs) ↔
      IsAccepted i := by
  unfold renumbered IsAccepted
  cases hdays : Weekday.classicDays? i.text with
  | none => simp
  | some days =>
    refine iff_of_true ?_ (.inl ⟨days, rfl⟩)
    rw [List.forall_mem_map]
    intro n hn
    obtain ⟨hlow, hhigh⟩ := mem_range_of_mem_fieldDays hn
    refine ⟨?_, [n], values?_writtenDay hlow hhigh⟩
    change n < Word.bound32
    exact Nat.lt_of_le_of_lt hhigh (by decide)

/-- What the renumbering makes of an item has the days that the item is read as. -/
theorem exists_renumbered_iff {i : Written .dayOfWeek} (h : IsAccepted i) {day : Nat}
    (hday : day < 7) : (∃ j ∈ renumbered i, ∃ vs, j.item.values? .dayOfWeek = some vs ∧
      day + 1 ∈ vs) ↔ i.item.FiresOn day := by
  unfold renumbered
  cases hdays : Weekday.classicDays? i.text with
  | none =>
    obtain ⟨days, hsome⟩ | ⟨hfits, vs, hvs⟩ := h
    · cases hdays.symm.trans hsome
    · rw [← (firesOn_of_kept i.spells hdays hfits hvs hday).1]
      simp [hvs]
  | some days =>
    obtain ⟨-, -, hstands⟩ := (classicDays?_eq_some_iff i.spells).1 hdays
    rw [← exists_mem_iff_firesOn hstands]
    constructor
    · rintro ⟨j, hj, vs, hvs, hmem⟩
      obtain ⟨n, hn, rfl⟩ := List.mem_map.1 hj
      obtain ⟨hlow, hhigh⟩ := mem_range_of_mem_fieldDays hn
      rw [values?_writtenDay hlow hhigh] at hvs
      obtain rfl := Option.some.inj hvs
      obtain rfl := List.mem_singleton.1 hmem
      obtain ⟨d, hd, heq⟩ := mem_fieldDays.1 hn
      exact ⟨d, hd, Nat.succ.inj heq⟩
    · rintro ⟨d, hd, rfl⟩
      have hn : d % 7 + 1 ∈ fieldDays days := mem_fieldDays.2 ⟨d, hd, rfl⟩
      obtain ⟨hlow, hhigh⟩ := mem_range_of_mem_fieldDays hn
      exact ⟨_, List.mem_map_of_mem hn, _, values?_writtenDay hlow hhigh, List.mem_singleton_self _⟩

variable {items : List (Written .dayOfWeek)}

/-- What the renumbering makes of a field is read exactly if the field's items are accepted. -/
theorem forall_flatMap_renumbered_iff :
    ((∀ j ∈ items.flatMap renumbered, j.item.Fits) ∧
      ∃ ns, fieldValues? .dayOfWeek ((items.flatMap renumbered).map (·.item)) = some ns) ↔
    ∀ i ∈ items, IsAccepted i := by
  rw [exists_fieldValues_iff, List.forall_mem_map]
  constructor
  · rintro ⟨hfits, hvalues⟩ i hi
    rw [← forall_renumbered_iff]
    intro j hj
    have hmem : j ∈ items.flatMap renumbered := List.mem_flatMap.2 ⟨i, hi, hj⟩
    exact ⟨hfits j hmem, hvalues j hmem⟩
  · intro haccepted
    have hall : ∀ j ∈ items.flatMap renumbered,
        j.item.Fits ∧ ∃ vs, j.item.values? .dayOfWeek = some vs := by
      intro j hj
      obtain ⟨i, hi, hj⟩ := List.mem_flatMap.1 hj
      exact (forall_renumbered_iff i).2 (haccepted i hi) j hj
    exact ⟨fun j hj => (hall j hj).1, fun j hj => (hall j hj).2⟩

/-- Then it has the days of the items. -/
theorem mem_renumbered_iff (haccepted : ∀ i ∈ items, IsAccepted i) {ns : List Nat}
    (hvalues : fieldValues? .dayOfWeek ((items.flatMap renumbered).map (·.item)) = some ns)
    {day : Nat} (hday : day < 7) : day + 1 ∈ ns ↔ ∃ i ∈ items, i.item.FiresOn day := by
  have hvalue : day + 1 ∈ Field.dayOfWeek.values :=
    Field.mem_values.2 ⟨by simp [Field.low], by simp only [Field.high]; omega⟩
  rw [mem_fieldValues hvalues, and_iff_right hvalue]
  constructor
  · rintro ⟨x, hx, hfires⟩
    obtain ⟨j, hj, rfl⟩ := List.mem_map.1 hx
    obtain ⟨i, hi, hj⟩ := List.mem_flatMap.1 hj
    exact ⟨i, hi, (exists_renumbered_iff (haccepted i hi) hday).1 ⟨j, hj, hfires⟩⟩
  · rintro ⟨i, hi, hfires⟩
    obtain ⟨j, hj, hfires⟩ := (exists_renumbered_iff (haccepted i hi) hday).2 hfires
    exact ⟨j.item, List.mem_map_of_mem (List.mem_flatMap.2 ⟨i, hi, hj⟩), hfires⟩

end Cron

open Cron

/-- Numeric weekdays have their classic meaning, but for those from 7 on in steps, which are read as
Saturday. An expression of five, six or seven fields reads exactly if each item of its weekday field is
renumbered or has values in the grammar. It fires on the weekdays of its items (in the field, Sunday is
1). An item that is not renumbered has no numeric day, or it is from 7 on in steps. -/
theorem weekdays_are_classic {text : String} {before after : List Field} {ws ws' : List (List Char)}
    {items : List (Written .dayOfWeek)} (hform : (before, after) ∈ forms) (hne : items ≠ [])
    (hwords : Text.words text.toList = ws ++ line items :: ws')
    (hbefore : List.Forall₂ IsField before ws) (hafter : List.Forall₂ IsField after ws') :
    ((∃ e, CronExpression.parse text = .ok e) ↔ ∀ i ∈ items, IsAccepted i) ∧
      ∀ e, CronExpression.parse text = .ok e →
        (∀ day < 7, day + 1 ∈ e.cron.daysOfWeek ↔ ∃ i ∈ items, i.item.FiresOn day) ∧
        ∀ i ∈ items, Weekday.classicDays? i.text = none → i.item.IsNumeric →
          ∃ interval, i.item = .step (.point 7) interval := by
  have hparse (days : List Nat) :
      (∃ e, CronExpression.parse text = .ok e ∧ e.cron.daysOfWeek = days) ↔
        (∀ i ∈ items.flatMap renumbered, i.item.Fits) ∧
          fieldValues? .dayOfWeek ((items.flatMap renumbered).map (·.item)) = some days :=
    parse_daysOfWeek_iff hform hne hwords hbefore hafter
  refine ⟨?_, fun e he => ?_⟩
  · rw [← forall_flatMap_renumbered_iff]
    constructor
    · rintro ⟨e, he⟩
      obtain ⟨hfits, hvalues⟩ := (hparse _).1 ⟨e, he, rfl⟩
      exact ⟨hfits, _, hvalues⟩
    · rintro ⟨hfits, days, hdays⟩
      obtain ⟨e, he, -⟩ := (hparse days).2 ⟨hfits, hdays⟩
      exact ⟨e, he⟩
  · obtain ⟨hfits, hvalues⟩ := (hparse _).1 ⟨e, he, rfl⟩
    have haccepted := forall_flatMap_renumbered_iff.1 ⟨hfits, _, hvalues⟩
    refine ⟨fun day hday => mem_renumbered_iff haccepted hvalues hday, fun i hi hkept hnumeric => ?_⟩
    obtain ⟨days, hdays⟩ | ⟨hfit, vs, hvs⟩ := haccepted i hi
    · cases hkept.symm.trans hdays
    · exact (firesOn_of_kept i.spells hkept hfit hvs (Nat.zero_lt_succ 6)).2 hnumeric

namespace Cron

theorem exists_of_daysOfWeek {text : String} {days : List Nat}
    (h : (CronExpression.parse text).toOption.map (·.cron.daysOfWeek) = some days) :
    ∃ e, CronExpression.parse text = .ok e ∧ e.cron.daysOfWeek = days := by
  cases hread : CronExpression.parse text with
  | error =>
    rw [hread] at h
    cases h
  | ok e =>
    rw [hread] at h
    exact ⟨e, rfl, Option.some.inj h⟩

/-- Every other day from Friday to Sunday, Wednesdays, and every third day from Monday on. -/
def mixedWeekdays : List (Written .dayOfWeek) :=
  [⟨['5', '-', '7', '/', '2'], .step (.range 5 7) 2,
      @Item.Spells.step _ ['5', '-', '7'] _ ['2']
        (@Span.Spells.range _ ['5'] ['7'] (by decide) (by decide)) (by decide)⟩,
    ⟨['W', 'e', 'd'], .name "Wed", .name (by decide)⟩,
    ⟨['1', '/', '3'], .step (.point 1) 3,
      @Item.Spells.step _ ['1'] _ ['3'] (.point (by decide)) (by decide)⟩]

end Cron

/-- Fridays, Sundays, Wednesdays, Mondays and Thursdays. -/
theorem weekdays_are_classic_mixed :
    ∃ e, CronExpression.parse "0 0 22 * * 5-7/2,Wed,1/3 2025" = .ok e ∧
      e.cron.daysOfWeek = [1, 2, 4, 5, 6] ∧
      ∀ day < 7, day + 1 ∈ [1, 2, 4, 5, 6] ↔ ∃ i ∈ mixedWeekdays, i.item.FiresOn day := by
  obtain ⟨e, he, hdays⟩ : ∃ e, CronExpression.parse "0 0 22 * * 5-7/2,Wed,1/3 2025" = .ok e ∧
      e.cron.daysOfWeek = [1, 2, 4, 5, 6] := exists_of_daysOfWeek (by decide +kernel)
  have hzero : Spaceless ['0'] := by simp [Spaceless, isSpace]
  have hstar : Spaceless ['*'] := by simp [Spaceless, isSpace]
  have hbefore : List.Forall₂ IsField [.second, .minute, .hour, .dayOfMonth, .month]
      ["0".toList, "0".toList, "22".toList, "*".toList, "*".toList] :=
    .cons ⟨hzero, [0], by decide +kernel⟩ <| .cons ⟨hzero, [0], by decide +kernel⟩ <|
      .cons ⟨by simp [Spaceless, isSpace], [22], by decide +kernel⟩ <|
      .cons ⟨hstar, Field.dayOfMonth.values, by decide +kernel⟩ <|
      .cons ⟨hstar, Field.month.values, by decide +kernel⟩ .nil
  have hafter : List.Forall₂ IsField [.year] ["2025".toList] :=
    .cons ⟨by simp [Spaceless, isSpace], [2025], by decide +kernel⟩ .nil
  obtain ⟨-, hfires⟩ := @weekdays_are_classic "0 0 22 * * 5-7/2,Wed,1/3 2025" _ _ _ _
    mixedWeekdays (by decide) (List.cons_ne_nil _ _) (by decide +kernel) hbefore hafter
  refine ⟨e, he, hdays, fun day hday => ?_⟩
  rw [← hdays]
  exact (hfires e he).1 day hday

/-- Sundays in steps are read as Saturdays. -/
theorem sunday_in_steps_is_saturday :
    (Item.step (.point 7) 2).Spells .dayOfWeek "7/2".toList ∧
      (∀ day, (Item.step (.point 7) 2).IsOn day ↔ day = 0) ∧
      Weekday.classicDays? "7/2".toList = none ∧
      ∃ e, CronExpression.parse "0 0 22 * * 7/2" = .ok e ∧ e.cron.daysOfWeek = [6 + 1] :=
  ⟨@Item.Spells.step _ ['7'] _ ['2'] (.point (by decide)) (by decide), fun _ => Iff.rfl,
    by decide +kernel, exists_of_daysOfWeek (by decide +kernel)⟩

end ScheduledScaling
