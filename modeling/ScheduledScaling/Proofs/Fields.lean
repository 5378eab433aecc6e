import ScheduledScaling.Cron.Expression
/-!
# The fields of an expression

`Ordered` expressions list the values of each field in ascending order and within its bounds, which
the searches for occurrences rely on. `ordered_of_parse`: an expression that was read is ordered.
-/
namespace ScheduledScaling.Cron

/-- Values of a field in ascending order. -/
def Field.Lists (f : Field) (ns : List Nat) : Prop :=
  ns.Pairwise (· < ·) ∧ ∀ n ∈ ns, f.low ≤ n ∧ n ≤ f.high

structure Ordered (c : Cron) : Prop where
  seconds : Field.second.Lists c.seconds
  minutes : Field.minute.Lists c.minutes
  hours : Field.hour.Lists c.hours
  daysOfMonth : Field.dayOfMonth.Lists c.daysOfMonth
  months : Field.month.Lists c.months
  daysOfWeek : Field.dayOfWeek.Lists c.daysOfWeek
  years : Field.year.Lists c.years

theorem lists_values (f : Field) : f.Lists f.values :=
  ⟨List.pairwise_lt_range', fun _ => Field.mem_values.1⟩

theorem lists_singleton {f : Field} {n : Nat} (h : f.low ≤ n ∧ n ≤ f.high) : f.Lists [n] :=
  ⟨List.pairwise_singleton .., fun m hm => by
    obtain rfl := List.mem_singleton.1 hm
    exact h⟩

theorem lists_fieldValues {f : Field} {items : List Item} {ns : List Nat}
    (h : fieldValues? f items = some ns) : f.Lists ns := by
  refine ⟨?_, fun n hn => Field.admits_iff.1 (admits_of_mem_fieldValues h hn)⟩
  simp only [fieldValues?, Option.bind_eq_bind, Option.pure_def, Option.bind_eq_some_iff,
    Option.some.injEq] at h
  obtain ⟨runs, -, rfl⟩ := h
  exact (lists_values f).1.filter _

/-! ## Readers -/

theorem run_bind_eq_some {α β : Type} {p : Reader α} {f : α → Reader β} {s s' : List Char} {b : β} :
    (p >>= f).run s = some (b, s') ↔
      ∃ a s₁, p.run s = some (a, s₁) ∧ (f a).run s₁ = some (b, s') := by
  rw [StateT.run_bind, Option.bind_eq_bind, Option.bind_eq_some_iff]
  constructor
  · rintro ⟨⟨a, s₁⟩, h1, h2⟩
    exact ⟨a, s₁, h1, h2⟩
  · rintro ⟨a, s₁, h1, h2⟩
    exact ⟨(a, s₁), h1, h2⟩

theorem lists_field {f : Field} {s rest : List Char} {ns : List Nat}
    (h : (field f).run s = some (ns, rest)) : f.Lists ns := by
  simp only [field, run_bind_eq_some] at h
  obtain ⟨-, -, -, first, s₁, -, s₂, s₃, -, -, -, -, -, s₄, -, h⟩ := h
  rw [StateT.run_monadLift, Option.bind_eq_bind, Option.bind_eq_some_iff] at h
  obtain ⟨values, hv, h⟩ := h
  cases h
  exact lists_fieldValues hv

/-- The years are a field of their own, or all of them. -/
theorem lists_years {s rest : List Char} {ns : List Nat}
    (h : (field .year <|> pure Field.year.values : Reader (List Nat)).run s = some (ns, rest)) :
    Field.year.Lists ns := by
  replace h : ((field .year).run s <|> some (Field.year.values, s)) = some (ns, rest) := h
  cases hf : (field .year).run s with
  | none =>
    rw [hf] at h
    cases h
    exact lists_values .year
  | some r =>
    rw [hf] at h
    obtain rfl := Option.some.inj h
    exact lists_field hf

theorem ordered_longhand {s rest : List Char} {c : Cron} (h : longhand.run s = some (c, rest)) :
    c.Ordered := by
  simp only [longhand, run_bind_eq_some] at h
  obtain ⟨seconds, s₁, h1, minutes, s₂, h2, hours, s₃, h3, daysOfMonth, s₄, h4, months, s₅, h5,
    daysOfWeek, s₆, h6, years, s₇, h7, -, s₈, -, h⟩ := h
  cases h
  exact ⟨lists_field h1, lists_field h2, lists_field h3, lists_field h4, lists_field h5,
    lists_field h6, lists_years h7⟩

theorem ordered_shorthands : ∀ p ∈ shorthands, p.2.Ordered := by
  have hv := lists_values
  have h0 : ∀ f : Field, f.low = 0 → f.Lists [0] := fun f h =>
    lists_singleton ⟨Nat.le_of_eq h, Nat.zero_le _⟩
  have h1 : ∀ f : Field, f.low = 1 → 1 ≤ f.high → f.Lists [1] := fun f h h' =>
    lists_singleton ⟨Nat.le_of_eq h, h'⟩
  have hs := h0 .second rfl
  have hm := h0 .minute rfl
  have hh := h0 .hour rfl
  have hdm := h1 .dayOfMonth rfl (by decide)
  have hmo := h1 .month rfl (by decide)
  have hdw := h1 .dayOfWeek rfl (by decide)
  intro p hp
  simp only [shorthands, List.mem_cons, List.not_mem_nil, or_false] at hp
  rcases hp with rfl | rfl | rfl | rfl | rfl
  · exact ⟨hs, hm, hh, hdm, hmo, hv _, hv _⟩
  · exact ⟨hs, hm, hh, hdm, hv _, hv _, hv _⟩
  · exact ⟨hs, hm, hh, hv _, hv _, hdw, hv _⟩
  · exact ⟨hs, hm, hh, hv _, hv _, hv _, hv _⟩
  · exact ⟨hs, hm, hv _, hv _, hv _, hv _, hv _⟩

theorem ordered_of_read {s : List Char} {c : Cron} (h : read? s = some c) : c.Ordered := by
  unfold read? at h
  split at h
  · rename_i text cron hf
    obtain rfl := Option.some.inj h
    exact ordered_shorthands _ (List.mem_of_find?_eq_some hf)
  · rw [Option.map_eq_some_iff] at h
    obtain ⟨⟨cron, rest⟩, hl, rfl⟩ := h
    exact ordered_longhand hl

/-- An expression that was read is ordered. -/
theorem ordered_of_parse {text : String} {e : CronExpression}
    (h : CronExpression.parse text = .ok e) : e.cron.Ordered := by
  unfold CronExpression.parse at h
  split at h
  · rename_i cron hr
    cases h
    exact ordered_of_read hr
  · cases h

end ScheduledScaling.Cron
