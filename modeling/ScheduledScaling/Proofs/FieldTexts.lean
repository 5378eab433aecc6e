import ScheduledScaling.Proofs.Items
/-!
# The texts of fields

A field is a comma list of items. A list of written items is read as these items if their numbers fit a
word (`run_field_line`), and reading stops inside of it if they do not (`sticks_of_run_field`). A word
that is read as a field is such a list (`exists_line_of_run_field`), so an expression of such words is
read word by word (`IsField.run`).
-/
namespace ScheduledScaling.Cron

/-! ## Lists of written items -/

/-- An item with its text. -/
structure Written (f : Field) where
  text : List Char
  item : Item
  spells : item.Spells f text

/-- The text of a field. -/
def line {f : Field} (items : List (Written f)) : List Char :=
  [','].intercalate (items.map (·.text))

/-- The texts of the items that follow the first. -/
def moreText {f : Field} (items : List (Written f)) : List Char :=
  items.flatMap fun i => ',' :: i.text

variable {f : Field} {w r s : List Char} {c : Char}

@[simp] theorem moreText_nil : moreText ([] : List (Written f)) = [] := rfl

@[simp] theorem moreText_cons (i : Written f) (items : List (Written f)) :
    moreText (i :: items) = ',' :: (i.text ++ moreText items) := rfl

theorem line_cons (i : Written f) (items : List (Written f)) :
    line (i :: items) = i.text ++ moreText items := by
  induction items generalizing i with
  | nil => simp [line, moreText, List.intercalate]
  | cons j items ih =>
    change i.text ++ ',' :: line (j :: items) = _
    rw [ih, moreText_cons]

theorem begins_line {items : List (Written f)} (hne : items ≠ []) : Begins (line items) := by
  cases items with
  | nil => exact absurd rfl hne
  | cons i items =>
    rw [line_cons]
    exact i.spells.begins.append _

/-! ## Numbers that do not fit -/

/-- A text begins with a character that comes after an item has begun, or before another one. -/
def Sticks (s : List Char) : Prop := ∃ c ∈ ['-', '/', ','], s.head? = some c

theorem run_span_of_not_fits {x : Span} (h : x.Spells f w) (hfits : ¬ x.Fits)
    (hr : Stops Char.isDigit r) :
    (span f).run (w ++ r) = none ∨ ∃ n t, (span f).run (w ++ r) = some (.point n, '-' :: t) := by
  cases h with
  | question => exact absurd trivial hfits
  | star => exact absurd trivial hfits
  | point hd =>
    have hfits : ¬ Text.valueOfDigits w < Word.bound32 := hfits
    rw [run_span_digits hd hr, if_neg hfits]
    exact .inl rfl
  | @range first last hfirst hlast =>
    rw [List.append_assoc, List.cons_append, run_span_digits hfirst (stops_cons.2 (by decide)),
      dropWhile_of_stops (stops_cons.2 (by decide)), run_mark_cons]
    by_cases hfit : Text.valueOfDigits first < Word.bound32
    · have hlast' : ¬ Text.valueOfDigits last < Word.bound32 := fun h => hfits ⟨hfit, h⟩
      refine .inr ⟨Text.valueOfDigits first, last ++ r, ?_⟩
      simp [hfit, run_number_append hlast hr, hlast']
    · exact .inl (if_neg hfit)
  | namedRange => exact absurd trivial hfits

/-- A run whose numbers do not fit begins with a digit, so it is no name. -/
theorem run_name_of_not_fits {x : Span} (h : x.Spells f w) (hfits : ¬ x.Fits) (r : List Char) :
    name.run (w ++ r) = none := by
  cases h with
  | point hd => exact run_name_of_digits hd r
  | range hd =>
    rw [List.append_assoc]
    exact run_name_of_digits hd _
  | question => exact absurd trivial hfits
  | star => exact absurd trivial hfits
  | namedRange => exact absurd trivial hfits

/-- An item with a number that does not fit is not read up to its end. -/
theorem sticks_of_run_item {i i' : Item} {r' : List Char} (h : i.Spells f w) (hfits : ¬ i.Fits)
    (hr : Stops Char.isDigit r) (hrun : (item f).run (w ++ r) = some (i', r')) :
    Sticks r' ∧ r'.head? ≠ some ',' := by
  -- a run that does not fit leaves nothing, or what begins with a dash
  have hspan {x : Span} {u t : List Char} (hs : x.Spells f u) (hnot : ¬ x.Fits)
      (ht : Stops Char.isDigit t) (hrun : (item f).run (u ++ t) = some (i', r')) :
      Sticks r' ∧ r'.head? ≠ some ',' := by
    rw [item_run] at hrun
    rcases run_span_of_not_fits hs hnot ht with hnone | ⟨n, t', hpoint⟩
    · rw [hnone, run_name_of_not_fits hs hnot] at hrun
      cases hrun
    · rw [hpoint] at hrun
      simp only [run_mark_of_ne (c := '/') (s := '-' :: t') (by simp), Option.bind_none,
        Option.none_or, Option.some.injEq, Prod.mk.injEq] at hrun
      rw [← hrun.2]
      exact ⟨⟨'-', by simp, rfl⟩, by simp⟩
  cases h with
  | span hs => exact hspan hs hfits hr hrun
  | @step text x interval hs hd =>
    rw [List.append_assoc, List.cons_append] at hrun
    by_cases hfit : x.Fits
    · have hinterval : ¬ Text.valueOfDigits interval < Word.bound32 := fun h => hfits ⟨hfit, h⟩
      rw [item_run, run_span_slash hs hfit] at hrun
      simp only [run_mark_cons, Option.bind_some, run_number_append hd hr, if_neg hinterval,
        Option.bind_none, Option.none_or, Option.some.injEq, Prod.mk.injEq] at hrun
      rw [← hrun.2]
      exact ⟨⟨'/', by simp, rfl⟩, by simp⟩
    · exact hspan hs hfit (stops_cons.2 (by decide)) hrun
  | name => exact absurd trivial hfits

/-! ## Reading lists -/

/-- A text does not begin with more of a list of items: it is empty, or it is the next field. -/
def EndsField (r : List Char) : Prop := r = [] ∨ ∃ t, r = ' ' :: t ∧ Begins t

theorem endsField_cons (hw : Begins w) : EndsField (' ' :: w) := .inr ⟨w, rfl, hw⟩

theorem EndsField.dropWhile_eq (hr : EndsField r) :
    r.dropWhile isSpace = r.drop 1 := by
  rcases hr with rfl | ⟨t, rfl, ht⟩
  · rfl
  · rw [List.dropWhile_cons_of_pos (by decide), dropWhile_of_stops ht.stops_isSpace]
    rfl

theorem EndsField.head_ne (hr : EndsField r) (hc : c ∈ ['-', '/', ',']) :
    r.head? ≠ some c ∧ (r.dropWhile isSpace).head? ≠ some c := by
  rw [hr.dropWhile_eq]
  rcases hr with rfl | ⟨t, rfl, d, rest, rfl, hd⟩
  · simp
  · constructor
    · rintro h
      obtain rfl := Option.some.inj h
      simp at hc
    · rintro h
      obtain rfl := Option.some.inj h
      rw [not_isStart_of (.inr hc)] at hd
      cases hd

/-- An item ends where the next one or the next field follows. -/
theorem ends_of_endsField (hr : EndsField r) (items : List (Written f)) : Ends (moreText items ++ r) := by
  cases items with
  | nil =>
    have hne {c : Char} (hc : c ∈ ['-', '/', ',']) := hr.head_ne hc
    rw [moreText_nil, List.nil_append]
    refine ⟨?_, ?_, (hne (by simp)).2, (hne (by simp)).2⟩ <;>
      rcases hr with rfl | ⟨t, rfl, -⟩ <;> simp
  | cons i items =>
    refine ⟨?_, ?_, ?_, ?_⟩ <;> simp [isSpace]

theorem moreItems_of_ne (h : s.head? ≠ some ',') : moreItems f s = ([], s) := by
  unfold moreItems
  split
  · simp at h
  · rfl

/-- One more item of a list. -/
theorem moreItems_cons {i : Item} {r' : List Char} (hrun : (item f).run s = some (i, r'))
    (hle : r'.length ≤ s.length) :
    moreItems f (',' :: s) = (i :: (moreItems f r').1, (moreItems f r').2) := by
  rw [moreItems, hrun]
  exact if_pos hle

/-- The items after the first are read as they are written, whether or not the spaces before them have
been read. -/
theorem moreItems_moreText {items : List (Written f)} (hfits : ∀ i ∈ items, i.item.Fits)
    (hr : EndsField r)
    (hs : s = moreText items ++ r ∨ s = (moreText items ++ r).dropWhile isSpace) :
    (moreItems f s).1 = items.map (·.item) ∧
      (moreItems f s).2.dropWhile isSpace = r.dropWhile isSpace := by
  induction items generalizing s with
  | nil =>
    obtain ⟨hne, hne'⟩ := hr.head_ne (c := ',') (by simp)
    rcases hs with rfl | rfl
    · rw [moreItems_of_ne hne]
      exact ⟨rfl, rfl⟩
    · rw [moreText_nil, List.nil_append, moreItems_of_ne hne']
      exact ⟨rfl, dropWhile_of_stops (stops_dropWhile _ _)⟩
  | cons i items ih =>
    rw [moreText_cons, List.cons_append, List.append_assoc,
      dropWhile_of_stops (stops_cons.2 (by decide)), or_self] at hs
    obtain ⟨r', hrun, hr'⟩ := run_item i.spells (hfits i List.mem_cons_self)
      (ends_of_endsField hr items)
    -- the reader of lists goes on as long as its text does not get longer
    have hle : r'.length ≤ (i.text ++ (moreText items ++ r)).length := by
      have hsuffix : r'.length ≤ (moreText items ++ r).length := by
        rcases hr' with rfl | rfl
        · exact Nat.le_refl _
        · exact (List.dropWhile_suffix _).length_le
      rw [List.length_append]
      omega
    obtain ⟨hitems, hrest⟩ := ih (fun j hj => hfits j (List.mem_cons_of_mem _ hj)) hr'
    rw [hs, moreItems_cons hrun hle, hitems]
    exact ⟨rfl, hrest⟩

theorem field_run : (field f).run s = ((item f).run (s.dropWhile isSpace)).bind fun p =>
    (fieldValues? f (p.1 :: (moreItems f p.2).1)).bind fun ns =>
      some (ns, (moreItems f p.2).2.dropWhile isSpace) := rfl

/-- A field is read as it is written, if its numbers fit. -/
theorem run_field_line {items : List (Written f)} (hne : items ≠ [])
    (hfits : ∀ i ∈ items, i.item.Fits) (hr : EndsField r) :
    (field f).run (line items ++ r) =
      (fieldValues? f (items.map (·.item))).map fun ns => (ns, r.dropWhile isSpace) := by
  have hspace : (line items ++ r).dropWhile isSpace = line items ++ r :=
    dropWhile_of_stops ((begins_line hne).append r).stops_isSpace
  cases items with
  | nil => exact absurd rfl hne
  | cons i items =>
    obtain ⟨r', hrun, hr'⟩ := run_item i.spells (hfits i List.mem_cons_self)
      (ends_of_endsField hr items)
    obtain ⟨hitems, hrest⟩ :=
      moreItems_moreText (fun j hj => hfits j (List.mem_cons_of_mem _ hj)) hr hr'
    rw [field_run, hspace, line_cons, List.append_assoc, hrun, Option.bind_some, hitems, hrest]
    rw [Option.map_eq_bind]
    rfl

/-- An item before others is read up to the comma. -/
theorem run_item_before {i j : Written f} {items : List (Written f)} (hfits : i.item.Fits)
    (hj : j ∈ items) (hr : EndsField r) :
    (item f).run (i.text ++ (moreText items ++ r)) = some (i.item, moreText items ++ r) := by
  obtain ⟨r', hrun, hr'⟩ := run_item i.spells hfits (ends_of_endsField hr items)
  rw [hrun]
  cases items with
  | nil => cases hj
  | cons => simpa [isSpace] using hr'

/-- A list with a number that does not fit is not read up to its end: what is left begins with a
character that no field begins with. -/
theorem moreItems_of_not_fits {items : List (Written f)} (hnot : ∃ i ∈ items, ¬ i.item.Fits)
    (hr : EndsField r) :
    Sticks (moreItems f (moreText items ++ r)).2 := by
  induction items with
  | nil =>
    obtain ⟨i, hi, -⟩ := hnot
    cases hi
  | cons i items ih =>
    have hends := ends_of_endsField hr items
    rw [moreText_cons, List.cons_append, List.append_assoc]
    by_cases hfits : i.item.Fits
    · -- the number that does not fit is in a later item
      obtain ⟨j, hmem, hnotj⟩ : ∃ j ∈ items, ¬ j.item.Fits := by simpa [hfits] using hnot
      rw [moreItems_cons (run_item_before hfits hmem hr) (by simp)]
      exact ih ⟨j, hmem, hnotj⟩
    · cases hrun : (item f).run (i.text ++ (moreText items ++ r)) with
      | none =>
        rw [moreItems, hrun]
        exact ⟨',', by simp, rfl⟩
      | some p =>
        obtain ⟨i', r'⟩ := p
        obtain ⟨hsticks, hcomma⟩ := sticks_of_run_item i.spells hfits hends.digits hrun
        rw [moreItems, hrun]
        dsimp only
        split
        · rw [moreItems_of_ne hcomma]
          exact hsticks
        · exact hsticks

theorem Sticks.dropWhile_eq (h : Sticks s) : s.dropWhile isSpace = s := by
  obtain ⟨c, hc, hhead⟩ := h
  obtain ⟨rest, rfl⟩ := List.head?_eq_some_iff.1 hhead
  refine dropWhile_of_stops (stops_cons.2 ?_)
  simp only [List.mem_cons, List.not_mem_nil, or_false] at hc
  rcases hc with rfl | rfl | rfl <;> decide

/-- Neither is a field with a number that does not fit. -/
theorem sticks_of_run_field {items : List (Written f)} (hnot : ∃ i ∈ items, ¬ i.item.Fits)
    (hr : EndsField r) {ns : List Nat} {r' : List Char}
    (hrun : (field f).run (line items ++ r) = some (ns, r')) : Sticks r' := by
  cases items with
  | nil =>
    obtain ⟨i, hi, -⟩ := hnot
    cases hi
  | cons i items =>
    have hends := ends_of_endsField hr items
    have hspace : Stops isSpace (line (i :: items) ++ r) :=
      ((begins_line (List.cons_ne_nil i items)).append r).stops_isSpace
    rw [field_run, dropWhile_of_stops hspace, line_cons, List.append_assoc] at hrun
    cases hitem : (item f).run (i.text ++ (moreText items ++ r)) with
    | none =>
      rw [hitem] at hrun
      cases hrun
    | some p =>
      rw [hitem, Option.bind_some, Option.bind_eq_some_iff] at hrun
      obtain ⟨ns', -, hrun⟩ := hrun
      obtain ⟨-, rfl⟩ := Prod.mk.inj (Option.some.inj hrun)
      suffices Sticks (moreItems f p.2).2 by rwa [this.dropWhile_eq]
      by_cases hfits : i.item.Fits
      · obtain ⟨j, hmem, hnotj⟩ : ∃ j ∈ items, ¬ j.item.Fits := by simpa [hfits] using hnot
        rw [run_item_before hfits hmem hr] at hitem
        obtain rfl := Option.some.inj hitem
        exact moreItems_of_not_fits ⟨j, hmem, hnotj⟩ hr
      · obtain ⟨hsticks, hcomma⟩ := sticks_of_run_item i.spells hfits hends.digits hitem
        rwa [moreItems_of_ne hcomma]

/-! ## Fields that are read -/

/-- What is read after the first item is a list of written items. -/
theorem exists_of_moreItems (hs : Spaceless s) :
    ∃ items : List (Written f), s = moreText items ++ (moreItems f s).2 ∧
      (moreItems f s).1 = items.map (·.item) ∧ ∀ i ∈ items, i.item.Fits := by
  -- by the length of the text: an item that is read leaves a shorter one
  induction hn : s.length using Nat.strongRecOn generalizing s with
  | ind n ih =>
    by_cases hcomma : s.head? = some ','
    · obtain ⟨s, rfl⟩ := List.head?_eq_some_iff.1 hcomma
      cases hrun : (item f).run s with
      | none =>
        rw [moreItems, hrun]
        exact ⟨[], rfl, rfl, List.forall_mem_nil _⟩
      | some p =>
        obtain ⟨i, r'⟩ := p
        obtain ⟨w, rfl, hw, hfits⟩ := spells_of_run_item hs.tail hrun
        have hright : Spaceless r' := hs.tail.right
        obtain ⟨items, hr', hitems, hall⟩ := ih r'.length (by simp at hn; omega) hright rfl
        rw [moreItems_cons hrun (by simp), hitems]
        refine ⟨⟨w, i, hw⟩ :: items, ?_, rfl, List.forall_mem_cons.2 ⟨hfits, hall⟩⟩
        rw [moreText_cons, List.cons_append, List.append_assoc, ← hr']
    · rw [moreItems_of_ne hcomma]
      exact ⟨[], rfl, rfl, List.forall_mem_nil _⟩

/-- A word that is read as a field is a list of written items, with values in the field. -/
theorem exists_line_of_run_field {ns : List Nat} (hs : Spaceless w)
    (h : (field f).run w = some (ns, [])) :
    ∃ items : List (Written f), items ≠ [] ∧ w = line items ∧ (∀ i ∈ items, i.item.Fits) ∧
      fieldValues? f (items.map (·.item)) = some ns := by
  rw [field_run, hs.dropWhile_eq] at h
  simp only [Option.bind_eq_some_iff] at h
  obtain ⟨⟨i, s₁⟩, hrun, ns', hvalues, hrest⟩ := h
  obtain ⟨u, rfl, hu, hfits⟩ := spells_of_run_item hs hrun
  obtain ⟨items, hs₁, hitems, hall⟩ := exists_of_moreItems (f := f) hs.right
  obtain ⟨rfl, hend⟩ := Prod.mk.inj (Option.some.inj hrest)
  have hlast : Spaceless (moreItems f s₁).2 := by
    have hright : Spaceless s₁ := hs.right
    rw [hs₁] at hright
    exact hright.right
  rw [← hlast.dropWhile_eq, hend, List.append_nil] at hs₁
  refine ⟨⟨u, i, hu⟩ :: items, by simp, ?_, List.forall_mem_cons.2 ⟨hfits, hall⟩, ?_⟩
  · rw [line_cons, hs₁]
  · rw [hitems] at hvalues
    exact hvalues

/-- A word that is read as a field. -/
def IsField (f : Field) (w : List Char) : Prop :=
  Spaceless w ∧ ∃ ns, (field f).run w = some (ns, [])

theorem IsField.begins (h : IsField f w) : Begins w := by
  obtain ⟨hs, ns, hread⟩ := h
  obtain ⟨items, hne, rfl, -⟩ := exists_line_of_run_field hs hread
  exact begins_line hne

/-- Before another field, it is read up to that field. -/
theorem IsField.run (h : IsField f w) (hs : Begins s) :
    ∃ ns, (field f).run (w ++ ' ' :: s) = some (ns, s) := by
  obtain ⟨hspace, ns, hread⟩ := h
  obtain ⟨items, hne, rfl, hfits, hvalues⟩ := exists_line_of_run_field hspace hread
  refine ⟨ns, ?_⟩
  have hr := endsField_cons hs
  rw [run_field_line hne hfits hr, hvalues, hr.dropWhile_eq]
  rfl

/-! ## The values of a field -/

theorem exists_runs_iff {items : List Item} : (∃ runs, items.mapM (Item.values? f) = some runs) ↔
    ∀ i ∈ items, ∃ vs, i.values? f = some vs := by
  induction items with
  | nil => simp
  | cons i items ih =>
    rw [List.forall_mem_cons, ← ih, List.mapM_cons]
    simp only [Option.bind_eq_bind, Option.pure_def, Option.bind_eq_some_iff, Option.some.injEq]
    constructor
    · rintro ⟨_, vs, hvs, runs, hrest, -⟩
      exact ⟨⟨vs, hvs⟩, runs, hrest⟩
    · rintro ⟨⟨vs, hvs⟩, runs, hrest⟩
      exact ⟨_, vs, hvs, runs, hrest, rfl⟩

theorem mem_runs {items : List Item} {runs : List (List Nat)}
    (h : items.mapM (Item.values? f) = some runs) {vs : List Nat} :
    vs ∈ runs ↔ ∃ i ∈ items, i.values? f = some vs := by
  induction items generalizing runs with
  | nil =>
    obtain rfl := Option.some.inj h
    simp
  | cons i items ih =>
    rw [List.mapM_cons] at h
    simp only [Option.bind_eq_bind, Option.pure_def, Option.bind_eq_some_iff, Option.some.injEq] at h
    obtain ⟨vs', hvs', runs', hrest, rfl⟩ := h
    rw [List.mem_cons, ih hrest]
    simp [hvs', eq_comm]

/-- A field has values exactly if its items do. -/
theorem exists_fieldValues_iff {items : List Item} : (∃ ns, fieldValues? f items = some ns) ↔
    ∀ i ∈ items, ∃ vs, i.values? f = some vs := by
  rw [← exists_runs_iff]
  simp only [fieldValues?, Option.bind_eq_bind, Option.pure_def, Option.bind_eq_some_iff,
    Option.some.injEq]
  constructor
  · rintro ⟨_, runs, hall, -⟩
    exact ⟨runs, hall⟩
  · rintro ⟨runs, hall⟩
    exact ⟨_, runs, hall, rfl⟩

/-- They are the values of any of its items. -/
theorem mem_fieldValues {items : List Item} {ns : List Nat} (h : fieldValues? f items = some ns)
    {n : Nat} :
    n ∈ ns ↔ n ∈ f.values ∧ ∃ i ∈ items, ∃ vs, i.values? f = some vs ∧ n ∈ vs := by
  simp only [fieldValues?, Option.bind_eq_bind, Option.pure_def, Option.bind_eq_some_iff,
    Option.some.injEq] at h
  obtain ⟨runs, hall, rfl⟩ := h
  rw [List.mem_filter]
  refine and_congr_right fun _ => ?_
  simp only [List.any_eq_true, List.contains_iff_mem, mem_runs hall]
  constructor
  · rintro ⟨vs, ⟨i, hi, hvs⟩, hn⟩
    exact ⟨i, hi, vs, hvs, hn⟩
  · rintro ⟨i, hi, vs, hvs, hn⟩
    exact ⟨vs, ⟨i, hi, hvs⟩, hn⟩

end ScheduledScaling.Cron
