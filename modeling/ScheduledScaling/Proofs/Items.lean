import Mathlib.Data.List.TakeWhile
import ScheduledScaling.Proofs.Fields
/-!
# The items of a field

The readers tell an item by its first characters and by what follows it. `Item.Spells` says how an
item is written. `run_item`: what is written as an item is read as this item, if its numbers fit a
word and nothing follows that would be more of it. `spells_of_run_item`: what is read as an item is
written as one.
-/
namespace ScheduledScaling.Cron

/-! ## How items are written -/

/-- One or more characters of a class. -/
def IsRun (isPart : Char → Bool) (w : List Char) : Prop := w ≠ [] ∧ ∀ c ∈ w, isPart c

instance (isPart : Char → Bool) (w : List Char) : Decidable (IsRun isPart w) :=
  decidable_of_iff (w ≠ [] ∧ w.all isPart) (and_congr_right fun _ => List.all_eq_true)

inductive Span.Spells (f : Field) : List Char → Span → Prop
  | question : f.allowsQuestion → Span.Spells f ['?'] .all
  | star : Span.Spells f ['*'] .all
  | point {digits} : IsRun Char.isDigit digits →
    Span.Spells f digits (.point (Text.valueOfDigits digits))
  | range {first last} : IsRun Char.isDigit first → IsRun Char.isDigit last →
    Span.Spells f (first ++ '-' :: last)
      (.range (Text.valueOfDigits first) (Text.valueOfDigits last))
  | namedRange {first last} : IsRun Char.isAlpha first → IsRun Char.isAlpha last →
    Span.Spells f (first ++ '-' :: last) (.namedRange (String.ofList first) (String.ofList last))

inductive Item.Spells (f : Field) : List Char → Item → Prop
  | span {text s} : Span.Spells f text s → Item.Spells f text (.span s)
  | step {text s interval} : Span.Spells f text s → IsRun Char.isDigit interval →
    Item.Spells f (text ++ '/' :: interval) (.step s (Text.valueOfDigits interval))
  | name {letters} : IsRun Char.isAlpha letters →
    Item.Spells f letters (.name (String.ofList letters))

/-- Its numbers fit a word. -/
def Span.Fits : Span → Prop
  | .all | .namedRange .. => True
  | .point n => n < Word.bound32
  | .range first last => first < Word.bound32 ∧ last < Word.bound32

def Item.Fits : Item → Prop
  | .span s => s.Fits
  | .step s interval => s.Fits ∧ interval < Word.bound32
  | .name _ => True

variable {f : Field} {w r s rest : List Char} {isPart : Char → Bool} {c : Char}

/-! ## First characters -/

theorem IsRun.cons (h : IsRun isPart w) : ∃ c rest, w = c :: rest ∧ isPart c := by
  cases w with
  | nil => exact absurd rfl h.1
  | cons c rest => exact ⟨c, rest, rfl, h.2 c List.mem_cons_self⟩

theorem IsRun.not_mem (h : IsRun isPart w) (hc : isPart c = false) : c ∉ w := by
  intro hmem
  rw [h.2 c hmem] at hc
  cases hc

/-- A text does not begin with a character of a class. -/
def Stops (isPart : Char → Bool) (s : List Char) : Prop := ∀ c ∈ s.head?, isPart c = false

@[simp] theorem stops_nil : Stops isPart [] := nofun

@[simp] theorem stops_cons : Stops isPart (c :: s) ↔ isPart c = false := by
  simp [Stops]

theorem Stops.mono {isPart' : Char → Bool} (h : Stops isPart' s)
    (himp : ∀ c, isPart c → isPart' c) : Stops isPart s := by
  intro c hc
  rw [Bool.eq_false_iff]
  intro hpart
  exact absurd (himp c hpart) (by simp [h c hc])

theorem dropWhile_of_stops (h : Stops isPart s) : s.dropWhile isPart = s := by
  cases s with
  | nil => rfl
  | cons c s => exact List.dropWhile_cons_of_neg (by simp [stops_cons.1 h])

theorem takeWhile_of_stops (h : Stops isPart s) : s.takeWhile isPart = [] := by
  cases s with
  | nil => rfl
  | cons c s => exact List.takeWhile_cons_of_neg (by simp [stops_cons.1 h])

theorem stops_dropWhile (isPart : Char → Bool) (s : List Char) : Stops isPart (s.dropWhile isPart) := by
  induction s with
  | nil => exact stops_nil
  | cons c s ih =>
    cases h : isPart c with
    | true => rwa [List.dropWhile_cons_of_pos h]
    | false =>
      rw [List.dropWhile_cons_of_neg (by simp [h])]
      exact stops_cons.2 h

/-- A character that items begin with. -/
def isStart (c : Char) : Bool := c == '?' || c == '*' || c.isDigit || c.isAlpha

theorem isStart_of_isDigit (h : c.isDigit) : isStart c := by
  simp [isStart, h]

theorem isStart_of_isAlpha (h : c.isAlpha) : isStart c := by
  simp [isStart, h]

theorem isSpace_cases (h : isSpace c) : c = ' ' ∨ c = '\t' ∨ c = '\r' ∨ c = '\n' := by
  simpa [isSpace, or_assoc] using h

/-- None of the other characters of the grammar begins an item. -/
theorem not_isStart_of (h : isSpace c ∨ c ∈ ['-', '/', ',']) : isStart c = false := by
  rcases h with h | h
  · rcases isSpace_cases h with rfl | rfl | rfl | rfl <;> decide
  · simp only [List.mem_cons, List.not_mem_nil, or_false] at h
    rcases h with rfl | rfl | rfl <;> decide

theorem isSpace_of_isStart (h : isStart c) : isSpace c = false := by
  cases hc : isSpace c with
  | false => rfl
  | true =>
    rw [not_isStart_of (.inl hc)] at h
    cases h

theorem isSpace_of_isDigit (h : c.isDigit) : isSpace c = false :=
  isSpace_of_isStart (isStart_of_isDigit h)

theorem isSpace_of_isAlpha (h : c.isAlpha) : isSpace c = false :=
  isSpace_of_isStart (isStart_of_isAlpha h)

/-- A text begins with an item. -/
def Begins (s : List Char) : Prop := ∃ c rest, s = c :: rest ∧ isStart c

theorem Begins.append (h : Begins s) (r : List Char) : Begins (s ++ r) := by
  obtain ⟨c, rest, rfl, hc⟩ := h
  exact ⟨c, rest ++ r, rfl, hc⟩

theorem Begins.stops_isSpace (h : Begins s) : Stops isSpace s := by
  obtain ⟨c, rest, rfl, hc⟩ := h
  exact stops_cons.2 (isSpace_of_isStart hc)

theorem begins_of_digits (h : IsRun Char.isDigit w) : Begins w := by
  obtain ⟨c, rest, rfl, hc⟩ := h.cons
  exact ⟨c, rest, rfl, isStart_of_isDigit hc⟩

theorem begins_of_letters (h : IsRun Char.isAlpha w) : Begins w := by
  obtain ⟨c, rest, rfl, hc⟩ := h.cons
  exact ⟨c, rest, rfl, isStart_of_isAlpha hc⟩

theorem Span.Spells.begins {x : Span} (h : x.Spells f w) : Begins w := by
  cases h with
  | question => exact ⟨'?', [], rfl, by decide⟩
  | star => exact ⟨'*', [], rfl, by decide⟩
  | point hd => exact begins_of_digits hd
  | range hd => exact (begins_of_digits hd).append _
  | namedRange hw => exact (begins_of_letters hw).append _

theorem Item.Spells.begins {i : Item} (h : i.Spells f w) : Begins w := by
  cases h with
  | span hs => exact hs.begins
  | step hs => exact hs.begins.append _
  | name hw => exact begins_of_letters hw

/-! ## The other characters

In a run there are characters that items begin with, and a dash. An item may have a slash too. -/

theorem not_mem_of_digits (h : IsRun Char.isDigit w) (hc : isStart c = false) : c ∉ w := by
  apply h.not_mem
  rw [Bool.eq_false_iff]
  intro hd
  rw [isStart_of_isDigit hd] at hc
  cases hc

theorem not_mem_of_letters (h : IsRun Char.isAlpha w) (hc : isStart c = false) : c ∉ w := by
  apply h.not_mem
  rw [Bool.eq_false_iff]
  intro hd
  rw [isStart_of_isAlpha hd] at hc
  cases hc

theorem Span.Spells.not_mem {x : Span} (h : x.Spells f w) (hc : isStart c = false) (hdash : c ≠ '-') :
    c ∉ w := by
  have hmark {m : Char} (hm : isStart m) : c ∉ [m] := by
    rw [List.mem_singleton]
    rintro rfl
    exact absurd hm (by simp [hc])
  cases h with
  | question => exact hmark (by decide)
  | star => exact hmark (by decide)
  | point hd => exact not_mem_of_digits hd hc
  | range hfirst hlast =>
    simp only [List.mem_append, List.mem_cons, not_or]
    exact ⟨not_mem_of_digits hfirst hc, hdash, not_mem_of_digits hlast hc⟩
  | namedRange hfirst hlast =>
    simp only [List.mem_append, List.mem_cons, not_or]
    exact ⟨not_mem_of_letters hfirst hc, hdash, not_mem_of_letters hlast hc⟩

theorem Item.Spells.not_mem {i : Item} (h : i.Spells f w) (hc : isStart c = false) (hdash : c ≠ '-')
    (hslash : c ≠ '/') : c ∉ w := by
  cases h with
  | span hs => exact hs.not_mem hc hdash
  | step hs hd =>
    simp only [List.mem_append, List.mem_cons, not_or]
    exact ⟨hs.not_mem hc hdash, hslash, not_mem_of_digits hd hc⟩
  | name hw => exact not_mem_of_letters hw hc

/-! ## The readers of an item's parts -/

theorem run_orElse {α : Type} (p q : Reader α) (s : List Char) :
    (p <|> q).run s = (p.run s).or (q.run s) := by
  change (p.run s <|> q.run s) = _
  cases p.run s <;> rfl

theorem run_mark_cons (c : Char) (s : List Char) : (mark c).run (c :: s) = some ((), s) :=
  if_pos rfl

theorem run_mark_of_ne (h : s.head? ≠ some c) : (mark c).run s = none := by
  cases s with
  | nil => rfl
  | cons d s => exact if_neg fun hd => h (congrArg some hd)

theorem run_spaced : (spaced isPart).run s =
    if (s.dropWhile isSpace).takeWhile isPart = [] then none
    else some ((s.dropWhile isSpace).takeWhile isPart,
      ((s.dropWhile isSpace).dropWhile isPart).dropWhile isSpace) := by
  cases h : (s.dropWhile isSpace).takeWhile isPart with
  | nil =>
    rw [if_pos rfl]
    change (if ((s.dropWhile isSpace).takeWhile isPart).isEmpty = true then _ else _ : Reader _) _ = _
    rw [h]
    rfl
  | cons c part =>
    rw [if_neg (List.cons_ne_nil c part)]
    change (if ((s.dropWhile isSpace).takeWhile isPart).isEmpty = true then _ else _ : Reader _) _ = _
    rw [if_neg (by simp [h]), ← h]
    rfl

/-- A run of a class is read up to its end, and the spaces after it. -/
theorem run_spaced_append (hspace : ∀ c, isPart c → isSpace c = false) (hw : IsRun isPart w)
    (hr : Stops isPart r) : (spaced isPart).run (w ++ r) = some (w, r.dropWhile isSpace) := by
  have hstart : Stops isSpace (w ++ r) := by
    obtain ⟨c, rest, rfl, hc⟩ := hw.cons
    exact stops_cons.2 (hspace c hc)
  rw [run_spaced, dropWhile_of_stops hstart, List.takeWhile_append_of_pos hw.2,
    List.dropWhile_append_of_pos hw.2, takeWhile_of_stops hr, dropWhile_of_stops hr,
    List.append_nil, if_neg hw.1]

theorem run_spaced_of_stops (hspace : Stops isSpace s) (h : Stops isPart s) :
    (spaced isPart).run s = none := by
  rw [run_spaced, dropWhile_of_stops hspace, takeWhile_of_stops h, if_pos rfl]

theorem number_run : number.run s = ((spaced Char.isDigit).run s).bind fun p =>
    if Text.valueOfDigits p.1 < Word.bound32 then some (Text.valueOfDigits p.1, p.2) else none := by
  change ((spaced Char.isDigit).run s).bind (fun p =>
    (if Text.valueOfDigits p.1 < Word.bound32 then pure (Text.valueOfDigits p.1)
      else failure : Reader Nat).run p.2) = _
  congr 1
  funext p
  split <;> rfl

theorem run_number_append (hd : IsRun Char.isDigit w) (hr : Stops Char.isDigit r) :
    number.run (w ++ r) = if Text.valueOfDigits w < Word.bound32 then
      some (Text.valueOfDigits w, r.dropWhile isSpace) else none := by
  rw [number_run, run_spaced_append (fun _ => isSpace_of_isDigit) hd hr]
  rfl

theorem run_number_of_stops (hspace : Stops isSpace s) (h : Stops Char.isDigit s) :
    number.run s = none := by
  rw [number_run, run_spaced_of_stops hspace h]
  rfl

theorem name_run : name.run s = ((spaced Char.isAlpha).run s).map fun p =>
    (String.ofList p.1, p.2) := by
  unfold name
  rw [StateT.run_map]
  rfl

theorem run_name_append (hw : IsRun Char.isAlpha w) (hr : Stops Char.isAlpha r) :
    name.run (w ++ r) = some (String.ofList w, r.dropWhile isSpace) := by
  rw [name_run, run_spaced_append (fun _ => isSpace_of_isAlpha) hw hr]
  rfl

theorem run_name_of_stops (hspace : Stops isSpace s) (h : Stops Char.isAlpha s) :
    name.run s = none := by
  rw [name_run, run_spaced_of_stops hspace h]
  rfl

/-- Two numbers with a dash between them. -/
def numberRange : Reader Span := do
  let first ← number
  mark '-'
  return .range first (← number)

def nameRange : Reader Span := do
  let first ← name
  mark '-'
  return .namedRange first (← name)

theorem numberRange_run : numberRange.run s = (number.run s).bind fun p =>
    ((mark '-').run p.2).bind fun q => (number.run q.2).bind fun last =>
      some (.range p.1 last.1, last.2) := rfl

theorem nameRange_run : nameRange.run s = (name.run s).bind fun p =>
    ((mark '-').run p.2).bind fun q => (name.run q.2).bind fun last =>
      some (.namedRange p.1 last.1, last.2) := rfl

theorem span_run : (span f).run s =
    (if f.allowsQuestion then ((mark '?').run s).bind fun p => some (Span.all, p.2) else none).or
      ((((mark '*').run s).bind fun p => some (Span.all, p.2)).or ((numberRange.run s).or
        (((number.run s).bind fun p => some (Span.point p.1, p.2)).or (nameRange.run s)))) := by
  unfold span
  simp only [run_orElse]
  cases f.allowsQuestion <;> rfl

/-- An item goes on after its first run with a step or not, and without a run it is a name. -/
theorem item_run : (item f).run s =
    match (span f).run s with
    | some (x, r) => (((mark '/').run r).bind fun p => (number.run p.2).bind fun q =>
        some (Item.step x q.1, q.2)).or (some (.span x, r))
    | none => (name.run s).bind fun p => some (.name p.1, p.2) := by
  unfold item
  simp only [run_orElse]
  change (((span f).run s).bind fun p => ((mark '/').run p.2).bind fun q =>
      (number.run q.2).bind fun n => some (Item.step p.1 n.1, n.2)).or
    ((((span f).run s).bind fun p => some (Item.span p.1, p.2)).or
      ((name.run s).bind fun p => some (Item.name p.1, p.2))) = _
  cases (span f).run s <;> simp

/-! ## Reading what is written -/

/-- A text does not begin with more of an item, whatever its item before is. -/
structure Ends (r : List Char) : Prop where
  digits : Stops Char.isDigit r
  letters : Stops Char.isAlpha r
  dash : (r.dropWhile isSpace).head? ≠ some '-'
  slash : (r.dropWhile isSpace).head? ≠ some '/'

theorem run_mark_run (hw : IsRun isPart w) (hc : isPart c = false) (r : List Char) :
    (mark c).run (w ++ r) = none := by
  obtain ⟨d, rest, rfl, hd⟩ := hw.cons
  apply run_mark_of_ne
  intro h
  rw [← Option.some.inj h, hd] at hc
  cases hc

theorem not_isAlpha_of_isDigit (h : c.isDigit) : c.isAlpha = false := by
  have hdigit : c.val ≤ '9'.val := of_decide_eq_true (Bool.and_eq_true_iff.1 h).2
  -- the letters come after the digits
  have hupper : c.isUpper = false := by
    apply decide_eq_false
    rintro ⟨hlow, -⟩
    exact absurd (UInt32.le_trans hlow hdigit) (by decide)
  have hlower : c.isLower = false := by
    rw [Bool.eq_false_iff]
    intro hlower
    have hlow : 'a'.val ≤ c.val := of_decide_eq_true (Bool.and_eq_true_iff.1 hlower).1
    exact absurd (UInt32.le_trans hlow hdigit) (by decide)
  exact Bool.or_eq_false_iff.2 ⟨hupper, hlower⟩

theorem not_isDigit_of_isAlpha (h : c.isAlpha) : c.isDigit = false := by
  rw [Bool.eq_false_iff]
  intro hd
  rw [not_isAlpha_of_isDigit hd] at h
  cases h

theorem run_name_of_digits (hd : IsRun Char.isDigit w) (r : List Char) :
    name.run (w ++ r) = none := by
  obtain ⟨c, rest, rfl, hc⟩ := hd.cons
  exact run_name_of_stops (stops_cons.2 (isSpace_of_isDigit hc))
    (stops_cons.2 (not_isAlpha_of_isDigit hc))

/-- A run that begins with digits is a range or a number. -/
theorem run_span_digits (hd : IsRun Char.isDigit w) (hr : Stops Char.isDigit r) :
    (span f).run (w ++ r) = if Text.valueOfDigits w < Word.bound32 then
      (((mark '-').run (r.dropWhile isSpace)).bind fun p => (number.run p.2).bind fun last =>
          some (Span.range (Text.valueOfDigits w) last.1, last.2)).or
        (some (.point (Text.valueOfDigits w), r.dropWhile isSpace)) else none := by
  rw [span_run, numberRange_run, nameRange_run, run_number_append hd hr, run_name_of_digits hd,
    run_mark_run hd (by decide), run_mark_run hd (by decide)]
  by_cases hfits : Text.valueOfDigits w < Word.bound32 <;> simp [hfits]

/-- One that begins with letters is a range of names. -/
theorem run_span_letters (hw : IsRun Char.isAlpha w) (hr : Stops Char.isAlpha r) :
    (span f).run (w ++ r) = ((mark '-').run (r.dropWhile isSpace)).bind fun p =>
      (name.run p.2).bind fun last =>
        some (.namedRange (String.ofList w) last.1, last.2) := by
  have hnumber : number.run (w ++ r) = none := by
    obtain ⟨c, rest, rfl, hc⟩ := hw.cons
    exact run_number_of_stops (stops_cons.2 (isSpace_of_isAlpha hc))
      (stops_cons.2 (not_isDigit_of_isAlpha hc))
  rw [span_run, numberRange_run, nameRange_run, run_name_append hw hr, hnumber,
    run_mark_run hw (by decide), run_mark_run hw (by decide)]
  simp

/-- A run is read as it is written, if its numbers fit. -/
theorem run_span {x : Span} (h : x.Spells f w) (hfits : x.Fits) (hdigits : Stops Char.isDigit r)
    (hletters : Stops Char.isAlpha r) (hdash : (r.dropWhile isSpace).head? ≠ some '-') :
    ∃ r', (span f).run (w ++ r) = some (x, r') ∧ (r' = r ∨ r' = r.dropWhile isSpace) := by
  cases h with
  | question hf =>
    refine ⟨r, ?_, .inl rfl⟩
    rw [span_run, if_pos hf]
    rfl
  | star =>
    refine ⟨r, ?_, .inl rfl⟩
    rw [span_run, List.singleton_append, run_mark_cons, run_mark_of_ne (c := '?') (by simp)]
    simp
  | point hd =>
    have hfits : Text.valueOfDigits w < Word.bound32 := hfits
    refine ⟨_, ?_, .inr rfl⟩
    rw [run_span_digits hd hdigits, if_pos hfits, run_mark_of_ne hdash]
    rfl
  | @range first last hfirst hlast =>
    refine ⟨_, ?_, .inr rfl⟩
    rw [List.append_assoc, List.cons_append, run_span_digits hfirst (stops_cons.2 (by decide)),
      if_pos hfits.1, dropWhile_of_stops (stops_cons.2 (by decide)), run_mark_cons]
    simp [run_number_append hlast hdigits, hfits.2]
  | @namedRange first last hfirst hlast =>
    refine ⟨_, ?_, .inr rfl⟩
    rw [List.append_assoc, List.cons_append, run_span_letters hfirst (stops_cons.2 (by decide)),
      dropWhile_of_stops (stops_cons.2 (by decide)), run_mark_cons]
    simp [run_name_append hlast hletters]

/-- Before a step, a run is read up to the slash. -/
theorem run_span_slash {x : Span} (h : x.Spells f w) (hfits : x.Fits) (r : List Char) :
    (span f).run (w ++ '/' :: r) = some (x, '/' :: r) := by
  obtain ⟨r', hrun, hr'⟩ := run_span (r := '/' :: r) h hfits (stops_cons.2 (by decide))
    (stops_cons.2 (by decide)) (by simp [isSpace])
  rw [dropWhile_of_stops (stops_cons.2 (by decide)), or_self] at hr'
  rw [hrun, hr']

/-- An item is read as it is written, if its numbers fit. -/
theorem run_item {i : Item} (h : i.Spells f w) (hfits : i.Fits) (hr : Ends r) :
    ∃ r', (item f).run (w ++ r) = some (i, r') ∧ (r' = r ∨ r' = r.dropWhile isSpace) := by
  cases h with
  | @span _ x hs =>
    obtain ⟨r', hrun, hr'⟩ := run_span hs hfits hr.digits hr.letters hr.dash
    -- no step follows
    have hslash : r'.head? ≠ some '/' := by
      rcases hr' with rfl | rfl
      · intro hhead
        obtain ⟨rest, rfl⟩ := List.head?_eq_some_iff.1 hhead
        exact hr.slash hhead
      · exact hr.slash
    refine ⟨r', ?_, hr'⟩
    rw [item_run, hrun]
    simp [run_mark_of_ne hslash]
  | @step text x interval hs hd =>
    refine ⟨_, ?_, .inr rfl⟩
    rw [List.append_assoc, List.cons_append, item_run, run_span_slash hs hfits.1]
    simp [run_mark_cons, run_number_append hd hr.digits, hfits.2]
  | name hw =>
    refine ⟨_, ?_, .inr rfl⟩
    rw [item_run, run_span_letters hw hr.letters, run_mark_of_ne hr.dash]
    simp [run_name_append hw hr.letters]

/-- Nothing is read where no item begins. -/
theorem run_item_of_stops (hspace : Stops isSpace s) (h : Stops isStart s) :
    (item f).run s = none := by
  have hmark {c : Char} (hc : isStart c) : (mark c).run s = none := by
    apply run_mark_of_ne
    intro hhead
    exact absurd hc (by simp [h c hhead])
  have hnumber : number.run s = none :=
    run_number_of_stops hspace (h.mono fun _ => isStart_of_isDigit)
  have hname : name.run s = none :=
    run_name_of_stops hspace (h.mono fun _ => isStart_of_isAlpha)
  rw [item_run, span_run, numberRange_run, nameRange_run, hnumber, hname, hmark (by decide),
    hmark (by decide)]
  simp

/-! ## What is read -/

/-- A text without spaces. -/
def Spaceless (s : List Char) : Prop := ∀ c ∈ s, isSpace c = false

theorem Spaceless.dropWhile_eq (h : Spaceless s) : s.dropWhile isSpace = s :=
  dropWhile_of_stops fun c hc => h c (List.mem_of_head? hc)

theorem Spaceless.right {u : List Char} (h : Spaceless (u ++ s)) : Spaceless s :=
  fun c hc => h c (List.mem_append_right u hc)

theorem Spaceless.tail (h : Spaceless (c :: s)) : Spaceless s :=
  fun d hd => h d (List.mem_cons_of_mem c hd)

theorem spells_of_run_spaced (hs : Spaceless s) (h : (spaced isPart).run s = some (w, rest)) :
    IsRun isPart w ∧ s = w ++ rest := by
  have hsplit : s.takeWhile isPart ++ s.dropWhile isPart = s := List.takeWhile_append_dropWhile
  have hright : Spaceless (s.dropWhile isPart) := by
    rw [← hsplit] at hs
    exact hs.right
  rw [run_spaced, hs.dropWhile_eq, hright.dropWhile_eq] at h
  split at h
  · cases h
  · rename_i hne
    obtain ⟨rfl, rfl⟩ := Prod.mk.inj (Option.some.inj h)
    exact ⟨⟨hne, fun c hc => List.mem_takeWhile_imp hc⟩, hsplit.symm⟩

theorem spells_of_run_number {n : Nat} (hs : Spaceless s) (h : number.run s = some (n, rest)) :
    ∃ digits, IsRun Char.isDigit digits ∧ s = digits ++ rest ∧ n = Text.valueOfDigits digits ∧
      n < Word.bound32 := by
  rw [number_run, Option.bind_eq_some_iff] at h
  obtain ⟨⟨digits, rest'⟩, hread, h⟩ := h
  obtain ⟨hd, hsplit⟩ := spells_of_run_spaced hs hread
  split at h
  · rename_i hfits
    obtain ⟨rfl, rfl⟩ := Prod.mk.inj (Option.some.inj h)
    exact ⟨digits, hd, hsplit, rfl, hfits⟩
  · cases h

theorem spells_of_run_name {name' : String} (hs : Spaceless s)
    (h : name.run s = some (name', rest)) :
    ∃ letters, IsRun Char.isAlpha letters ∧ s = letters ++ rest ∧ name' = String.ofList letters := by
  rw [name_run, Option.map_eq_some_iff] at h
  obtain ⟨⟨letters, rest'⟩, hread, h⟩ := h
  obtain ⟨hw, hsplit⟩ := spells_of_run_spaced hs hread
  obtain ⟨rfl, rfl⟩ := Prod.mk.inj h
  exact ⟨letters, hw, hsplit, rfl⟩

theorem spells_of_run_mark (h : (mark c).run s = some ((), rest)) : s = c :: rest := by
  cases s with
  | nil => cases h
  | cons d s =>
    change (if d = c then some ((), s) else none) = some ((), rest) at h
    split at h
    · rename_i hd
      cases h
      rw [hd]
    · cases h

/-- What is read as a run spells it, and its numbers fit. -/
theorem spells_of_run_span {x : Span} (hs : Spaceless s) (h : (span f).run s = some (x, rest)) :
    ∃ w, s = w ++ rest ∧ x.Spells f w ∧ x.Fits := by
  rw [span_run, numberRange_run, nameRange_run] at h
  simp only [Option.or_eq_some_iff] at h
  -- one case for each alternative of the reader, in its order
  rcases h with h | ⟨-, h | ⟨-, h | ⟨-, h | ⟨-, h⟩⟩⟩⟩
  · split at h
    · rename_i hf
      obtain ⟨⟨_, rest'⟩, hmark, hx⟩ := Option.bind_eq_some_iff.1 h
      cases hx
      exact ⟨['?'], spells_of_run_mark hmark, .question hf, trivial⟩
    · cases h
  · obtain ⟨⟨_, rest'⟩, hmark, hx⟩ := Option.bind_eq_some_iff.1 h
    cases hx
    exact ⟨['*'], spells_of_run_mark hmark, .star, trivial⟩
  · simp only [Option.bind_eq_some_iff] at h
    obtain ⟨⟨n, s₁⟩, hfirst, ⟨_, s₂⟩, hmark, ⟨m, s₃⟩, hlast, hx⟩ := h
    cases hx
    obtain ⟨first, hd, rfl, rfl, hn⟩ := spells_of_run_number hs hfirst
    obtain rfl := spells_of_run_mark hmark
    obtain ⟨last, hd', rfl, rfl, hm⟩ := spells_of_run_number hs.right.tail hlast
    exact ⟨_, by simp, .range hd hd', hn, hm⟩
  · obtain ⟨⟨n, rest'⟩, hnumber, hx⟩ := Option.bind_eq_some_iff.1 h
    cases hx
    obtain ⟨digits, hd, hsplit, rfl, hn⟩ := spells_of_run_number hs hnumber
    exact ⟨digits, hsplit, .point hd, hn⟩
  · simp only [Option.bind_eq_some_iff] at h
    obtain ⟨⟨n, s₁⟩, hfirst, ⟨_, s₂⟩, hmark, ⟨m, s₃⟩, hlast, hx⟩ := h
    cases hx
    obtain ⟨first, hd, rfl, rfl⟩ := spells_of_run_name hs hfirst
    obtain rfl := spells_of_run_mark hmark
    obtain ⟨last, hd', rfl, rfl⟩ := spells_of_run_name hs.right.tail hlast
    exact ⟨_, by simp, .namedRange hd hd', trivial⟩

theorem spells_of_run_item {i : Item} (hs : Spaceless s) (h : (item f).run s = some (i, rest)) :
    ∃ w, s = w ++ rest ∧ i.Spells f w ∧ i.Fits := by
  rw [item_run] at h
  cases hspan : (span f).run s with
  | none =>
    rw [hspan] at h
    obtain ⟨⟨n, rest'⟩, hname, hi⟩ := Option.bind_eq_some_iff.1 h
    cases hi
    obtain ⟨letters, hw, hsplit, rfl⟩ := spells_of_run_name hs hname
    exact ⟨letters, hsplit, .name hw, trivial⟩
  | some p =>
    obtain ⟨x, r'⟩ := p
    obtain ⟨w, rfl, hx, hfits⟩ := spells_of_run_span hs hspan
    rw [hspan] at h
    simp only [Option.or_eq_some_iff, Option.bind_eq_some_iff] at h
    rcases h with ⟨⟨_, s₁⟩, hmark, ⟨n, s₂⟩, hnumber, hi⟩ | ⟨-, hi⟩
    · cases hi
      obtain rfl := spells_of_run_mark hmark
      obtain ⟨interval, hd, rfl, rfl, hn⟩ :=
        spells_of_run_number hs.right.tail hnumber
      exact ⟨_, by simp, .step hx hd, hfits, hn⟩
    · cases hi
      exact ⟨w, rfl, .span hx, hfits⟩

end ScheduledScaling.Cron
