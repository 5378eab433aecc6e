import ScheduledScaling.Proofs.Eligibility
/-!
# How an annotation is read

Of the forms that an expiry can be written in, one alone decides what a text is: it is in none of the
others (`exists_decisive`). So they may be tried in any order (`readIn_of_decisive`), and what is in one
form is read as this form has it: `expiry_forms_exclude_each_other`.
-/
namespace ScheduledScaling.Expiry

/-- A form that an expiry can be written in. -/
inductive Form where
  | age
  | time
  | date
  deriving DecidableEq, Repr

/-- What a text is in one form, if it is in that form. An age may break off. -/
def Form.read : Form → List Char → Except Overflow (Option Expiry)
  | age, text => do return (← Duration.readAge text).map afterCreation
  | time, text => .ok ((Timestamp.readRfc3339? text).map fixed)
  | date, text => .ok ((Timestamp.readDate? text).map fixed)

/-- Tries forms one after the other. -/
def readIn : List Form → List Char → Except Overflow (Option Expiry)
  | [], _ => .ok none
  | form :: rest, text => do
    match ← form.read text with
    | some expiry => return some expiry
    | none => readIn rest text

/-- No form but one has a text. -/
def Form.IsDecisive (form : Form) (text : List Char) : Prop :=
  ∀ other, other ≠ form → other.read text = .ok none

section
variable {form other : Form} {order : List Form} {text : List Char} {value : String} {expiry : Expiry}

/-! ## The forms of a text -/

theorem Form.IsDecisive.eq (h : form.IsDecisive text) (hread : other.read text = .ok (some expiry)) :
    other = form := by
  by_contra hne
  cases (h other hne).symm.trans hread

theorem readRfc3339?_of_read (h : Form.time.read text = .ok (some expiry)) :
    (Timestamp.readRfc3339? text).isSome := by
  obtain ⟨t, ht, -⟩ := Option.map_eq_some_iff.1 (Except.ok.inj h)
  exact Option.isSome_of_eq_some ht

theorem readDate?_of_read (h : Form.date.read text = .ok (some expiry)) :
    (Timestamp.readDate? text).isSome := by
  obtain ⟨t, ht, -⟩ := Option.map_eq_some_iff.1 (Except.ok.inj h)
  exact Option.isSome_of_eq_some ht

/-- A text of another form is no duration, not even one that is too long. -/
theorem duration_of_read (hform : form ≠ .age) (h : form.read text = .ok (some expiry)) :
    Duration.read text = .ok none := by
  cases form with
  | age => exact absurd rfl hform
  | time => exact Timestamp.read_of_readRfc3339 (readRfc3339?_of_read h)
  | date => exact Timestamp.read_of_readDate (readDate?_of_read h)

theorem isDecisive_time (h : (Timestamp.readRfc3339? (Text.trim text)).isSome) :
    Form.time.IsDecisive (Text.trim text) := by
  intro other hother
  cases other with
  | age =>
    rw [Form.read, Duration.readAge_of_read (Timestamp.read_of_readRfc3339 h)]
    rfl
  | time => exact absurd rfl hother
  | date =>
    rw [Form.read, Timestamp.readDate?_of_readRfc3339 h]
    rfl

theorem isDecisive_date (h : (Timestamp.readDate? (Text.trim text)).isSome)
    (htime : Timestamp.readRfc3339? (Text.trim text) = none) :
    Form.date.IsDecisive (Text.trim text) := by
  intro other hother
  cases other with
  | age =>
    rw [Form.read, Duration.readAge_of_read (Timestamp.read_of_readDate h)]
    rfl
  | time =>
    rw [Form.read, htime]
    rfl
  | date => exact absurd rfl hother

/-- One form decides what a text is; a text in none of them may still break off as an age. -/
theorem exists_decisive (text : List Char) : ∃ form : Form, form.IsDecisive (Text.trim text) := by
  cases htime : Timestamp.readRfc3339? (Text.trim text) with
  | some t => exact ⟨.time, isDecisive_time (Option.isSome_of_eq_some htime)⟩
  | none =>
    cases hdate : Timestamp.readDate? (Text.trim text) with
    | some t => exact ⟨.date, isDecisive_date (Option.isSome_of_eq_some hdate) htime⟩
    | none =>
      refine ⟨.age, fun other hother => ?_⟩
      cases other with
      | age => exact absurd rfl hother
      | time =>
        rw [Form.read, htime]
        rfl
      | date =>
        rw [Form.read, hdate]
        rfl

/-! ## Forms in an order -/

theorem readIn_of_not_mem (h : form.IsDecisive text) (hmem : form ∉ order) :
    readIn order text = .ok none := by
  induction order with
  | nil => rfl
  | cons first rest ih =>
    rw [List.mem_cons, not_or] at hmem
    rw [readIn, h first (Ne.symm hmem.1)]
    exact ih hmem.2

/-- The form that decides does so wherever it is tried. -/
theorem readIn_of_decisive (h : form.IsDecisive text) (hmem : form ∈ order) :
    readIn order text = form.read text := by
  induction order with
  | nil => cases hmem
  | cons first rest ih =>
    rw [readIn]
    by_cases hfirst : first = form
    · subst hfirst
      cases hread : first.read text with
      | error x => rfl
      | ok expiry? =>
        cases expiry? with
        | some expiry => rfl
        | none =>
          -- it may be tried again, to the same effect
          by_cases hrest : first ∈ rest
          · exact (ih hrest).trans hread
          · exact readIn_of_not_mem h hrest
    · rw [h first hfirst]
      exact ih ((List.mem_cons.1 hmem).resolve_left (Ne.symm hfirst))

/-- The order in which an annotation is read. -/
theorem read_eq_readIn (h : value ≠ "") :
    read value = readIn [.age, .time, .date] (Text.trim value.toList) := by
  rw [read_of_ne_empty h]
  simp only [readIn, Form.read]
  cases Duration.readAge (Text.trim value.toList) with
  | error x => rfl
  | ok age? =>
    cases age? with
    | some age => rfl
    | none =>
      cases Timestamp.readRfc3339? (Text.trim value.toList) with
      | some t => rfl
      | none => cases Timestamp.readDate? (Text.trim value.toList) <;> rfl

theorem read_of_decisive (hvalue : value ≠ "") (h : form.IsDecisive (Text.trim value.toList)) :
    read value = form.read (Text.trim value.toList) := by
  rw [read_eq_readIn hvalue]
  exact readIn_of_decisive h (by cases form <;> decide)

/-- The empty annotation is in no form. -/
theorem ne_empty_of_read (h : form.read (Text.trim value.toList) = .ok (some expiry)) : value ≠ "" := by
  rintro rfl
  have hempty : form.read (Text.trim "".toList) = .ok none := by cases form <;> decide +kernel
  cases hempty.symm.trans h

theorem read_of_form (h : form.read (Text.trim value.toList) = .ok (some expiry)) :
    read value = .ok (some expiry) := by
  obtain ⟨decisive, hdecisive⟩ := exists_decisive value.toList
  obtain rfl := hdecisive.eq h
  rw [read_of_decisive (ne_empty_of_read h) hdecisive, h]

end

/-- A text in one form is in no other, and so it is read as it is in that form. If that is a time or a
date, it is not even a duration that is too long. An annotation that is not empty is read alike, and
breaks off alike, in whatever order the forms are tried. -/
theorem expiry_forms_exclude_each_other (value : String) :
    (∀ (form other : Form) (expiry : Expiry),
      form.read (Text.trim value.toList) = .ok (some expiry) → other ≠ form →
        other.read (Text.trim value.toList) = .ok none) ∧
    (∀ (form : Form) (expiry : Expiry), form.read (Text.trim value.toList) = .ok (some expiry) →
      read value = .ok (some expiry) ∧
      (form ≠ .age → Duration.read (Text.trim value.toList) = .ok none)) ∧
    (value ≠ "" → ∀ order : List Form, (∀ form, form ∈ order) →
      readIn order (Text.trim value.toList) = read value) := by
  obtain ⟨decisive, hdecisive⟩ := exists_decisive value.toList
  refine ⟨fun form other expiry h hne => ?_, fun form expiry h => ?_, fun hvalue order horder => ?_⟩
  · obtain rfl := hdecisive.eq h
    exact hdecisive other hne
  · exact ⟨read_of_form h, fun hform => duration_of_read hform h⟩
  · rw [read_of_decisive hvalue hdecisive]
    exact readIn_of_decisive hdecisive (horder decisive)

/-- A date is read as a date, also if ages are tried last. -/
theorem expiry_forms_exclude_each_other_date :
    " 2025-03-10 " ≠ "" ∧ (∀ form : Form, form ∈ [.date, .time, .age]) ∧
      Form.date.read (Text.trim " 2025-03-10 ".toList) = .ok (some (fixed ⟨1741564800, 0⟩)) ∧
      read " 2025-03-10 " = .ok (some (fixed ⟨1741564800, 0⟩)) ∧
      Duration.read (Text.trim " 2025-03-10 ".toList) = .ok none ∧
      readIn [.date, .time, .age] (Text.trim " 2025-03-10 ".toList) = read " 2025-03-10 " := by
  have hvalue : " 2025-03-10 " ≠ "" := by decide
  have hall : ∀ form : Form, form ∈ [Form.date, .time, .age] := by rintro (_ | _ | _) <;> decide
  have hdate : Form.date.read (Text.trim " 2025-03-10 ".toList) =
      .ok (some (fixed ⟨1741564800, 0⟩)) := by decide +kernel
  obtain ⟨-, halone, horder⟩ := expiry_forms_exclude_each_other " 2025-03-10 "
  obtain ⟨hread, hduration⟩ := halone _ _ hdate
  exact ⟨hvalue, hall, hdate, hread, hduration (by decide), horder hvalue _ hall⟩

end ScheduledScaling.Expiry
