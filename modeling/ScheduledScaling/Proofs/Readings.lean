import Mathlib.Data.List.TakeWhile
import Mathlib.Tactic.Ring
import ScheduledScaling.Proofs.Timestamps
/-!
# Times that are read

What is read as a time is an instant that can be written: `isNamed_of_readLenient`. The numbers that
each reader gives lie in the bounds of their part, and a leap second is the last of its minute, since
offsets are whole minutes.
-/
namespace ScheduledScaling

/-! ## Numbers -/

namespace Text

theorem digitValue_lt {c : Char} (h : c.isDigit) : digitValue c < 10 := by
  simp only [Char.isDigit, Bool.and_eq_true, decide_eq_true_eq, UInt32.le_iff_toNat_le] at h
  have hhigh : c.toNat ≤ 57 := h.2
  have hzero : '0'.toNat = 48 := rfl
  unfold digitValue
  omega

theorem valueOfDigits_lt {digits : List Char} (h : ∀ c ∈ digits, c.isDigit) :
    valueOfDigits digits < 10 ^ digits.length := by
  induction digits using List.reverseRecOn with
  | nil => decide
  | append_singleton digits c ih =>
    have hdigits := ih fun d hd => h d (List.mem_append_left _ hd)
    have hc := digitValue_lt (h c (List.mem_append_right _ (List.mem_singleton_self c)))
    have hvalue : valueOfDigits (digits ++ [c]) = 10 * valueOfDigits digits + digitValue c := by
      simp [valueOfDigits]
    rw [hvalue, List.length_append, List.length_singleton, Nat.pow_succ]
    omega

end Text

namespace Timestamp

/-! ## What readers give -/

section
variable {α β : Type} {p : α → Prop} {q : β → Prop}

/-- What a reader gives fulfils a condition, whatever text it reads. -/
def Gives (p : α → Prop) (r : Reader α) : Prop := ∀ s a rest, r s = .ok (a, rest) → p a

theorem bind_eq_ok {r : Reader α} {f : α → Reader β} {s rest : List Char} {b : β}
    (h : (r >>= f) s = .ok (b, rest)) :
    ∃ a after, r s = .ok (a, after) ∧ f a after = .ok (b, rest) := by
  change (r s >>= fun x => f x.1 x.2) = _ at h
  cases hr : r s with
  | error e =>
    rw [hr] at h
    cases h
  | ok x =>
    rw [hr] at h
    exact ⟨x.1, x.2, rfl, h⟩

theorem Gives.bind {r : Reader α} {f : α → Reader β} (hr : Gives p r)
    (hf : ∀ a, p a → Gives q (f a)) : Gives q (r >>= f) := by
  intro s b rest h
  obtain ⟨a, after, ha, hb⟩ := bind_eq_ok h
  exact hf a (hr s a after ha) after b rest hb

/-- What comes before does not matter. -/
theorem gives_bind {r : Reader α} {f : α → Reader β} (hf : ∀ a, Gives q (f a)) :
    Gives q (r >>= f) :=
  Gives.bind (p := fun _ => True) (fun _ _ _ _ => trivial) fun a _ => hf a

theorem gives_pure {a : α} (h : p a) : Gives p (pure a) := by
  intro s b rest hb
  cases hb
  exact h

theorem gives_throw (e : TimestampError) : Gives p (throw e) := by
  intro s a rest h
  cases h

end

theorem gives_within (low high n : Nat) : Gives (fun m => low ≤ m ∧ m ≤ high) (within low high n) := by
  unfold within
  split
  · rename_i h
    exact gives_pure h
  · exact gives_throw _

theorem gives_short (low high : Nat) : Gives (fun m => low ≤ m ∧ m ≤ high) (short low high) :=
  gives_bind fun _ => gives_bind fun n => gives_within low high n

/-- A number is made of the digits that it takes off a text. -/
theorem exists_digits_of_number {least most n : Nat} {s rest : List Char}
    (h : number least most s = .ok (n, rest)) :
    ∃ digits, s = digits ++ rest ∧ (∀ c ∈ digits, c.isDigit) ∧ least ≤ digits.length ∧
      digits.length ≤ most ∧ n = Text.valueOfDigits digits := by
  unfold number at h
  dsimp only at h
  split at h
  · cases h
  split at h
  · cases h
  split at h
  · cases h
  rename_i hleast _
  cases h
  have hprefix : (s.take most).takeWhile Char.isDigit <+: s :=
    (List.takeWhile_prefix _).trans (List.take_prefix most s)
  have hmost : ((s.take most).takeWhile Char.isDigit).length ≤ most :=
    (List.takeWhile_sublist _).length_le.trans (List.length_take_le most s)
  exact ⟨(s.take most).takeWhile Char.isDigit, (List.prefix_iff_eq_append.1 hprefix).symm,
    fun c hc => List.mem_takeWhile_imp hc, Nat.not_lt.1 hleast, hmost, rfl⟩

/-- A number of some digits lies below the power of ten with as many zeros. -/
theorem lt_of_number {least most n : Nat} {s rest : List Char}
    (h : number least most s = .ok (n, rest)) :
    ∃ count ≤ most, n < 10 ^ count ∧ count = s.length - rest.length := by
  obtain ⟨digits, rfl, hdigits, -, hmost, rfl⟩ := exists_digits_of_number h
  refine ⟨digits.length, hmost, Text.valueOfDigits_lt hdigits, ?_⟩
  rw [List.length_append, Nat.add_sub_cancel]

theorem gives_fraction : Gives (· < Instant.nanosPerSecond) fraction := by
  intro s nano rest h
  by_cases hdot : s.head? = some '.'
  · obtain ⟨digits, rfl⟩ : ∃ digits, s = '.' :: digits := by
      cases s with
      | nil => cases hdot
      | cons c digits =>
        cases hdot
        exact ⟨digits, rfl⟩
    change ((number 1 9) digits >>= _) = _ at h
    cases hnumber : number 1 9 digits with
    | error e =>
      rw [hnumber] at h
      cases h
    | ok x =>
      rw [hnumber] at h
      obtain ⟨n, after⟩ := x
      obtain ⟨count, hmost, hlt, hcount⟩ := lt_of_number hnumber
      cases h
      -- the digits that are left out of nine are zeros
      rw [← hcount]
      calc n * 10 ^ (9 - count) < 10 ^ count * 10 ^ (9 - count) :=
            Nat.mul_lt_mul_of_pos_right hlt (Nat.pow_pos (by decide))
        _ = 10 ^ 9 := by rw [← Nat.pow_add, Nat.add_sub_cancel' hmost]
  · have hzero : fraction s = .ok (0, s) := fraction_of_head hdot
    rw [hzero] at h
    cases h
    decide

/-- An offset is a whole number of minutes. -/
theorem gives_offset (between : Reader Unit) : Gives (· % 60 = 0) (offset between) := by
  refine gives_bind fun s => ?_
  split
  · exact gives_bind fun _ => gives_pure rfl
  · exact gives_bind fun _ => gives_pure rfl
  · refine gives_bind fun sign => gives_bind fun s => gives_bind fun hours => ?_
    split
    · exact gives_throw _
    · rename_i h i
      refine gives_bind fun _ => gives_bind fun _ => gives_bind fun s => gives_bind fun minutes => ?_
      split
      · exact gives_throw _
      · rename_i m n
        have hwhole : Gives (· % 60 = 0)
            (modify (·.drop 2) >>= fun _ =>
              pure (sign * ((10 * h + i) * 3600 + (10 * m + n) * 60 : Nat)) : Reader Int) := by
          refine gives_bind fun _ => gives_pure ?_
          have hfactor : sign * (((10 * h + i) * 3600 + (10 * m + n) * 60 : Nat) : Int) =
              60 * (sign * ((10 * h + i) * 60 + (10 * m + n))) := by
            push_cast
            ring
          rw [hfactor, Int.mul_emod_right]
        dsimp only
        split
        · exact gives_bind fun _ => hwhole
        · exact hwhole

theorem gives_lenientOffset : Gives (· % 60 = 0) lenientOffset := by
  refine gives_bind fun _ => gives_bind fun s => ?_
  split
  · split
    · exact gives_bind fun _ => gives_pure rfl
    · exact gives_offset _
  · exact gives_offset _

/-! ## The parts of a time -/

/-- Parts of a time in their bounds; an offset is a whole number of minutes. -/
structure Parts.InBounds (p : Parts) : Prop where
  second : p.second ≤ 60
  nano : p.nano < Instant.nanosPerSecond
  offset : p.offset % 60 = 0

theorem gives_lenientParts : Gives Parts.InBounds lenientParts := by
  refine gives_bind fun year => gives_bind fun _ => gives_bind fun _ => gives_bind fun month =>
    gives_bind fun _ => gives_bind fun _ => gives_bind fun day => gives_bind fun _ =>
    gives_bind fun hour => gives_bind fun _ => gives_bind fun _ => gives_bind fun minute =>
    gives_bind fun _ => gives_bind fun _ => (gives_short 0 60).bind fun second hsecond =>
    gives_fraction.bind fun nano hnano => gives_lenientOffset.bind fun offset hoffset => ?_
  exact gives_pure ⟨hsecond.2, hnano, hoffset⟩

/-- What parts in their bounds are put together to can be written. -/
theorem isNamed_of_instant {p : Parts} {t : Instant} (hp : p.InBounds) (h : p.instant = .ok t) :
    t.IsNamed := by
  obtain ⟨hsecond, hnano, hoffset⟩ := hp
  rw [Instant.nanosPerSecond_eq] at hnano
  unfold Parts.instant at h
  dsimp only at h
  split at h
  · cases h
  by_cases hleap : p.second = 60
  · rw [if_pos hleap] at h
    split at h
    · rename_i hrange
      obtain rfl := Except.ok.inj h
      refine ⟨hrange, .inr ⟨?_, ?_⟩⟩
      · simp only [Instant.secondsPerDay]
        omega
      · simp only [Instant.nanosPerSecond_eq]
        omega
    · cases h
  · rw [if_neg hleap] at h
    split at h
    · rename_i hrange
      obtain rfl := Except.ok.inj h
      exact ⟨hrange, .inl hnano⟩
    · cases h

/-- What is read as a time can be written. -/
theorem isNamed_of_readLenient {s : String} {t : Instant} (h : readLenient s = .ok t) :
    t.IsNamed := by
  unfold readLenient at h
  change (lenientParts s.toList >>= _) = _ at h
  cases hparts : lenientParts s.toList with
  | error e =>
    rw [hparts] at h
    cases h
  | ok x =>
    obtain ⟨parts, rest⟩ := x
    have hbounds := gives_lenientParts _ _ _ hparts
    rw [hparts] at h
    change (if !(Text.trimStart rest).isEmpty then _ else parts.instant : Except _ _) = _ at h
    split at h
    · cases h
    · exact isNamed_of_instant hbounds h

end Timestamp

end ScheduledScaling
