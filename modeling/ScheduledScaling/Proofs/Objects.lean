import ScheduledScaling.Store.Memory
import ScheduledScaling.Workload.Scaling
/-!
# What is written on workloads reads back

Pairs by key, decimal numerals, the fields of a workload and its version. A count of replicas that
is written on a workload is read back as the same count (`readMemory_toString`), and the version
after a version has the next number (`versionNumber_nextVersion`).
-/
namespace ScheduledScaling

/-! ## Values by key -/

namespace Keyed
variable {α : Type}

@[simp] theorem get?_set_self (key : String) (value : α) (pairs : Keyed α) :
    (set key value pairs).get? key = some value := by
  induction pairs with
  | nil => simp [set, get?]
  | cons pair rest ih =>
    obtain ⟨k, v⟩ := pair
    rw [set]
    split
    · simp [get?]
    · split
      · simp [get?]
      · rename_i hk
        simp [get?, Ne.symm hk, ih]

theorem get?_set_of_ne {key other : String} (h : other ≠ key) (value : α) (pairs : Keyed α) :
    (set key value pairs).get? other = pairs.get? other := by
  induction pairs with
  | nil => simp [set, get?, h.symm]
  | cons pair rest ih =>
    obtain ⟨k, v⟩ := pair
    rw [set]
    split
    · simp [get?, h.symm]
    · split
      · rename_i hk
        subst hk
        simp [get?, h.symm]
      · simp [get?, ih]

end Keyed

/-! ## Decimal numerals -/

namespace Text

theorem isDigit_of_mem_toString {n : Nat} {c : Char} (h : c ∈ (toString n).toList) : c.isDigit := by
  rw [Nat.toString_eq_repr, Nat.toList_repr] at h
  exact Nat.isDigit_of_mem_toDigits (by decide) (by decide) h

theorem readNat?_toString (n : Nat) : readNat? (toString n).toList = some n := by
  rw [readNat?_eq_some_iff]
  refine ⟨?_, fun c hc => isDigit_of_mem_toString hc, ?_⟩
  · simp [Nat.toString_eq_repr, Nat.toList_repr, Nat.toDigits_ne_nil]
  · simpa [valueOfDigits, digitValue, Nat.ofDigitChars, Nat.toString_eq_repr, Nat.toList_repr] using
      Nat.ofDigitChars_ten_toDigits (n := n)

theorem toString_ne_cons {n : Nat} {c : Char} {rest : List Char} (hc : c.isDigit = false) :
    (toString n).toList ≠ c :: rest := by
  intro h
  have hd : c.isDigit := isDigit_of_mem_toString (n := n) (by rw [h]; exact List.mem_cons_self)
  rw [hc] at hd
  exact absurd hd (by decide)

theorem readWord?_toString {n bound : Nat} (h : n < bound) :
    readWord? bound (toString n).toList = some n := by
  unfold readWord?
  split
  · rename_i rest heq
    exact absurd heq (toString_ne_cons (by decide))
  · simp only [readNat?_toString]
    simp [h]

theorem readInt?_toString {low high : Int} {n : Nat} (hl : low ≤ n) (hh : (n : Int) ≤ high) :
    readInt? low high (toString n).toList = some (n : Int) := by
  unfold readInt?
  split
  · rename_i rest heq
    exact absurd heq (toString_ne_cons (by decide))
  · rename_i rest heq
    exact absurd heq (toString_ne_cons (by decide))
  · rw [readNat?_toString]
    simp [hl, hh]

theorem isBlank_of_isDigit {c : Char} (h : c.isDigit) : isBlank c = false := by
  simp only [Char.isDigit, Bool.and_eq_true, decide_eq_true_eq] at h
  have h1 : 48 ≤ c.toNat := h.1
  have h2 : c.toNat ≤ 57 := h.2
  simp [isBlank]
  omega

theorem trim_of_no_blank {s : List Char} (h : ∀ c ∈ s, isBlank c = false) : trim s = s := by
  have hs : trimStart s = s := by
    unfold trimStart
    cases s with
    | nil => rfl
    | cons c rest => simp [h c]
  rw [trim, hs, trimEnd]
  cases hr : s.reverse with
  | nil => simpa using hr.symm
  | cons c rest =>
    have hc : c ∈ s := by
      rw [← List.mem_reverse, hr]
      exact List.mem_cons_self
    rw [List.dropWhile_cons_of_neg (by simp [h c hc]), ← hr, List.reverse_reverse]

end Text

/-- The count that is written on a workload is the count that is read from it. -/
theorem Scaling.readMemory_toString {n : Int} (h0 : 0 ≤ n) (hn : n ≤ Word.high32) :
    readMemory (toString n) = some n := by
  obtain ⟨m, rfl⟩ := Int.eq_ofNat_of_zero_le h0
  have hb : ∀ c ∈ (toString m).toList, Text.isBlank c = false := fun c hc =>
    Text.isBlank_of_isDigit (Text.isDigit_of_mem_toString hc)
  have hl : Word.low32 ≤ (m : Int) := by
    have : Word.low32 ≤ 0 := by decide
    omega
  have hr := Text.readInt?_toString hl hn
  rw [readMemory, show toString (m : Int) = toString m from rfl, Text.trim_of_no_blank hb, hr]
  simp

/-! ## Fields of a workload -/

namespace Workload

@[simp] theorem replicas_setReplicas (n : Int) (w : Workload) : (w.setReplicas n).replicas = n := rfl

@[simp] theorem annotation?_setReplicas (key : String) (n : Int) (w : Workload) :
    (w.setReplicas n).annotation? key = w.annotation? key := rfl

@[simp] theorem resourceVersion_setReplicas (n : Int) (w : Workload) :
    (w.setReplicas n).resourceVersion = w.resourceVersion := rfl

@[simp] theorem replicas_annotate (key value : String) (w : Workload) :
    (w.annotate key value).replicas = w.replicas := rfl

@[simp] theorem resourceVersion_annotate (key value : String) (w : Workload) :
    (w.annotate key value).resourceVersion = w.resourceVersion := rfl

@[simp] theorem annotation?_annotate_self (key value : String) (w : Workload) :
    (w.annotate key value).annotation? key = some value := by
  simp [annotate, setAnnotations, annotation?, annotations]

@[simp] theorem replicas_setResourceVersion (v : String) (w : Workload) :
    (w.setResourceVersion v).replicas = w.replicas := rfl

@[simp] theorem annotation?_setResourceVersion (key v : String) (w : Workload) :
    (w.setResourceVersion v).annotation? key = w.annotation? key := rfl

@[simp] theorem resourceVersion_setResourceVersion (v : String) (w : Workload) :
    (w.setResourceVersion v).resourceVersion = some v := rfl

/-- The number of a workload's version; what is no number counts as zero. -/
def versionNumber (w : Workload) : Nat :=
  (w.resourceVersion.bind fun v => Text.readWord? Word.bound64 v.toList).getD 0

theorem versionNumber_congr {a b : Workload} (h : a.resourceVersion = b.resourceVersion) :
    a.versionNumber = b.versionNumber := by
  rw [versionNumber, h, versionNumber]

theorem versionNumber_nextVersion {w : Workload} (hw : w.versionNumber + 1 < Word.bound64)
    (v : Workload) :
    (v.setResourceVersion (MemoryStore.nextVersion w)).versionNumber = w.versionNumber + 1 := by
  have hn : MemoryStore.nextVersion w = toString (w.versionNumber + 1) := rfl
  rw [hn, versionNumber, resourceVersion_setResourceVersion, Option.bind_some,
    Text.readWord?_toString hw, Option.getD_some]

end Workload

end ScheduledScaling
