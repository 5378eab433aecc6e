import ScheduledScaling.Proofs.Deadlines
import ScheduledScaling.Proofs.Formats
import ScheduledScaling.Proofs.Validation
/-!
# From when on a resource is due

Each resource is due from one threshold on, which the config and the resource set (`IsDueFrom`),
whether the policy adds an age to the creation of a resource or takes the creation off the time of
the pass. So the two rules decide alike about the same age: `eligibility_is_one_deadline`. A text whose
amounts come to 2^64 seconds has none of the forms, so that its resource is never due; but the policy
breaks off instead of saying so, as it does at a deadline behind the years of the calendar.
-/
namespace ScheduledScaling

/-! ## Thresholds -/

/-- From when on something is so: never, always, or from a moment on, which counts as well. -/
inductive Threshold where
  | never
  | always
  | since (t : Instant)
  deriving DecidableEq, Repr

namespace Threshold
variable {now later : Instant} {threshold : Threshold}

def IsReached (now : Instant) : Threshold → Prop
  | never => False
  | always => True
  | since t => t ≤ now

instance : DecidablePred (IsReached now)
  | never => .isFalse id
  | always => .isTrue trivial
  | since t => inferInstanceAs (Decidable (t ≤ now))

/-- An age after a creation, and never if there is none. -/
def afterCreation (age : Duration) : Option Instant → Threshold
  | some created => since (created.shift age.seconds age.nanos)
  | none => never

theorem IsReached.of_le (h : threshold.IsReached now) (hle : now ≤ later) :
    threshold.IsReached later := by
  cases threshold with
  | never => exact h
  | always => exact h
  | since t => exact Instant.le_trans h hle

end Threshold

/-- The creation of a resource, if it is known, is of the calendar and no leap second. -/
def Candidate.IsTimed (candidate : Candidate) : Prop :=
  ∀ t ∈ candidate.created, t.IsPlain ∧ t.inRange

/-- The threshold that a config sets for a resource: one for each way to write the annotation, in
whatever order they are tried, and one for each way in which it can be missing. -/
inductive IsDueFrom (config : CleanupConfig) (candidate : Candidate) : Threshold → Prop
  | empty : candidate.annotations.get? config.annotationKey = some "" →
      IsDueFrom config candidate .always
  | age {value : String} {age : Duration} :
      candidate.annotations.get? config.annotationKey = some value →
      Duration.readAge (Text.trim value.toList) = .ok (some age) →
      IsDueFrom config candidate (.afterCreation age candidate.created)
  | time {value : String} {t : Instant} :
      candidate.annotations.get? config.annotationKey = some value →
      Timestamp.readRfc3339? (Text.trim value.toList) = some t → IsDueFrom config candidate (.since t)
  | date {value : String} {t : Instant} :
      candidate.annotations.get? config.annotationKey = some value →
      Timestamp.readDate? (Text.trim value.toList) = some t → IsDueFrom config candidate (.since t)
  | other {value : String} : candidate.annotations.get? config.annotationKey = some value →
      value ≠ "" → (∀ age, Duration.readAge (Text.trim value.toList) ≠ .ok (some age)) →
      Timestamp.readRfc3339? (Text.trim value.toList) = none →
      Timestamp.readDate? (Text.trim value.toList) = none → IsDueFrom config candidate .never
  | orphan {age : Duration} : candidate.annotations.get? config.annotationKey = none →
      config.cleanupOrphans = true →
      Duration.readAge (config.orphanMaxAge.getD "").toList = .ok (some age) →
      IsDueFrom config candidate (.afterCreation age candidate.created)
  | kept : candidate.annotations.get? config.annotationKey = none →
      (config.cleanupOrphans = true →
        ∀ age, Duration.readAge (config.orphanMaxAge.getD "").toList ≠ .ok (some age)) →
      IsDueFrom config candidate .never

/-! ## Ages -/

namespace Duration
variable {d sum : Duration} {s : List Char}

theorem nanos_of_add? {seconds nanos : Nat} (h : d.add? seconds nanos = .ok (some sum)) :
    sum.nanos < Instant.nanosPerSecond := by
  have hlast {rest seconds : Nat}
      (h : (if rest < Instant.nanosPerSecond then Except.ok (some ⟨seconds, rest⟩)
        else if seconds + 1 < Word.bound64 then Except.ok (some ⟨seconds + 1, 0⟩)
        else Except.error Overflow.durationSum) = .ok (some sum)) :
      sum.nanos < Instant.nanosPerSecond := by
    split at h
    · rename_i hrest
      cases h
      exact hrest
    split at h
    · cases h
      exact (by decide : 0 < Instant.nanosPerSecond)
    · cases h
  unfold add? at h
  dsimp only at h
  -- the nanoseconds are carried or not
  split at h
  all_goals
    split at h
    · cases h
    · exact hlast h

theorem nanos_of_plusAmount {a : Amount} (h : d.plusAmount a = .ok (some sum)) :
    sum.nanos < Instant.nanosPerSecond := by
  unfold plusAmount at h
  split at h
  · cases h
  rename_i seconds nanos _
  cases hwhole : d.add? seconds nanos with
  | error x =>
    rw [hwhole] at h
    cases h
  | ok sum? =>
    rw [hwhole] at h
    cases sum? with
    | none => cases h
    | some d' =>
      dsimp only [bind, Except.bind] at h
      split at h
      · cases h
      · exact nanos_of_add? h

theorem nanos_of_readAmounts (h : readAmounts s d = .ok (some sum)) :
    sum.nanos < Instant.nanosPerSecond := by
  fun_induction readAmounts s d with
  | case1 s d hnone => cases h
  | case2 s d amount rest hamount ih =>
    cases hplus : d.plusAmount amount with
    | error x =>
      rw [hplus] at h
      cases h
    | ok sum? =>
      rw [hplus] at h
      cases sum? with
      | none => cases h
      | some next =>
        dsimp only [bind, Except.bind] at h
        split at h
        · cases h
          exact nanos_of_plusAmount hplus
        split at h
        · rename_i hshorter
          exact ih next hshorter h
        · cases h

/-- The nanoseconds of an age are less than a second. -/
theorem nanos_of_readAge {age : Duration} (h : readAge s = .ok (some age)) :
    age.nanos < Instant.nanosPerSecond := by
  unfold readAge at h
  cases hread : read (Text.trim s) with
  | error x =>
    rw [hread] at h
    cases h
  | ok age? =>
    rw [hread] at h
    obtain ⟨hage, -⟩ := Option.filter_eq_some_iff.1 (Except.ok.inj h)
    rw [hage, read] at hread
    split at hread
    · cases hread
      decide
    · exact nanos_of_readAmounts hread

theorem readAge_trim (s : List Char) : readAge (Text.trim s) = readAge s := by
  unfold readAge
  rw [Text.trim_trim]

theorem readAge_of_read (h : read (Text.trim s) = .ok none) : readAge (Text.trim s) = .ok none := by
  rw [readAge_trim, readAge, h]
  rfl

end Duration

/-! ## Deadlines -/

namespace Instant
variable {created now : Instant} {seconds nanos : Nat}

theorem since_of_isPlain (hcreated : created.IsPlain) (hnow : now.IsPlain) :
    now.since created =
      (now.second - created.second + ((now.nano : Int) - created.nano) / nanosPerSecond,
        (((now.nano : Int) - created.nano) % nanosPerSecond).toNat) := by
  have hleap (t : Instant) (ht : t.IsPlain) : ¬ t.nano ≥ nanosPerSecond := Nat.not_le.2 ht
  unfold since
  rw [if_neg fun h => hleap created hcreated h.2, if_neg fun h => hleap now hnow h.2]
  dsimp only
  rw [Int.add_zero]

/-- A deadline behind the years of the calendar is not reached in them. -/
theorem not_shift_le (hrange : created.inRange) (hcreated : created.IsPlain) (hnow : now.inRange)
    (hdeadline : (created.shift seconds nanos).inRange = false) :
    ¬ created.shift seconds nanos ≤ now := by
  rw [shift_eq hcreated] at hdeadline ⊢
  simp only [inRange, Bool.and_eq_true, decide_eq_true_eq] at hrange hnow
  simp only [inRange, Bool.and_eq_false_iff, decide_eq_false_iff_not] at hdeadline
  have hcarry : 0 ≤ ((created.nano : Int) + nanos) / nanosPerSecond :=
    Int.ediv_nonneg (by omega) (by omega)
  simp only [le_iff]
  omega

/-- A resource is of an age exactly if the age after its creation is over. -/
theorem isOfAge_iff {age : Duration} (hcreated : created.IsPlain)
    (hnow : now.IsPlain) (hage : age.nanos < nanosPerSecond) :
    isOfAge age created now ↔ created.shift age.seconds age.nanos ≤ now := by
  unfold isOfAge
  rw [since_of_isPlain hcreated hnow, shift_eq hcreated, decide_eq_true_eq, le_iff]
  -- One side carries the nanoseconds of a sum, the other borrows those of a difference.
  rw [IsPlain] at hcreated hnow
  rw [nanosPerSecond_eq] at *
  dsimp only
  omega

end Instant

/-! ## What is read of an annotation -/

namespace Expiry
variable {value : String} {age : Duration} {t : Instant}

/-- The threshold of what was read. -/
def threshold (created : Option Instant) : Expiry → Threshold
  | immediate => .always
  | afterCreation age => .afterCreation age created
  | fixed t => .since t

theorem ne_empty_of_text {α : Type} {r : List Char → Option α} (hnone : r [] = none)
    (h : (r (Text.trim value.toList)).isSome) : value ≠ "" := by
  rintro rfl
  rw [show Text.trim "".toList = [] from rfl, hnone] at h
  cases h

theorem read_of_ne_empty (h : value ≠ "") : read value = (do
    match ← Duration.readAge (Text.trim value.toList) with
    | some age => return some (afterCreation age)
    | none => return (Timestamp.readRfc3339? (Text.trim value.toList) <|>
        Timestamp.readDate? (Text.trim value.toList)).map fixed) := by
  unfold read
  exact if_neg h

theorem read_of_age (h : Duration.readAge (Text.trim value.toList) = .ok (some age)) :
    read value = .ok (some (afterCreation age)) := by
  have hvalue : value ≠ "" := by
    rintro rfl
    have hempty : Duration.readAge (Text.trim "".toList) = .ok none := by decide +kernel
    cases hempty.symm.trans h
  rw [read_of_ne_empty hvalue, h]
  rfl

theorem read_of_time (h : Timestamp.readRfc3339? (Text.trim value.toList) = some t) :
    read value = .ok (some (fixed t)) := by
  have hsome := Option.isSome_of_eq_some h
  have hvalue : value ≠ "" := ne_empty_of_text (by decide +kernel) hsome
  rw [read_of_ne_empty hvalue, Duration.readAge_of_read (Timestamp.read_of_readRfc3339 hsome), h]
  rfl

theorem read_of_date (h : Timestamp.readDate? (Text.trim value.toList) = some t) :
    read value = .ok (some (fixed t)) := by
  have hsome := Option.isSome_of_eq_some h
  have hvalue : value ≠ "" := ne_empty_of_text (by decide +kernel) hsome
  have htime : Timestamp.readRfc3339? (Text.trim value.toList) = none := by
    by_contra htime
    have hnone := Timestamp.readDate?_of_readRfc3339 (Option.isSome_iff_ne_none.2 htime)
    cases hnone.symm.trans h
  rw [read_of_ne_empty hvalue, Duration.readAge_of_read (Timestamp.read_of_readDate hsome), htime, h]
  rfl

/-- A text in none of the forms is not read, and may break off. -/
theorem read_of_other (hvalue : value ≠ "")
    (hage : ∀ age, Duration.readAge (Text.trim value.toList) ≠ .ok (some age))
    (htime : Timestamp.readRfc3339? (Text.trim value.toList) = none)
    (hdate : Timestamp.readDate? (Text.trim value.toList) = none) (expiry : Expiry) :
    read value ≠ .ok (some expiry) := by
  rw [read_of_ne_empty hvalue, htime, hdate]
  cases hread : Duration.readAge (Text.trim value.toList) with
  | error x => exact nofun
  | ok age? =>
    cases age? with
    | none => exact nofun
    | some age => exact absurd hread (hage age)

end Expiry

/-! ## The threshold of a policy -/

namespace CleanupPolicy
variable {config : CleanupConfig} {policy : CleanupPolicy} {candidate : Candidate} {now : Instant}

/-- The threshold that a policy goes by. -/
def threshold (policy : CleanupPolicy) (candidate : Candidate) : Threshold :=
  match candidate.annotations.get? policy.annotationKey with
  | some value =>
    match Expiry.read value with
    | .ok (some expiry) => expiry.threshold candidate.created
    | _ => .never
  | none =>
    match policy.orphanMaxAge with
    | some age => .afterCreation age candidate.created
    | none => .never

theorem threshold_of_read {value : String} {expiry : Expiry}
    (hvalue : candidate.annotations.get? policy.annotationKey = some value)
    (hread : Expiry.read value = .ok (some expiry)) :
    policy.threshold candidate = expiry.threshold candidate.created := by
  unfold threshold
  rw [hvalue]
  dsimp only
  rw [hread]

theorem threshold_of_unread {value : String}
    (hvalue : candidate.annotations.get? policy.annotationKey = some value)
    (hread : ∀ expiry, Expiry.read value ≠ .ok (some expiry)) :
    policy.threshold candidate = .never := by
  unfold threshold
  rw [hvalue]
  dsimp only
  split
  · rename_i expiry hexpiry
    exact absurd hexpiry (hread expiry)
  · rfl

theorem threshold_of_none (hnone : candidate.annotations.get? policy.annotationKey = none) :
    policy.threshold candidate =
      (policy.orphanMaxAge.map fun age => .afterCreation age candidate.created).getD .never := by
  unfold threshold
  rw [hnone]
  cases policy.orphanMaxAge <;> rfl

theorem exists_ofConfig {age? : Option Duration}
    (h : Duration.readAge (config.orphanMaxAge.getD "").toList = .ok age?) :
    ∃ policy, ofConfig config = .ok policy := by
  cases hpolicy : ofConfig config with
  | ok policy => exact ⟨policy, rfl⟩
  | error x =>
    obtain ⟨-, hx⟩ := ofConfig_eq_error_iff.1 hpolicy
    cases h.symm.trans (Duration.readAge_eq_error_iff.2 hx)

/-- The policy goes by the threshold that the config sets, which is the only one. -/
theorem isDueFrom_iff (h : ofConfig config = .ok policy) {t : Threshold} :
    IsDueFrom config candidate t ↔ t = policy.threshold candidate := by
  obtain ⟨hkey, horphan⟩ := ofConfig_eq_ok h
  rw [eq_comm]
  constructor
  · intro hdue
    -- A text of one form is of no other, so what is tried before it fails.
    cases hdue with
    | empty hvalue => exact threshold_of_read (hkey ▸ hvalue) rfl
    | age hvalue hread => exact threshold_of_read (hkey ▸ hvalue) (Expiry.read_of_age hread)
    | time hvalue hread => exact threshold_of_read (hkey ▸ hvalue) (Expiry.read_of_time hread)
    | date hvalue hread => exact threshold_of_read (hkey ▸ hvalue) (Expiry.read_of_date hread)
    | other hvalue hempty hage htime hdate =>
      exact threshold_of_unread (hkey ▸ hvalue) (Expiry.read_of_other hempty hage htime hdate)
    | orphan hnone horphans hread =>
      rw [threshold_of_none (hkey ▸ hnone), (horphan _).2 ⟨horphans, hread⟩]
      rfl
    | kept hnone hage =>
      rw [threshold_of_none (hkey ▸ hnone)]
      cases hmax : policy.orphanMaxAge with
      | none => rfl
      | some age =>
        obtain ⟨horphans, hread⟩ := (horphan age).1 hmax
        exact absurd hread (hage horphans age)
  · rintro rfl
    cases hvalue : candidate.annotations.get? policy.annotationKey with
    | none =>
      rw [threshold_of_none hvalue]
      cases hmax : policy.orphanMaxAge with
      | none =>
        refine .kept (hkey ▸ hvalue) fun horphans age hread => ?_
        cases hmax.symm.trans ((horphan age).2 ⟨horphans, hread⟩)
      | some age =>
        obtain ⟨horphans, hread⟩ := (horphan age).1 hmax
        exact .orphan (hkey ▸ hvalue) horphans hread
    | some value =>
      by_cases hempty : value = ""
      · subst hempty
        rw [threshold_of_read hvalue rfl]
        exact .empty (hkey ▸ hvalue)
      by_cases hage : ∃ age, Duration.readAge (Text.trim value.toList) = .ok (some age)
      · obtain ⟨age, hread⟩ := hage
        rw [threshold_of_read hvalue (Expiry.read_of_age hread)]
        exact .age (hkey ▸ hvalue) hread
      cases htime : Timestamp.readRfc3339? (Text.trim value.toList) with
      | some t =>
        rw [threshold_of_read hvalue (Expiry.read_of_time htime)]
        exact .time (hkey ▸ hvalue) htime
      | none =>
        cases hdate : Timestamp.readDate? (Text.trim value.toList) with
        | some t =>
          rw [threshold_of_read hvalue (Expiry.read_of_date hdate)]
          exact .date (hkey ▸ hvalue) hdate
        | none =>
          have hother := not_exists.1 hage
          rw [threshold_of_unread hvalue (Expiry.read_of_other hempty hother htime hdate)]
          exact .other (hkey ▸ hvalue) hempty hother htime hdate

/-! ## What a policy decides -/

/-- An expiry says whether its threshold is reached, or breaks off at one that lies behind the years of
the calendar. -/
theorem isReached_cases {created : Option Instant} (hcreated : ∀ t ∈ created, t.IsPlain ∧ t.inRange)
    (hnow : now.inRange) (expiry : Expiry) :
    expiry.isReached created now = .ok (decide ((expiry.threshold created).IsReached now)) ∨
      (∃ x, expiry.isReached created now = .error x) ∧
        ¬ (expiry.threshold created).IsReached now := by
  cases expiry with
  | immediate => exact .inl rfl
  | fixed t => exact .inl rfl
  | afterCreation age =>
    cases created with
    | none => exact .inl rfl
    | some created =>
      obtain ⟨hplain, hrange⟩ := hcreated created rfl
      rw [Expiry.isReached, Instant.plus]
      cases hdeadline : (created.shift age.seconds age.nanos).inRange with
      | true => exact .inl rfl
      | false => exact .inr ⟨⟨.instantPlus, rfl⟩, Instant.not_shift_le hrange hplain hnow hdeadline⟩

theorem shouldRemove_of_read {value : String} {expiry : Expiry}
    (hvalue : candidate.annotations.get? policy.annotationKey = some value)
    (hread : Expiry.read value = .ok (some expiry)) :
    policy.shouldRemove candidate now = expiry.isReached candidate.created now := by
  rw [shouldRemove, hvalue]
  change isExpired candidate value now = _
  rw [isExpired, hread]
  rfl

/-- An annotation with an age sets a deadline, if it lies in the years of the calendar. -/
theorem shouldRemove_of_age {text : String} {age : Duration}
    (hvalue : candidate.annotations.get? policy.annotationKey = some text)
    (hread : Duration.readAge text.toList = .ok (some age))
    (hdeadline : ∀ t ∈ candidate.created, (t.shift age.seconds age.nanos).inRange) :
    policy.shouldRemove candidate now =
      .ok (decide ((Threshold.afterCreation age candidate.created).IsReached now)) := by
  rw [shouldRemove_of_read hvalue (Expiry.read_of_age ((Duration.readAge_trim _).trans hread))]
  cases hmade : candidate.created with
  | none => rfl
  | some created =>
    rw [Expiry.isReached, Instant.plus, hdeadline created hmade]
    rfl

/-- About a resource without the annotation the policy always decides. -/
theorem shouldRemove_of_none (hpolicy : ∀ age ∈ policy.orphanMaxAge, age.nanos < Instant.nanosPerSecond)
    (hcreated : candidate.IsTimed) (hnow : now.IsPlain)
    (hnone : candidate.annotations.get? policy.annotationKey = none) :
    policy.shouldRemove candidate now =
      .ok (decide ((policy.threshold candidate).IsReached now)) := by
  rw [threshold_of_none hnone, shouldRemove, hnone]
  unfold isOldOrphan
  cases hmax : policy.orphanMaxAge with
  | none => rfl
  | some age =>
    cases hmade : candidate.created with
    | none => rfl
    | some created =>
      have hage := Instant.isOfAge_iff (hcreated created hmade).1 hnow (hpolicy age hmax)
      exact congrArg Except.ok (Bool.eq_iff_iff.2 (hage.trans decide_eq_true_iff.symm))

/-- The policy says whether its threshold is reached, or breaks off where it is not. -/
theorem shouldRemove_cases (hpolicy : ∀ age ∈ policy.orphanMaxAge, age.nanos < Instant.nanosPerSecond)
    (hcreated : candidate.IsTimed) (hplain : now.IsPlain) (hnow : now.inRange) :
    policy.shouldRemove candidate now = .ok (decide ((policy.threshold candidate).IsReached now)) ∨
      (∃ x, policy.shouldRemove candidate now = .error x) ∧
        ¬ (policy.threshold candidate).IsReached now := by
  cases hvalue : candidate.annotations.get? policy.annotationKey with
  | none => exact .inl (shouldRemove_of_none hpolicy hcreated hplain hvalue)
  | some value =>
    cases hread : Expiry.read value with
    | error x =>
      rw [threshold_of_unread hvalue (hread ▸ nofun)]
      have hbreaks : policy.shouldRemove candidate now = .error x := by
        rw [shouldRemove, hvalue]
        change isExpired candidate value now = _
        rw [isExpired, hread]
        rfl
      exact .inr ⟨⟨x, hbreaks⟩, id⟩
    | ok expiry? =>
      cases expiry? with
      | none =>
        rw [threshold_of_unread hvalue (hread ▸ nofun), shouldRemove, hvalue]
        change isExpired candidate value now = _ ∨ _
        rw [isExpired, hread]
        exact .inl rfl
      | some expiry =>
        rw [threshold_of_read hvalue hread, shouldRemove_of_read hvalue hread]
        exact isReached_cases hcreated hnow expiry

theorem nanos_of_ofConfig (h : ofConfig config = .ok policy) :
    ∀ age ∈ policy.orphanMaxAge, age.nanos < Instant.nanosPerSecond := fun age hage =>
  Duration.nanos_of_readAge (((ofConfig_eq_ok h).2 age).1 hage).2

/-- A policy goes by a threshold: at every time that is no leap second, a resource is due exactly if
the threshold is reached. The policy says which, just if the annotation stays in the range of time. -/
structure GoesBy (policy : CleanupPolicy) (candidate : Candidate) (threshold : Threshold) :
    Prop where
  due : ∀ now : Instant, now.IsPlain → now.inRange →
    (policy.shouldRemove candidate now = .ok true ↔ threshold.IsReached now)
  decides : ∀ now : Instant, now.IsPlain → now.inRange →
    (policy.shouldRemove candidate now = .ok (decide (threshold.IsReached now)) ↔
      candidate.Settles policy.annotationKey)
  stays : ∀ now later : Instant, now.IsPlain → now.inRange → later.IsPlain → later.inRange →
    now ≤ later → policy.shouldRemove candidate now = .ok true →
      policy.shouldRemove candidate later = .ok true

theorem goesBy_threshold (hpolicy : ofConfig config = .ok policy) (hcreated : candidate.IsTimed) :
    policy.GoesBy candidate (policy.threshold candidate) := by
  have hcases (now : Instant) (hplain : now.IsPlain) (hnow : now.inRange) :=
    shouldRemove_cases (nanos_of_ofConfig hpolicy) hcreated hplain hnow
  have hdue (now : Instant) (hplain : now.IsPlain) (hnow : now.inRange) :
      policy.shouldRemove candidate now = .ok true ↔
        (policy.threshold candidate).IsReached now := by
    rcases hcases now hplain hnow with hok | ⟨⟨x, hx⟩, hnot⟩
    · rw [hok, Except.ok.injEq, decide_eq_true_iff]
    · rw [hx]
      exact ⟨nofun, fun h => absurd h hnot⟩
  refine ⟨hdue, fun now hplain hnow => ?_,
    fun now later hplain hnow hplain' hlater hle h => ?_⟩
  · have hsettles : candidate.Settles policy.annotationKey ↔
        (policy.shouldRemove candidate now).isOk := Candidate.settles_iff
    rw [hsettles]
    rcases hcases now hplain hnow with hok | ⟨⟨x, hx⟩, -⟩
    · simp [hok, Except.isOk, Except.toBool]
    · simp [hx, Except.isOk, Except.toBool]
  · exact (hdue later hplain' hlater).2 (((hdue now hplain hnow).1 h).of_le hle)

end CleanupPolicy

/-! ## The two rules -/

open CleanupPolicy

/-- Each resource is due from one threshold on, and stays due. A resource with a written age and one
without the annotation, which the same text makes an orphan, are due from the same time on. -/
theorem eligibility_is_one_deadline (config : CleanupConfig) :
    (∀ (policy : CleanupPolicy) (candidate : Candidate),
      ofConfig config = .ok policy → candidate.IsTimed →
      ∃ threshold, (∀ t, IsDueFrom config candidate t ↔ t = threshold) ∧
        policy.GoesBy candidate threshold) ∧
    ∀ (text : String) (age : Duration), Duration.readAge text.toList = .ok (some age) →
      config.cleanupOrphans = true → config.orphanMaxAge = some text →
      ∃ orphans, ofConfig config = .ok orphans ∧
        ∀ (policy : CleanupPolicy) (annotated orphan : Candidate) (now : Instant),
          annotated.annotations.get? policy.annotationKey = some text →
          orphan.annotations.get? orphans.annotationKey = none →
          annotated.created = orphan.created → annotated.IsTimed →
          (∀ t ∈ annotated.created, (t.shift age.seconds age.nanos).inRange) → now.IsPlain →
          ∃ due, policy.shouldRemove annotated now = .ok due ∧
            orphans.shouldRemove orphan now = .ok due := by
  refine ⟨fun policy candidate hpolicy hcreated => ?_, fun text age hread horphans hmax => ?_⟩
  · exact ⟨policy.threshold candidate, fun t => isDueFrom_iff hpolicy,
      goesBy_threshold hpolicy hcreated⟩
  · have hage : Duration.readAge (config.orphanMaxAge.getD "").toList = .ok (some age) := by
      rw [hmax]
      exact hread
    obtain ⟨orphans, hpolicy⟩ := exists_ofConfig hage
    refine ⟨orphans, hpolicy, ?_⟩
    intro policy annotated orphan now hvalue hnone hsame hcreated hdeadline hnow
    have hmaxAge := ((ofConfig_eq_ok hpolicy).2 age).2 ⟨horphans, hage⟩
    have hold := shouldRemove_of_none (nanos_of_ofConfig hpolicy)
      (fun t ht => hcreated t (hsame.trans ht)) hnow hnone
    -- both decide by the same threshold, the age after the creation
    rw [threshold_of_none hnone, hmaxAge, ← hsame] at hold
    exact ⟨_, shouldRemove_of_age hvalue hread hdeadline, hold⟩

/-- Removes what has the annotation, and after a day and a half what does not. -/
def tidyAll : CleanupConfig := { tidy with cleanupOrphans := true, orphanMaxAge := some "1d 12h" }

/-- Made half a second after noon on 9 March 2025, without the annotation. -/
def leftover : Candidate := { relic with annotations := [], created := some ⟨1741521600, 500000000⟩ }

/-- Half a second after midnight on 11 March 2025, a day and a half later. -/
def leftoverDue : Instant := ⟨1741651200, 500000000⟩

/-- The same with the age in the annotation. -/
def leftoverMarked : Candidate :=
  { leftover with annotations := [("cronscale.io/cleanup-after", "1d 12h")] }

theorem eligibility_is_one_deadline_leftover :
    IsDueFrom tidyAll leftover (.since leftoverDue) ∧
      ∃ policy, CleanupPolicy.ofConfig tidyAll = .ok policy ∧
        policy.shouldRemove leftover leftoverDue = .ok true ∧
        policy.shouldRemove leftover ⟨1741651200, 499999999⟩ ≠ .ok true ∧
        ∃ due, policy.shouldRemove leftoverMarked leftoverDue = .ok due ∧
          policy.shouldRemove leftover leftoverDue = .ok due := by
  obtain ⟨hdeadline, hrules⟩ := eligibility_is_one_deadline tidyAll
  have hread : Duration.readAge "1d 12h".toList = .ok (some ⟨129600, 0⟩) := by decide +kernel
  have htimed : leftover.IsTimed := fun t ht => Option.some.inj ht ▸ by decide
  have hinRange : ∀ t ∈ leftover.created, (t.shift 129600 0).inRange :=
    fun t ht => Option.some.inj ht ▸ by decide
  obtain ⟨policy, hpolicy, hsame⟩ := hrules "1d 12h" ⟨129600, 0⟩ hread rfl rfl
  obtain ⟨threshold, hset, hgoes⟩ := hdeadline policy leftover hpolicy htimed
  have hafter : Threshold.afterCreation ⟨129600, 0⟩ leftover.created = .since leftoverDue := by decide
  have hdue : IsDueFrom tidyAll leftover (.since leftoverDue) := hafter ▸ .orphan rfl rfl hread
  obtain rfl := (hset _).1 hdue
  have hkey : policy.annotationKey = tidyAll.annotationKey :=
    (CleanupPolicy.ofConfig_eq_ok hpolicy).1
  have hvalue : leftoverMarked.annotations.get? policy.annotationKey = some "1d 12h" := hkey ▸ rfl
  have hreached : policy.shouldRemove leftover leftoverDue = .ok true :=
    (hgoes.due leftoverDue (by decide) (by decide)).2 (by decide)
  have hearlier : policy.shouldRemove leftover ⟨1741651200, 499999999⟩ ≠ .ok true := fun h =>
    absurd ((hgoes.due ⟨1741651200, 499999999⟩ (by decide) (by decide)).1 h) (by decide)
  exact ⟨hdue, policy, hpolicy, hreached, hearlier,
    hsame policy leftoverMarked leftover leftoverDue hvalue rfl rfl htimed hinRange (by decide)⟩

/-- Marked with a text that comes to 2^64 seconds. -/
def unread : Candidate :=
  { relic with
    annotations := [("cronscale.io/cleanup-after", "18446744073709551615s 1000000000ns")]
    created := none }

/-- The text is no duration, no time and no date, so that the resource would never be due. But the
policy breaks off instead of saying so. -/
theorem undecided_about_unread :
    IsDueFrom tidy unread .never ∧
      CleanupPolicy.ofConfig tidy = .ok ⟨tidy.annotationKey, none⟩ ∧
      (⟨tidy.annotationKey, none⟩ : CleanupPolicy).shouldRemove unread evening =
        .error .durationSum := by
  have hbreaks : Duration.readAge (Text.trim "18446744073709551615s 1000000000ns".toList) =
      .error .durationSum := by
    decide +kernel
  have hother (age : Duration) :
      Duration.readAge (Text.trim "18446744073709551615s 1000000000ns".toList) ≠ .ok (some age) := by
    rw [hbreaks]
    exact nofun
  have hvalue : unread.annotations.get? tidy.annotationKey =
      some "18446744073709551615s 1000000000ns" := by
    decide +kernel
  exact ⟨.other hvalue (by decide) hother (by decide +kernel) (by decide +kernel),
    by decide +kernel, by decide +kernel⟩

end ScheduledScaling
