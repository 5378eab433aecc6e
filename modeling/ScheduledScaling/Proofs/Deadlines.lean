import ScheduledScaling.Proofs.FinalState
/-!
# Where a cleanup breaks off

The policy of a cleanup decides about every resource, but for two overflows that nothing catches:
the amounts of a written duration that come to 2^64 seconds while they are added up, and an age
that takes the deadline of a resource out of the years of the calendar. One such resource ends the
whole pass, and its status is not written.
-/
namespace ScheduledScaling

/-- Steps in a row break off in the first of them, or in what follows from its value. -/
theorem bind_eq_error_iff {α β ε : Type} {r : Except ε α} {f : α → Except ε β} {e : ε} :
    r >>= f = .error e ↔ r = .error e ∨ ∃ a, r = .ok a ∧ f a = .error e := by
  cases r <;> simp [Bind.bind, Except.bind]

/-! ## Sums of amounts -/

namespace Duration
variable {d : Duration} {s : List Char} {x : Overflow}

/-- Adding breaks off where the nanoseconds make up one second more, which does not fit. -/
theorem add?_eq_error_iff {seconds nanos : Nat} :
    d.add? seconds nanos = .error x ↔ x = .durationSum ∧
      d.nanos + nanos = Instant.nanosPerSecond ∧ d.seconds + seconds + 1 = Word.bound64 := by
  have hsecond : Instant.nanosPerSecond = 1000000000 := rfl
  have hword : Word.bound64 = 18446744073709551616 := rfl
  by_cases hcarry : d.nanos + nanos > Instant.nanosPerSecond
  · -- what is left after carrying is less than a second
    have hrest : (d.nanos + nanos) % Instant.nanosPerSecond < Instant.nanosPerSecond :=
      Nat.mod_lt _ (by decide)
    simp only [add?, if_pos hcarry, if_pos hrest]
    constructor
    · intro h
      split at h <;> cases h
    · rintro ⟨-, hnanos, -⟩
      omega
  · simp only [add?, if_neg hcarry, Nat.add_zero]
    constructor
    · intro h
      split_ifs at h with hfits hrest hlast
      cases h
      exact ⟨rfl, by omega, by omega⟩
    · rintro ⟨rfl, hnanos, hseconds⟩
      rw [if_neg (by omega), if_neg (by omega), if_neg (by omega)]

/-- The seconds and nanoseconds that a text adds up: two for each amount, that of its whole number
and that of its fraction. They end where the text does not read on. -/
def parts (s : List Char) : List (Nat × Nat) :=
  match readAmount? s with
  | none => []
  | some (amount, rest) =>
    match amount.wholePart? with
    | none => []
    | some whole =>
      whole :: match amount.fractionPart? with
        | none => []
        | some fraction =>
          fraction ::
            if rest.all Text.isBlank then []
            else if rest.length < s.length then parts rest
            else []
termination_by s.length

/-- Adds up parts from left to right. -/
def sum (d : Duration) : List (Nat × Nat) → Except Overflow (Option Duration)
  | [] => .ok (some d)
  | (seconds, nanos) :: rest => do
    match ← d.add? seconds nanos with
    | none => pure none
    | some d => d.sum rest

/-- The rest is added to what the parts before it come to. -/
theorem sum_append_of_sum {before rest : List (Nat × Nat)} {d' : Duration}
    (h : d.sum before = .ok (some d')) : d.sum (before ++ rest) = d'.sum rest := by
  induction before generalizing d with
  | nil =>
    cases h
    rfl
  | cons p before ih =>
    obtain ⟨seconds, nanos⟩ := p
    rw [sum] at h
    rw [List.cons_append, sum]
    cases hadd : d.add? seconds nanos with
    | error y =>
      rw [hadd] at h
      cases h
    | ok sum? =>
      rw [hadd] at h
      cases sum? with
      | none => cases h
      | some next => exact ih h

/-- A sum of parts breaks off at the first of them at which adding does. -/
theorem sum_eq_error_iff {ps : List (Nat × Nat)} :
    d.sum ps = .error x ↔ ∃ before seconds nanos after d', ps = before ++ (seconds, nanos) :: after ∧
      d.sum before = .ok (some d') ∧ d'.add? seconds nanos = .error x := by
  constructor
  · intro h
    induction ps generalizing d with
    | nil => cases h
    | cons p rest ih =>
      obtain ⟨seconds, nanos⟩ := p
      rw [sum] at h
      cases hadd : d.add? seconds nanos with
      | error y =>
        rw [hadd] at h
        cases h
        exact ⟨[], seconds, nanos, rest, d, rfl, rfl, hadd⟩
      | ok sum? =>
        rw [hadd] at h
        cases sum? with
        | none => cases h
        | some next =>
          obtain ⟨before, seconds', nanos', after, d', rfl, hsum, hfirst⟩ := ih h
          refine ⟨(seconds, nanos) :: before, seconds', nanos', after, d', rfl, ?_, hfirst⟩
          rw [sum, hadd]
          exact hsum
  · rintro ⟨before, seconds, nanos, after, d', rfl, hsum, hfirst⟩
    rw [sum_append_of_sum hsum, sum, hfirst]
    rfl

/-- A text adds up its parts, and breaks off where their sum does. -/
theorem readAmounts_eq_error_iff : readAmounts s d = .error x ↔ d.sum (parts s) = .error x := by
  fun_induction readAmounts s d with
  | case1 s d h =>
    rw [parts, h]
    constructor <;> intro h <;> cases h
  | case2 s d amount rest h ih =>
    rw [parts, h]
    dsimp only
    unfold plusAmount
    cases hwhole : amount.wholePart? with
    | none => constructor <;> intro h <;> cases h
    | some whole =>
      obtain ⟨seconds, nanos⟩ := whole
      dsimp only
      rw [sum]
      rcases d.add? seconds nanos with y | _ | d'
      · exact Iff.rfl
      · constructor <;> intro h <;> cases h
      · cases hfraction : amount.fractionPart? with
        | none => constructor <;> intro h <;> cases h
        | some fraction =>
          obtain ⟨seconds', nanos'⟩ := fraction
          dsimp only [bind, Except.bind]
          rw [sum]
          rcases d'.add? seconds' nanos' with y | _ | next
          · exact Iff.rfl
          · constructor <;> intro h <;> cases h
          · dsimp only [bind, Except.bind]
            split
            · constructor <;> intro h <;> cases h
            · split
              · rename_i hshorter
                exact ih next hshorter
              · constructor <;> intro h <;> cases h

/-- A text whose amounts come to 2^64 seconds somewhere, by nanoseconds that make up one second. -/
def Overfills (s : List Char) : Prop :=
  ∃ before seconds nanos after d, parts (Text.trim s) = before ++ (seconds, nanos) :: after ∧
    zero.sum before = .ok (some d) ∧ d.nanos + nanos = Instant.nanosPerSecond ∧
    d.seconds + seconds + 1 = Word.bound64

/-- Reading an age breaks off at a text that comes to 2^64 seconds, and at no other. -/
theorem readAge_eq_error_iff : readAge s = .error x ↔ x = .durationSum ∧ Overfills s := by
  have hread : readAge s = .error x ↔ zero.sum (parts (Text.trim s)) = .error x := by
    rw [readAge, read]
    split
    · rename_i hzero
      have hunread : readAmount? ['0'] = none := by decide +kernel
      rw [hzero, parts, hunread]
      constructor <;> intro h <;> cases h
    · rw [← readAmounts_eq_error_iff]
      cases readAmounts (Text.trim s) zero with
      | error y => exact Iff.rfl
      | ok sum? => constructor <;> intro h <;> cases h
  rw [hread, sum_eq_error_iff]
  constructor
  · rintro ⟨before, seconds, nanos, after, d, hparts, hsum, hlast⟩
    obtain ⟨rfl, hnanos, hseconds⟩ := add?_eq_error_iff.1 hlast
    exact ⟨rfl, before, seconds, nanos, after, d, hparts, hsum, hnanos, hseconds⟩
  · rintro ⟨rfl, before, seconds, nanos, after, d, hparts, hsum, hnanos, hseconds⟩
    exact ⟨before, seconds, nanos, after, d, hparts, hsum,
      add?_eq_error_iff.2 ⟨rfl, hnanos, hseconds⟩⟩

end Duration

/-! ## Decisions of the policy -/

/-- An annotation that leaves the range of time: its text comes to 2^64 seconds, or it is an age that
takes the deadline out of the years of the calendar. -/
def Candidate.Overruns (candidate : Candidate) (value : String) (x : Overflow) : Prop :=
  (x = .durationSum ∧ value ≠ "" ∧ Duration.Overfills (Text.trim value.toList)) ∨
  x = .instantPlus ∧ ∃ age created, Expiry.read value = .ok (some (.afterCreation age)) ∧
    candidate.created = some created ∧ (created.shift age.seconds age.nanos).inRange = false

namespace CleanupPolicy
variable {policy : CleanupPolicy} {candidate : Candidate} {value : String} {now : Instant}
  {x : Overflow}

theorem read_eq_error_iff :
    Expiry.read value = .error x ↔
      x = .durationSum ∧ value ≠ "" ∧ Duration.Overfills (Text.trim value.toList) := by
  have hread : Expiry.read value = .error x ↔
      value ≠ "" ∧ Duration.readAge (Text.trim value.toList) = .error x := by
    unfold Expiry.read
    split
    · rename_i hempty
      constructor
      · intro h
        cases h
      · exact fun h => absurd hempty h.1
    · rename_i hvalue
      rw [bind_eq_error_iff]
      constructor
      · rintro (h | ⟨age?, -, h⟩)
        · exact ⟨hvalue, h⟩
        · cases age? <;> cases h
      · exact fun h => .inl h.2
  rw [hread, Duration.readAge_eq_error_iff]
  exact and_left_comm

theorem isReached_eq_error_iff {created : Option Instant} {expiry : Expiry} :
    expiry.isReached created now = .error x ↔ x = .instantPlus ∧ ∃ age t,
      expiry = .afterCreation age ∧ created = some t ∧
        (t.shift age.seconds age.nanos).inRange = false := by
  constructor
  · intro h
    cases expiry with
    | immediate => cases h
    | fixed t => cases h
    | afterCreation age =>
      cases created with
      | none => cases h
      | some t =>
        rw [Expiry.isReached, Instant.plus] at h
        split at h
        · cases h
        · rename_i hrange
          cases h
          exact ⟨rfl, age, t, rfl, rfl, Bool.eq_false_iff.2 hrange⟩
  · rintro ⟨rfl, age, t, rfl, rfl, hrange⟩
    rw [Expiry.isReached, Instant.plus, hrange]
    rfl

theorem isExpired_eq_error_iff :
    isExpired candidate value now = .error x ↔ candidate.Overruns value x := by
  have hsteps : isExpired candidate value now = .error x ↔ Expiry.read value = .error x ∨
      ∃ expiry, Expiry.read value = .ok (some expiry) ∧
        expiry.isReached candidate.created now = .error x := by
    unfold isExpired
    rw [bind_eq_error_iff]
    refine or_congr Iff.rfl ⟨?_, fun ⟨expiry, hread, h⟩ => ⟨_, hread, h⟩⟩
    rintro ⟨_ | expiry, hread, h⟩
    · cases h
    · exact ⟨expiry, hread, h⟩
  rw [hsteps, read_eq_error_iff]
  simp only [isReached_eq_error_iff]
  refine or_congr Iff.rfl ?_
  constructor
  · rintro ⟨_, hread, rfl, age, t, rfl, hcreated, hrange⟩
    exact ⟨rfl, age, t, hread, hcreated, hrange⟩
  · rintro ⟨rfl, age, t, hread, hcreated, hrange⟩
    exact ⟨_, hread, rfl, age, t, rfl, hcreated, hrange⟩

/-- The policy decides about every resource but those whose annotation leaves the range of time. -/
theorem shouldRemove_eq_error_iff :
    policy.shouldRemove candidate now = .error x ↔
      ∃ value, candidate.annotations.get? policy.annotationKey = some value ∧
        candidate.Overruns value x := by
  unfold shouldRemove
  cases candidate.annotations.get? policy.annotationKey with
  | none =>
    constructor
    · intro h
      cases h
    · rintro ⟨value, h, -⟩
      cases h
  | some value =>
    simp only [Option.some.injEq, exists_eq_left']
    exact isExpired_eq_error_iff

/-- A config whose age comes to 2^64 seconds gives no rules; every other config does. -/
theorem ofConfig_eq_error_iff {config : CleanupConfig} :
    ofConfig config = .error x ↔ config.cleanupOrphans = true ∧ x = .durationSum ∧
      Duration.Overfills (config.orphanMaxAge.getD "").toList := by
  rw [← Duration.readAge_eq_error_iff]
  unfold ofConfig
  cases config.cleanupOrphans with
  | false =>
    constructor
    · intro h
      cases h
    · intro h
      cases h.1
  | true =>
    rw [if_pos rfl, bind_eq_error_iff]
    constructor
    · rintro (h | ⟨age, -, h⟩)
      · exact ⟨rfl, h⟩
      · cases h
    · exact fun h => .inl h.2

/-- What a config says about orphans. -/
theorem ofConfig_eq_ok {config : CleanupConfig} (h : ofConfig config = .ok policy) :
    policy.annotationKey = config.annotationKey ∧ ∀ age, policy.orphanMaxAge = some age ↔
      config.cleanupOrphans = true ∧
        Duration.readAge (config.orphanMaxAge.getD "").toList = .ok (some age) := by
  unfold ofConfig at h
  cases horphans : config.cleanupOrphans with
  | false =>
    rw [horphans] at h
    cases h
    exact ⟨rfl, fun age => ⟨nofun, nofun⟩⟩
  | true =>
    rw [horphans, if_pos rfl] at h
    cases hage : Duration.readAge (config.orphanMaxAge.getD "").toList with
    | error x =>
      rw [hage] at h
      cases h
    | ok age? =>
      rw [hage] at h
      cases h
      exact ⟨rfl, fun age => ⟨fun h => ⟨rfl, congrArg Except.ok h⟩, fun h => Except.ok.inj h.2⟩⟩

end CleanupPolicy

/-- The annotation of a resource under a key does not leave the range of time. -/
def Candidate.Settles (key : String) (c : Candidate) : Prop :=
  ∀ value x, c.annotations.get? key = some value → ¬ c.Overruns value x

theorem Candidate.settles_iff {policy : CleanupPolicy} {now : Instant} {c : Candidate} :
    c.Settles policy.annotationKey ↔ (policy.shouldRemove c now).isOk := by
  constructor
  · intro h
    cases hdue : policy.shouldRemove c now with
    | ok due => rfl
    | error x =>
      obtain ⟨value, hvalue, hover⟩ := CleanupPolicy.shouldRemove_eq_error_iff.1 hdue
      exact absurd hover (h value x hvalue)
  · intro h value x hvalue hover
    rw [CleanupPolicy.shouldRemove_eq_error_iff.2 ⟨value, hvalue, hover⟩] at h
    cases h

/-! ## Passes that break off -/

open Program

namespace Cleanup
variable {kind : String} {policy : CleanupPolicy} {selector : Option String} {now : Instant}
  {α β : Type} {trace : List Exchange}

/-- Among some resources is one about which the policy does not decide. -/
def UndecidedAmong (policy : CleanupPolicy) (now : Instant) (candidates : List Candidate) : Prop :=
  ∃ candidate ∈ candidates, (policy.shouldRemove candidate now).isOk = false

/-- A listing with such a resource. -/
def Undecided (policy : CleanupPolicy) (now : Instant) : Exchange → Prop
  | ⟨.list _ _ _, .ok candidates⟩ => UndecidedAmong policy now candidates
  | _ => False

instance decidableUndecidedAmong (candidates : List Candidate) :
    Decidable (UndecidedAmong policy now candidates) :=
  inferInstanceAs (Decidable (∃ candidate ∈ candidates,
    (policy.shouldRemove candidate now).isOk = false))

@[simp] theorem not_undecidedAmong_nil : ¬ UndecidedAmong policy now [] := by
  rintro ⟨candidate, h, -⟩
  cases h

@[simp] theorem undecidedAmong_cons {candidate : Candidate} {rest : List Candidate} :
    UndecidedAmong policy now (candidate :: rest) ↔
      (policy.shouldRemove candidate now).isOk = false ∨ UndecidedAmong policy now rest := by
  simp [UndecidedAmong]

instance : DecidablePred (Undecided policy now)
  | ⟨.list _ _ _, .ok candidates⟩ =>
    decidableUndecidedAmong candidates
  | ⟨.list _ _ _, .error _⟩ | ⟨.fetch _, _⟩ | ⟨.replace _ _, _⟩ | ⟨.listSchedules, _⟩
  | ⟨.getSchedule _ _, _⟩ | ⟨.patchStatus _ _ _, _⟩ | ⟨.delete _ _, _⟩ => .isFalse id

/-- A program breaks off exactly if it lists a resource about which the policy does not decide. -/
def BreaksAtUndecided (policy : CleanupPolicy) (now : Instant) (p : Program α) : Prop :=
  ∀ trace r, Runs p trace r → ((∃ o, r = .error o) ↔ ∃ x ∈ trace, Undecided policy now x)

theorem breaksAtUndecided_done (a : α) : BreaksAtUndecided policy now (.done a) := by
  intro trace r h
  obtain ⟨rfl, rfl⟩ := runs_done.1 h
  simp

theorem BreaksAtUndecided.bind {p : Program α} {f : α → Program β}
    (hp : BreaksAtUndecided policy now p) (hf : ∀ a, BreaksAtUndecided policy now (f a)) :
    BreaksAtUndecided policy now (p >>= f) := by
  intro trace r h
  rcases runs_bind.1 h with ⟨a, before, after, rfl, hbefore, hafter⟩ | ⟨o, rfl, ho⟩
  · have hnone := hp before (.ok a) hbefore
    simp only [reduceCtorEq, exists_false, false_iff, not_exists, not_and] at hnone
    rw [hf a after r hafter]
    constructor
    · rintro ⟨x, hx, hundecided⟩
      exact ⟨x, List.mem_append_right _ hx, hundecided⟩
    · rintro ⟨x, hx, hundecided⟩
      rcases List.mem_append.1 hx with hx | hx
      · exact absurd hundecided (hnone x hx)
      · exact ⟨x, hx, hundecided⟩
  · have hfound := hp trace (.error o) ho
    simp only [Except.error.injEq, exists_eq', true_iff] at hfound ⊢
    exact hfound

/-- Removing one resource takes no listing, and breaks off if the policy does. -/
theorem runs_reapOne {candidate : Candidate} {report : CleanupReport}
    {r : Except Overflow CleanupReport}
    (h : Runs (reapOne kind policy now candidate report) trace r) :
    ((∃ o, r = .error o) ↔ (policy.shouldRemove candidate now).isOk = false) ∧
      ∀ x ∈ trace, ¬ Undecided policy now x := by
  rcases runs_lift_bind.1 h with ⟨due, hdue, h⟩ | ⟨o, ho, rfl, rfl⟩
  rotate_left
  · simp [ho, Except.isOk, Except.toBool]
  have hends : (∃ report', r = .ok report') ∧ ∀ x ∈ trace, ¬ Undecided policy now x := by
    split at h
    · split at h
      · obtain ⟨rfl, rfl⟩ := runs_pure.1 h
        simp
      · cases h with
        | call answer h =>
          have hquiet : ¬ Undecided policy now ⟨.delete kind candidate, answer⟩ := id
          cases answer with
          | error e =>
            obtain ⟨rfl, rfl⟩ := runs_done.1 h
            simpa using hquiet
          | ok u =>
            obtain ⟨rfl, rfl⟩ := runs_done.1 h
            simpa using hquiet
    · obtain ⟨rfl, rfl⟩ := runs_pure.1 h
      simp
  obtain ⟨⟨report', rfl⟩, hquiet⟩ := hends
  refine ⟨?_, hquiet⟩
  rw [hdue]
  simp [Except.isOk, Except.toBool]

theorem runs_reapAll {candidates : List Candidate} {report : CleanupReport}
    {r : Except Overflow CleanupReport}
    (h : Runs (reapAll kind policy now candidates report) trace r) :
    ((∃ o, r = .error o) ↔ UndecidedAmong policy now candidates) ∧
      ∀ x ∈ trace, ¬ Undecided policy now x := by
  induction candidates generalizing report trace with
  | nil =>
    obtain ⟨rfl, rfl⟩ := runs_pure.1 h
    simp
  | cons candidate rest ih =>
    rcases runs_bind.1 h with ⟨report', before, after, rfl, hone, hrest⟩ | ⟨o, rfl, ho⟩
    · obtain ⟨hone, hbefore⟩ := runs_reapOne hone
      obtain ⟨hrest, hafter⟩ := ih hrest
      simp only [reduceCtorEq, exists_false, false_iff] at hone
      refine ⟨?_, ?_⟩
      · rw [hrest]
        simp [hone]
      · intro x hx
        rcases List.mem_append.1 hx with hx | hx
        · exact hbefore x hx
        · exact hafter x hx
    · obtain ⟨hone, hbefore⟩ := runs_reapOne ho
      simp only [Except.error.injEq, exists_eq', true_iff] at hone
      refine ⟨?_, hbefore⟩
      simp [hone]

theorem breaksAtUndecided_reapScope (ns : Option String) (report : CleanupReport) :
    BreaksAtUndecided policy now (reapScope kind policy selector now ns report) := by
  intro trace r h
  cases h with
  | call answer h =>
    cases answer with
    | error e =>
      obtain ⟨rfl, rfl⟩ := runs_done.1 h
      simp [Undecided]
    | ok candidates =>
      obtain ⟨hall, hquiet⟩ := runs_reapAll h
      rw [hall]
      constructor
      · exact fun h => ⟨_, List.mem_cons_self, h⟩
      · rintro ⟨x, hx, hundecided⟩
        rcases List.mem_cons.1 hx with rfl | hx
        · exact hundecided
        · exact absurd hundecided (hquiet x hx)

theorem breaksAtUndecided_reapScopes (scopes : List (Option String)) (report : CleanupReport) :
    BreaksAtUndecided policy now (reapScopes kind policy selector now scopes report) := by
  induction scopes generalizing report with
  | nil => exact breaksAtUndecided_done _
  | cons ns rest ih => exact (breaksAtUndecided_reapScope ns report).bind fun report => ih report

theorem breaksAtUndecided_reapKinds {registry : Registry} {namespaces : List String}
    (kinds : List String) (report : CleanupReport) :
    BreaksAtUndecided policy now
      (reapKinds registry policy selector now namespaces kinds report) := by
  induction kinds generalizing report with
  | nil => exact breaksAtUndecided_done _
  | cons kind rest ih =>
    unfold reapKinds
    split
    · exact ih _
    · exact (breaksAtUndecided_reapScopes _ _).bind fun report => ih report

/-- A cleanup whose config gives rules breaks off exactly if it lists a resource about which these
do not decide. -/
theorem breaksAtUndecided_run {config : CleanupConfig} (registry : Registry) (own : String)
    (h : CleanupPolicy.ofConfig config = .ok policy) :
    BreaksAtUndecided policy now (run registry config own now).run := by
  unfold run
  cases namespacesOf config own with
  | error e => exact breaksAtUndecided_done _
  | ok namespaces =>
    rw [h]
    exact (breaksAtUndecided_reapKinds _ _).bind fun _ => breaksAtUndecided_done _

end Cleanup

namespace Pass
open Cleanup
variable {zones : Zone.Lookup} {registry : Registry} {settings : Settings} {s : Schedule}
  {now : Instant} {policy : CleanupPolicy} {config : CleanupConfig} {trace : List Exchange}
  {x : Exchange}

/-- A cleanup step that ends has listed only resources about which the policy decides. -/
theorem decided_of_runCleanup {spec : ScheduleSpec} {z : Zone} {ns : String}
    {status : ScheduleStatus} {scaled progress : Progress}
    (hconfig : spec.cleanupConfig = some config) (hpolicy : CleanupPolicy.ofConfig config = .ok policy)
    (h : Runs (runCleanup registry spec z ns status now scaled) trace (.ok progress))
    (hx : x ∈ trace) : ¬ Undecided policy now x := by
  rcases runs_lift_bind.1 h with ⟨due, -, h⟩ | ⟨o, -, -, ho⟩
  rotate_left
  · cases ho
  split at h
  · rw [hconfig] at h
    rcases runs_bind.1 h with ⟨result, before, after, rfl, hrun, h⟩ | ⟨o, ho, -⟩
    rotate_left
    · cases ho
    have hafter : after = [] := by
      cases result with
      | error e => exact (runs_pure.1 h).1
      | ok report => exact (runs_pure.1 h).1
    rw [hafter, List.append_nil] at hx
    have hbreaks := breaksAtUndecided_run registry ns hpolicy before (.ok result) hrun
    simp only [reduceCtorEq, exists_false, false_iff, not_exists, not_and] at hbreaks
    exact hbreaks x hx
  · obtain ⟨rfl, -⟩ := runs_pure.1 h
    cases hx

theorem not_undecided_of_workloadCall (h : x.call.IsWorkloadCall) : ¬ Undecided policy now x := by
  obtain ⟨c, answer⟩ := x
  cases c <;> first | exact id | cases h

/-- One resource about which the policy does not decide ends a pass before its status is written,
also if the scaling of this pass has succeeded. -/
theorem unwritten_of_undecided {r : Except Overflow (Except Failure Action)}
    (hconfig : s.spec.cleanupConfig = some config)
    (hpolicy : CleanupPolicy.ofConfig config = .ok policy)
    (h : Runs (reconcile registry settings s now zones).run trace r) (hx : x ∈ trace)
    (hundecided : Undecided policy now x) :
    (∃ o, r = .error o) ∧ ∀ y ∈ trace, y.patch? = none := by
  obtain ⟨ns, z, -, -, -, h⟩ := steps_of_mem h hx
  have hscaling {first : List Exchange} {r : Except Overflow Progress}
      (hscaled : Runs (runScaling s.spec z s.recorded now .start) first r) : x ∉ first :=
    fun hx => not_undecided_of_workloadCall
      (hscaled.call_of_mem (onlyCalls_runScaling ..) x hx) hundecided
  rcases runs_runSteps h with ⟨o, rfl, ho⟩ | ⟨scaled, first, rest, rfl, hscaled, hrest⟩
  · exact absurd hx (hscaling ho)
  rcases hrest with ⟨o, rfl, ho⟩ | ⟨progress, middle, last, written, rfl, hprogress, hwritten, -⟩
  · refine ⟨⟨o, rfl⟩, fun y hy => ?_⟩
    rcases List.mem_append.1 hy with hy | hy
    · exact patch?_of_scaling hscaled y hy
    · exact patch?_of_cleanup ho y hy
  · -- the cleanup did not end, since it has listed the resource
    rcases List.mem_append.1 hx with hx | hx
    · exact absurd hx (hscaling hscaled)
    rcases List.mem_append.1 hx with hx | hx
    · exact absurd hundecided (decided_of_runCleanup hconfig hpolicy hprogress hx)
    · rcases runs_writeStatus.1 hwritten with ⟨-, rfl, -⟩ | ⟨-, answer, rfl, -⟩
      · cases hx
      · obtain rfl := List.mem_singleton.1 hx
        exact hundecided.elim

end Pass

open Cleanup

/-- A cleanup gets its rules and decides about each resource unless a written age comes to 2^64
seconds or a deadline leaves the years of the calendar. Where a pass lists a resource of that kind,
it breaks off, and writes no status. -/
theorem breaks_off_iff (config : CleanupConfig) (policy : CleanupPolicy) (now : Instant)
    (x : Overflow) :
    (CleanupPolicy.ofConfig config = .error x ↔ config.cleanupOrphans = true ∧
      x = .durationSum ∧ Duration.Overfills (config.orphanMaxAge.getD "").toList) ∧
    (∀ candidate, CleanupPolicy.shouldRemove policy candidate now = .error x ↔
      ∃ value, candidate.annotations.get? policy.annotationKey = some value ∧
        candidate.Overruns value x) ∧
    ∀ zones registry settings s trace r, s.spec.cleanupConfig = some config →
      CleanupPolicy.ofConfig config = .ok policy →
      Runs (reconcile registry settings s now zones).run trace r →
      (∃ y ∈ trace, Undecided policy now y) →
      (∃ o, r = .error o) ∧ ∀ y ∈ trace, y.patch? = none := by
  refine ⟨CleanupPolicy.ofConfig_eq_error_iff,
    fun _ => CleanupPolicy.shouldRemove_eq_error_iff, ?_⟩
  rintro zones registry settings s trace r hconfig hpolicy hrun ⟨y, hy, hundecided⟩
  exact Pass.unwritten_of_undecided hconfig hpolicy hrun hy hundecided

/-! ## A resource that is kept for 300000 years -/

/-- What the schedule that scales at night cleans up: the config maps that an annotation marks. -/
def tidy : CleanupConfig where
  namespaces := []
  annotationKey := "cronscale.io/cleanup-after"
  resourceTypes := ["ConfigMap"]
  labelSelector := []
  dryRun := false
  cleanupOrphans := false
  orphanMaxAge := none

/-- Scales down at ten in the evening, and cleans up then. -/
def tidied : Schedule :=
  { nightly with
    spec := { nightly.spec with cleanup := nightlyDown.text, cleanupConfig := some tidy } }

theorem validate_tidied : tidied.spec.validate = .ok () := by decide +kernel

/-- To be removed 300000 years after 9 March 2025. -/
def relic : Candidate where
  kind := "ConfigMap"
  name := "relic"
  ns := some "shop"
  uid := none
  annotations := [("cronscale.io/cleanup-after", "300000y")]
  created := some ⟨1741521600, 0⟩

/-- The deployment that is scaled, and the resource beside it. -/
def relicStore : MemoryStore :=
  { nightlyStore with listers := [⟨"ConfigMap", .namespaced, [relic], [], [], [], []⟩] }

def tidyPass : Program (Except Failure Action) :=
  (reconcile relicStore.registry .default tidied evening).run

/-- The pass scales the deployment to zero, and then comes upon the resource, whose deadline lies
behind the years of the calendar. It breaks off, and the scaling is not recorded. A text of 2^64
seconds is not even read. -/
theorem breaks_off_at_relic :
    Expiry.read "18446744073709551615s 1000000000ns" = .error .durationSum ∧
      tidied.spec.validate = .ok () ∧
      CleanupPolicy.ofConfig tidy = .ok ⟨tidy.annotationKey, none⟩ ∧
      (⟨tidy.annotationKey, none⟩ : CleanupPolicy).shouldRemove relic evening =
        .error .instantPlus ∧
      ∃ store, tidyPass.run MemoryStore.handler relicStore = (.error .instantPlus, store) ∧
        (store.workload? "shop" "web").map (·.replicas) = some 0 ∧ store.patches.length = 0 := by
  obtain ⟨hrun, hscaled, hunwritten⟩ :
      (tidyPass.run MemoryStore.handler relicStore).1 = .error .instantPlus ∧
        ((tidyPass.run MemoryStore.handler relicStore).2.workload? "shop" "web").map (·.replicas) =
          some 0 ∧
        (tidyPass.run MemoryStore.handler relicStore).2.patches.length = 0 := by
    decide +kernel
  exact ⟨by decide +kernel, validate_tidied, by decide +kernel, by decide +kernel, _,
    Prod.ext hrun rfl, hscaled, hunwritten⟩

theorem breaks_off_iff_relic :
    (∃ o, (tidyPass.run MemoryStore.handler relicStore).1 = .error o) ∧
      ∀ y ∈ tidyPass.trace MemoryStore.handler relicStore, y.patch? = none :=
  (breaks_off_iff tidy ⟨tidy.annotationKey, none⟩ evening .instantPlus).2.2 _ _ _ tidied _ _ rfl
    (by decide +kernel) (runs_trace MemoryStore.handler tidyPass relicStore) (by decide +kernel)

end ScheduledScaling
