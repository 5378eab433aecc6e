import ScheduledScaling.Proofs.Monotonicity
import ScheduledScaling.Proofs.Rescaling
/-!
# The status after a patch

A pass tells what it has done in a patch, which is merged into the document of the status. The document
can be read again then, and what is read is the status of before with exactly the fields replaced that
the pass has set: `status_after_patch`. A scaling sets its times and the replicas, a cleanup its time
and its count, and every patch the message and, if the schedule has one, the generation
(`PassResult.status`).
-/
namespace ScheduledScaling

open Program Pass

/-! ## Fields after a merge -/

namespace Json
variable {key : String} {base patch : Json}

theorem int?_merge {written : Option Int} (hbase : (Keyed.keys base.members).Nodup)
    (hpatch : (Keyed.keys patch.members).Nodup) (hkey : patch.get? key = written.map int) :
    (base.merge patch).int? key = written.or (base.int? key) := by
  unfold int?
  rw [get?_merge_of_nodup hbase hpatch, hkey]
  cases written <;> rfl

theorem text?_merge {written : Option String} (hbase : (Keyed.keys base.members).Nodup)
    (hpatch : (Keyed.keys patch.members).Nodup) (hkey : patch.get? key = written.map string) :
    (base.merge patch).text? key = written.or (base.text? key) := by
  unfold text?
  rw [get?_merge_of_nodup hbase hpatch, hkey]
  cases written <;> rfl

end Json

/-! ## Members of a patch -/

namespace StatusPatch
variable {patch : StatusPatch} {doc : Json} {status : ScheduleStatus} {key : String} {v : Json}

theorem get?_toJson (patch : StatusPatch) (key : String) :
    patch.toJson.get? key = (patch.members.get? key).join :=
  Json.get?_record (nodup_statusMembers ..)

/-- What is read from a document after a patch was merged into it. -/
theorem ofNormal_merge (hdoc : (Keyed.keys doc.members).Nodup) (hpatch : patch.HasNamedTimes) :
    (Codec.ofNormal (doc.merge patch.toJson) : ScheduleStatus) =
      patch.apply (Codec.ofNormal doc) := by
  have hnodup := nodup_members_toJson patch
  have hget := patch.get?_toJson
  have hdefault (a b : Option Int) : (a.or b).getD 0 = a.getD (b.getD 0) := by
    cases a <;> rfl
  change ScheduleStatus.mk _ _ _ _ _ _ _ = ScheduleStatus.mk _ _ _ _ _ _ _
  rw [Json.time?_merge hdoc hnodup hpatch.scaleDown (hget _),
    Json.time?_merge hdoc hnodup hpatch.scaleUp (hget _),
    Json.time?_merge hdoc hnodup hpatch.cleanup (hget _),
    Json.int?_merge hdoc hnodup (hget "currentReplicas"),
    Json.int?_merge hdoc hnodup (hget "lastCleanupResourceCount"),
    Json.text?_merge hdoc hnodup (hget "message"),
    Json.int?_merge hdoc hnodup (hget "observedGeneration"), hdefault, hdefault]
  rfl

/-- A document can be read after a patch was merged into it, and has the fields of the patch in place
of its own. -/
theorem readStatus_merge (hdoc : IsDocument doc) (hreadable : ScheduleStatus.IsReadable doc)
    (hnamed : patch.HasNamedTimes) (hfits : ScheduleStatus.FitsWords patch) :
    readStatus (doc.merge patch.toJson) = .ok (some (patch.apply (Codec.ofNormal doc))) := by
  have hmerged := ScheduleStatus.isReadable_merge hdoc.nodup (nodup_members_toJson patch) hreadable
    (ScheduleStatus.isReadable_toJson hnamed hfits)
  have hobject : (Keyed.keys (doc.merge patch.toJson).members).Nodup :=
    (Keyed.isSorted_ofList _).nodup
  obtain ⟨status, hstatus⟩ := ScheduleStatus.exists_ofJson hobject hmerged
  have heq := (ScheduleStatus.eq_of_ofJson hobject hstatus).2
  change some <$> Codec.ofJson (.object (doc.merge patch.toJson).members) = _
  rw [hstatus, heq]
  exact congrArg (Except.ok ∘ some) (ofNormal_merge hdoc.nodup hnamed)

/-- What a patch has for a key is no null, and is there for that key afterwards. -/
def IsShown (written after : Option Json) : Prop := ∀ v ∈ written, v ≠ .null ∧ after = some v

theorem isShown_or {α : Type} {f : α → Json} {a b : Option α} (hf : ∀ x, f x ≠ .null) :
    IsShown (a.map f) ((a.or b).map f) := by
  intro v hv
  obtain ⟨x, rfl, rfl⟩ := Option.map_eq_some_iff.1 hv
  exact ⟨hf x, rfl⟩

theorem isShown_getD {a : Option Int} {b : Int} :
    IsShown (a.map .int) (some (.int (a.getD b))) := by
  intro v hv
  obtain ⟨n, rfl, rfl⟩ := Option.map_eq_some_iff.1 hv
  exact ⟨Json.noConfusion, rfl⟩

/-- The members of a patch are among those of the encoding of any status with the patch. -/
theorem get?_apply (status : ScheduleStatus) (h : (key, v) ∈ patch.toJson.members) :
    v ≠ .null ∧ (Codec.toJson (patch.apply status)).get? key = some v := by
  have hshown : List.Forall₂ (fun a b => a.1 = b.1 ∧ IsShown a.2 b.2) patch.members
      (patch.apply status).members :=
    .cons ⟨rfl, isShown_or fun _ => Json.noConfusion⟩ <|
      .cons ⟨rfl, isShown_or fun _ => Json.noConfusion⟩ <|
      .cons ⟨rfl, isShown_or fun _ => Json.noConfusion⟩ <|
      .cons ⟨rfl, isShown_getD⟩ <| .cons ⟨rfl, isShown_getD⟩ <|
      .cons ⟨rfl, isShown_or fun _ => Json.noConfusion⟩ <|
      .cons ⟨rfl, isShown_or fun _ => Json.noConfusion⟩ .nil
  have hpatch : patch.members.get? key = some (some v) := by
    rw [← Option.join_eq_some_iff, ← get?_toJson]
    exact Keyed.get?_of_mem (nodup_members_toJson patch) h
  have hstatus : (Codec.toJson (patch.apply status)).get? key =
      ((patch.apply status).members.get? key).join := Json.get?_record (nodup_statusMembers ..)
  obtain ⟨after, hafter, hv⟩ := Keyed.get?_of_forall₂ hshown hpatch
  obtain ⟨hnull, rfl⟩ := hv v rfl
  rw [hstatus, hafter]
  exact ⟨hnull, rfl⟩

end StatusPatch

/-! ## What a pass has done -/

/-- A scaling that was carried out: whether it supersedes the other one, and the replicas that were
seen after it. -/
structure Scaled where
  direction : Direction
  supersedes : Bool
  replicas : Int

/-- What the steps of a pass have come to: the scaling that was carried out, if one was, the end of
the cleanup, if it was due, and what there is to say about both. -/
structure PassResult where
  scaled : Option Scaled
  cleanup : Option (Except Failure CleanupReport)
  notes : List String

namespace PassResult

/-- Whether a scaling in this direction counts as done. -/
def counts (r : PassResult) (direction : Direction) : Bool :=
  r.scaled.any fun scaled => scaled.direction = direction || scaled.supersedes

/-- The resources that the cleanup has removed or found, if it did not fail. -/
def cleanedUp (r : PassResult) : Option Int :=
  r.cleanup.bind fun result => result.toOption.map fun report => (report.count : Int)

/-- The status that tells what a pass over a spec of this generation has done. -/
def status (r : PassResult) (before : ScheduleStatus) (now : Instant) (generation : Option Int) :
    ScheduleStatus where
  lastScaleDown :=
    if r.counts .down then some (advance before.lastScaleDown now) else before.lastScaleDown
  lastScaleUp := if r.counts .up then some (advance before.lastScaleUp now) else before.lastScaleUp
  lastCleanup :=
    if r.cleanedUp.isSome then some (advance before.lastCleanup now) else before.lastCleanup
  replicas := (r.scaled.map Scaled.replicas).getD before.replicas
  cleanedUp := r.cleanedUp.getD before.cleanedUp
  message := some (String.intercalate "; " r.notes)
  generation := generation.or before.generation

end PassResult

namespace Pass
variable {spec : ScheduleSpec} {z : Zone} {before : ScheduleStatus} {now : Instant}
  {trace : List Exchange}

/-- The scaling step of a pass with these calls, with what it has carried out and what it says. -/
inductive ScalingEnds (spec : ScheduleSpec) (z : Zone) (before : ScheduleStatus) (now : Instant) :
    List Exchange → Option Scaled → List String → Prop
  | idle : (∀ target direction supersedes,
      ¬ Plans spec z before now target direction supersedes) → ScalingEnds spec z before now [] none []
  | failed {target direction supersedes trace e} :
      Plans spec z before now target direction supersedes →
      Runs (direction.scale target).run trace (.ok (.error e)) →
      ScalingEnds spec z before now trace none [direction.step ++ " failed: " ++ e.message]
  | scaled {target direction supersedes outcome replicas first rest} :
      Plans spec z before now target direction supersedes →
      Runs (direction.scale target).run first (.ok (.ok outcome)) →
      Runs (observedReplicas target outcome) rest (.ok replicas) →
      ScalingEnds spec z before now (first ++ rest) (some ⟨direction, supersedes, replicas⟩)
        [scaleNote direction outcome]

/-- What a cleanup says. -/
def cleanupNotes : Option (Except Failure CleanupReport) → List String
  | none => []
  | some (.error e) => ["cleanup" ++ " failed: " ++ e.message]
  | some (.ok report) => [cleanupNote report]

/-- The patch of a scaling that was carried out. -/
def scaledPatch (before : ScheduleStatus) (now : Instant) : Option Scaled → StatusPatch
  | none => .empty
  | some scaled =>
    { scaleTimes scaled.direction scaled.supersedes before now .empty with
      replicas := some scaled.replicas }

theorem scalingEnds_of_runs {progress : Progress}
    (h : Runs (runScaling spec z before now .start) trace (.ok progress)) :
    ∃ scaled, ScalingEnds spec z before now trace scaled progress.notes ∧
      progress.patch = scaledPatch before now scaled := by
  rcases runs_runScaling h with ⟨rfl, hnot⟩ | ⟨target, direction, supersedes, first, rest, hplans, rfl,
    ⟨e, hrun, rfl, rfl⟩ | ⟨outcome, replicas, hrun, hobserved, rfl⟩⟩
  · obtain rfl := trace_of_not_plans h hnot
    exact ⟨none, .idle hnot, rfl⟩
  · rw [List.append_nil]
    exact ⟨none, .failed hplans hrun, rfl⟩
  · exact ⟨some ⟨direction, supersedes, replicas⟩, .scaled hplans hrun hobserved, rfl⟩

/-- The status with the patch of a pass is the one that tells what the pass has done. -/
theorem apply_finalPatch {s : Schedule} {progress : Progress} {scaled : Option Scaled}
    (cleanup : Option (Except Failure CleanupReport))
    (hpatch : progress.patch = scaledPatch before now scaled) :
    (finalPatch s (noted before now progress cleanup)).apply before =
      PassResult.status ⟨scaled, cleanup, progress.notes ++ cleanupNotes cleanup⟩ before now
        s.metadata.generation := by
  obtain ⟨patch, succeeded, transient, notes⟩ := progress
  obtain rfl : patch = scaledPatch before now scaled := hpatch
  cases cleanup with
  | none =>
    rw [cleanupNotes, List.append_nil]
    cases scaled with
    | none => rfl
    | some scaled =>
      obtain ⟨direction, supersedes, replicas⟩ := scaled
      cases direction <;> cases supersedes <;> rfl
  | some result =>
    cases scaled with
    | none => cases result <;> rfl
    | some scaled =>
      obtain ⟨direction, supersedes, replicas⟩ := scaled
      cases result <;> cases direction <;> cases supersedes <;> rfl

end Pass

/-! ## Numbers of a pass -/

/-- The resources that a call has listed. -/
def Exchange.found : Exchange → List Candidate
  | ⟨.list _ _ _, .ok candidates⟩ => candidates
  | _ => []

/-- The numbers that a pass meets are of the machine's words: the generation of the schedule, the
replicas of each workload that is fetched, and the number of resources that are listed. -/
structure MeetsWords (s : Schedule) (trace : List Exchange) : Prop where
  generation : ∀ n ∈ s.metadata.generation, Word.low64 ≤ n ∧ n ≤ Word.high64
  replicas : ∀ target w, ⟨.fetch target, .ok w⟩ ∈ trace →
    Word.low32 ≤ w.replicas ∧ w.replicas ≤ Word.high32
  found : ((trace.flatMap Exchange.found).length : Int) ≤ Word.high32

namespace Cleanup
variable {kind : String} {policy : CleanupPolicy} {selector : Option String} {now : Instant}
  {step step' : CleanupReport → Program CleanupReport} {r r' : CleanupReport} {trace : List Exchange}

/-- A step of a cleanup counts no more resources than its calls have listed. -/
def CountsFound (step : CleanupReport → Program CleanupReport) : Prop :=
  ∀ r trace r', Runs (step r) trace (.ok r') →
    r'.count ≤ r.count + (trace.flatMap Exchange.found).length

theorem countsFound_pure {f : CleanupReport → CleanupReport} (h : ∀ r, (f r).count = r.count) :
    CountsFound fun r => pure (f r) := by
  intro r trace r' hrun
  obtain ⟨-, hr⟩ := runs_pure.1 hrun
  rw [Except.ok.inj hr, h]
  exact Nat.le_add_right ..

theorem CountsFound.bind (h : CountsFound step) (h' : CountsFound step') :
    CountsFound fun r => step r >>= step' := by
  intro r trace r'' hrun
  rcases runs_bind.1 hrun with ⟨r', first, rest, rfl, hfirst, hrest⟩ | ⟨x, hx, -⟩
  · have hcount := h r first r' hfirst
    have hcount' := h' r' rest r'' hrest
    rw [List.flatMap_append, List.length_append]
    omega
  · cases hx

theorem count_of_reapOne {candidate : Candidate}
    (h : Runs (reapOne kind policy now candidate r) trace (.ok r')) : r'.count ≤ r.count + 1 := by
  rcases runs_lift_bind.1 h with ⟨due, -, h⟩ | ⟨x, -, -, hx⟩
  rotate_left
  · cases hx
  split at h
  · split at h
    · obtain ⟨-, hr⟩ := runs_pure.1 h
      exact (Except.ok.inj hr) ▸ Nat.le_refl _
    · obtain ⟨answer, rest, -, hrest⟩ := runs_call.1 h
      cases answer with
      | ok u =>
        obtain ⟨-, hr⟩ := runs_pure.1 hrest
        exact (Except.ok.inj hr) ▸ Nat.le_refl _
      | error e =>
        obtain ⟨-, hr⟩ := runs_pure.1 hrest
        exact (Except.ok.inj hr) ▸ Nat.le_succ _
  · obtain ⟨-, hr⟩ := runs_pure.1 h
    exact (Except.ok.inj hr) ▸ Nat.le_succ _

theorem count_of_reapAll {candidates : List Candidate}
    (h : Runs (reapAll kind policy now candidates r) trace (.ok r')) :
    r'.count ≤ r.count + candidates.length := by
  induction candidates generalizing r trace with
  | nil =>
    obtain ⟨-, hr⟩ := runs_pure.1 h
    exact (Except.ok.inj hr) ▸ Nat.le_refl _
  | cons candidate rest ih =>
    rcases runs_bind.1 h with ⟨middle, first, later, rfl, hfirst, hlater⟩ | ⟨x, hx, -⟩
    · have hcount := count_of_reapOne hfirst
      have hcount' := ih hlater
      rw [List.length_cons]
      omega
    · cases hx

theorem countsFound_reapScope (ns : Option String) :
    CountsFound (reapScope kind policy selector now ns) := by
  intro r trace r' hrun
  obtain ⟨answer, rest, rfl, hrest⟩ := runs_call.1 hrun
  cases answer with
  | error e =>
    obtain ⟨-, hr⟩ := runs_pure.1 hrest
    rw [Except.ok.inj hr]
    exact Nat.le_add_right ..
  | ok candidates =>
    have hcount := count_of_reapAll hrest
    rw [List.flatMap_cons, List.length_append]
    change r'.count ≤ r.count + (candidates.length + _)
    omega

theorem composes_countsFound : Composes fun _ _ step => CountsFound step where
  done := countsFound_pure (f := id) fun _ => rfl
  failed _ := countsFound_pure fun _ => rfl
  bind := CountsFound.bind

/-- A cleanup counts no more resources than it has listed. -/
theorem count_le_found {registry : Registry} {config : CleanupConfig} {own : String}
    {report : CleanupReport} (h : Runs (run registry config own now).run trace (.ok (.ok report))) :
    report.count ≤ (trace.flatMap Exchange.found).length := by
  rcases runs_run h with ⟨e, -, -, hr⟩ | ⟨namespaces, -, ⟨x, -, -, hr⟩ | ⟨policy, r', -, hrun, hr⟩⟩
  · cases hr
  · cases hr
  · cases r' with
    | error x => cases hr
    | ok r =>
      obtain rfl := Except.ok.inj (Except.ok.inj hr)
      have hcount := composes_countsFound.reapKinds (fun _ => countsFound_reapScope) registry namespaces
        config.resourceTypes _ _ _ hrun
      simpa using hcount

end Cleanup

namespace Scaling
variable {direction : Direction} {target : Target} {trace : List Exchange} {outcome : ScaleOutcome}

theorem replicas_of_zero {count : Int} {w : Workload}
    (h : Runs (zero target count w) trace (.ok (.ok outcome))) : outcome.replicas = 0 := by
  unfold zero at h
  split at h
  · obtain ⟨-, hr⟩ := runs_done.1 h
    exact (Except.ok.inj (Except.ok.inj hr)) ▸ rfl
  · obtain ⟨answer, rest, -, hrest⟩ := runs_call.1 h
    cases answer with
    | error e => cases (runs_done.1 hrest).2
    | ok w =>
      obtain ⟨-, hr⟩ := runs_done.1 hrest
      exact (Except.ok.inj (Except.ok.inj hr)) ▸ rfl

theorem fits_of_readMemory {value : String} {n : Int} (h : readMemory value = some n) :
    Word.low32 ≤ n ∧ n ≤ Word.high32 := by
  obtain ⟨hread, -⟩ := Option.filter_eq_some_iff.1 h
  obtain ⟨-, hfits⟩ := Option.filter_eq_some_iff.1 hread
  simpa using hfits

theorem fits_of_restore {w : Workload} (h : Runs (restore target w) trace (.ok (.ok outcome))) :
    Word.low32 ≤ outcome.replicas ∧ outcome.replicas ≤ Word.high32 := by
  unfold restore at h
  cases hmemory : remembered target w with
  | error e =>
    rw [hmemory] at h
    cases (runs_done.1 h).2
  | ok count =>
    obtain ⟨value, -, hread⟩ := Interleaving.eq_ok_of_remembered hmemory
    rw [hmemory] at h
    dsimp only at h
    split at h
    · obtain ⟨-, hr⟩ := runs_done.1 h
      exact (Except.ok.inj (Except.ok.inj hr)) ▸ fits_of_readMemory hread
    · obtain ⟨answer, rest, -, hrest⟩ := runs_call.1 h
      cases answer with
      | error e => cases (runs_done.1 hrest).2
      | ok w =>
        obtain ⟨-, hr⟩ := runs_done.1 hrest
        exact (Except.ok.inj (Except.ok.inj hr)) ▸ fits_of_readMemory hread

/-- A scaling that succeeds tells a count of 32 bits. -/
theorem fits_of_scale (h : Runs (direction.scale target).run trace (.ok (.ok outcome))) :
    Word.low32 ≤ outcome.replicas ∧ outcome.replicas ≤ Word.high32 := by
  rw [scale_run] at h
  obtain ⟨answer, rest, rfl, hrest⟩ := runs_call.1 h
  cases answer with
  | error e => cases (runs_done.1 hrest).2
  | ok found =>
    cases direction with
    | up => exact fits_of_restore hrest
    | down =>
      have hzero : outcome.replicas = 0 := by
        change Runs (record target found) rest _ at hrest
        unfold record at hrest
        split at hrest
        · exact replicas_of_zero hrest
        · obtain ⟨answer, later, rfl, hlater⟩ := runs_call.1 hrest
          cases answer with
          | error e => cases (runs_done.1 hlater).2
          | ok w => exact replicas_of_zero hlater
      rw [hzero]
      decide

end Scaling

namespace Pass
variable {zones : Zone.Lookup} {registry : Registry} {settings : Settings} {s : Schedule}
  {ns name : String} {z : Zone} {before : ScheduleStatus} {now : Instant}
  {trace first middle : List Exchange}
  {scaled : Option Scaled} {notes : List String} {cleanup : Option (Except Failure CleanupReport)}

/-- The replicas that are seen after a scaling fit if those that are fetched do. -/
theorem ScalingEnds.fits (h : ScalingEnds s.spec z before now first scaled notes)
    (hwords : ∀ target w, ⟨.fetch target, .ok w⟩ ∈ first →
      Word.low32 ≤ w.replicas ∧ w.replicas ≤ Word.high32) :
    ∀ n ∈ scaled.map Scaled.replicas, Word.low32 ≤ n ∧ n ≤ Word.high32 := by
  intro n hn
  cases h with
  | idle | failed => cases hn
  | scaled hplans hrun hobserved =>
    obtain rfl := Option.some.inj hn
    obtain ⟨answer, rest, rfl, hrest⟩ := runs_call.1 hobserved
    cases answer with
    | error e =>
      obtain ⟨-, hr⟩ := runs_done.1 hrest
      exact (Except.ok.inj hr) ▸ Scaling.fits_of_scale hrun
    | ok w =>
      obtain ⟨-, hr⟩ := runs_done.1 hrest
      exact (Except.ok.inj hr) ▸ hwords _ w (List.mem_append_right _ List.mem_cons_self)

/-- The count of a cleanup fits if the resources that are listed do. -/
theorem fits_of_cleanupResult
    (h : Runs (cleanupResult registry s.spec z ns before now) middle (.ok cleanup))
    (hwords : ((middle.flatMap Exchange.found).length : Int) ≤ Word.high32) :
    ∀ n ∈ PassResult.cleanedUp ⟨scaled, cleanup, notes⟩, Word.low32 ≤ n ∧ n ≤ Word.high32 := by
  intro n hn
  obtain ⟨result, rfl, hresult⟩ := Option.bind_eq_some_iff.1 hn
  cases result with
  | error e => cases hresult
  | ok report =>
    obtain rfl := Option.some.inj hresult
    rcases runs_cleanupResult h with ⟨x, -, -, hx⟩ | ⟨_, -, -, -, hr⟩ | ⟨config, r', -, -, hrun, hr⟩
    · cases hx
    · cases hr
    · cases r' with
      | error x => cases hr
      | ok result =>
        cases hr
        have hcount := Cleanup.count_le_found hrun
        have hlow : Word.low32 ≤ 0 := by decide
        change Word.low32 ≤ (report.count : Int) ∧ (report.count : Int) ≤ Word.high32
        omega

/-- A pass that writes its status has made the calls of its scaling, those of its cleanup, and this one
last. -/
theorem exists_steps_of_patch {patch : Json} {answer : Except Failure Unit}
    {r : Except Overflow (Except Failure Action)}
    (h : Runs (reconcile registry settings s now zones).run trace r)
    (hx : ⟨.patchStatus ns name patch, answer⟩ ∈ trace) :
    s.metadata.ns = some ns ∧ name = s.name ∧ ∃ z first middle progress cleanup,
      Zone.parse s.spec.timeZone zones = .ok z ∧
      trace = first ++ (middle ++ [⟨.patchStatus ns name patch, answer⟩]) ∧
      Runs (runScaling s.spec z s.recorded now .start) first (.ok progress) ∧
      Runs (cleanupResult registry s.spec z ns s.recorded now) middle (.ok cleanup) ∧
      patch = (finalPatch s (noted s.recorded now progress cleanup)).toJson := by
  obtain ⟨ns', z, hns, -, hz, h⟩ := steps_of_mem h hx
  rcases runs_runSteps h with ⟨e, -, he⟩ | ⟨scaled, first, rest, rfl, hscaled, hrest⟩
  · exact absurd hx (not_patch_of_scaling he)
  rcases hrest with ⟨e, -, he⟩ | ⟨progress, middle, last, written, rfl, hprogress, hwritten, -⟩
  · rw [← List.append_nil rest] at hx
    exact absurd (patch_mem_last hscaled he hx) List.not_mem_nil
  have hlast := patch_mem_last hscaled hprogress hx
  rcases runs_writeStatus.1 hwritten with ⟨-, rfl, -⟩ | ⟨-, answer', rfl, -⟩
  · cases hlast
  · cases List.mem_singleton.1 hlast
    obtain ⟨result, hresult, hnoted⟩ := runs_runCleanup.1 hprogress
    cases result with
    | error x => cases hnoted
    | ok cleanup =>
      cases hnoted
      exact ⟨hns, rfl, z, first, middle, scaled, cleanup, hz, rfl, hscaled, hresult, rfl⟩

theorem fitsWords_finalPatch {progress : Progress}
    (hpatch : progress.patch = scaledPatch before now scaled)
    (hends : ScalingEnds s.spec z before now first scaled notes)
    (hcleanup : Runs (cleanupResult registry s.spec z ns before now) middle (.ok cleanup))
    (hwords : MeetsWords s (first ++ middle)) :
    ScheduleStatus.FitsWords (finalPatch s (noted before now progress cleanup)) := by
  have hreplicas : (finalPatch s (noted before now progress cleanup)).replicas =
      scaled.map Scaled.replicas := by
    have hsame : (noted before now progress cleanup).patch.replicas = progress.patch.replicas := by
      rcases cleanup with - | ⟨e | report⟩ <;> rfl
    refine hsame.trans ?_
    rw [hpatch]
    rcases scaled with - | ⟨direction, supersedes, replicas⟩
    · rfl
    · cases direction <;> rfl
  have hcleanedUp : (finalPatch s (noted before now progress cleanup)).cleanedUp =
      PassResult.cleanedUp ⟨scaled, cleanup, notes⟩ := by
    have hnone : progress.patch.cleanedUp = none := by
      rw [hpatch]
      rcases scaled with - | ⟨direction, supersedes, replicas⟩
      · rfl
      · cases direction <;> rfl
    rcases cleanup with - | ⟨e | report⟩
    · exact hnone
    · exact hnone
    · rfl
  have hfound := hwords.found
  rw [List.flatMap_append, List.length_append] at hfound
  constructor
  · rw [hreplicas]
    exact hends.fits fun target w hw => hwords.replicas target w (List.mem_append_left _ hw)
  · rw [hcleanedUp]
    exact fits_of_cleanupResult hcleanup (by omega)
  · exact hwords.generation

/-- The steps of a pass with the calls of its scaling and those of its cleanup, and what they have come
to. -/
structure StepsEnd (registry : Registry) (spec : ScheduleSpec) (z : Zone) (ns : String)
    (before : ScheduleStatus) (now : Instant) (first middle : List Exchange)
    (result : PassResult) : Prop where
  cleanup : Runs (cleanupResult registry spec z ns before now) middle (.ok result.cleanup)
  scaling : ∃ notes, ScalingEnds spec z before now first result.scaled notes ∧
    result.notes = notes ++ cleanupNotes result.cleanup

/-- The status after a patch. The pass has read its status from a document, or found none, and writes
what its scaling and its cleanup have come to. Merged into the document, the patch makes one that can be
read, and what is read is the status of before with the fields that the pass has set. No member of the
patch is null, and each is a member of the encoding of the new status. -/
theorem status_after_patch {doc patch : Json} {read? : Option ScheduleStatus}
    {answer : Except Failure Unit} {r : Except Overflow (Except Failure Action)}
    (hdoc : IsDocument doc) (hread : readStatus doc = .ok read?) (hnow : now.IsNamed)
    (h : Runs (reconcile registry settings { s with status := read? } now zones).run trace r)
    (hx : ⟨.patchStatus ns name patch, answer⟩ ∈ trace) (hwords : MeetsWords s trace) :
    ∃ z first middle result after, Zone.parse s.spec.timeZone zones = .ok z ∧
      trace = first ++ (middle ++ [⟨.patchStatus ns name patch, answer⟩]) ∧
      StepsEnd registry s.spec z ns (read?.getD .empty) now first middle result ∧
      readStatus (doc.merge patch) = .ok (some after) ∧
      after = result.status (read?.getD .empty) now s.metadata.generation ∧
      ∀ key v, (key, v) ∈ patch.members →
        v ≠ .null ∧ (Codec.toJson after).get? key = some v := by
  obtain ⟨-, -, z, first, middle, progress, cleanup, hz, rfl, hscaled, hcleanup, rfl⟩ :=
    exists_steps_of_patch h hx
  change Runs (runScaling s.spec z (read?.getD .empty) now .start) first (.ok progress) at hscaled
  change Runs (cleanupResult registry s.spec z ns (read?.getD .empty) now) middle (.ok cleanup)
    at hcleanup
  obtain ⟨hreadable, hrecorded⟩ := eq_of_readStatus hdoc hread
  obtain ⟨scaled, hends, hpatch⟩ := scalingEnds_of_runs hscaled
  have hbefore : (read?.getD .empty).HasNamedTimes :=
    hrecorded ▸ ScheduleStatus.hasNamedTimes_ofNormal doc
  have hadvances := advances_of_steps (s := { s with status := read? }) hscaled
    (runs_runCleanup.2 ⟨.ok cleanup, hcleanup, rfl⟩)
  have hsteps : MeetsWords s (first ++ middle) := by
    refine ⟨hwords.generation, fun target w hw => hwords.replicas target w ?_, ?_⟩
    · rw [← List.append_assoc]
      exact List.mem_append_left _ hw
    · have hfound := hwords.found
      rw [← List.append_assoc, List.flatMap_append, List.length_append] at hfound
      omega
  have hfits := fitsWords_finalPatch (s := { s with status := read? }) hpatch hends hcleanup
    ⟨hsteps.generation, hsteps.replicas, hsteps.found⟩
  have happly := apply_finalPatch (s := { s with status := read? }) cleanup hpatch
  refine ⟨z, first, middle, ⟨scaled, cleanup, progress.notes ++ cleanupNotes cleanup⟩, _, hz, rfl,
    ⟨hcleanup, progress.notes, hends, rfl⟩, ?_, happly, fun key v hv => StatusPatch.get?_apply _ hv⟩
  rw [StatusPatch.readStatus_merge hdoc hreadable (hadvances.hasNamedTimes hbefore hnow) hfits,
    ← hrecorded]
  rfl

/-- A document with a time of scaling up, and with a member that is no part of a status. -/
def upDocument : Json :=
  .object [("lastScaleUpTime", .string "2025-03-10T07:00:00.25+01:00"), ("currentReplicas", .int 3),
    ("phase", .string "ready")]

/-- The status in that document. -/
def upStatus : ScheduleStatus :=
  { ScheduleStatus.empty with lastScaleUp := some ⟨1741586400, 250000000⟩, replicas := 3 }

/-- The calls of the pass in the evening, which scales down. -/
def downTrace : List Exchange :=
  (reconcile [] .default { nightly with status := some upStatus } evening).run.trace
    MemoryStore.handler nightlyStore

/-- A call with numbers of the machine's words, if it is a fetch. -/
def fetchFits : Exchange → Bool
  | ⟨.fetch _, .ok w⟩ => decide (Word.low32 ≤ w.replicas ∧ w.replicas ≤ Word.high32)
  | _ => true

theorem calls_down : (downTrace.all fetchFits && (downTrace.flatMap Exchange.found).isEmpty &&
    downTrace.any fun x => (match x with
      | ⟨.patchStatus "shop" "nightly" _, _⟩ => true
      | _ => false)) = true := by decide +kernel

theorem meetsWords_down : MeetsWords nightly downTrace := by
  obtain ⟨⟨hfetched, hfound⟩, -⟩ := by simpa only [Bool.and_eq_true] using calls_down
  refine ⟨nofun, fun target w hw => of_decide_eq_true (List.all_eq_true.1 hfetched _ hw), ?_⟩
  rw [List.isEmpty_iff.1 hfound]
  decide

theorem status_after_patch_nightly :
    ∃ patch answer z first middle result after,
      downTrace = first ++ (middle ++ [⟨.patchStatus "shop" "nightly" patch, answer⟩]) ∧
      StepsEnd [] nightly.spec z "shop" upStatus evening first middle result ∧
      readStatus (upDocument.merge patch) = .ok (some after) ∧
      after = result.status upStatus evening none := by
  have hread : readStatus upDocument = .ok (some upStatus) := by
    have hoption : (readStatus upDocument).toOption = some (some upStatus) := by decide +kernel
    cases h : readStatus upDocument with
    | error e => simp [h, Except.toOption] at hoption
    | ok read? => simpa [h, Except.toOption] using hoption
  obtain ⟨-, hwrites⟩ := by simpa only [Bool.and_eq_true] using calls_down
  obtain ⟨⟨c, answer⟩, hx, hc⟩ := List.any_eq_true.1 hwrites
  split at hc
  · rename_i patch written heq
    obtain ⟨z, first, middle, result, after, -, htrace, hends, hmerged, hafter, -⟩ :=
      status_after_patch (s := nightly) (.inr ⟨_, rfl, by decide⟩) hread isOrdinary_evening.isNamed
        (runs_trace MemoryStore.handler _ nightlyStore) (heq ▸ hx) meetsWords_down
    exact ⟨patch, written, z, first, middle, result, after, htrace, hends, hmerged, hafter⟩
  · cases hc

end Pass

end ScheduledScaling
