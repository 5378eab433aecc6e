import ScheduledScaling.Proofs.Decoding
import ScheduledScaling.Proofs.Series
/-!
# Times that never move back

The status of a schedule is a document, which each pass reads, and into which its patch is merged.
A pass writes a time only as the later one of its own instant and of the time that it has read
(`advances_of_reconcile`). So over any passes, in any order of their instants, a time that is recorded
stays, never moves back, and is the first one or the instant of a pass: `times_never_move_back`.
-/
namespace ScheduledScaling

open Pass Program

/-! ## What one pass writes -/

/-- A time that is written, if one is, is the later one of the recorded time and the instant. -/
def Moves (previous : Option Instant) (now : Instant) (written : Option Instant) : Prop :=
  written = none ∨ written = some (advance previous now)

/-- The times in a patch are moved on from those of the status that the pass has read. -/
structure Advances (status : ScheduleStatus) (now : Instant) (patch : StatusPatch) : Prop where
  scaleDown : Moves status.lastScaleDown now patch.lastScaleDown
  scaleUp : Moves status.lastScaleUp now patch.lastScaleUp
  cleanup : Moves status.lastCleanup now patch.lastCleanup

section
variable {zones : Zone.Lookup} {registry : Registry} {settings : Settings} {s : Schedule}
  {z : Zone} {now : Instant} {trace : List Exchange} {ns : String}

theorem advances_scaleTimes (direction : Direction) (supersedes : Bool) (status : ScheduleStatus)
    (now : Instant) : Advances status now (scaleTimes direction supersedes status now .empty) := by
  cases direction <;> cases supersedes
  · exact ⟨.inr rfl, .inl rfl, .inl rfl⟩
  · exact ⟨.inr rfl, .inr rfl, .inl rfl⟩
  · exact ⟨.inl rfl, .inr rfl, .inl rfl⟩
  · exact ⟨.inr rfl, .inr rfl, .inl rfl⟩

theorem advances_of_steps {scaled progress : Progress} {first middle : List Exchange}
    (hscaled : Runs (runScaling s.spec z s.recorded now .start) first (.ok scaled))
    (hprogress : Runs (runCleanup registry s.spec z ns s.recorded now scaled) middle
      (.ok progress)) : Advances s.recorded now (finalPatch s progress) := by
  have hstart : Advances s.recorded now scaled.patch := by
    rcases patch_of_runScaling hscaled with h | ⟨direction, supersedes, replicas, -, h⟩
    · rw [h]
      exact ⟨.inl rfl, .inl rfl, .inl rfl⟩
    · obtain ⟨hdown, hup, hcleanup⟩ :=
        advances_scaleTimes direction supersedes s.recorded now
      rw [h]
      exact ⟨hdown, hup, hcleanup⟩
  obtain ⟨hdown, hup, hcleanup⟩ := hstart
  unfold finalPatch
  rcases (progress_of_runCleanup hprogress).2 with h | ⟨count, h⟩
  · rw [h]
    exact ⟨hdown, hup, hcleanup⟩
  · rw [h]
    exact ⟨hdown, hup, .inr rfl⟩

/-- Whatever a pass writes moves the recorded times on. -/
theorem advances_of_reconcile {r : Except Overflow (Except Failure Action)} {name : String}
    {patch : Json} {answer : Except Failure Unit}
    (h : Runs (reconcile registry settings s now zones).run trace r)
    (hx : ⟨.patchStatus ns name patch, answer⟩ ∈ trace) :
    ∃ p : StatusPatch, patch = p.toJson ∧ Advances s.recorded now p := by
  obtain ⟨ns', z, -, -, -, h⟩ := steps_of_mem h hx
  rcases runs_runSteps h with ⟨e, -, he⟩ | ⟨scaled, first, rest, rfl, hscaled, hrest⟩
  · exact absurd hx (not_patch_of_scaling he)
  rcases hrest with ⟨e, -, he⟩ | ⟨progress, middle, last, written, rfl, hprogress, hwritten, -⟩
  · rw [← List.append_nil rest] at hx
    exact absurd (patch_mem_last hscaled he hx) List.not_mem_nil
  have hlast := patch_mem_last hscaled hprogress hx
  rcases runs_writeStatus.1 hwritten with ⟨-, rfl, -⟩ | ⟨-, answer', rfl, -⟩
  · cases hlast
  · cases List.mem_singleton.1 hlast
    exact ⟨_, rfl, advances_of_steps hscaled hprogress⟩

end

/-! ## Documents -/

/-- The document of a status: none before the first write, then an object. -/
def IsDocument (doc : Json) : Prop := doc = .null ∨ ∃ members, doc = .object members ∧
  (Keyed.keys members).Nodup

/-- The status in a document, as a schedule has it: a null stands for none. -/
def readStatus : Json → Except DecodeError (Option ScheduleStatus)
  | .null => .ok none
  | doc => some <$> Codec.ofJson doc

section
variable {doc : Json} {status : Option ScheduleStatus}

theorem IsDocument.nodup (h : IsDocument doc) : (Keyed.keys doc.members).Nodup := by
  rcases h with rfl | ⟨members, rfl, hmembers⟩
  · exact .nil
  · exact hmembers

theorem isDocument_merge (doc patch : Json) : IsDocument (doc.merge patch) :=
  .inr ⟨_, rfl, (Keyed.isSorted_ofList _).nodup⟩

/-- What is read is what stands in the document. -/
theorem eq_of_readStatus (hdoc : IsDocument doc) (h : readStatus doc = .ok status) :
    ScheduleStatus.IsReadable doc ∧ status.getD .empty = Codec.ofNormal doc := by
  rcases hdoc with rfl | ⟨members, rfl, hmembers⟩
  · cases h
    refine ⟨?_, rfl⟩
    simp [ScheduleStatus.IsReadable, ScheduleStatus.shape, Shape.entries, Json.get?, Shape.memberOf,
      Shape.normalOf, Shape.absent]
  · change some <$> Codec.ofJson (.object members) = _ at h
    cases hread : (Codec.ofJson (.object members) : Except DecodeError ScheduleStatus) with
    | error e =>
      rw [hread] at h
      cases h
    | ok found =>
      rw [hread] at h
      cases h
      exact ScheduleStatus.eq_of_ofJson hmembers hread

theorem exists_readStatus (hdoc : IsDocument doc) (h : ScheduleStatus.IsReadable doc) :
    ∃ status, readStatus doc = .ok status := by
  rcases hdoc with rfl | ⟨members, rfl, hmembers⟩
  · exact ⟨none, rfl⟩
  · obtain ⟨status, hstatus⟩ := ScheduleStatus.exists_ofJson hmembers h
    refine ⟨some status, ?_⟩
    change some <$> Codec.ofJson (.object members) = _
    rw [hstatus]
    rfl

end

/-- What calls make of a document: the patches are merged into it in turn. One that is answered with
an error may have been merged all the same. -/
inductive Stores : Json → List Exchange → Json → Prop
  | nil {doc} : Stores doc [] doc
  | merged {doc doc' ns name patch answer rest} : Stores (doc.merge patch) rest doc' →
    Stores doc (⟨.patchStatus ns name patch, answer⟩ :: rest) doc'
  | lost {doc doc' ns name patch e rest} : Stores doc rest doc' →
    Stores doc (⟨.patchStatus ns name patch, .error e⟩ :: rest) doc'
  | other {doc doc' x rest} : (∀ ns name patch, x.call ≠ .patchStatus ns name patch) →
    Stores doc rest doc' → Stores doc (x :: rest) doc'

/-- What patches keep, stored ones keep. -/
theorem Stores.keeps {P : Json → Prop} {doc doc' : Json} {trace : List Exchange}
    (h : Stores doc trace doc') (hdoc : P doc)
    (hpatch : ∀ ns name patch answer, ⟨.patchStatus ns name patch, answer⟩ ∈ trace →
      ∀ doc, P doc → P (doc.merge patch)) : P doc' := by
  induction h with
  | nil => exact hdoc
  | merged _ ih =>
    exact ih (hpatch _ _ _ _ List.mem_cons_self _ hdoc) fun ns name patch answer hx =>
      hpatch ns name patch answer (List.mem_cons_of_mem _ hx)
  | lost _ ih =>
    exact ih hdoc fun ns name patch answer hx =>
      hpatch ns name patch answer (List.mem_cons_of_mem _ hx)
  | other _ _ ih =>
    exact ih hdoc fun ns name patch answer hx =>
      hpatch ns name patch answer (List.mem_cons_of_mem _ hx)

/-! ## One pass over a document -/

/-- A recorded time goes on over passes at some instants: it stays and does not move back, and what
is recorded afterwards is what was before or one of the instants. -/
def GoesOn (nows : List Instant) (before after : Option Instant) : Prop :=
  (∀ t ∈ before, ∃ t' ∈ after, t ≤ t') ∧ ∀ t' ∈ after, t' ∈ before ∨ t' ∈ nows

/-- The times of a status go on. -/
structure TimesGoOn (nows : List Instant) (before after : ScheduleStatus) : Prop where
  scaleDown : GoesOn nows before.lastScaleDown after.lastScaleDown
  scaleUp : GoesOn nows before.lastScaleUp after.lastScaleUp
  cleanup : GoesOn nows before.lastCleanup after.lastCleanup

section
variable {nows later : List Instant} {before middle after : Option Instant} {now : Instant}

theorem GoesOn.refl (nows : List Instant) (t : Option Instant) : GoesOn nows t t :=
  ⟨fun t ht => ⟨t, ht, Instant.le_refl t⟩, fun _ ht => .inl ht⟩

theorem GoesOn.trans (h : GoesOn nows before middle) (h' : GoesOn later middle after) :
    GoesOn (nows ++ later) before after := by
  refine ⟨fun t ht => ?_, fun t ht => ?_⟩
  · obtain ⟨t₁, ht₁, hle₁⟩ := h.1 t ht
    obtain ⟨t₂, ht₂, hle₂⟩ := h'.1 t₁ ht₁
    exact ⟨t₂, ht₂, Instant.le_trans hle₁ hle₂⟩
  · rcases h'.2 t ht with ht | ht
    · rcases h.2 t ht with ht | ht
      · exact .inl ht
      · exact .inr (List.mem_append_left _ ht)
    · exact .inr (List.mem_append_right _ ht)

theorem goesOn_advance (previous : Option Instant) (now : Instant) :
    GoesOn [now] previous (some (advance previous now)) := by
  cases previous with
  | none => exact ⟨fun t ht => (nomatch ht), fun t ht => .inr (List.mem_singleton.2 (Option.some.inj ht).symm)⟩
  | some t =>
    refine ⟨fun t' ht' => ⟨_, rfl, ?_⟩, fun t' ht' => ?_⟩
    · obtain rfl := Option.some.inj ht'
      exact Instant.le_latest_left t now
    · obtain rfl := Option.some.inj ht'
      change t.latest now ∈ some t ∨ t.latest now ∈ [now]
      unfold Instant.latest
      split
      · exact .inr List.mem_cons_self
      · exact .inl rfl

theorem Moves.goesOn {previous recorded written : Option Instant} (h : Moves previous now written)
    (hrecorded : GoesOn [now] previous recorded) : GoesOn [now] previous (written.or recorded) := by
  rcases h with rfl | rfl
  · exact hrecorded
  · exact goesOn_advance previous now

theorem Moves.isNamed {previous written : Option Instant} (h : Moves previous now written)
    (hprevious : ∀ t ∈ previous, t.IsNamed) (hnow : now.IsNamed) : ∀ t ∈ written, t.IsNamed := by
  intro t ht
  rcases h with rfl | rfl
  · cases ht
  · obtain rfl := Option.some.inj ht
    exact isNamed_advance hprevious hnow

end

section
variable {doc doc' : Json} {status : ScheduleStatus} {patch : StatusPatch} {now : Instant}

theorem Advances.hasNamedTimes (h : Advances status now patch) (hs : status.HasNamedTimes)
    (hnow : now.IsNamed) : patch.HasNamedTimes :=
  ⟨h.scaleDown.isNamed hs.scaleDown hnow, h.scaleUp.isNamed hs.scaleUp hnow,
    h.cleanup.isNamed hs.cleanup hnow⟩

theorem nodup_members_toJson (patch : StatusPatch) : (Keyed.keys patch.toJson.members).Nodup :=
  (Keyed.isSorted_ofList _).nodup

/-- A patch that moves the times of a status on lets them go on in a document. -/
theorem timesGoOn_merge (hdoc : IsDocument doc) (hs : status.HasNamedTimes) (hnow : now.IsNamed)
    (hpatch : Advances status now patch) (h : TimesGoOn [now] status (Codec.ofNormal doc)) :
    TimesGoOn [now] status (Codec.ofNormal (doc.merge patch.toJson)) := by
  have hnamed := hpatch.hasNamedTimes hs hnow
  have hget (key : String) : patch.toJson.get? key = (patch.members.get? key).join :=
    Json.get?_record (nodup_statusMembers ..)
  have hmerge {key : String} {written : Option Instant} (hwritten : ∀ t ∈ written, t.IsNamed)
      (hkey : patch.toJson.get? key = written.map .time) :
      (doc.merge patch.toJson).time? key = written.or (doc.time? key) :=
    Json.time?_merge hdoc.nodup (nodup_members_toJson patch) hwritten hkey
  constructor
  · change GoesOn [now] _ ((doc.merge patch.toJson).time? "lastScaleDownTime")
    rw [hmerge hnamed.scaleDown (hget _)]
    exact hpatch.scaleDown.goesOn h.scaleDown
  · change GoesOn [now] _ ((doc.merge patch.toJson).time? "lastScaleUpTime")
    rw [hmerge hnamed.scaleUp (hget _)]
    exact hpatch.scaleUp.goesOn h.scaleUp
  · change GoesOn [now] _ ((doc.merge patch.toJson).time? "lastCleanupTime")
    rw [hmerge hnamed.cleanup (hget _)]
    exact hpatch.cleanup.goesOn h.cleanup

/-- The numbers of the patches that calls write fit their words. -/
def PatchesFit (trace : List Exchange) : Prop :=
  ∀ ns name (patch : StatusPatch) (answer : Except Failure Unit),
    ⟨.patchStatus ns name patch.toJson, answer⟩ ∈ trace → ScheduleStatus.FitsWords patch

/-- One pass lets the times of a document go on, and the document can still be read after it. -/
theorem timesGoOn_of_pass {zones : Zone.Lookup} {registry : Registry} {settings : Settings}
    {s : Schedule} {trace : List Exchange} {r : Except Overflow (Except Failure Action)}
    {read? : Option ScheduleStatus} (hdoc : IsDocument doc) (hread : readStatus doc = .ok read?)
    (hnow : now.IsNamed)
    (h : Runs (reconcile registry settings { s with status := read? } now zones).run trace r)
    (hstores : Stores doc trace doc') :
    IsDocument doc' ∧ TimesGoOn [now] (Codec.ofNormal doc) (Codec.ofNormal doc') ∧
      (PatchesFit trace → ScheduleStatus.IsReadable doc') := by
  obtain ⟨hreadable, hrecorded⟩ := eq_of_readStatus hdoc hread
  have hs := ScheduleStatus.hasNamedTimes_ofNormal doc
  have hpatches : ∀ ns name patch answer, ⟨.patchStatus ns name patch, answer⟩ ∈ trace →
      ∃ p : StatusPatch, patch = p.toJson ∧ Advances (Codec.ofNormal doc) now p := by
    intro ns name patch answer hx
    rw [← hrecorded]
    exact advances_of_reconcile h hx
  have hgoes := hstores.keeps
    (P := fun doc' => IsDocument doc' ∧ TimesGoOn [now] (Codec.ofNormal doc) (Codec.ofNormal doc'))
    ⟨hdoc, .refl _ _, .refl _ _, .refl _ _⟩
    (fun ns name patch answer hx doc' h' => by
      obtain ⟨p, rfl, hp⟩ := hpatches ns name patch answer hx
      exact ⟨isDocument_merge _ _, timesGoOn_merge h'.1 hs hnow hp h'.2⟩)
  refine ⟨hgoes.1, hgoes.2, fun hfit => ?_⟩
  exact (hstores.keeps (P := fun doc' => IsDocument doc' ∧ ScheduleStatus.IsReadable doc')
    ⟨hdoc, hreadable⟩ (fun ns name patch answer hx doc' h' => by
      obtain ⟨p, rfl, hp⟩ := hpatches ns name patch answer hx
      have hp' := ScheduleStatus.isReadable_toJson (hp.hasNamedTimes hs hnow)
        (hfit ns name p answer hx)
      exact ⟨isDocument_merge _ _, ScheduleStatus.isReadable_merge h'.1.nodup
        (nodup_members_toJson p) h'.2 hp'⟩)).2

end

/-! ## Passes in any order -/

/-- One of several passes: its instant and its calls. -/
structure DocumentPass where
  now : Instant
  trace : List Exchange

/-- Passes that turn one document of a status into another. Each reads the document, and what it
writes is merged into it. Each has its own schedule, settings, registry, zones and instant, and ends
in whatever way, since in between all of these may change. -/
inductive Revises : Json → List DocumentPass → Json → Prop
  | nil {doc} : Revises doc [] doc
  | cons {doc middle doc' : Json} {read? zones registry settings} {s : Schedule}
    {now trace r later} :
    readStatus doc = .ok read? → now.IsNamed →
    Runs (reconcile registry settings { s with status := read? } now zones).run trace r →
    Stores doc trace middle → Revises middle later doc' →
    Revises doc (⟨now, trace⟩ :: later) doc'

section
variable {doc middle doc' : Json} {passes first later : List DocumentPass}

/-- The first passes lead to the document that the others find. -/
theorem Revises.split (h : Revises doc (first ++ later) doc') :
    ∃ middle, Revises doc first middle ∧ Revises middle later doc' := by
  induction first generalizing doc with
  | nil => exact ⟨doc, .nil, h⟩
  | cons p first ih =>
    cases h with
    | cons hread hnow hrun hstores hothers =>
      obtain ⟨middle, hfirst, hlater⟩ := ih hothers
      exact ⟨middle, .cons hread hnow hrun hstores hfirst, hlater⟩

/-- What any passes do to a document. -/
theorem timesGoOn_of_revises (h : Revises doc passes doc') (hdoc : IsDocument doc) :
    IsDocument doc' ∧
      TimesGoOn (passes.map DocumentPass.now) (Codec.ofNormal doc) (Codec.ofNormal doc') ∧
      (ScheduleStatus.IsReadable doc → (∀ p ∈ passes, PatchesFit p.trace) →
        ScheduleStatus.IsReadable doc') := by
  induction h with
  | nil => exact ⟨hdoc, ⟨.refl _ _, .refl _ _, .refl _ _⟩, fun h _ => h⟩
  | cons hread hnow hrun hstores _ ih =>
    obtain ⟨hmiddle, hfirst, hreadable⟩ := timesGoOn_of_pass hdoc hread hnow hrun hstores
    obtain ⟨hdoc', hlater, hreadable'⟩ := ih hmiddle
    refine ⟨hdoc', ⟨hfirst.scaleDown.trans hlater.scaleDown, hfirst.scaleUp.trans hlater.scaleUp,
      hfirst.cleanup.trans hlater.cleanup⟩, fun _ hfit => ?_⟩
    obtain ⟨hpass, hpasses⟩ := List.forall_mem_cons.1 hfit
    exact hreadable' (hreadable hpass) hpasses

/-- Recorded times over any passes, in any order of their instants: between any two points of the
passes each of the three times stays and does not move back, and it is the one from before or the
instant of a pass in between. The document can be read at every point. -/
theorem times_never_move_back (hdoc : IsDocument doc) (h : Revises doc (first ++ later) doc') :
    ∃ middle, Revises doc first middle ∧ Revises middle later doc' ∧
      (∀ start between final, readStatus doc = .ok start → readStatus middle = .ok between →
        readStatus doc' = .ok final →
        TimesGoOn (first.map DocumentPass.now) (start.getD .empty) (between.getD .empty) ∧
        TimesGoOn (later.map DocumentPass.now) (between.getD .empty) (final.getD .empty)) ∧
      ((∃ start, readStatus doc = .ok start) → (∀ p ∈ first ++ later, PatchesFit p.trace) →
        ∃ between final, readStatus middle = .ok between ∧ readStatus doc' = .ok final) := by
  obtain ⟨middle, hfirst, hlater⟩ := h.split
  obtain ⟨hmiddle, hgoes, hreadable⟩ := timesGoOn_of_revises hfirst hdoc
  obtain ⟨hdoc', hgoes', hreadable'⟩ := timesGoOn_of_revises hlater hmiddle
  refine ⟨middle, hfirst, hlater, fun start between final hstart hbetween hfinal => ?_, ?_⟩
  · rw [(eq_of_readStatus hdoc hstart).2, (eq_of_readStatus hmiddle hbetween).2,
      (eq_of_readStatus hdoc' hfinal).2]
    exact ⟨hgoes, hgoes'⟩
  · rintro ⟨start, hstart⟩ hfit
    have hbetween := hreadable (eq_of_readStatus hdoc hstart).1 fun p hp =>
      hfit p (List.mem_append_left _ hp)
    have hfinal := hreadable' hbetween fun p hp => hfit p (List.mem_append_right _ hp)
    obtain ⟨between, hbetween⟩ := exists_readStatus hmiddle hbetween
    obtain ⟨final, hfinal⟩ := exists_readStatus hdoc' hfinal
    exact ⟨between, final, hbetween, hfinal⟩

end

/-! ## A clock that is set back -/

/-- All patches that were answered may be merged, and no others. -/
theorem stores_written (doc : Json) (trace : List Exchange) :
    Stores doc trace ((trace.filterMap Exchange.patch?).foldl Json.merge doc) := by
  induction trace generalizing doc with
  | nil => exact .nil
  | cons x rest ih =>
    obtain ⟨call, answer⟩ := x
    cases call with
    | patchStatus ns name patch =>
      cases answer with
      | error e => exact .lost (ih doc)
      | ok u => exact .merged (ih (doc.merge patch))
    | _ => exact .other (fun _ _ _ => StoreCall.noConfusion) (ih doc)

/-- A pass over the nightly schedule whose status is in a document, with the target scaled down. -/
def nightlyPass (doc : Json) (now : Instant) : DocumentPass where
  now := now
  trace :=
    (reconcile [] .default { nightly with status := (readStatus doc).toOption.join } now).run.trace
      MemoryStore.handler morningStore

/-- The document after a pass that keeps its patches. -/
def written (doc : Json) (p : DocumentPass) : Json :=
  (p.trace.filterMap Exchange.patch?).foldl Json.merge doc

theorem revises_nightly {doc doc' : Json} {now : Instant} {later : List DocumentPass}
    (hread : (readStatus doc).toOption.isSome) (hnow : now.IsNamed)
    (h : Revises (written doc (nightlyPass doc now)) later doc') :
    Revises doc (nightlyPass doc now :: later) doc' := by
  have hstatus : readStatus doc = .ok (readStatus doc).toOption.join := by
    cases hstatus : readStatus doc with
    | error e =>
      rw [hstatus] at hread
      cases hread
    | ok read? => rfl
  exact .cons hstatus hnow (runs_trace MemoryStore.handler _ morningStore)
    (stores_written doc (nightlyPass doc now).trace) h

/-- A status with a time of scaling down that lies ahead. -/
def aheadDocument : Json := .object [("lastScaleDownTime", .string "2025-03-12T00:00:00Z")]

/-- The document after the pass in the morning, which scales up. -/
def morningDocument : Json := written aheadDocument (nightlyPass aheadDocument morning)

/-- The document after the clock was set back to the evening before. -/
def eveningDocument : Json := written morningDocument (nightlyPass morningDocument evening)

example : (eveningDocument.time? "lastScaleDownTime", eveningDocument.time? "lastScaleUpTime") =
    (some ⟨1741737600, 0⟩, some morning) := by decide +kernel

/-- A scaling in the morning and a pass in the evening before, with a time that lies ahead. -/
theorem times_never_move_back_nightly :
    ∃ middle, Revises aheadDocument [nightlyPass aheadDocument morning] middle ∧
      Revises middle [nightlyPass morningDocument evening] eveningDocument ∧
      (∀ start between final, readStatus aheadDocument = .ok start →
        readStatus middle = .ok between → readStatus eveningDocument = .ok final →
        TimesGoOn [morning] (start.getD .empty) (between.getD .empty) ∧
        TimesGoOn [evening] (between.getD .empty) (final.getD .empty)) ∧
      ((∃ start, readStatus aheadDocument = .ok start) →
        (∀ p ∈ [nightlyPass aheadDocument morning, nightlyPass morningDocument evening],
          PatchesFit p.trace) →
        ∃ between final, readStatus middle = .ok between ∧
          readStatus eveningDocument = .ok final) := by
  have hrun : Revises aheadDocument
      ([nightlyPass aheadDocument morning] ++ [nightlyPass morningDocument evening]) eveningDocument :=
    revises_nightly (by decide +kernel) isOrdinary_morning.isNamed
      (revises_nightly (by decide +kernel) isOrdinary_evening.isNamed .nil)
  exact times_never_move_back (.inr ⟨_, rfl, by decide⟩) hrun

end ScheduledScaling
