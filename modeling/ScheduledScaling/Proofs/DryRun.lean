import Mathlib.Algebra.Group.Action.Defs
import Mathlib.Algebra.Order.BigOperators.Group.Finset
import ScheduledScaling.Proofs.Ledger
/-!
# Dry runs and live runs

A dry run only lists (`onlyCalls_dryRun`), and leaves every resource where it is
(`unasked_of_onlyCalls`). It ends as the live run over the same store does, with the same failures;
but it counts a resource each time that its place is listed, and the live run removes it once.
-/
namespace ScheduledScaling

open Program MemoryStore Cleanup

/-! ## A dry run only lists -/

/-- A call that lists resources. -/
def StoreCall.IsListing : StoreCall → Prop
  | list _ _ _ => True
  | _ => False

/-- A call that deletes a resource. -/
def StoreCall.IsDeletion : StoreCall → Prop
  | delete _ _ => True
  | _ => False

instance : DecidablePred StoreCall.IsListing
  | .list _ _ _ => .isTrue trivial
  | .fetch _ | .replace _ _ | .listSchedules | .getSchedule _ _ | .patchStatus _ _ _ | .delete _ _ =>
    .isFalse id

theorem StoreCall.IsListing.isResourceCall {c : StoreCall} (h : c.IsListing) : c.IsResourceCall := by
  cases c <;> trivial

theorem StoreCall.IsListing.not_deletion {c : StoreCall} (h : c.IsListing) : ¬ c.IsDeletion := by
  cases c <;> first | exact id | exact h.elim

theorem StoreCall.IsDeletion.isResourceCall {c : StoreCall} (h : c.IsDeletion) :
    c.IsResourceCall := by
  cases c <;> trivial

/-- A program that only lists, and whose report is that of a dry run. -/
def Surveys : Program CleanupReport → Prop
  | .done r => r.dryRun = true
  | .abort _ => True
  | .call c next => c.IsListing ∧ ∀ answer, Surveys (next answer)

theorem Surveys.onlyCalls {p : Program CleanupReport} (h : Surveys p) :
    OnlyCalls StoreCall.IsListing p := by
  induction p with
  | done r => trivial
  | abort e => trivial
  | call c next ih => exact ⟨h.1, fun answer => ih answer (h.2 answer)⟩

theorem Surveys.bind {p : Program CleanupReport} {f : CleanupReport → Program CleanupReport}
    (hp : Surveys p) (hf : ∀ r, r.dryRun = true → Surveys (f r)) : Surveys (p >>= f) := by
  change Surveys (p.bind f)
  induction p with
  | done r => exact hf r hp
  | abort e => trivial
  | call c next ih => exact ⟨hp.1, fun answer => ih answer (hp.2 answer)⟩

namespace Cleanup
variable {kind : String} {policy : CleanupPolicy} {selector : Option String} {now : Instant}
  {r : CleanupReport}

theorem surveys_reapOne (candidate : Candidate) (h : r.dryRun = true) :
    Surveys (reapOne kind policy now candidate r) := by
  unfold reapOne
  cases policy.shouldRemove candidate now with
  | error x => trivial
  | ok due =>
    cases due with
    | false => exact h
    | true =>
      change Surveys (if r.dryRun = true then _ else _)
      rw [if_pos h]
      exact h

theorem surveys_reapAll (candidates : List Candidate) (h : r.dryRun = true) :
    Surveys (reapAll kind policy now candidates r) := by
  induction candidates generalizing r with
  | nil => exact h
  | cons candidate rest ih => exact (surveys_reapOne candidate h).bind fun _ => ih

theorem surveys_reapScope (ns : Option String) (h : r.dryRun = true) :
    Surveys (reapScope kind policy selector now ns r) := by
  refine ⟨trivial, fun answer => ?_⟩
  cases answer with
  | error e => exact h
  | ok candidates => exact surveys_reapAll candidates h

theorem surveys_reapScopes (scopes : List (Option String)) (h : r.dryRun = true) :
    Surveys (reapScopes kind policy selector now scopes r) := by
  induction scopes generalizing r with
  | nil => exact h
  | cons ns rest ih => exact (surveys_reapScope ns h).bind fun _ => ih

theorem surveys_reapKinds {registry : Registry} {namespaces : List String} (kinds : List String)
    (h : r.dryRun = true) : Surveys (reapKinds registry policy selector now namespaces kinds r) := by
  induction kinds generalizing r with
  | nil => exact h
  | cons kind rest ih =>
    unfold reapKinds
    split
    · exact ih h
    · exact (surveys_reapScopes _ h).bind fun _ => ih

/-- What a cleanup does once it knows where to look and what goes. -/
theorem run_eq (registry : Registry) (config : CleanupConfig) {own : String}
    {namespaces : List String} (hnamespaces : namespacesOf config own = .ok namespaces)
    (hpolicy : CleanupPolicy.ofConfig config = .ok policy) :
    (run registry config own now).run =
      reapKinds registry policy (selectorOf config.labelSelector) now namespaces
        config.resourceTypes ⟨0, config.dryRun, []⟩ >>= fun r => pure (.ok r) := by
  unfold run
  rw [hnamespaces, hpolicy]
  rfl

theorem run_of_namespacesOf (registry : Registry) (config : CleanupConfig) {own : String}
    {e : Failure} (h : namespacesOf config own = .error e) :
    (run registry config own now).run = pure (.error e) := by
  unfold run
  rw [h]
  rfl

theorem run_of_ofConfig (registry : Registry) (config : CleanupConfig) {own : String}
    {namespaces : List String} {x : Overflow}
    (hnamespaces : namespacesOf config own = .ok namespaces)
    (hpolicy : CleanupPolicy.ofConfig config = .error x) :
    (run registry config own now).run = .abort x := by
  unfold run
  rw [hnamespaces, hpolicy]
  rfl

/-- A dry run lists resources, and makes no other call, whatever the answers are. -/
theorem onlyCalls_dryRun (registry : Registry) (config : CleanupConfig) (own : String)
    (h : config.dryRun = true) :
    OnlyCalls StoreCall.IsListing (run registry config own now).run := by
  cases hnamespaces : namespacesOf config own with
  | error e =>
    rw [run_of_namespacesOf registry config hnamespaces]
    trivial
  | ok namespaces =>
    cases hpolicy : CleanupPolicy.ofConfig config with
    | error x =>
      rw [run_of_ofConfig registry config hnamespaces hpolicy]
      trivial
    | ok policy =>
      rw [run_eq registry config hnamespaces hpolicy]
      exact onlyCalls_bind (surveys_reapKinds _ h).onlyCalls fun _ => trivial

end Cleanup

/-- A lister as it was before anybody asked it for a list. -/
def MemoryLister.unasked (l : MemoryLister) : MemoryLister := { l with listCalls := [] }

namespace MemoryStore
variable {α σ : Type} {store : MemoryStore}

theorem unasked_askLister {kind : String} {ask : MemoryLister → Except Failure α × MemoryLister}
    (h : ∀ l, (ask l).2.unasked = l.unasked) (listers : List MemoryLister) :
    (askLister kind ask listers).2.map (·.unasked) = listers.map (·.unasked) := by
  induction listers with
  | nil => rfl
  | cons first rest ih =>
    rw [askLister]
    split
    · exact congrArg (· :: _) (h first)
    · exact congrArg (_ :: ·) ih

theorem unasked_handler {c : StoreCall} (h : c.IsListing) :
    (handler c store).2.listers.map (·.unasked) = store.listers.map (·.unasked) := by
  cases c with
  | list kind ns selector =>
    refine unasked_askLister (fun l => ?_) store.listers
    unfold MemoryLister.list
    split <;> rfl
  | _ => exact h.elim

/-- A program that has only listed resources has changed none. -/
theorem unasked_of_trace {p : Program α} {store : MemoryStore}
    (h : ∀ x ∈ p.trace handler store, x.call.IsListing) :
    (p.run handler store).2.listers.map (·.unasked) = store.listers.map (·.unasked) := by
  induction p generalizing store with
  | done a => rfl
  | abort e => rfl
  | call c next ih =>
    obtain ⟨hc, hrest⟩ := List.forall_mem_cons.1 h
    exact (ih _ hrest).trans (unasked_handler hc)

/-- What only lists changes no resource. -/
theorem unasked_of_onlyCalls {p : Program α} (h : OnlyCalls StoreCall.IsListing p) :
    (p.run handler store).2.listers.map (·.unasked) = store.listers.map (·.unasked) :=
  unasked_of_trace ((runs_trace handler p store).call_of_mem h)

end MemoryStore

/-! ## Both runs -/

namespace Cleanup
variable {policy : CleanupPolicy} {now : Instant} {σ : MemoryStore} {places : List Place}

/-- What a cleanup of a store comes to, dry or live, and the store after it. -/
def sweep (dry : Bool) (config : CleanupConfig) (own : String) (now : Instant) (σ : MemoryStore) :
    Except Overflow (Except Failure CleanupReport) × MemoryStore :=
  (run σ.registry { config with dryRun := dry } own now).run.run handler σ

/-- The count of a dry run and that of a live run are the same exactly if nothing is due at the
places that are listed more than once. -/
theorem tally_eq_iff : tally policy now σ true places = tally policy now σ false places ↔
    ∀ p ∈ places, 1 < places.count p → dueAt policy now σ p = 0 := by
  have hle : ∀ p ∈ places.toFinset, dueAt policy now σ p ≤ places.count p * dueAt policy now σ p :=
    fun p hp => Nat.le_mul_of_pos_left _ (List.count_pos_iff.2 (List.mem_toFinset.1 hp))
  have hsum : (places.map (dueAt policy now σ)).sum =
      ∑ p ∈ places.toFinset, places.count p * dueAt policy now σ p := by
    -- the library counts with another equality test
    simp only [← smul_eq_mul]
    convert Finset.sum_list_map_count places (dueAt policy now σ)
  change (places.map (dueAt policy now σ)).sum = ∑ p ∈ places.toFinset, dueAt policy now σ p ↔ _
  rw [hsum, eq_comm, Finset.sum_eq_sum_iff_of_le hle]
  simp only [List.mem_toFinset]
  refine forall₂_congr fun p hp => ?_
  have hpos : 0 < places.count p := List.count_pos_iff.2 hp
  constructor
  · intro heq hmany
    by_contra hdue
    have := Nat.mul_lt_mul_of_pos_right hmany (Nat.pos_of_ne_zero hdue)
    omega
  · intro hdue
    by_cases hmany : 1 < places.count p
    · rw [hdue hmany, Nat.mul_zero]
    · rw [show places.count p = 1 by omega, Nat.one_mul]

theorem kind_of_mem_placesAt {namespaces : List String} {kind : String} {p : Place}
    (h : p ∈ placesAt σ namespaces kind) : p.1 = kind := by
  unfold placesAt at h
  split at h
  · cases h
  · obtain ⟨ns, -, rfl⟩ := List.mem_map.1 h
    rfl

theorem placesAt_nodup {namespaces : List String} (kind : String) (h : namespaces.Nodup) :
    (placesAt σ namespaces kind).Nodup := by
  unfold placesAt
  split
  · exact List.nodup_nil
  · rename_i l _
    refine List.Nodup.map (fun _ _ heq => (Prod.ext_iff.1 heq).2) ?_
    cases l.scope with
    | namespaced => exact h.map (Option.some_injective _)
    | cluster => exact List.nodup_singleton none

theorem placesOf_nodup {namespaces kinds : List String} (hkinds : kinds.Nodup)
    (hnamespaces : namespaces.Nodup) : (placesOf σ namespaces kinds).Nodup := by
  rw [placesOf, List.nodup_flatMap]
  refine ⟨fun kind _ => placesAt_nodup kind hnamespaces, ?_⟩
  refine hkinds.imp fun {kind kind'} hne p hp hp' => hne ?_
  rw [← kind_of_mem_placesAt hp, kind_of_mem_placesAt hp']

theorem namespacesOf_nodup {config : CleanupConfig} {own : String} {namespaces : List String}
    (h : namespacesOf config own = .ok namespaces) (hconfig : config.namespaces.Nodup) :
    namespaces.Nodup := by
  unfold namespacesOf at h
  split at h
  · split at h
    · cases h
    · cases h
      exact List.nodup_singleton own
  · cases h
    exact hconfig.filter _

/-- The report of a dry run over some places beside that of the live run over the same store, which
leaves another store. Of the counts it tells as far as a counter goes. -/
structure Matches (policy : CleanupPolicy) (now : Instant) (σ : MemoryStore) (places : List Place)
    (dry live : CleanupReport) (σ' : MemoryStore) : Prop where
  failures : dry.failures = live.failures
  /-- The dry run counts what is due each time that its place is listed. -/
  counted : dry.Counts (places.map (dueAt policy now σ)).sum
  /-- The live run counts it once. -/
  deleted : live.Counts (∑ p ∈ places.toFinset, dueAt policy now σ p)
  /-- The live run counts what it removes, -/
  removed : size σ'.listers ≤ size σ.listers ∧ live.Counts (size σ.listers - size σ'.listers)
  /-- which is what is due at one of the places. -/
  remaining : ∀ kind l, MemoryStore.lister? kind σ.listers = some l →
    ∃ l', MemoryStore.lister? kind σ'.listers = some l' ∧
      l'.items = l.items.filter fun c => !gone policy now l places kind c
  agree : CounterHolds (places.map (dueAt policy now σ)).sum →
    (dry.count = live.count ↔ ∀ p ∈ places, 1 < places.count p → dueAt policy now σ p = 0)

theorem ledger_start (dry : Bool) : Ledger policy now σ dry [] σ ⟨0, dry, []⟩ where
  mode := rfl
  count := by cases dry <;> rfl
  listers kind l hl := by
    refine ⟨l, hl, ⟨rfl, rfl, rfl, rfl⟩, ?_⟩
    cases dry <;> simp [emptied, gone]
  size := by split <;> rfl
  surveyed p hp := by cases hp

theorem matches_of_ledger {dry live : CleanupReport} {σd σl : MemoryStore}
    (hdry : Ledger policy now σ true places σd dry)
    (hlive : Ledger policy now σ false places σl live)
    (hfailures : dry.failures = live.failures) : Matches policy now σ places dry live σl where
  failures := hfailures
  counted _ := hdry.count
  deleted _ := hlive.count
  removed := CleanupReport.counts_removed hlive.size
  remaining kind l hl := by
    obtain ⟨l', hl', -, hitems⟩ := hlive.listers kind l hl
    exact ⟨l', hl', hitems⟩
  agree _ := by rw [hdry.count, hlive.count, tally_eq_iff]

/-- When no kind and no namespace is configured twice, no place is listed twice. -/
theorem Matches.count_eq {namespaces kinds : List String} {dry live : CleanupReport}
    {σ' : MemoryStore} (h : Matches policy now σ (placesOf σ namespaces kinds) dry live σ')
    (hkinds : kinds.Nodup) (hnamespaces : namespaces.Nodup)
    (hholds : CounterHolds ((placesOf σ namespaces kinds).map (dueAt policy now σ)).sum) :
    dry.count = live.count := by
  refine (h.agree hholds).2 fun p _ hmany => ?_
  have honce := List.nodup_iff_count_le_one.1 (placesOf_nodup (σ := σ) hkinds hnamespaces) p
  omega

variable {config : CleanupConfig} {own : String} {namespaces : List String}

theorem sweep_eq (hnamespaces : namespacesOf config own = .ok namespaces)
    (hpolicy : CleanupPolicy.ofConfig config = .ok policy) (dry : Bool) :
    sweep dry config own now σ =
      (reapKinds σ.registry policy (selectorOf config.labelSelector) now namespaces
        config.resourceTypes ⟨0, dry, []⟩ >>= fun r => pure (.ok r)).run handler σ := by
  rw [sweep, run_eq _ { config with dryRun := dry } hnamespaces hpolicy]

/-- A cleanup that knows where to look and what goes breaks off dry and live, or the reports
match. -/
theorem matches_of_sweep (hnamespaces : namespacesOf config own = .ok namespaces)
    (hpolicy : CleanupPolicy.ofConfig config = .ok policy)
    (hunique : ∀ l ∈ σ.listers, (l.items.map fun c => (c.name, c.ns)).Nodup)
    (hdelete : ∀ l ∈ σ.listers, ∀ c ∈ l.items, c.name ∉ l.failDeleteOf) :
    (∃ x, ∀ dry, (sweep dry config own now σ).1 = .error x) ∨
    ∃ dry live, (sweep true config own now σ).1 = .ok (.ok dry) ∧
      (sweep false config own now σ).1 = .ok (.ok live) ∧
      Matches policy now σ (placesOf σ namespaces config.resourceTypes) dry live
        (sweep false config own now σ).2 := by
  have hadvances : Advances policy now σ [] (placesOf σ namespaces config.resourceTypes)
      (reapKinds σ.registry policy (selectorOf config.labelSelector) now namespaces
        config.resourceTypes) := advances_reapKinds hunique hdelete
  rcases hadvances with ⟨x, hbreak⟩ | ⟨failures, hends⟩
  · refine .inl ⟨x, fun dry => ?_⟩
    have hrun := hbreak dry σ _ (ledger_start dry)
    rw [sweep_eq hnamespaces hpolicy, run_bind_of_error (Prod.ext hrun rfl)]
  · obtain ⟨dry, σd, hdry, hdryFailures, hdryLedger⟩ := hends true σ _ (ledger_start true)
    obtain ⟨live, σl, hlive, hliveFailures, hliveLedger⟩ := hends false σ _ (ledger_start false)
    have hdrySweep := (sweep_eq hnamespaces hpolicy true).trans (run_bind_of_ok hdry)
    have hliveSweep := (sweep_eq hnamespaces hpolicy false).trans (run_bind_of_ok hlive)
    refine .inr ⟨dry, live, congrArg Prod.fst hdrySweep, congrArg Prod.fst hliveSweep, ?_⟩
    rw [hliveSweep]
    exact matches_of_ledger hdryLedger hliveLedger (hdryFailures.trans hliveFailures.symm)

end Cleanup

/-- A dry run only lists, and leaves the store as it was but for the lists that were asked for. It
ends as the live run does. Where they give a report, the dry run counts what is due at each place
that it looks at, and the live run what it removes, as far as their counters go; these are the same
exactly if nothing is due at the places that come up again, as when no kind and no namespace is
configured twice. -/
theorem dry_run_matches_live_run (σ : MemoryStore) (config : CleanupConfig) (own : String)
    (now : Instant) (hunique : ∀ l ∈ σ.listers, (l.items.map fun c => (c.name, c.ns)).Nodup)
    (hdelete : ∀ l ∈ σ.listers, ∀ c ∈ l.items, c.name ∉ l.failDeleteOf) :
    OnlyCalls StoreCall.IsListing (run σ.registry { config with dryRun := true } own now).run ∧
    (sweep true config own now σ).2.listers.map (·.unasked) = σ.listers.map (·.unasked) ∧
    ((∃ x, ∀ dry, (sweep dry config own now σ).1 = .error x) ∨
      (∃ e, ∀ dry, (sweep dry config own now σ).1 = .ok (.error e)) ∨
      ∃ namespaces policy dry live, namespacesOf config own = .ok namespaces ∧
        CleanupPolicy.ofConfig config = .ok policy ∧
        (sweep true config own now σ).1 = .ok (.ok dry) ∧
        (sweep false config own now σ).1 = .ok (.ok live) ∧
        Matches policy now σ (placesOf σ namespaces config.resourceTypes) dry live
          (sweep false config own now σ).2 ∧
        (config.resourceTypes.Nodup → config.namespaces.Nodup →
          CounterHolds ((placesOf σ namespaces config.resourceTypes).map (dueAt policy now σ)).sum →
          dry.count = live.count)) := by
  have hcalls : OnlyCalls StoreCall.IsListing
      (run σ.registry { config with dryRun := true } own now).run := onlyCalls_dryRun _ _ own rfl
  refine ⟨hcalls, unasked_of_onlyCalls hcalls, ?_⟩
  cases hnamespaces : namespacesOf config own with
  | error e =>
    -- there is nowhere to look
    refine .inr (.inl ⟨e, fun dry => ?_⟩)
    rw [sweep, run_of_namespacesOf _ { config with dryRun := dry } hnamespaces]
    rfl
  | ok namespaces =>
    cases hpolicy : CleanupPolicy.ofConfig config with
    | error x =>
      -- the age of orphans leaves the range of durations
      refine .inl ⟨x, fun dry => ?_⟩
      rw [sweep, run_of_ofConfig _ { config with dryRun := dry } hnamespaces hpolicy]
      rfl
    | ok policy =>
      rcases matches_of_sweep hnamespaces hpolicy hunique hdelete with
        hbreak | ⟨dry, live, hdry, hlive, hmatches⟩
      · exact .inl hbreak
      · exact .inr (.inr ⟨namespaces, policy, dry, live, rfl, rfl, hdry, hlive, hmatches,
          fun hkinds hconfig =>
            hmatches.count_eq hkinds (namespacesOf_nodup hnamespaces hconfig)⟩)

/-! ## A namespace that is configured twice -/

/-- A config map that is to go at once. -/
def stale : Candidate where
  kind := "ConfigMap"
  name := "cm"
  ns := some "qa"
  uid := none
  annotations := [("cronscale.io/cleanup-after", "")]
  created := none

def staleStore : MemoryStore :=
  { MemoryStore.empty with listers := [⟨"ConfigMap", .namespaced, [stale], [], [], [], []⟩] }

/-- Cleans up config maps in some namespaces. -/
def tidyIn (namespaces : List String) : CleanupConfig := { tidy with namespaces := namespaces }

/-- The spec is accepted, but the dry run counts the resource in each of the lists that it comes up
in, and the live run removes it once. -/
theorem dry_run_counts_twice :
    ({ tidied.spec with cleanupConfig := some (tidyIn ["qa", "qa"]) } : ScheduleSpec).validate =
        .ok () ∧
      (∀ l ∈ staleStore.listers, (l.items.map fun c => (c.name, c.ns)).Nodup) ∧
      (∀ l ∈ staleStore.listers, ∀ c ∈ l.items, c.name ∉ l.failDeleteOf) ∧
      (sweep true (tidyIn ["qa", "qa"]) "default" evening staleStore).1 =
        .ok (.ok ⟨2, true, []⟩) ∧
      (sweep false (tidyIn ["qa", "qa"]) "default" evening staleStore).1 =
        .ok (.ok ⟨1, false, []⟩) := by
  refine ⟨?_, ?_, ?_, ?_, ?_⟩ <;> decide +kernel

/-- The counts are the same if nothing is due in the namespace that is configured twice. -/
theorem dry_run_matches_live_run_apart :
    (∀ l ∈ staleStore.listers, (l.items.map fun c => (c.name, c.ns)).Nodup) ∧
      (∀ l ∈ staleStore.listers, ∀ c ∈ l.items, c.name ∉ l.failDeleteOf) ∧
      ∃ dry live,
        (sweep true (tidyIn ["dev", "qa", "dev"]) "default" evening staleStore).1 = .ok (.ok dry) ∧
        (sweep false (tidyIn ["dev", "qa", "dev"]) "default" evening staleStore).1 =
          .ok (.ok live) ∧
        dry.count = live.count := by
  have hunique : ∀ l ∈ staleStore.listers, (l.items.map fun c => (c.name, c.ns)).Nodup := by
    decide +kernel
  have hdelete : ∀ l ∈ staleStore.listers, ∀ c ∈ l.items, c.name ∉ l.failDeleteOf := by
    decide +kernel
  have hends : (sweep true (tidyIn ["dev", "qa", "dev"]) "default" evening staleStore).1 =
      .ok (.ok ⟨1, true, []⟩) := by decide +kernel
  refine ⟨hunique, hdelete, ?_⟩
  rcases (dry_run_matches_live_run staleStore (tidyIn ["dev", "qa", "dev"]) "default" evening
      hunique hdelete).2.2 with ⟨x, hbreak⟩ | ⟨e, hfail⟩ |
    ⟨namespaces, policy, dry, live, hnamespaces, hpolicy, hdry, hlive, hmatches, -⟩
  · rw [hbreak] at hends
    cases hends
  · rw [hfail] at hends
    cases hends
  · have hread : namespacesOf (tidyIn ["dev", "qa", "dev"]) "default" =
        .ok ["dev", "qa", "dev"] := by decide +kernel
    have hrules : CleanupPolicy.ofConfig (tidyIn ["dev", "qa", "dev"]) =
        .ok ⟨tidy.annotationKey, none⟩ := by decide +kernel
    obtain rfl := Except.ok.inj (hread.symm.trans hnamespaces)
    obtain rfl := Except.ok.inj (hrules.symm.trans hpolicy)
    exact ⟨dry, live, hdry, hlive, (hmatches.agree (by decide +kernel)).2 (by decide +kernel)⟩

end ScheduledScaling
