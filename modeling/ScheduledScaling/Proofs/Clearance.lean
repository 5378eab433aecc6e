import ScheduledScaling.Proofs.Accounts
import ScheduledScaling.Proofs.LiveRuns
/-!
# A cleanup removes what is due

A cleanup takes away exactly what is due, can be listed and can be deleted, in the configured kinds and
the resolved namespaces (`Goes`). So nothing is left for a second one at the same instant:
`cleanup_removes_what_is_due`.
-/
namespace ScheduledScaling

open Program MemoryStore Cleanup

namespace Cleanup
open CleanupPolicy MemoryLister
variable {kind : String} {policy : CleanupPolicy} {now : Instant} {r : CleanupReport}
  {σ : MemoryStore} {l : MemoryLister} {places : List Place} {ns : Option String}

/-! ## The cleanup -/

/-- A resource of a lister goes in a cleanup of some namespaces: its kind is configured, it can be
listed, it is due, and its deletion does not fail. -/
structure Goes (policy : CleanupPolicy) (config : CleanupConfig) (namespaces : List String)
    (now : Instant) (kind : String) (l : MemoryLister) (c : Candidate) : Prop where
  configured : kind ∈ config.resourceTypes
  listed : l.scope = .cluster ∨ ∃ ns ∈ namespaces, c.ns = some ns ∧ ns ∉ l.failListIn
  due : policy.shouldRemove c now = .ok true
  deletable : c.name ∉ l.failDeleteOf

variable {config : CleanupConfig} {own : String} {namespaces : List String} {c : Candidate}

theorem removes_iff : policy.removes now c = true ↔ policy.shouldRemove c now = .ok true := by
  unfold removes
  cases policy.shouldRemove c now with
  | error x => simp
  | ok due => simp

theorem mem_placesOf (hl : lister? kind σ.listers = some l) {kinds : List String} :
    (kind, ns) ∈ placesOf σ namespaces kinds ↔
      kind ∈ kinds ∧ ns ∈ scopesOf namespaces l.scope := by
  rw [placesOf, List.mem_flatMap]
  constructor
  · rintro ⟨k, hk, hmem⟩
    obtain rfl : kind = k := kind_of_mem_placesAt hmem
    rw [placesAt, hl] at hmem
    obtain ⟨ns', hns', heq⟩ := List.mem_map.1 hmem
    cases heq
    exact ⟨hk, hns'⟩
  · rintro ⟨hk, hns⟩
    refine ⟨kind, hk, ?_⟩
    rw [placesAt, hl]
    exact List.mem_map_of_mem hns

/-- A resource is shown at one of the places of its kind if the kind lives outside namespaces, or if
its own namespace is one of those and can be listed. -/
theorem shown_iff_listed : (∃ ns ∈ scopesOf namespaces l.scope, l.refuses ns = false ∧
      l.shows ns c = true) ↔
    l.scope = .cluster ∨ ∃ ns ∈ namespaces, c.ns = some ns ∧ ns ∉ l.failListIn := by
  cases hscope : l.scope with
  | cluster => simp [scopesOf, refuses, shows, hscope]
  | namespaced =>
    simp only [scopesOf, List.mem_map, reduceCtorEq, false_or]
    constructor
    · rintro ⟨_, ⟨ns, hns, rfl⟩, hrefuses, hshows⟩
      refine ⟨ns, hns, ?_, by simpa [refuses] using hrefuses⟩
      simpa [shows, hscope] using hshows
    · rintro ⟨ns, hns, hc, hlist⟩
      refine ⟨_, ⟨ns, hns, rfl⟩, by simpa [refuses] using hlist, ?_⟩
      simpa [shows, hscope] using hc

/-- What is taken at all places of a cleanup is what goes. -/
theorem taken_iff_goes (hl : lister? kind σ.listers = some l) :
    taken policy now l (placesOf σ namespaces config.resourceTypes) kind c = true ↔
      Goes policy config namespaces now kind l c := by
  have hany : ((placesOf σ namespaces config.resourceTypes).any fun p =>
      p.1 = kind && !l.refuses p.2 && l.shows p.2 c) = true ↔ kind ∈ config.resourceTypes ∧
        ∃ ns ∈ scopesOf namespaces l.scope, l.refuses ns = false ∧ l.shows ns c = true := by
    simp only [List.any_eq_true, Bool.and_eq_true, decide_eq_true_eq, Bool.not_eq_true']
    constructor
    · rintro ⟨⟨k, ns⟩, hmem, ⟨rfl, hrefuses⟩, hshows⟩
      obtain ⟨hk, hns⟩ := (mem_placesOf hl).1 hmem
      exact ⟨hk, ns, hns, hrefuses, hshows⟩
    · rintro ⟨hk, ns, hns, hrefuses, hshows⟩
      exact ⟨(kind, ns), (mem_placesOf hl).2 ⟨hk, hns⟩, ⟨rfl, hrefuses⟩, hshows⟩
  rw [taken, gone, Bool.and_eq_true, Bool.and_eq_true, hany, shown_iff_listed, removes_iff]
  constructor
  · rintro ⟨⟨hdue, hkind, hlisted⟩, hresists⟩
    exact ⟨hkind, hlisted, hdue, by simpa [resists] using hresists⟩
  · rintro ⟨hkind, hlisted, hdue, hdeletable⟩
    exact ⟨⟨hdue, hkind, hlisted⟩, by simpa [resists] using hdeletable⟩

/-- A live cleanup that gets its rules, over resources that it can decide about, comes to a report. -/
theorem cleared_of_sweep (hnamespaces : namespacesOf config own = .ok namespaces)
    (hpolicy : CleanupPolicy.ofConfig config = .ok policy)
    (hunique : ∀ kind l, lister? kind σ.listers = some l →
      (l.items.map fun c => (c.name, c.ns)).Nodup)
    (hdecided : ∀ kind l, lister? kind σ.listers = some l → ∀ c ∈ l.items,
      (policy.shouldRemove c now).isOk) :
    ∃ report σ', sweep false config own now σ = (.ok (.ok report), σ') ∧
      Cleared policy now σ (placesOf σ namespaces config.resourceTypes) σ' report := by
  obtain ⟨report, σ', hrun, hcleared⟩ :=
    clears_reapKinds hunique hdecided namespaces config.resourceTypes σ _ cleared_start
  exact ⟨report, σ', (sweep_eq hnamespaces hpolicy false).trans (run_bind_of_ok hrun), hcleared⟩

theorem Cleared.lister_of_lister {l' : MemoryLister} {σ' : MemoryStore}
    (h : Cleared policy now σ places σ' r) (hl' : lister? kind σ'.listers = some l') :
    ∃ l, lister? kind σ.listers = some l ∧ Like l l' ∧
      l'.items = l.items.filter fun c => !taken policy now l places kind c := by
  cases hl : lister? kind σ.listers with
  | none =>
    rw [h.unlisted kind hl] at hl'
    cases hl'
  | some l =>
    obtain ⟨l'', hl'', hlike, hitems⟩ := h.listers kind l hl
    obtain rfl := Option.some.inj (hl''.symm.trans hl')
    exact ⟨l, rfl, hlike, hitems⟩

theorem Goes.of_like {l' : MemoryLister} (h : Goes policy config namespaces now kind l' c)
    (hlike : Like l l') : Goes policy config namespaces now kind l c := by
  obtain ⟨hkind, hlisted, hdue, hdeletable⟩ := h
  rw [hlike.scope, hlike.failListIn] at hlisted
  rw [hlike.failDeleteOf] at hdeletable
  exact ⟨hkind, hlisted, hdue, hdeletable⟩

/-- A second live cleanup at the same instant counts nothing, and leaves every resource. -/
theorem idle_of_cleared {σ' : MemoryStore} {report : CleanupReport}
    (hnamespaces : namespacesOf config own = .ok namespaces)
    (hpolicy : CleanupPolicy.ofConfig config = .ok policy)
    (hunique : ∀ kind l, lister? kind σ.listers = some l →
      (l.items.map fun c => (c.name, c.ns)).Nodup)
    (hdecided : ∀ kind l, lister? kind σ.listers = some l → ∀ c ∈ l.items,
      (policy.shouldRemove c now).isOk)
    (h : Cleared policy now σ (placesOf σ namespaces config.resourceTypes) σ' report) :
    ∃ report' σ'', sweep false config own now σ' = (.ok (.ok report'), σ'') ∧ report'.count = 0 ∧
      ∀ kind l', lister? kind σ'.listers = some l' →
        ∃ l'', lister? kind σ''.listers = some l'' ∧ l''.items = l'.items := by
  have hunique' : ∀ kind l', lister? kind σ'.listers = some l' →
      (l'.items.map fun c => (c.name, c.ns)).Nodup := by
    intro kind l' hl'
    obtain ⟨l, hl, -, hitems⟩ := h.lister_of_lister hl'
    rw [hitems]
    exact (hunique kind l hl).sublist (List.filter_sublist.map _)
  have hdecided' : ∀ kind l', lister? kind σ'.listers = some l' → ∀ c ∈ l'.items,
      (policy.shouldRemove c now).isOk := by
    intro kind l' hl' c hc
    obtain ⟨l, hl, -, hitems⟩ := h.lister_of_lister hl'
    rw [hitems] at hc
    exact hdecided kind l hl c (List.mem_filter.1 hc).1
  obtain ⟨report', σ'', hsweep, hcleared⟩ :=
    cleared_of_sweep hnamespaces hpolicy hunique' hdecided'
  -- what would be taken now would have been taken before
  have hnone : ∀ kind l', lister? kind σ'.listers = some l' → ∀ c ∈ l'.items,
      taken policy now l' (placesOf σ' namespaces config.resourceTypes) kind c = false := by
    intro kind l' hl' c hc
    obtain ⟨l, hl, hlike, hitems⟩ := h.lister_of_lister hl'
    rw [hitems, List.mem_filter] at hc
    rw [Bool.eq_false_iff]
    intro htaken
    have hgoes := ((taken_iff_goes hl').1 htaken).of_like hlike
    rw [(taken_iff_goes hl).2 hgoes] at hc
    cases hc.2
  refine ⟨report', σ'', hsweep, hcleared.idle hnone, fun kind l' hl' => ?_⟩
  obtain ⟨l'', hl'', -, hitems⟩ := hcleared.listers kind l' hl'
  refine ⟨l'', hl'', ?_⟩
  rw [hitems, List.filter_eq_self]
  intro c hc
  rw [hnone kind l' hl' c hc]
  rfl

/-- The calls of a live cleanup over a store, with their answers. -/
def sweepCalls (config : CleanupConfig) (own : String) (now : Instant) (σ : MemoryStore) :
    List Exchange :=
  (run σ.registry { config with dryRun := false } own now).run.trace handler σ

/-- What a live cleanup of a store has done: its calls, its report, and the store after it. -/
structure Cleans (policy : CleanupPolicy) (config : CleanupConfig) (namespaces : List String)
    (now : Instant) (σ : MemoryStore) (trace : List Exchange) (report : CleanupReport)
    (σ' : MemoryStore) : Prop where
  /-- What is no longer there is what goes. -/
  removed : ∀ kind l, lister? kind σ.listers = some l → ∃ l', lister? kind σ'.listers = some l' ∧
    l'.items.Sublist l.items ∧
      ∀ c ∈ l.items, c ∉ l'.items ↔ Goes policy config namespaces now kind l c
  /-- It is what is counted. -/
  counted : size σ'.listers ≤ size σ.listers ∧ report.Counts (size σ.listers - size σ'.listers)
  /-- One failure for each mention of a kind that nothing lists, and one for each call that failed. -/
  failures : report.failures.Perm
    (unlistedOf σ config.resourceTypes ++ trace.filterMap Exchange.cleanupFailure?)
  /-- Each mention of a kind is listed in each of the namespaces, or once outside of them. -/
  listed : trace.filterMap Exchange.listed? = placesOf σ namespaces config.resourceTypes

end Cleanup

/-- A live cleanup that knows where to look removes exactly what is due there and can be listed and
deleted, and counts it as far as its counter goes; it reports what has failed, and looks nowhere else;
and a second cleanup at the same instant finds nothing left to remove. It breaks off only if the age of
orphans gives no rules, and then it has done nothing. -/
theorem cleanup_removes_what_is_due {σ : MemoryStore} {config : CleanupConfig} {own : String}
    {namespaces : List String} (now : Instant)
    (hnamespaces : namespacesOf config own = .ok namespaces)
    (hunique : ∀ kind l, lister? kind σ.listers = some l →
      (l.items.map fun c => (c.name, c.ns)).Nodup)
    (hsettles : ∀ kind l, lister? kind σ.listers = some l → ∀ c ∈ l.items,
      c.Settles config.annotationKey) :
    (∃ x, CleanupPolicy.ofConfig config = .error x ∧ sweep false config own now σ = (.error x, σ)) ∨
    ∃ policy report σ', CleanupPolicy.ofConfig config = .ok policy ∧
      sweep false config own now σ = (.ok (.ok report), σ') ∧
      Cleans policy config namespaces now σ (sweepCalls config own now σ) report σ' ∧
      ∃ report' σ'', sweep false config own now σ' = (.ok (.ok report'), σ'') ∧
        report'.count = 0 ∧ ∀ kind l', lister? kind σ'.listers = some l' →
          ∃ l'', lister? kind σ''.listers = some l'' ∧ l''.items = l'.items := by
  cases hpolicy : CleanupPolicy.ofConfig config with
  | error x =>
    refine .inl ⟨x, rfl, ?_⟩
    rw [sweep, run_of_ofConfig _ { config with dryRun := false } hnamespaces hpolicy]
    rfl
  | ok policy =>
    have hdecided : ∀ kind l, lister? kind σ.listers = some l → ∀ c ∈ l.items,
        (policy.shouldRemove c now).isOk := by
      intro kind l hl c hc
      have hc := hsettles kind l hl c hc
      rw [← (CleanupPolicy.ofConfig_eq_ok hpolicy).1] at hc
      exact Candidate.settles_iff.1 hc
    obtain ⟨report, σ', hsweep, hcleared⟩ :=
      cleared_of_sweep hnamespaces hpolicy hunique hdecided
    have hrun := runs_trace handler (run σ.registry { config with dryRun := false } own now).run σ
    have hresult : ((run σ.registry { config with dryRun := false } own now).run.run handler σ).1 =
        .ok (.ok report) := congrArg Prod.fst hsweep
    rw [hresult] at hrun
    obtain ⟨hlisted, hfailures⟩ := accounts_of_run hrun hnamespaces
    refine .inr ⟨policy, report, σ', rfl, hsweep,
      ⟨fun kind l hl => ?_, CleanupReport.counts_removed hcleared.size, hfailures, hlisted⟩,
      idle_of_cleared hnamespaces hpolicy hunique hdecided hcleared⟩
    obtain ⟨l', hl', -, hitems⟩ := hcleared.listers kind l hl
    refine ⟨l', hl', ?_, fun c hc => ?_⟩
    · rw [hitems]
      exact List.filter_sublist
    · rw [hitems, List.mem_filter, ← taken_iff_goes hl]
      simp [hc]

/-! ## A cleanup in which something fails at every turn -/

/-- Config maps in two namespaces, one of which cannot be listed; one of them cannot be deleted. Beside
them a cluster role. All of them are to go. -/
def mixedStore : MemoryStore :=
  { MemoryStore.empty with
    listers :=
      [⟨"ConfigMap", .namespaced, [stale, { stale with name := "stuck" },
          { stale with name := "far", ns := some "dev" }], ["dev"], ["stuck"], [], []⟩,
        ⟨"ClusterRole", .cluster, [{ stale with kind := "ClusterRole", ns := none }], [], [], [], []⟩] }

/-- Cleans up both namespaces, the cluster roles, and a kind that nothing lists. -/
def mixed : CleanupConfig :=
  { tidyIn ["qa", "dev"] with resourceTypes := ["ConfigMap", "Lost", "ClusterRole"] }

theorem ofConfig_mixed : CleanupPolicy.ofConfig mixed = .ok ⟨tidy.annotationKey, none⟩ := by
  decide +kernel

theorem cleanup_removes_what_is_due_mixed :
    ∃ report σ', sweep false mixed "default" evening mixedStore = (.ok (.ok report), σ') ∧
      report.count = 2 ∧
      Cleans ⟨tidy.annotationKey, none⟩ mixed ["qa", "dev"] evening mixedStore
        (sweepCalls mixed "default" evening mixedStore) report σ' ∧
      ∃ report' σ'', sweep false mixed "default" evening σ' = (.ok (.ok report'), σ'') ∧
        report'.count = 0 := by
  have hnamespaces : namespacesOf mixed "default" = .ok ["qa", "dev"] := by decide +kernel
  have hunique : ∀ l ∈ mixedStore.listers, (l.items.map fun c => (c.name, c.ns)).Nodup := by
    decide +kernel
  have hdecided : ∀ l ∈ mixedStore.listers, ∀ c ∈ l.items,
      ((⟨tidy.annotationKey, none⟩ : CleanupPolicy).shouldRemove c evening).isOk = true := by
    decide +kernel
  rcases cleanup_removes_what_is_due evening hnamespaces
      (fun kind l hl => hunique l (mem_of_lister? hl).1)
      (fun kind l hl c hc => Candidate.settles_iff.2 (hdecided l (mem_of_lister? hl).1 c hc)) with
    ⟨x, hx, -⟩ | ⟨policy, report, σ', hpolicy, hsweep, hcleans, report', σ'', hagain, hzero, -⟩
  · rw [ofConfig_mixed] at hx
    cases hx
  · obtain rfl := Except.ok.inj (ofConfig_mixed.symm.trans hpolicy)
    have hends : (sweep false mixed "default" evening mixedStore).1.toOption.bind
        (·.toOption.map (·.count)) = some 2 := by decide +kernel
    rw [hsweep] at hends
    exact ⟨report, σ', hsweep, Option.some.inj hends, hcleans, report', σ'', hagain, hzero⟩

/-! ## An age of orphans that is no duration -/

/-- Cleans up the config maps that an annotation marks, and orphans of an age of 2^64 seconds. -/
def overfull : CleanupConfig :=
  { tidy with cleanupOrphans := true, orphanMaxAge := some "18446744073709551615s 1000000000ns" }

theorem ofConfig_overfull : CleanupPolicy.ofConfig overfull = .error .durationSum := by
  decide +kernel

/-- The config map is to go at once by its annotation, whatever the age of orphans, but the cleanup
breaks off at this age, and removes nothing. -/
theorem due_resource_is_not_removed :
    namespacesOf overfull "qa" = .ok ["qa"] ∧
      (∀ kind l, lister? kind staleStore.listers = some l →
        (l.items.map fun c => (c.name, c.ns)).Nodup ∧
          ∀ c ∈ l.items, c.Settles overfull.annotationKey) ∧
      (∀ age, (⟨overfull.annotationKey, age⟩ : CleanupPolicy).shouldRemove stale evening =
        .ok true) ∧
      (sweep false overfull "qa" evening staleStore).1 = .error .durationSum ∧
      (sweep false overfull "qa" evening staleStore).2.listers.map (·.items) = [[stale]] := by
  have hunique : ∀ l ∈ staleStore.listers, (l.items.map fun c => (c.name, c.ns)).Nodup := by
    decide +kernel
  have hdecided : ∀ l ∈ staleStore.listers, ∀ c ∈ l.items,
      ((⟨overfull.annotationKey, none⟩ : CleanupPolicy).shouldRemove c evening).isOk = true := by
    decide +kernel
  refine ⟨by decide +kernel, fun kind l hl => ⟨hunique l (mem_of_lister? hl).1, fun c hc => ?_⟩,
    fun age => rfl, by decide +kernel, by decide +kernel⟩
  exact Candidate.settles_iff.2 (hdecided l (mem_of_lister? hl).1 c hc)

end ScheduledScaling
