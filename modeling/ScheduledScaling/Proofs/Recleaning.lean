import ScheduledScaling.Proofs.Accounts
import ScheduledScaling.Proofs.Footprints
/-!
# Cleaning up again

A run of a cleanup that comes to a report, with no call failing, has dealt with its places: what it has
left there stays (`deals_reapKinds`). Such places stay dealt with while only resources go, and a run over
them only lists (`rests_reapKinds`). So a cleanup that is run again at the same instant deletes nothing,
and comes to a report if it did before: `Pass.cleans_again`.
-/
namespace ScheduledScaling

open Pass Program MemoryStore

/-! ## Listers that lose resources -/

namespace MemoryStore
variable {kind : String} {listers before after : List MemoryLister}

/-- A kind that no lister answers for. -/
theorem askLister_of_none {α : Type} {ask : MemoryLister → Except Failure α × MemoryLister}
    (h : lister? kind listers = none) :
    (askLister kind ask listers).1 = .error (.unsupportedKind kind) := by
  induction listers with
  | nil => rfl
  | cons first rest ih =>
    rw [lister?, Option.or_eq_none_iff] at h
    obtain ⟨hrest, hfirst⟩ := h
    have hkind : first.kind ≠ kind := fun hkind => by
      rw [if_pos hkind] at hfirst
      cases hfirst
    rw [askLister, if_neg fun h => hkind h.1]
    exact ih hrest

/-- Listers have lost resources, and nothing else about them has changed but what was asked. -/
def Shrinks (before after : List MemoryLister) : Prop :=
  ∀ kind l, lister? kind before = some l →
    ∃ l', lister? kind after = some l' ∧ l.Like l' ∧ l'.items ⊆ l.items

theorem Shrinks.refl (listers : List MemoryLister) : Shrinks listers listers :=
  fun _ l hl => ⟨l, hl, .refl l, List.Subset.refl _⟩

theorem Shrinks.trans {middle : List MemoryLister} (h : Shrinks before middle)
    (h' : Shrinks middle after) : Shrinks before after := by
  intro kind l hl
  obtain ⟨l₁, hl₁, hlike₁, hsub₁⟩ := h kind l hl
  obtain ⟨l₂, hl₂, hlike₂, hsub₂⟩ := h' kind l₁ hl₁
  exact ⟨l₂, hl₂, hlike₁.trans hlike₂, List.Subset.trans hsub₂ hsub₁⟩

theorem Acts.shrinks {l l' : MemoryLister} (h : Acts kind l l' before after) (hlike : l.Like l')
    (hsub : l'.items ⊆ l.items) : Shrinks before after := by
  intro k l₁ hl₁
  by_cases hk : k = kind
  · subst hk
    obtain rfl := Option.some.inj (h.asked.symm.trans hl₁)
    exact ⟨l', (h.listers k).trans (if_pos rfl), hlike, hsub⟩
  · exact ⟨l₁, ((h.listers k).trans (if_neg hk)).trans hl₁, .refl l₁, List.Subset.refl _⟩

theorem lister?_map_unasked (kind : String) (listers : List MemoryLister) :
    lister? kind (listers.map (·.unasked)) = (lister? kind listers).map (·.unasked) := by
  induction listers with
  | nil => rfl
  | cons first rest ih =>
    rw [List.map_cons, lister?, lister?, ih]
    change (Option.map _ _).or (if first.kind = kind then _ else _) = _
    cases lister? kind rest with
    | some l => rfl
    | none => split <;> rfl

/-- Listers that have only been asked for lists have lost nothing. -/
theorem shrinks_of_unasked (h : after.map (·.unasked) = before.map (·.unasked)) :
    Shrinks before after := by
  intro kind l hl
  have hmap := lister?_map_unasked kind after
  rw [h, lister?_map_unasked, hl] at hmap
  cases hl' : lister? kind after with
  | none =>
    rw [hl'] at hmap
    cases hmap
  | some l' =>
    rw [hl'] at hmap
    have heq : l.unasked = l'.unasked := Option.some.inj hmap
    refine ⟨l', rfl, ⟨?_, ?_, ?_, ?_⟩, ?_⟩
    · exact (congrArg MemoryLister.kind heq).symm
    · exact (congrArg MemoryLister.scope heq).symm
    · exact (congrArg MemoryLister.failListIn heq).symm
    · exact (congrArg MemoryLister.failDeleteOf heq).symm
    · exact (congrArg MemoryLister.items heq).symm ▸ List.Subset.refl _

end MemoryStore

namespace Cleanup
open MemoryLister
variable {kind : String} {policy : CleanupPolicy} {selector : Option String} {now : Instant}
  {dry : Bool} {r r' : CleanupReport} {σ σ' : MemoryStore} {l : MemoryLister} {places places' : List Place}
  {step step' : CleanupReport → Program CleanupReport}

/-- A run has nothing more to do about a resource: it is decided upon, and it does not have to go, or
the run is dry. -/
def Stays (policy : CleanupPolicy) (now : Instant) (dry : Bool) (c : Candidate) : Prop :=
  ∃ due, policy.shouldRemove c now = .ok due ∧ (due = true → dry = true)

theorem reapOne_of_stays (kind : String) {c : Candidate} {due : Bool}
    (hdue : policy.shouldRemove c now = .ok due) (hdry : due = true → r.dryRun = true) :
    reapOne kind policy now c r = .done (if due then r.counted else r) := by
  unfold reapOne
  rw [hdue]
  cases due with
  | false => rfl
  | true =>
    change (if r.dryRun = true then _ else _) = _
    rw [if_pos (hdry rfl)]
    rfl

/-- A run has dealt with a place: it can be listed, and all that it shows stays. -/
def Dealt (policy : CleanupPolicy) (now : Instant) (dry : Bool) (listers : List MemoryLister)
    (p : Place) : Prop :=
  ∃ l, lister? p.1 listers = some l ∧ l.refuses p.2 = false ∧
    ∀ c ∈ l.items, l.shows p.2 c = true → Stays policy now dry c

theorem Dealt.mono {before after : List MemoryLister} {p : Place}
    (h : Dealt policy now dry before p) (hshrinks : Shrinks before after) :
    Dealt policy now dry after p := by
  obtain ⟨l, hl, hrefuses, hstays⟩ := h
  obtain ⟨l', hl', hlike, hsub⟩ := hshrinks p.1 l hl
  refine ⟨l', hl', (congrFun hlike.refuses_eq p.2).trans hrefuses, fun c hc hshows => ?_⟩
  exact hstays c (hsub hc) (by rwa [hlike.shows_eq] at hshows)

/-! ## The first run -/

/-- A step of a cleanup deals with some places, if it comes to a report and no call fails. -/
def Deals (policy : CleanupPolicy) (now : Instant) (places : List Place)
    (step : CleanupReport → Program CleanupReport) : Prop :=
  ∀ σ r r' σ', (step r).run handler σ = (.ok r', σ') →
    (∀ x ∈ (step r).trace handler σ, x.failure? = none) →
    r'.dryRun = r.dryRun ∧ Shrinks σ.listers σ'.listers ∧
      ∀ p ∈ places, Dealt policy now r.dryRun σ'.listers p

theorem deals_pure {f : CleanupReport → CleanupReport} (h : ∀ r, (f r).dryRun = r.dryRun) :
    Deals policy now [] fun r => pure (f r) := by
  intro σ r r' σ' hrun _
  cases hrun
  exact ⟨h r, .refl _, fun p hp => absurd hp List.not_mem_nil⟩

theorem deals_failed (failure : CleanupFailure) :
    Deals policy now [] fun r => pure (r.failed failure) :=
  deals_pure fun _ => rfl

theorem Deals.bind (h : Deals policy now places step) (h' : Deals policy now places' step') :
    Deals policy now (places ++ places') fun r => step r >>= step' := by
  intro σ r r'' σ'' hrun hserved
  obtain ⟨r', σ', hfirst, hrest⟩ := exists_of_run_bind hrun
  rw [trace_bind_of_ok hfirst] at hserved
  obtain ⟨hmode, hshrinks, hdealt⟩ :=
    h σ r r' σ' hfirst fun x hx => hserved x (List.mem_append_left _ hx)
  obtain ⟨hmode', hshrinks', hdealt'⟩ :=
    h' σ' r' r'' σ'' hrest fun x hx => hserved x (List.mem_append_right _ hx)
  rw [hmode] at hmode' hdealt'
  refine ⟨hmode', hshrinks.trans hshrinks', fun p hp => ?_⟩
  exact (List.mem_append.1 hp).elim (fun hp => (hdealt p hp).mono hshrinks') (hdealt' p)

/-- A deletion that gets through is of a resource whose deletion does not fail. -/
theorem not_mem_failDeleteOf {c : Candidate} (hl : lister? kind σ.listers = some l)
    (hserved : (⟨.delete kind c, (handler (.delete kind c) σ).1⟩ : Exchange).failure? = none) :
    c.name ∉ l.failDeleteOf := by
  intro hname
  obtain ⟨hanswer, -⟩ : (handler (.delete kind c) σ).1 = _ ∧ _ := handler_delete hl
  rw [MemoryLister.delete, if_pos (by simpa using hname)] at hanswer
  rw [hanswer] at hserved
  cases hserved

/-- One resource that was listed. -/
theorem deals_reapOne {c : Candidate} (hl : lister? kind σ.listers = some l)
    (hrun : (reapOne kind policy now c r).run handler σ = (.ok r', σ'))
    (hserved : ∀ x ∈ (reapOne kind policy now c r).trace handler σ, x.failure? = none) :
    r'.dryRun = r.dryRun ∧ ∃ l', Acts kind l l' σ.listers σ'.listers ∧ l.Like l' ∧
      l'.items ⊆ l.items ∧ (c ∈ l'.items → Stays policy now r.dryRun c) := by
  cases hdue : policy.shouldRemove c now with
  | error x =>
    unfold reapOne at hrun
    rw [hdue] at hrun
    cases hrun
  | ok due =>
    by_cases hstays : due = true → r.dryRun = true
    · rw [reapOne_of_stays kind hdue hstays] at hrun
      cases hrun
      refine ⟨?_, l, .refl hl, .refl l, List.Subset.refl _, fun _ => ⟨due, hdue, hstays⟩⟩
      cases due <;> rfl
    · -- a live run deletes it, so it is not left
      obtain ⟨rfl, hlive⟩ := Classical.not_imp.1 hstays
      unfold reapOne at hserved
      rw [hdue] at hserved
      change ∀ x ∈ Program.trace handler (if r.dryRun = true then _ else _) σ, _ at hserved
      rw [if_neg hlive] at hserved
      have hname := not_mem_failDeleteOf hl (hserved _ List.mem_cons_self)
      obtain ⟨σ₁, l', hone, hacts, hlike, hitems⟩ := run_reapOne (r := r) hdue hl hname
      cases hone.symm.trans hrun
      rw [Bool.eq_false_iff.2 hlive, Bool.not_false, Bool.and_true, if_pos rfl] at hitems
      refine ⟨rfl, l', hacts, hlike, ?_, fun hc => ?_⟩
      · rw [hitems]
        exact fun c' hc' => (List.mem_filter.1 hc').1
      · rw [hitems] at hc
        have hdifferent := (List.mem_filter.1 hc).2
        simp [sameResource] at hdifferent

theorem deals_reapAll {candidates : List Candidate} (hl : lister? kind σ.listers = some l)
    (hrun : (reapAll kind policy now candidates r).run handler σ = (.ok r', σ'))
    (hserved : ∀ x ∈ (reapAll kind policy now candidates r).trace handler σ, x.failure? = none) :
    r'.dryRun = r.dryRun ∧ ∃ l', Acts kind l l' σ.listers σ'.listers ∧ l.Like l' ∧
      l'.items ⊆ l.items ∧ ∀ c ∈ candidates, c ∈ l'.items → Stays policy now r.dryRun c := by
  induction candidates generalizing r σ l with
  | nil =>
    cases hrun
    exact ⟨rfl, l, .refl hl, .refl l, List.Subset.refl _, fun c hc => absurd hc List.not_mem_nil⟩
  | cons candidate rest ih =>
    rw [reapAll] at hrun hserved
    obtain ⟨r₁, σ₁, hfirst, hrest⟩ := exists_of_run_bind hrun
    rw [trace_bind_of_ok hfirst] at hserved
    obtain ⟨hmode₁, l₁, hacts₁, hlike₁, hsub₁, hstays₁⟩ :=
      deals_reapOne hl hfirst fun x hx => hserved x (List.mem_append_left _ hx)
    have hpresent : lister? kind σ₁.listers = some l₁ := (hacts₁.listers kind).trans (if_pos rfl)
    obtain ⟨hmode, l', hacts, hlike, hsub, hstays⟩ :=
      ih hpresent hrest fun x hx => hserved x (List.mem_append_right _ hx)
    rw [hmode₁] at hmode hstays
    refine ⟨hmode, l', hacts₁.trans hacts, hlike₁.trans hlike, List.Subset.trans hsub hsub₁, ?_⟩
    exact List.forall_mem_cons.2 ⟨fun hc => hstays₁ (hsub hc), hstays⟩

/-- A list that gets through comes from a lister that lists. -/
theorem exists_of_list {ns : Option String} (hserved : (⟨.list kind ns selector,
      (handler (.list kind ns selector) σ).1⟩ : Exchange).failure? = none) :
    ∃ l, lister? kind σ.listers = some l ∧ l.refuses ns = false := by
  cases hl : lister? kind σ.listers with
  | none =>
    have hanswer : (handler (.list kind ns selector) σ).1 = .error (.unsupportedKind kind) :=
      askLister_of_none hl
    rw [hanswer] at hserved
    cases hserved
  | some l =>
    refine ⟨l, rfl, Bool.eq_false_iff.2 fun hrefuses => ?_⟩
    obtain ⟨hanswer, -⟩ : (handler (.list kind ns selector) σ).1 = _ ∧ _ := handler_list hl ns
    rw [list_eq, if_pos hrefuses] at hanswer
    rw [hanswer] at hserved
    cases hserved

theorem deals_reapScope (ns : Option String) :
    Deals policy now [(kind, ns)] (reapScope kind policy selector now ns) := by
  intro σ r r' σ' hrun hserved
  obtain ⟨l, hl, hrefuses⟩ := exists_of_list (hserved _ List.mem_cons_self)
  obtain ⟨hanswer, hacts₁⟩ : (handler (.list kind ns selector) σ).1 = _ ∧ _ := handler_list hl ns
  rw [list_eq, if_neg (by rw [hrefuses]; decide)] at hanswer
  unfold reapScope at hrun hserved
  rw [run_bind_of_ok run_list, hanswer] at hrun
  rw [trace_bind_of_ok run_list, hanswer] at hserved
  have hpresent := (hacts₁.listers kind).trans (if_pos rfl)
  obtain ⟨hmode, l', hacts, hlike, hsub, hstays⟩ :=
    deals_reapAll hpresent hrun fun x hx => hserved x (List.mem_append_right _ hx)
  have hlike : l.Like l' := (like_asked l ns selector).trans hlike
  have hacts : Acts kind l l' σ.listers σ'.listers := hacts₁.trans hacts
  refine ⟨hmode, hacts.shrinks hlike hsub, fun p hp => ?_⟩
  obtain rfl := List.mem_singleton.1 hp
  refine ⟨l', (hacts.listers kind).trans (if_pos rfl), ?_, fun c hc hshows => ?_⟩
  · exact (congrFun hlike.refuses_eq ns).trans hrefuses
  · rw [hlike.shows_eq] at hshows
    exact hstays c (List.mem_filter.2 ⟨hsub hc, hshows⟩) hc

theorem composes_deals : Composes fun places _ => Deals policy now places where
  done := deals_pure (f := id) fun _ => rfl
  failed := deals_failed
  bind := Deals.bind

theorem deals_reapKinds (registry : Registry) (namespaces kinds : List String) :
    Deals policy now (placesIn registry namespaces kinds)
      (reapKinds registry policy selector now namespaces kinds) :=
  composes_deals.reapKinds (fun _ => deals_reapScope) registry namespaces kinds

/-! ## The second run -/

/-- A step of a cleanup only lists, and comes to a report, where some places have been dealt with. -/
def Rests (policy : CleanupPolicy) (now : Instant) (places : List Place)
    (step : CleanupReport → Program CleanupReport) : Prop :=
  ∀ σ r, (∀ p ∈ places, Dealt policy now r.dryRun σ.listers p) →
    (∃ r' σ', (step r).run handler σ = (.ok r', σ') ∧ r'.dryRun = r.dryRun) ∧
      ∀ x ∈ (step r).trace handler σ, x.call.IsListing

theorem rests_pure {f : CleanupReport → CleanupReport} (h : ∀ r, (f r).dryRun = r.dryRun) :
    Rests policy now [] fun r => pure (f r) :=
  fun σ r _ => ⟨⟨f r, σ, rfl, h r⟩, fun _ hx => absurd hx List.not_mem_nil⟩

theorem rests_failed (failure : CleanupFailure) :
    Rests policy now [] fun r => pure (r.failed failure) :=
  rests_pure fun _ => rfl

theorem Rests.bind (h : Rests policy now places step) (h' : Rests policy now places' step') :
    Rests policy now (places ++ places') fun r => step r >>= step' := by
  intro σ r hdealt
  obtain ⟨⟨r', σ', hrun, hmode⟩, hlists⟩ := h σ r fun p hp => hdealt p (List.mem_append_left _ hp)
  have hshrinks : Shrinks σ.listers σ'.listers := by
    have hunasked := unasked_of_trace hlists
    rw [hrun] at hunasked
    exact shrinks_of_unasked hunasked
  obtain ⟨⟨r'', σ'', hrun', hmode'⟩, hlists'⟩ := h' σ' r' fun p hp => by
    rw [hmode]
    exact (hdealt p (List.mem_append_right _ hp)).mono hshrinks
  refine ⟨⟨r'', σ'', (run_bind_of_ok hrun).trans hrun', hmode'.trans hmode⟩, fun x hx => ?_⟩
  rw [trace_bind_of_ok hrun] at hx
  exact (List.mem_append.1 hx).elim (hlists x) (hlists' x)

/-- Nothing is done about resources that stay. -/
theorem reapAll_of_stays (kind : String) {candidates : List Candidate}
    (h : ∀ c ∈ candidates, Stays policy now r.dryRun c) :
    ∃ r', reapAll kind policy now candidates r = .done r' ∧ r'.dryRun = r.dryRun := by
  induction candidates generalizing r with
  | nil => exact ⟨r, rfl, rfl⟩
  | cons c rest ih =>
    obtain ⟨⟨due, hdue, hdry⟩, hrest⟩ := List.forall_mem_cons.1 h
    have hmode₁ : (if due then r.counted else r).dryRun = r.dryRun := by cases due <;> rfl
    obtain ⟨r', hall, hmode⟩ := ih (r := if due then r.counted else r) (by rwa [hmode₁])
    rw [reapAll, reapOne_of_stays kind hdue hdry]
    exact ⟨r', hall, hmode.trans hmode₁⟩

theorem rests_reapScope (ns : Option String) :
    Rests policy now [(kind, ns)] (reapScope kind policy selector now ns) := by
  intro σ r hdealt
  obtain ⟨l, hl, hrefuses, hstays⟩ := hdealt _ List.mem_cons_self
  obtain ⟨hanswer, -⟩ : (handler (.list kind ns selector) σ).1 = _ ∧ _ := handler_list hl ns
  rw [list_eq, if_neg (by rw [hrefuses]; decide)] at hanswer
  obtain ⟨r', hall, hmode⟩ := reapAll_of_stays kind (r := r) fun c hc =>
    hstays c (List.mem_filter.1 hc).1 (List.mem_filter.1 hc).2
  unfold reapScope
  rw [run_bind_of_ok run_list, trace_bind_of_ok run_list, hanswer]
  dsimp only
  rw [hall]
  refine ⟨⟨r', _, rfl, hmode⟩, fun x hx => ?_⟩
  obtain rfl := List.mem_singleton.1 hx
  trivial

theorem composes_rests : Composes fun places _ => Rests policy now places where
  done := rests_pure (f := id) fun _ => rfl
  failed := rests_failed
  bind := Rests.bind

theorem rests_reapKinds (registry : Registry) (namespaces kinds : List String) :
    Rests policy now (placesIn registry namespaces kinds)
      (reapKinds registry policy selector now namespaces kinds) :=
  composes_rests.reapKinds (fun _ => rests_reapScope) registry namespaces kinds

section
variable {registry : Registry} {τ : MemoryStore}

/-- A cleanup that is run again over the resources that it has left, with no call failing before: it
only lists, and comes to a report if it did before. -/
theorem cleans_again {config : CleanupConfig} {own : String} {result : Except Failure CleanupReport}
    (hran : (run registry config own now).run.run handler σ = (.ok result, σ'))
    (hserved : ∀ x ∈ (run registry config own now).run.trace handler σ, x.failure? = none)
    (hlisters : τ.listers = σ'.listers) :
    (∃ result' τ', (run registry config own now).run.run handler τ = (.ok result', τ') ∧
        result'.map (fun _ => ()) = result.map fun _ => ()) ∧
      ∀ x ∈ (run registry config own now).run.trace handler τ, x.call.IsListing := by
  cases hnamespaces : namespacesOf config own with
  | error e =>
    rw [run_of_namespacesOf registry config hnamespaces] at hran ⊢
    cases hran
    exact ⟨⟨_, τ, rfl, rfl⟩, fun _ hx => absurd hx List.not_mem_nil⟩
  | ok namespaces =>
    cases hpolicy : CleanupPolicy.ofConfig config with
    | error x =>
      rw [run_of_ofConfig registry config hnamespaces hpolicy] at hran
      cases hran
    | ok policy =>
      rw [run_eq registry config hnamespaces hpolicy] at hran hserved ⊢
      obtain ⟨report, σ₁, hfirst, hrest⟩ := exists_of_run_bind hran
      cases hrest
      rw [trace_bind_of_ok hfirst] at hserved
      obtain ⟨-, -, hdealt⟩ := deals_reapKinds registry namespaces config.resourceTypes _ _ _ _ hfirst
        fun x hx => hserved x (List.mem_append_left _ hx)
      rw [← hlisters] at hdealt
      obtain ⟨⟨report', τ', hsecond, -⟩, hlists⟩ :=
        rests_reapKinds registry namespaces config.resourceTypes τ _ hdealt
      rw [run_bind_of_ok hsecond, trace_bind_of_ok hsecond]
      exact ⟨⟨_, τ', rfl, rfl⟩, fun x hx => hlists x ((List.mem_append.1 hx).resolve_right nofun)⟩

end

end Cleanup

namespace Pass
variable {registry : Registry} {s : Schedule} {ns : String} {z : Zone} {now : Instant}
  {σ σ' τ : MemoryStore}

/-- The cleanup of a pass breaks off in telling whether it is due, is left out, or is the configured
one. -/
theorem cleanupOf_cases (registry : Registry) (s : Schedule) (ns : String) (z : Zone) (now : Instant) :
    (∃ x, cleanupOf registry s ns z now = .abort x) ∨
    cleanupOf registry s ns z now = pure none ∨
    ∃ config, cleanupOf registry s ns z now = some <$> (Cleanup.run registry config ns now).run := by
  unfold cleanupOf cleanupResult
  cases isDue s.spec.cleanup z s.recorded.lastCleanup now with
  | error x => exact .inl ⟨x, rfl⟩
  | ok due =>
    cases due with
    | false => exact .inr (.inl rfl)
    | true =>
      cases s.spec.cleanupConfig with
      | none => exact .inr (.inl rfl)
      | some config => exact .inr (.inr ⟨config, rfl⟩)

/-- The cleanup of a pass that is run again over the resources that it has left, with no call failing
before: it only lists, and comes to a report if it did before. -/
theorem cleans_again {result : Option (Except Failure CleanupReport)}
    (hcleaned : (cleanupOf registry s ns z now).run handler σ = (.ok result, σ'))
    (hserved : ∀ x ∈ (cleanupOf registry s ns z now).trace handler σ, x.failure? = none)
    (hlisters : τ.listers = σ'.listers) :
    (∃ result' τ', (cleanupOf registry s ns z now).run handler τ = (.ok result', τ') ∧
        result'.map (Except.map fun _ => ()) = result.map (Except.map fun _ => ())) ∧
      ∀ x ∈ (cleanupOf registry s ns z now).trace handler τ, x.call.IsListing := by
  rcases cleanupOf_cases registry s ns z now with ⟨x, h⟩ | h | ⟨config, h⟩
  · rw [h] at hcleaned
    cases hcleaned
  · rw [h] at hcleaned ⊢
    cases hcleaned
    exact ⟨⟨none, τ, rfl, rfl⟩, fun _ hx => absurd hx List.not_mem_nil⟩
  · rw [h, map_eq_pure_bind] at hcleaned hserved ⊢
    obtain ⟨report, σ₁, hfirst, hrest⟩ := exists_of_run_bind hcleaned
    cases hrest
    rw [trace_bind_of_ok hfirst] at hserved
    obtain ⟨⟨report', τ', hsecond, hsame⟩, hlists⟩ := Cleanup.cleans_again hfirst
      (fun x hx => hserved x (List.mem_append_left _ hx)) hlisters
    rw [run_bind_of_ok hsecond, trace_bind_of_ok hsecond]
    exact ⟨⟨_, τ', rfl, congrArg some hsame⟩,
      fun x hx => hlists x ((List.mem_append.1 hx).resolve_right nofun)⟩

end Pass

end ScheduledScaling
