import ScheduledScaling.Proofs.Ledger
/-!
# Live runs in which something fails

A live run takes away what is due at the places that it can list, unless a deletion fails, and counts
what it takes away. `Cleared` says so of a run that has dealt with some places; what fails at one place
does not keep the run from going on to the next (`clears_reapKinds`).
-/
namespace ScheduledScaling

open Program MemoryStore Cleanup

/-- The deletion of a resource fails. -/
def MemoryLister.resists (l : MemoryLister) (c : Candidate) : Bool := l.failDeleteOf.contains c.name

theorem MemoryLister.Like.resists_eq {l l' : MemoryLister} (h : Like l l') :
    l'.resists = l.resists := by
  funext c
  rw [resists, resists, h.failDeleteOf]

namespace Cleanup
open CleanupPolicy MemoryLister
variable {kind : String} {policy : CleanupPolicy} {selector : Option String} {now : Instant}
  {r : CleanupReport} {σ σ₀ : MemoryStore} {l l₀ : MemoryLister} {places : List Place}
  {ns : Option String}

/-! ## A live run at one place -/

/-- A deletion that fails is noted, and takes nothing away. -/
theorem run_reapOne_of_resists {candidate : Candidate} (hlive : r.dryRun = false)
    (hdue : policy.shouldRemove candidate now = .ok true) (hl : lister? kind σ.listers = some l)
    (hresists : l.resists candidate = true) :
    ∃ σ', (reapOne kind policy now candidate r).run handler σ =
        (.ok (r.failed ⟨candidate.kind, candidate.ns, outage.message⟩), σ') ∧
      Acts kind l l σ.listers σ'.listers := by
  obtain ⟨hanswer, hacts⟩ : (handler (.delete kind candidate) σ).1 = _ ∧ _ := handler_delete hl
  have hdelete : l.delete candidate = (.error outage, l) := if_pos hresists
  rw [hdelete] at hanswer hacts
  have hrun : (Operation.delete kind candidate).run.run handler σ =
      (.ok (.error outage), (handler (.delete kind candidate) σ).2) :=
    Prod.ext (congrArg Except.ok hanswer) rfl
  refine ⟨_, ?_, hacts⟩
  unfold reapOne
  rw [hdue]
  change Program.run handler (if r.dryRun = true then _ else _) σ = _
  rw [hlive, if_neg (by decide), run_bind_of_ok hrun]
  rfl

/-- A live run takes away a resource, and counts it, if it is due and its deletion does not fail. -/
theorem live_reapOne {candidate : Candidate} {due : Bool} (hlive : r.dryRun = false)
    (hdue : policy.shouldRemove candidate now = .ok due) (hl : lister? kind σ.listers = some l) :
    ∃ r' σ' l', (reapOne kind policy now candidate r).run handler σ = (.ok r', σ') ∧
      Acts kind l l' σ.listers σ'.listers ∧ Like l l' ∧ r'.dryRun = false ∧
      r'.count = r.count + (if due && !l.resists candidate then 1 else 0) ∧
      l'.items = if due && !l.resists candidate then
        l.items.filter fun c => !sameResource c candidate else l.items := by
  cases hresists : l.resists candidate with
  | true =>
    rw [Bool.not_true, Bool.and_false]
    cases due with
    | false =>
      refine ⟨r, σ, l, ?_, .refl hl, .refl l, hlive, rfl, rfl⟩
      unfold reapOne
      rw [hdue]
      rfl
    | true =>
      obtain ⟨σ', hrun, hacts⟩ := run_reapOne_of_resists hlive hdue hl hresists
      exact ⟨_, σ', l, hrun, hacts, .refl l, hlive, rfl, rfl⟩
  | false =>
    have hname : candidate.name ∉ l.failDeleteOf := by simpa [resists] using hresists
    obtain ⟨σ', l', hrun, hacts, hlike, hitems⟩ := run_reapOne (r := r) hdue hl hname
    rw [hlive, Bool.not_false, Bool.and_true] at hitems
    rw [Bool.not_false, Bool.and_true]
    refine ⟨_, σ', l', hrun, hacts, hlike, ?_, ?_, hitems⟩
    · cases due <;> exact hlive
    · cases due <;> rfl

theorem live_reapAll {candidates : List Candidate} (hlive : r.dryRun = false)
    (hverdict : policy.verdict now candidates = .ok ()) (hl : lister? kind σ.listers = some l) :
    ∃ r' σ' l', (reapAll kind policy now candidates r).run handler σ = (.ok r', σ') ∧
      Acts kind l l' σ.listers σ'.listers ∧ Like l l' ∧ r'.dryRun = false ∧
      r'.count = r.count +
        ((candidates.filter fun c => !l.resists c).filter (policy.removes now)).length ∧
      l'.items = left policy now (candidates.filter fun c => !l.resists c) l.items := by
  induction candidates generalizing r σ l with
  | nil =>
    refine ⟨r, σ, l, rfl, .refl hl, .refl l, hlive, rfl, ?_⟩
    simp [left]
  | cons candidate rest ih =>
    rw [reapAll]
    rw [verdict] at hverdict
    cases hdue : policy.shouldRemove candidate now with
    | error y =>
      rw [hdue] at hverdict
      cases hverdict
    | ok due =>
      rw [hdue] at hverdict
      have hremoves : policy.removes now candidate = due := by rw [removes, hdue]
      obtain ⟨r₁, σ₁, l₁, hone, hacts₁, hlike₁, hlive₁, hcount₁, hitems₁⟩ :=
        live_reapOne hlive hdue hl
      have hpresent : lister? kind σ₁.listers = some l₁ := (hacts₁.listers kind).trans (if_pos rfl)
      obtain ⟨r', σ', l', hrun, hacts, hlike, hlive', hcount, hitems⟩ := ih hlive₁ hverdict hpresent
      refine ⟨r', σ', l', (run_bind_of_ok hone).trans hrun, hacts₁.trans hacts,
        hlike₁.trans hlike, hlive', ?_, ?_⟩
      · rw [hcount, hcount₁, hlike₁.resists_eq]
        cases hresists : l.resists candidate <;> cases due <;> simp [hresists, hremoves]
        omega
      · rw [hitems, hitems₁, hlike₁.resists_eq]
        cases hresists : l.resists candidate <;> simp [hresists, left_cons, hremoves]

/-- What a live run takes away at a place: what is shown there, is due and does not resist. -/
def takenAt (policy : CleanupPolicy) (now : Instant) (l : MemoryLister) (ns : Option String)
    (c : Candidate) : Bool :=
  !l.refuses ns && (l.shows ns c && !l.resists c && policy.removes now c)

theorem takenAt_of_answers (hrefuses : l.refuses ns = false) :
    takenAt policy now l ns = fun c => l.shows ns c && !l.resists c && policy.removes now c := by
  funext c
  rw [takenAt, hrefuses, Bool.not_false, Bool.true_and]

theorem takenAt_of_refuses (hrefuses : l.refuses ns = true) :
    takenAt policy now l ns = fun _ => false := by
  funext c
  rw [takenAt, hrefuses, Bool.not_true, Bool.false_and]

theorem takenAt_of_like (h : Like l₀ l) : takenAt policy now l ns = takenAt policy now l₀ ns := by
  funext c
  rw [takenAt, takenAt, h.refuses_eq, h.shows_eq, h.resists_eq]

/-- A live run at a place that can be listed takes away and counts what it should. -/
theorem live_reapScope (hlive : r.dryRun = false) (hl : lister? kind σ.listers = some l)
    (hrefuses : l.refuses ns = false)
    (hverdict : policy.verdict now (l.items.filter (l.shows ns)) = .ok ())
    (hunique : (l.items.map fun c => (c.name, c.ns)).Nodup) :
    ∃ r' σ' l', (reapScope kind policy selector now ns r).run handler σ = (.ok r', σ') ∧
      Acts kind l l' σ.listers σ'.listers ∧ Like l l' ∧ r'.dryRun = false ∧
      r'.count = r.count + (l.items.filter (takenAt policy now l ns)).length ∧
      l'.items = l.items.filter fun c => !takenAt policy now l ns c := by
  rw [takenAt_of_answers hrefuses]
  obtain ⟨σ₁, hrun₁, hacts₁⟩ : ∃ σ₁ : MemoryStore,
      (reapScope kind policy selector now ns r).run handler σ = _ ∧
        Acts kind l (l.asked ns selector) σ.listers σ₁.listers := run_reapScope_of_answers hl hrefuses
  have hpresent : lister? kind σ₁.listers = some (l.asked ns selector) :=
    (hacts₁.listers kind).trans (if_pos rfl)
  obtain ⟨r', σ', l', hrun, hacts, hlike, hlive', hcount, hitems⟩ :=
    live_reapAll hlive hverdict hpresent
  have hshown : (l.items.filter (l.shows ns)).filter (fun c => !(l.asked ns selector).resists c) =
      l.items.filter fun c => l.shows ns c && !l.resists c := by
    rw [List.filter_filter]
    simp only [Bool.and_comm]
    rfl
  rw [hshown] at hcount hitems
  refine ⟨r', σ', l', hrun₁.trans hrun, hacts₁.trans hacts, (like_asked ..).trans hlike, hlive',
    ?_, ?_⟩
  · rw [hcount, List.filter_filter]
    simp only [Bool.and_comm]
  · exact hitems.trans (left_filter _ hunique)

/-! ## The state of a live run -/

/-- The resources that a live run has taken away after some places. -/
def taken (policy : CleanupPolicy) (now : Instant) (l : MemoryLister) (places : List Place)
    (kind : String) (c : Candidate) : Bool :=
  gone policy now l places kind c && !l.resists c

/-- A live run that has dealt with some places: the listers have what they had at first, less what is
taken, and that is what is counted. -/
structure Cleared (policy : CleanupPolicy) (now : Instant) (σ₀ : MemoryStore) (places : List Place)
    (σ : MemoryStore) (r : CleanupReport) : Prop where
  live : r.dryRun = false
  listers : ∀ kind l₀, lister? kind σ₀.listers = some l₀ → ∃ l, lister? kind σ.listers = some l ∧
    Like l₀ l ∧ l.items = l₀.items.filter fun c => !taken policy now l₀ places kind c
  unlisted : ∀ kind, lister? kind σ₀.listers = none → lister? kind σ.listers = none
  size : size σ.listers + r.count = size σ₀.listers
  /-- Where nothing is taken, nothing is counted. -/
  idle : (∀ kind l₀, lister? kind σ₀.listers = some l₀ → ∀ c ∈ l₀.items,
    taken policy now l₀ places kind c = false) → r.count = 0

theorem cleared_start : Cleared policy now σ [] σ ⟨0, false, []⟩ where
  live := rfl
  listers kind l hl := ⟨l, hl, .refl l, by simp [taken, gone]⟩
  unlisted _ h := h
  size := rfl
  idle _ := rfl

theorem taken_append {p : Place} {c : Candidate} :
    taken policy now l (places ++ [p]) kind c =
      (taken policy now l places kind c || decide (p.1 = kind) && takenAt policy now l p.2 c) := by
  rw [taken, taken, gone_append, takenAt]
  cases gone policy now l places kind c <;> cases l.resists c <;> cases policy.removes now c <;>
    simp [Bool.and_assoc]

theorem Cleared.failed (h : Cleared policy now σ₀ places σ r) (failure : CleanupFailure) :
    Cleared policy now σ₀ places σ (r.failed failure) :=
  ⟨h.live, h.listers, h.unlisted, h.size, h.idle⟩

/-- A live run goes on to a place of a kind: only the lister of this kind has changed. -/
theorem Cleared.next {l' : MemoryLister} {σ' : MemoryStore} {r' : CleanupReport}
    (h : Cleared policy now σ₀ places σ r) (hl₀ : lister? kind σ₀.listers = some l₀)
    (hlike : Like l₀ l)
    (hitems : l.items = l₀.items.filter fun c => !taken policy now l₀ places kind c)
    (hacts : Acts kind l l' σ.listers σ'.listers) (hlike' : Like l l') (hlive : r'.dryRun = false)
    (hcount : r'.count = r.count + (l.items.filter (takenAt policy now l ns)).length)
    (hleft : l'.items = l.items.filter fun c => !takenAt policy now l ns c) :
    Cleared policy now σ₀ (places ++ [(kind, ns)]) σ' r' where
  live := hlive
  listers k l₁ hl₁ := by
    by_cases hk : k = kind
    · subst hk
      obtain rfl := Option.some.inj (hl₀.symm.trans hl₁)
      refine ⟨l', (hacts.listers k).trans (if_pos rfl), hlike.trans hlike', ?_⟩
      rw [hleft, hitems, List.filter_filter]
      refine List.filter_congr fun c _ => ?_
      rw [taken_append, takenAt_of_like hlike, decide_eq_true rfl, Bool.true_and, Bool.not_or,
        Bool.and_comm]
    · -- the lister of another kind is as it was
      obtain ⟨l₂, hl₂, hlike₂, hitems₂⟩ := h.listers k l₁ hl₁
      refine ⟨l₂, ((hacts.listers k).trans (if_neg hk)).trans hl₂, hlike₂, hitems₂.trans ?_⟩
      refine List.filter_congr fun c _ => congrArg (!·) ?_
      rw [taken_append, decide_eq_false (Ne.symm hk), Bool.false_and, Bool.or_false]
  unlisted k hk := by
    have hne : k ≠ kind := by
      rintro rfl
      rw [hl₀] at hk
      cases hk
    exact ((hacts.listers k).trans (if_neg hne)).trans (h.unlisted k hk)
  size := by
    have hsize := hacts.size
    have hbefore := h.size
    have hlength := List.length_eq_length_filter_add (l := l.items) (takenAt policy now l ns)
    rw [← hleft] at hlength
    omega
  idle hnone := by
    have hbefore : r.count = 0 := by
      refine h.idle fun k l₁ hl₁ c hc => ?_
      have hc := hnone k l₁ hl₁ c hc
      rw [taken_append, Bool.or_eq_false_iff] at hc
      exact hc.1
    have hfound : l.items.filter (takenAt policy now l ns) = [] := by
      rw [List.filter_eq_nil_iff]
      intro c hc
      rw [hitems] at hc
      have hc := hnone kind l₀ hl₀ c (List.mem_filter.1 hc).1
      rw [taken_append, decide_eq_true rfl, Bool.true_and, Bool.or_eq_false_iff] at hc
      rw [takenAt_of_like hlike, hc.2]
      decide
    rw [hcount, hbefore, hfound]
    rfl

/-! ## Steps of a live run -/

/-- A step takes a live run from some places to others, and does not break off. -/
def Clears (policy : CleanupPolicy) (now : Instant) (σ₀ : MemoryStore) (places next : List Place)
    (step : CleanupReport → Program CleanupReport) : Prop :=
  ∀ σ r, Cleared policy now σ₀ places σ r →
    ∃ r' σ', (step r).run handler σ = (.ok r', σ') ∧ Cleared policy now σ₀ next σ' r'

theorem clears_done : Clears policy now σ₀ places places fun r => pure r :=
  fun σ r h => ⟨r, σ, rfl, h⟩

theorem clears_failed (failure : CleanupFailure) :
    Clears policy now σ₀ places places fun r => pure (r.failed failure) :=
  fun σ r h => ⟨r.failed failure, σ, rfl, h.failed failure⟩

theorem Clears.bind {next last : List Place} {step step' : CleanupReport → Program CleanupReport}
    (h : Clears policy now σ₀ places next step) (h' : Clears policy now σ₀ next last step') :
    Clears policy now σ₀ places last fun r => step r >>= step' := by
  intro σ r hcleared
  obtain ⟨r', σ', hrun, hcleared'⟩ := h σ r hcleared
  obtain ⟨r'', σ'', hrun', hcleared''⟩ := h' σ' r' hcleared'
  exact ⟨r'', σ'', (run_bind_of_ok hrun).trans hrun', hcleared''⟩

section
/-! The resources of a kind differ in name or namespace, and the policy decides about all of them. -/
variable (hunique : ∀ kind l, lister? kind σ₀.listers = some l →
    (l.items.map fun c => (c.name, c.ns)).Nodup)
  (hdecided : ∀ kind l, lister? kind σ₀.listers = some l → ∀ c ∈ l.items,
    (policy.shouldRemove c now).isOk)
include hunique hdecided

theorem clears_reapScope (hl₀ : lister? kind σ₀.listers = some l₀) (ns : Option String) :
    Clears policy now σ₀ places (places ++ [(kind, ns)])
      (reapScope kind policy selector now ns) := by
  intro σ r h
  obtain ⟨l, hl, hlike, hitems⟩ := h.listers kind l₀ hl₀
  cases hrefuses : l.refuses ns with
  | true =>
    obtain ⟨σ', hrun, hacts⟩ : ∃ σ' : MemoryStore,
        (reapScope kind policy selector now ns r).run handler σ = _ ∧
          Acts kind l (l.asked ns selector) σ.listers σ'.listers :=
      run_reapScope_of_refuses hl hrefuses
    refine ⟨_, σ', hrun, h.next hl₀ hlike hitems hacts (like_asked ..) h.live ?_ ?_⟩
    · simp [takenAt_of_refuses hrefuses, CleanupReport.failed]
    · simp [takenAt_of_refuses hrefuses, MemoryLister.asked]
  | false =>
    have hsub : ∀ c ∈ l.items, c ∈ l₀.items := by
      intro c hc
      rw [hitems] at hc
      exact (List.mem_filter.1 hc).1
    have hverdict : policy.verdict now (l.items.filter (l.shows ns)) = .ok () :=
      verdict_eq_ok_iff.2 fun c hc => hdecided kind l₀ hl₀ c (hsub c (List.mem_filter.1 hc).1)
    have hnodup : (l.items.map fun c => (c.name, c.ns)).Nodup := by
      rw [hitems]
      exact (hunique kind l₀ hl₀).sublist (List.filter_sublist.map _)
    obtain ⟨r', σ', l', hrun, hacts, hlike', hlive, hcount, hleft⟩ :
        ∃ r' σ' l', (reapScope kind policy selector now ns r).run handler σ = (.ok r', σ') ∧ _ :=
      live_reapScope h.live hl hrefuses hverdict hnodup
    exact ⟨r', σ', hrun, h.next hl₀ hlike hitems hacts hlike' hlive hcount hleft⟩

theorem clears_reapScopes (hl₀ : lister? kind σ₀.listers = some l₀) (scopes : List (Option String)) :
    Clears policy now σ₀ places (places ++ scopes.map (kind, ·))
      (reapScopes kind policy selector now scopes) := by
  induction scopes generalizing places with
  | nil =>
    rw [List.map_nil, List.append_nil]
    exact clears_done
  | cons ns rest ih =>
    rw [List.map_cons, ← List.singleton_append, ← List.append_assoc]
    exact (clears_reapScope hunique hdecided hl₀ ns).bind ih

theorem clears_reapKinds (namespaces kinds : List String) :
    Clears policy now σ₀ places (places ++ placesOf σ₀ namespaces kinds)
      (reapKinds σ₀.registry policy selector now namespaces kinds) := by
  induction kinds generalizing places with
  | nil =>
    rw [placesOf, List.flatMap_nil, List.append_nil]
    exact clears_done
  | cons kind rest ih =>
    have hget := get?_registry σ₀ kind
    rw [placesOf, List.flatMap_cons, ← List.append_assoc, ← placesOf, placesAt]
    change Clears policy now σ₀ _ _ fun r =>
      reapKinds _ policy selector now namespaces (kind :: rest) r
    unfold reapKinds
    cases hl₀ : lister? kind σ₀.listers with
    | none =>
      rw [hl₀] at hget
      rw [hget, List.append_nil]
      exact (clears_failed _).bind ih
    | some l₀ =>
      rw [hl₀] at hget
      rw [hget]
      exact (clears_reapScopes hunique hdecided hl₀ _).bind ih

end

end Cleanup

end ScheduledScaling
