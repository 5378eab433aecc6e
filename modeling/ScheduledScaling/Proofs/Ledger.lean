import Mathlib.Algebra.BigOperators.Group.Finset.Basic
import Mathlib.Algebra.GroupWithZero.Nat
import ScheduledScaling.Proofs.Removals
/-!
# The ledger of a cleanup

A cleanup looks at one place after the other. `Ledger` says what a run, dry or live, has counted
after some places, and what it has left in the store, in terms of the store at the beginning. Each
step of a cleanup takes it from some places to others (`Advances`), and comes to the same in a dry
run and in a live one but for the count (`advances_reapKinds`).
-/
namespace ScheduledScaling

open Program MemoryStore

/-- The counter of a report can hold a number. -/
def CounterHolds (n : Nat) : Prop := (n : Int) ≤ Word.high32

instance (n : Nat) : Decidable (CounterHolds n) := Int.decLe _ _

/-- A report counts so many resources, if its counter can hold them. It only counts up, so it has not
left its word on the way there. -/
def CleanupReport.Counts (r : CleanupReport) (n : Nat) : Prop := CounterHolds n → r.count = n

/-- A report whose count makes up for what is no longer there counts what was removed. -/
theorem CleanupReport.counts_removed {r : CleanupReport} {left before : Nat}
    (h : left + r.count = before) : left ≤ before ∧ r.Counts (before - left) :=
  ⟨by omega, fun _ => by omega⟩

namespace Cleanup
open CleanupPolicy MemoryLister
variable {kind : String} {policy : CleanupPolicy} {selector : Option String} {now : Instant}
  {r : CleanupReport} {σ : MemoryStore} {l : MemoryLister}

/-! ## Places -/

/-- Where a listing looks: a kind, and a namespace unless the kind lives outside namespaces. -/
abbrev Place := String × Option String

/-- How many resources of a store are due at a place. -/
def dueAt (policy : CleanupPolicy) (now : Instant) (σ : MemoryStore) (p : Place) : Nat :=
  match lister? p.1 σ.listers with
  | none => 0
  | some l =>
    if l.refuses p.2 then 0
    else (l.items.filter fun c => l.shows p.2 c && policy.removes now c).length

/-- The resources that a live run has taken away after some places. -/
def gone (policy : CleanupPolicy) (now : Instant) (l : MemoryLister) (places : List Place)
    (kind : String) (c : Candidate) : Bool :=
  policy.removes now c && places.any fun p => p.1 = kind && !l.refuses p.2 && l.shows p.2 c

/-- What is counted after some places: in a dry run each of them, in a live run each once. -/
def tally (policy : CleanupPolicy) (now : Instant) (σ : MemoryStore) (dry : Bool)
    (places : List Place) : Nat :=
  if dry then (places.map (dueAt policy now σ)).sum
  else ∑ p ∈ places.toFinset, dueAt policy now σ p

/-- The places whose due resources have been taken away: none in a dry run. -/
def emptied (dry : Bool) (places : List Place) : List Place := if dry then [] else places

variable {places : List Place} {p : Place} {ns : Option String} {dry : Bool}

theorem tally_append (policy : CleanupPolicy) (now : Instant) (σ : MemoryStore) (dry : Bool)
    (places : List Place) (p : Place) :
    tally policy now σ dry (places ++ [p]) = tally policy now σ dry places +
      if p ∈ emptied dry places then 0 else dueAt policy now σ p := by
  cases dry with
  | true => simp [tally, emptied]
  | false =>
    simp only [tally, emptied, Bool.false_eq_true, if_false]
    rw [List.toFinset_append, List.toFinset_cons, List.toFinset_nil]
    by_cases hp : p ∈ places
    · rw [if_pos hp, Finset.union_eq_left.2 (by simpa using hp), Nat.add_zero]
    · rw [if_neg hp, Finset.sum_union (by simpa using hp)]
      simp

/-! ## The state of a run -/

/-- A lister is asked in namespaces exactly if its kind lives in them, and about what it shows in this
one every decision can be made. -/
structure Surveyed (policy : CleanupPolicy) (now : Instant) (l : MemoryLister)
    (ns : Option String) : Prop where
  fits : ns = none ↔ l.scope = .cluster
  decided : l.refuses ns = false → policy.verdict now (l.items.filter (l.shows ns)) = .ok ()

/-- A run that has dealt with some places, dry or live: its count is the tally of these places, and
the listers have what they had at first, less what is gone. -/
structure Ledger (policy : CleanupPolicy) (now : Instant) (σ₀ : MemoryStore) (dry : Bool)
    (places : List Place) (σ : MemoryStore) (r : CleanupReport) : Prop where
  mode : r.dryRun = dry
  count : r.count = tally policy now σ₀ dry places
  listers : ∀ kind l₀, lister? kind σ₀.listers = some l₀ → ∃ l, lister? kind σ.listers = some l ∧
    Like l₀ l ∧ l.items = l₀.items.filter fun c => !gone policy now l₀ (emptied dry places) kind c
  size : size σ.listers + (if dry then 0 else r.count) = size σ₀.listers
  -- a run that has come to a place again does not break off there
  surveyed : ∀ p ∈ places, ∀ l₀, lister? p.1 σ₀.listers = some l₀ → Surveyed policy now l₀ p.2

variable {σ₀ : MemoryStore} {l₀ : MemoryLister}

/-- What a listing shows at one place is gone through no other place. -/
theorem gone_eq_false {c : Candidate} (hfits : ns = none ↔ l₀.scope = .cluster)
    (hplaces : ∀ p ∈ places, p.1 = kind → (p.2 = none ↔ l₀.scope = .cluster))
    (hp : (kind, ns) ∉ places) (hshows : l₀.shows ns c) :
    gone policy now l₀ places kind c = false := by
  rw [gone, Bool.and_eq_false_iff]
  refine .inr (List.any_eq_false.2 fun p hmem hcond => hp ?_)
  simp only [Bool.and_eq_true, decide_eq_true_eq] at hcond
  obtain ⟨⟨hkind, -⟩, hshows'⟩ := hcond
  have hfits' := hplaces p hmem hkind
  have hns : p.2 = ns := by
    by_cases hscope : l₀.scope = .cluster
    · rw [hfits.2 hscope, hfits'.2 hscope]
    · -- the resource lives in both namespaces
      simp only [MemoryLister.shows, hscope, false_or, decide_eq_true_eq] at hshows hshows'
      rw [← hshows.resolve_left (mt hfits.1 hscope), hshows'.resolve_left (mt hfits'.1 hscope)]
  rw [← hkind, ← hns]
  exact hmem

/-- Nothing that a listing shows at a new place is gone. -/
theorem shown_of_new (hfits : ns = none ↔ l₀.scope = .cluster)
    (hplaces : ∀ p ∈ places, p.1 = kind → (p.2 = none ↔ l₀.scope = .cluster))
    (hp : (kind, ns) ∉ places) :
    (l₀.items.filter (l₀.shows ns)).filter (fun c => !gone policy now l₀ places kind c) =
      l₀.items.filter (l₀.shows ns) := by
  rw [List.filter_eq_self]
  intro c hc
  rw [gone_eq_false hfits hplaces hp (List.mem_filter.1 hc).2]
  rfl

/-- Nothing that a listing still shows at a place that comes up again is due. -/
theorem not_due_of_mem (hrefuses : l₀.refuses ns = false) (hp : (kind, ns) ∈ places) :
    ((l₀.items.filter (l₀.shows ns)).filter fun c => !gone policy now l₀ places kind c).filter
      (policy.removes now) = [] := by
  rw [List.filter_eq_nil_iff]
  intro c hc hremoves
  obtain ⟨hc, hkept⟩ := List.mem_filter.1 hc
  have hgone : gone policy now l₀ places kind c = true := by
    rw [gone, hremoves, Bool.true_and, List.any_eq_true]
    exact ⟨_, hp, by simp [hrefuses, (List.mem_filter.1 hc).2]⟩
  rw [hgone] at hkept
  cases hkept

/-- What a run finds at a place: the decisions are those of the beginning, and what is due is what
was due then, unless it has been taken away. -/
theorem Ledger.found (h : Ledger policy now σ₀ dry places σ r)
    (hl₀ : lister? kind σ₀.listers = some l₀) (hl : Like l₀ l)
    (hitems : l.items =
      l₀.items.filter fun c => !gone policy now l₀ (emptied dry places) kind c)
    (hfits : ns = none ↔ l₀.scope = .cluster) (hrefuses : l₀.refuses ns = false) :
    policy.verdict now (l.items.filter (l.shows ns)) =
        policy.verdict now (l₀.items.filter (l₀.shows ns)) ∧
      ((l.items.filter (l.shows ns)).filter (policy.removes now)).length =
        if (kind, ns) ∈ emptied dry places then 0 else dueAt policy now σ₀ (kind, ns) := by
  have hsub : ∀ p ∈ emptied dry places, p ∈ places := by
    intro p hp
    cases dry with
    | true => cases hp
    | false => exact hp
  have hshown : l.items.filter (l.shows ns) = (l₀.items.filter (l₀.shows ns)).filter
      fun c => !gone policy now l₀ (emptied dry places) kind c := by
    rw [hitems, hl.shows_eq, List.filter_filter, List.filter_filter]
    simp only [Bool.and_comm]
  rw [hshown]
  by_cases hp : (kind, ns) ∈ emptied dry places
  · -- what is due at the place is gone, and about the rest nothing has changed
    have hverdict := (h.surveyed _ (hsub _ hp) l₀ hl₀).decided hrefuses
    rw [if_pos hp, hverdict, not_due_of_mem hrefuses hp]
    refine ⟨verdict_eq_ok_iff.2 fun c hc => ?_, rfl⟩
    exact verdict_eq_ok_iff.1 hverdict c (List.mem_filter.1 hc).1
  · have hplaces : ∀ p ∈ emptied dry places, p.1 = kind → (p.2 = none ↔ l₀.scope = .cluster) :=
      fun p hmem hkind => (h.surveyed p (hsub p hmem) l₀ (hkind ▸ hl₀)).fits
    rw [if_neg hp, shown_of_new hfits hplaces hp, dueAt, hl₀]
    simp only [hrefuses, Bool.false_eq_true, if_false, List.filter_filter, Bool.and_comm, and_self]

/-! ## Steps of a run -/

/-- A step takes a run from some places to others, and comes to the same dry and live, but for the
count: it breaks off in the same way, or it notes the same failures. -/
def Advances (policy : CleanupPolicy) (now : Instant) (σ₀ : MemoryStore) (places next : List Place)
    (step : CleanupReport → Program CleanupReport) : Prop :=
  (∃ x, ∀ dry σ r, Ledger policy now σ₀ dry places σ r → ((step r).run handler σ).1 = .error x) ∨
  ∃ failures, ∀ dry σ r, Ledger policy now σ₀ dry places σ r →
    ∃ r' σ', (step r).run handler σ = (.ok r', σ') ∧ r'.failures = r.failures ++ failures ∧
      Ledger policy now σ₀ dry next σ' r'

theorem advances_done : Advances policy now σ₀ places places fun r => pure r :=
  .inr ⟨[], fun _ σ r h => ⟨r, σ, rfl, (List.append_nil _).symm, h⟩⟩

theorem Advances.bind {next last : List Place} {step step' : CleanupReport → Program CleanupReport}
    (h : Advances policy now σ₀ places next step) (h' : Advances policy now σ₀ next last step') :
    Advances policy now σ₀ places last fun r => step r >>= step' := by
  rcases h with ⟨x, hbreak⟩ | ⟨failures, hstep⟩
  · refine .inl ⟨x, fun dry σ r hledger => ?_⟩
    have hrun : (step r).run handler σ = (.error x, ((step r).run handler σ).2) :=
      Prod.ext (hbreak dry σ r hledger) rfl
    rw [run_bind_of_error hrun]
  rcases h' with ⟨x, hbreak⟩ | ⟨failures', hstep'⟩
  · refine .inl ⟨x, fun dry σ r hledger => ?_⟩
    obtain ⟨r', σ', hrun, -, hledger'⟩ := hstep dry σ r hledger
    rw [run_bind_of_ok hrun]
    exact hbreak dry σ' r' hledger'
  · refine .inr ⟨failures ++ failures', fun dry σ r hledger => ?_⟩
    obtain ⟨r', σ', hrun, hfailures, hledger'⟩ := hstep dry σ r hledger
    obtain ⟨r'', σ'', hrun', hfailures', hledger''⟩ := hstep' dry σ' r' hledger'
    refine ⟨r'', σ'', (run_bind_of_ok hrun).trans hrun', ?_, hledger''⟩
    rw [hfailures', hfailures, List.append_assoc]

theorem advances_failed (failure : CleanupFailure) :
    Advances policy now σ₀ places places fun r => pure (r.failed failure) :=
  .inr ⟨[failure], fun _ σ r h => ⟨r.failed failure, σ, rfl, rfl,
    ⟨h.mode, h.count, h.listers, h.size, h.surveyed⟩⟩⟩

/-! ## A place -/

theorem gone_append {c : Candidate} :
    gone policy now l (places ++ [p]) kind c = (gone policy now l places kind c ||
      policy.removes now c && (decide (p.1 = kind) && !l.refuses p.2 && l.shows p.2 c)) := by
  simp only [gone, List.any_append, List.any_cons, List.any_nil, Bool.or_false,
    Bool.and_or_distrib_left]

/-- A run goes on to a place of a kind: only the lister of this kind has changed. -/
theorem Ledger.next {l' : MemoryLister} {σ' : MemoryStore} {r' : CleanupReport} {found : Nat}
    (h : Ledger policy now σ₀ dry places σ r) (hl₀ : lister? kind σ₀.listers = some l₀)
    (hacts : Acts kind l l' σ.listers σ'.listers) (hlike : Like l₀ l')
    (hitems : l'.items =
      l₀.items.filter fun c => !gone policy now l₀ (emptied dry (places ++ [(kind, ns)])) kind c)
    (hfound : found = if (kind, ns) ∈ emptied dry places then 0 else dueAt policy now σ₀ (kind, ns))
    (hcount : r'.count = r.count + found) (hmode : r'.dryRun = r.dryRun)
    (hlength : l.items.length = l'.items.length + if dry then 0 else found)
    (hsurveyed : Surveyed policy now l₀ ns) :
    Ledger policy now σ₀ dry (places ++ [(kind, ns)]) σ' r' where
  mode := hmode.trans h.mode
  count := by rw [hcount, h.count, tally_append, hfound]
  listers k l₁ hl₁ := by
    by_cases hk : k = kind
    · subst hk
      obtain rfl := Option.some.inj (hl₀.symm.trans hl₁)
      exact ⟨l', (hacts.listers k).trans (if_pos rfl), hlike, hitems⟩
    · obtain ⟨l₂, hl₂, hlike₂, hitems₂⟩ := h.listers k l₁ hl₁
      refine ⟨l₂, ((hacts.listers k).trans (if_neg hk)).trans hl₂, hlike₂, hitems₂.trans ?_⟩
      refine List.filter_congr fun c _ => congrArg (!·) ?_
      cases dry with
      | true => rfl
      | false => simp [emptied, gone_append, Ne.symm hk]
  size := by
    have hsize := hacts.size
    have hbefore := h.size
    split at hbefore <;> rename_i hdry
    · rw [if_pos hdry] at hlength ⊢
      omega
    · rw [if_neg hdry] at hlength ⊢
      omega
  surveyed q hq l₁ hl₁ := by
    rcases List.mem_append.1 hq with hq | hq
    · exact h.surveyed q hq l₁ hl₁
    · obtain rfl := List.mem_singleton.1 hq
      obtain rfl := Option.some.inj (hl₀.symm.trans hl₁)
      exact hsurveyed

/-- A lister that refuses a listing is left as it was, and nothing is found. -/
theorem advances_of_refuses (hl₀ : lister? kind σ₀.listers = some l₀)
    (hfits : ns = none ↔ l₀.scope = .cluster) (hrefuses : l₀.refuses ns = true) :
    Advances policy now σ₀ places (places ++ [(kind, ns)])
      (reapScope kind policy selector now ns) := by
  refine .inr ⟨[⟨kind, ns, (injected 403 "Forbidden").message⟩], fun dry σ r h => ?_⟩
  obtain ⟨l, hl, hlike, hitems⟩ := h.listers kind l₀ hl₀
  obtain ⟨σ', hrun, hacts⟩ : ∃ σ' : MemoryStore,
      (reapScope kind policy selector now ns r).run handler σ = _ ∧
        Acts kind l (l.asked ns selector) σ.listers σ'.listers :=
    run_reapScope_of_refuses hl ((congrFun hlike.refuses_eq ns).trans hrefuses)
  have hsame {c : Candidate} : gone policy now l₀ (emptied dry (places ++ [(kind, ns)])) kind c =
      gone policy now l₀ (emptied dry places) kind c := by
    cases dry with
    | true => rfl
    | false => simp [emptied, gone_append, hrefuses]
  refine ⟨_, σ', hrun, rfl, h.next hl₀ hacts (hlike.trans (like_asked ..)) ?_ ?_
    (Nat.add_zero _).symm rfl ?_ ⟨hfits, fun h => ?_⟩⟩
  · simp only [hsame]
    exact hitems
  · simp [dueAt, hl₀, hrefuses]
  · split <;> rfl
  · rw [hrefuses] at h
    cases h

/-- The places at which a cleanup looks for a kind in some namespaces; none if nothing lists it. -/
def placesAt (σ : MemoryStore) (namespaces : List String) (kind : String) : List Place :=
  match lister? kind σ.listers with
  | none => []
  | some l => (scopesOf namespaces l.scope).map (kind, ·)

/-- The places at which it looks for some kinds, in order. -/
def placesOf (σ : MemoryStore) (namespaces kinds : List String) : List Place :=
  kinds.flatMap (placesAt σ namespaces)

theorem scopesOf_fits {scope : Scope} {namespaces : List String} :
    ∀ ns ∈ scopesOf namespaces scope, ns = none ↔ scope = .cluster := by
  cases scope <;> simp [scopesOf]

section
/-! The resources of a lister differ in name or namespace, and no deletion fails. -/
variable (hunique : ∀ l ∈ σ₀.listers, (l.items.map fun c => (c.name, c.ns)).Nodup)
  (hdelete : ∀ l ∈ σ₀.listers, ∀ c ∈ l.items, c.name ∉ l.failDeleteOf)
include hunique hdelete

/-- A run that goes on to a place where every decision can be made. -/
theorem Ledger.reaped (h : Ledger policy now σ₀ dry places σ r)
    (hl₀ : lister? kind σ₀.listers = some l₀) (hfits : ns = none ↔ l₀.scope = .cluster)
    (hrefuses : l₀.refuses ns = false)
    (hverdict : policy.verdict now (l₀.items.filter (l₀.shows ns)) = .ok ()) :
    ∃ r' σ', (reapScope kind policy selector now ns r).run handler σ = (.ok r', σ') ∧
      r'.failures = r.failures ∧ Ledger policy now σ₀ dry (places ++ [(kind, ns)]) σ' r' := by
  obtain ⟨l, hl, hlike, hitems⟩ := h.listers kind l₀ hl₀
  obtain ⟨hsame, hfound⟩ := h.found hl₀ hlike hitems hfits hrefuses
  have hmem : l₀ ∈ σ₀.listers := (mem_of_lister? hl₀).1
  have hnodup : (l.items.map fun c => (c.name, c.ns)).Nodup := by
    rw [hitems]
    exact (hunique l₀ hmem).sublist (List.filter_sublist.map _)
  have hname : ∀ c ∈ l.items, c.name ∉ l.failDeleteOf := by
    intro c hc
    rw [hitems] at hc
    rw [hlike.failDeleteOf]
    exact hdelete l₀ hmem c (List.mem_filter.1 hc).1
  obtain ⟨σ', l', hrun, hacts, hlike', hleft⟩ :
      ∃ σ' l', (reapScope kind policy selector now ns r).run handler σ = _ ∧ _ :=
    run_reapScope hl ((congrFun hlike.refuses_eq ns).trans hrefuses) (hsame.trans hverdict) hnodup
      hname
  rw [h.mode] at hleft
  refine ⟨_, σ', hrun, rfl,
    h.next hl₀ hacts (hlike.trans hlike') ?_ hfound rfl rfl ?_ ⟨hfits, fun _ => hverdict⟩⟩
  · cases dry with
    | true => exact hleft.trans hitems
    | false =>
      rw [hleft, if_neg (by decide), hitems, List.filter_filter]
      refine List.filter_congr fun c _ => ?_
      simp only [emptied, Bool.false_eq_true, if_false, gone_append, hrefuses, hlike.shows_eq]
      cases l₀.shows ns c <;> cases policy.removes now c <;> simp
  · cases dry with
    | true => exact congrArg List.length hleft.symm
    | false =>
      rw [hleft, if_neg (by decide), if_neg (by decide), List.filter_filter,
        List.length_eq_length_filter_add fun c => policy.removes now c && l.shows ns c,
        Nat.add_comm]
      simp only [Bool.and_comm]

/-- A lister that answers shows the same resources dry and live, less what is gone. -/
theorem advances_of_answers (hl₀ : lister? kind σ₀.listers = some l₀)
    (hfits : ns = none ↔ l₀.scope = .cluster) (hrefuses : l₀.refuses ns = false) :
    Advances policy now σ₀ places (places ++ [(kind, ns)])
      (reapScope kind policy selector now ns) := by
  cases hverdict : policy.verdict now (l₀.items.filter (l₀.shows ns)) with
  | error x =>
    refine .inl ⟨x, fun dry σ r h => ?_⟩
    obtain ⟨l, hl, hlike, hitems⟩ := h.listers kind l₀ hl₀
    obtain ⟨hsame, -⟩ := h.found hl₀ hlike hitems hfits hrefuses
    obtain ⟨σ', hrun, -⟩ : ∃ σ', (reapScope kind policy selector now ns r).run handler σ = _ ∧ _ :=
      run_reapScope_of_answers hl ((congrFun hlike.refuses_eq ns).trans hrefuses)
    rw [hrun]
    exact run_reapAll_of_error (hsame.trans hverdict)
  | ok u =>
    refine .inr ⟨[], fun dry σ r h => ?_⟩
    rw [List.append_nil]
    exact h.reaped hunique hdelete hl₀ hfits hrefuses hverdict

theorem advances_reapScope (hl₀ : lister? kind σ₀.listers = some l₀)
    (hfits : ns = none ↔ l₀.scope = .cluster) :
    Advances policy now σ₀ places (places ++ [(kind, ns)])
      (reapScope kind policy selector now ns) := by
  cases hrefuses : l₀.refuses ns with
  | true => exact advances_of_refuses hl₀ hfits hrefuses
  | false => exact advances_of_answers hunique hdelete hl₀ hfits hrefuses

/-! ## All places -/

theorem advances_reapScopes {scopes : List (Option String)}
    (hl₀ : lister? kind σ₀.listers = some l₀)
    (hfits : ∀ ns ∈ scopes, ns = none ↔ l₀.scope = .cluster) :
    Advances policy now σ₀ places (places ++ scopes.map (kind, ·))
      (reapScopes kind policy selector now scopes) := by
  induction scopes generalizing places with
  | nil =>
    rw [List.map_nil, List.append_nil]
    exact advances_done
  | cons ns rest ih =>
    obtain ⟨hns, hrest⟩ := List.forall_mem_cons.1 hfits
    rw [List.map_cons, ← List.singleton_append, ← List.append_assoc]
    exact (advances_reapScope hunique hdelete hl₀ hns).bind (ih hrest)

theorem advances_reapKinds {namespaces kinds : List String} :
    Advances policy now σ₀ places (places ++ placesOf σ₀ namespaces kinds)
      (reapKinds σ₀.registry policy selector now namespaces kinds) := by
  induction kinds generalizing places with
  | nil =>
    rw [placesOf, List.flatMap_nil, List.append_nil]
    exact advances_done
  | cons kind rest ih =>
    rw [placesOf, List.flatMap_cons, ← List.append_assoc, ← placesOf, placesAt]
    change Advances policy now σ₀ _ _ fun r =>
      reapKinds _ policy selector now namespaces (kind :: rest) r
    have hget := get?_registry σ₀ kind
    unfold reapKinds
    cases hl₀ : lister? kind σ₀.listers with
    | none =>
      rw [hl₀] at hget
      rw [hget, List.append_nil]
      exact (advances_failed _).bind ih
    | some l₀ =>
      rw [hl₀] at hget
      rw [hget]
      exact (advances_reapScopes hunique hdelete hl₀ scopesOf_fits).bind ih

end

end Cleanup

end ScheduledScaling
