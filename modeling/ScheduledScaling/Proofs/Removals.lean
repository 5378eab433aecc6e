import ScheduledScaling.Proofs.Deadlines
import ScheduledScaling.Proofs.Listers
/-!
# What a cleanup takes away

A dry run over some resources counts those that are due. A live run takes them out of the lister,
and leaves everything else as it is (`run_reapAll`).
-/
namespace ScheduledScaling

open Program MemoryStore

namespace Program
variable {α β σ : Type} {h : Handler σ} {p : Program α} {f : α → Program β} {before after : σ}

theorem run_bind_of_ok {a : α} (hp : p.run h before = (.ok a, after)) :
    (p >>= f).run h before = (f a).run h after := by
  change (p.bind f).run h before = _
  rw [run_bind, hp]

theorem run_bind_of_error {x : Overflow} (hp : p.run h before = (.error x, after)) :
    (p >>= f).run h before = (.error x, after) := by
  change (p.bind f).run h before = _
  rw [run_bind, hp]

/-- A program that comes to a value over a store, in two steps. -/
theorem exists_of_run_bind {b : β} (hrun : (p >>= f).run h before = (.ok b, after)) :
    ∃ a middle, p.run h before = (.ok a, middle) ∧ (f a).run h middle = (.ok b, after) := by
  cases hp : p.run h before with
  | mk result middle =>
    cases result with
    | error x =>
      rw [run_bind_of_error hp] at hrun
      cases hrun
    | ok a =>
      rw [run_bind_of_ok hp] at hrun
      exact ⟨a, middle, rfl, hrun⟩

end Program

/-! ## What the policy removes -/

namespace CleanupPolicy

/-- The policy decides that a resource has to go. -/
def removes (policy : CleanupPolicy) (now : Instant) (candidate : Candidate) : Bool :=
  match policy.shouldRemove candidate now with
  | .ok due => due
  | .error _ => false

/-- Deciding about some resources, which breaks off at the first about which the policy does not
decide. -/
def verdict (policy : CleanupPolicy) (now : Instant) : List Candidate → Except Overflow Unit
  | [] => .ok ()
  | candidate :: rest => do
    let _ ← policy.shouldRemove candidate now
    verdict policy now rest

variable {policy : CleanupPolicy} {now : Instant} {candidates : List Candidate}

theorem verdict_eq_ok_iff : verdict policy now candidates = .ok () ↔
    ∀ candidate ∈ candidates, (policy.shouldRemove candidate now).isOk := by
  induction candidates with
  | nil => simp [verdict]
  | cons candidate rest ih =>
    rw [verdict, List.forall_mem_cons, ← ih]
    cases policy.shouldRemove candidate now with
    | error x =>
      constructor
      · intro h
        cases h
      · intro h
        cases h.1
    | ok due => exact (and_iff_right (a := _ = true) rfl).symm

end CleanupPolicy

namespace MemoryLister

/-- Listing in a namespace fails. -/
def refuses (l : MemoryLister) (ns : Option String) : Bool := ns.any l.failListIn.contains

/-- A listing in a namespace has a resource. -/
def shows (l : MemoryLister) (ns : Option String) (c : Candidate) : Bool :=
  l.scope = .cluster ∨ ns = none ∨ c.ns = ns

/-- Two listers differ in their resources only, and in what has been asked of them. -/
structure Like (l l' : MemoryLister) : Prop where
  kind : l'.kind = l.kind
  scope : l'.scope = l.scope
  failListIn : l'.failListIn = l.failListIn
  failDeleteOf : l'.failDeleteOf = l.failDeleteOf

theorem Like.refl (l : MemoryLister) : Like l l := ⟨rfl, rfl, rfl, rfl⟩

theorem Like.trans {l l' l'' : MemoryLister} (h : Like l l') (h' : Like l' l'') : Like l l'' where
  kind := h'.kind.trans h.kind
  scope := h'.scope.trans h.scope
  failListIn := h'.failListIn.trans h.failListIn
  failDeleteOf := h'.failDeleteOf.trans h.failDeleteOf

theorem Like.shows_eq {l l' : MemoryLister} (h : Like l l') : l'.shows = l.shows := by
  funext ns c
  rw [shows, shows, h.scope]

theorem Like.refuses_eq {l l' : MemoryLister} (h : Like l l') : l'.refuses = l.refuses := by
  funext ns
  rw [refuses, refuses, h.failListIn]

/-- A lister that has been asked for a list. -/
def asked (l : MemoryLister) (ns selector : Option String) : MemoryLister :=
  { l with listCalls := l.listCalls ++ [(ns, selector)] }

theorem like_asked (l : MemoryLister) (ns selector : Option String) : Like l (l.asked ns selector) :=
  ⟨rfl, rfl, rfl, rfl⟩

theorem list_eq (l : MemoryLister) (ns selector : Option String) : l.list ns selector =
    (if l.refuses ns then .error (injected 403 "Forbidden") else .ok (l.items.filter (l.shows ns)),
      l.asked ns selector) := by
  unfold MemoryLister.list refuses
  split <;> rfl

/-- What is left of some resources when those that are due among others have been taken away. -/
def left (policy : CleanupPolicy) (now : Instant) (candidates items : List Candidate) :
    List Candidate :=
  items.filter fun c => !(candidates.filter (policy.removes now)).any (sameResource c)

variable {policy : CleanupPolicy} {now : Instant} {l : MemoryLister}

theorem left_cons (candidate : Candidate) (rest items : List Candidate) :
    left policy now (candidate :: rest) items = left policy now rest
      (if policy.removes now candidate then items.filter fun c => !sameResource c candidate
        else items) := by
  unfold left
  by_cases hgoes : policy.removes now candidate = true
  · rw [if_pos hgoes, List.filter_cons_of_pos hgoes, List.filter_filter]
    refine List.filter_congr fun c _ => ?_
    rw [List.any_cons, Bool.not_or, Bool.and_comm]
  · rw [if_neg hgoes, List.filter_cons_of_neg hgoes]

/-- Taking away what is due among some resources of a lister leaves the others there. -/
theorem left_filter (p : Candidate → Bool)
    (hunique : (l.items.map fun c => (c.name, c.ns)).Nodup) :
    left policy now (l.items.filter p) l.items =
      l.items.filter fun c => !(p c && policy.removes now c) := by
  refine List.filter_congr fun c hc => congrArg (!·) ?_
  rw [Bool.eq_iff_iff, List.any_eq_true]
  constructor
  · rintro ⟨c', hc', hsame⟩
    simp only [List.mem_filter] at hc'
    simp only [sameResource, Bool.and_eq_true, decide_eq_true_eq] at hsame
    obtain rfl : c = c' := List.inj_on_of_nodup_map hunique hc hc'.1.1 (Prod.ext hsame.1 hsame.2)
    rw [hc'.1.2, hc'.2, Bool.and_true]
  · intro h
    rw [Bool.and_eq_true] at h
    refine ⟨c, ?_, by simp [sameResource]⟩
    simp only [List.mem_filter]
    exact ⟨⟨hc, h.1⟩, h.2⟩

end MemoryLister

namespace Cleanup
open CleanupPolicy MemoryLister
variable {kind : String} {policy : CleanupPolicy} {selector : Option String} {now : Instant}
  {candidate : Candidate} {candidates : List Candidate} {r : CleanupReport} {σ : MemoryStore}
  {l : MemoryLister} {x : Overflow} {ns : Option String}

/-! ## One listing -/

theorem handler_list (h : lister? kind σ.listers = some l) (ns : Option String) :
    (handler (.list kind ns selector) σ).1 = (l.list ns selector).1 ∧
      Acts kind l (l.asked ns selector) σ.listers
        (handler (.list kind ns selector) σ).2.listers := by
  have hlist : (l.list ns selector).2 = l.asked ns selector := by rw [list_eq]
  rw [← hlist]
  refine acts_askLister h ?_
  rw [hlist]
  exact (mem_of_lister? h).2

theorem handler_delete (h : lister? kind σ.listers = some l) :
    (handler (.delete kind candidate) σ).1 = (l.delete candidate).1 ∧
      Acts kind l (l.delete candidate).2 σ.listers
        (handler (.delete kind candidate) σ).2.listers := by
  refine acts_askLister h ?_
  unfold MemoryLister.delete
  split <;> exact (mem_of_lister? h).2

/-- A resource that is due is counted, and in a live run it is taken away. -/
theorem run_reapOne {due : Bool} (hdue : policy.shouldRemove candidate now = .ok due)
    (hl : lister? kind σ.listers = some l) (hname : candidate.name ∉ l.failDeleteOf) :
    ∃ σ' l', (reapOne kind policy now candidate r).run handler σ =
        (.ok (if due then r.counted else r), σ') ∧
      Acts kind l l' σ.listers σ'.listers ∧ Like l l' ∧
      l'.items = if due && !r.dryRun then l.items.filter fun c => !sameResource c candidate
        else l.items := by
  unfold reapOne
  rw [hdue]
  cases due with
  | false => exact ⟨σ, l, rfl, .refl hl, .refl l, rfl⟩
  | true =>
    change ∃ σ' l', Program.run handler (if r.dryRun = true then _ else _) σ = _ ∧ _
    by_cases hmode : r.dryRun = true
    · rw [if_pos hmode, hmode]
      exact ⟨σ, l, rfl, .refl hl, .refl l, rfl⟩
    · rw [if_neg hmode, Bool.eq_false_iff.2 hmode]
      obtain ⟨hanswer, hacts⟩ : (handler (.delete kind candidate) σ).1 = _ ∧ _ := handler_delete hl
      have hdelete : l.delete candidate = (.ok (),
          { l with
            items := l.items.filter fun c => !sameResource c candidate
            deleted := l.deleted ++ [candidate.name] }) := by
        rw [MemoryLister.delete, if_neg (by simpa using hname)]
      rw [hdelete] at hanswer hacts
      have hrun : (Operation.delete kind candidate).run.run handler σ =
          (.ok (.ok ()), (handler (.delete kind candidate) σ).2) :=
        Prod.ext (congrArg Except.ok hanswer) rfl
      exact ⟨_, _, run_bind_of_ok hrun, hacts, ⟨rfl, rfl, rfl, rfl⟩, rfl⟩

/-- Removing what is due breaks off where deciding does. -/
theorem run_reapAll_of_error (h : policy.verdict now candidates = .error x) :
    ((reapAll kind policy now candidates r).run handler σ).1 = .error x := by
  induction candidates generalizing r σ with
  | nil => cases h
  | cons candidate rest ih =>
    rw [reapAll]
    have hone := (runs_reapOne (runs_trace handler (reapOne kind policy now candidate r) σ)).1
    rw [verdict] at h
    cases hdue : policy.shouldRemove candidate now with
    | error y =>
      rw [hdue] at h
      obtain rfl : y = x := Except.error.inj h
      have hrun : (reapOne kind policy now candidate r).run handler σ = (.error y, σ) := by
        unfold reapOne
        rw [hdue]
        rfl
      rw [run_bind_of_error hrun]
    | ok due =>
      rw [hdue] at h hone
      cases hrun : (reapOne kind policy now candidate r).run handler σ with
      | mk result σ' =>
        rw [hrun] at hone
        cases result with
        | error o => cases hone.1 ⟨o, rfl⟩
        | ok r' =>
          rw [run_bind_of_ok hrun]
          exact ih h

/-- Removing what is due among some resources, when every decision can be made and no deletion
fails. -/
theorem run_reapAll (hverdict : policy.verdict now candidates = .ok ())
    (hl : lister? kind σ.listers = some l) (hname : ∀ c ∈ candidates, c.name ∉ l.failDeleteOf) :
    ∃ σ' l', (reapAll kind policy now candidates r).run handler σ =
        (.ok { r with count := r.count + (candidates.filter (policy.removes now)).length }, σ') ∧
      Acts kind l l' σ.listers σ'.listers ∧ Like l l' ∧
      l'.items = if r.dryRun then l.items else left policy now candidates l.items := by
  induction candidates generalizing r σ l with
  | nil =>
    refine ⟨σ, l, rfl, .refl hl, .refl l, ?_⟩
    simp [left]
  | cons candidate rest ih =>
    obtain ⟨hcandidate, hrest⟩ := List.forall_mem_cons.1 hname
    rw [reapAll]
    rw [verdict] at hverdict
    cases hdue : policy.shouldRemove candidate now with
    | error y =>
      rw [hdue] at hverdict
      cases hverdict
    | ok due =>
      rw [hdue] at hverdict
      have hremoves : policy.removes now candidate = due := by rw [removes, hdue]
      obtain ⟨σ₁, l₁, hone, hacts₁, hlike₁, hitems₁⟩ := run_reapOne (r := r) hdue hl hcandidate
      have hpresent : lister? kind σ₁.listers = some l₁ := (hacts₁.listers kind).trans (if_pos rfl)
      obtain ⟨σ', l', hrun, hacts, hlike, hitems⟩ := ih (r := if due then r.counted else r) hverdict
        hpresent (by rwa [hlike₁.failDeleteOf])
      refine ⟨σ', l', ?_, hacts₁.trans hacts, hlike₁.trans hlike, ?_⟩
      · rw [run_bind_of_ok hone, hrun, List.filter_cons, hremoves]
        cases due with
        | false => rfl
        | true =>
          have hcount : r.count + 1 + (rest.filter (policy.removes now)).length =
              r.count + ((rest.filter (policy.removes now)).length + 1) := by omega
          exact congrArg (fun n => (Except.ok { r with count := n }, σ')) hcount
      · have hmode : (if due then r.counted else r).dryRun = r.dryRun := by cases due <;> rfl
        rw [hitems, hmode, hitems₁, left_cons, hremoves]
        cases r.dryRun <;> cases due <;> rfl

/-! ## One place -/

theorem run_list : (Operation.list kind ns selector).run.run handler σ =
    (.ok (handler (.list kind ns selector) σ).1, (handler (.list kind ns selector) σ).2) := rfl

/-- A lister that refuses to list: the failure is noted. -/
theorem run_reapScope_of_refuses (hl : lister? kind σ.listers = some l)
    (hrefuses : l.refuses ns = true) :
    ∃ σ', (reapScope kind policy selector now ns r).run handler σ =
        (.ok (r.failed ⟨kind, ns, (injected 403 "Forbidden").message⟩), σ') ∧
      Acts kind l (l.asked ns selector) σ.listers σ'.listers := by
  obtain ⟨hanswer, hacts⟩ : (handler (.list kind ns selector) σ).1 = _ ∧ _ := handler_list hl ns
  rw [list_eq, if_pos hrefuses] at hanswer
  refine ⟨_, ?_, hacts⟩
  unfold reapScope
  rw [run_bind_of_ok run_list, hanswer]
  rfl

/-- A lister that lists: what it shows is decided upon, in the store that has been asked. -/
theorem run_reapScope_of_answers (hl : lister? kind σ.listers = some l)
    (hrefuses : l.refuses ns = false) :
    ∃ σ', (reapScope kind policy selector now ns r).run handler σ =
        (reapAll kind policy now (l.items.filter (l.shows ns)) r).run handler σ' ∧
      Acts kind l (l.asked ns selector) σ.listers σ'.listers := by
  obtain ⟨hanswer, hacts⟩ : (handler (.list kind ns selector) σ).1 = _ ∧ _ := handler_list hl ns
  rw [list_eq, if_neg (by rw [hrefuses]; decide)] at hanswer
  refine ⟨_, ?_, hacts⟩
  unfold reapScope
  rw [run_bind_of_ok run_list, hanswer]

/-- Removing what is due at a place, when every decision can be made and no deletion fails. -/
theorem run_reapScope (hl : lister? kind σ.listers = some l) (hrefuses : l.refuses ns = false)
    (hverdict : policy.verdict now (l.items.filter (l.shows ns)) = .ok ())
    (hunique : (l.items.map fun c => (c.name, c.ns)).Nodup)
    (hname : ∀ c ∈ l.items, c.name ∉ l.failDeleteOf) :
    ∃ σ' l', (reapScope kind policy selector now ns r).run handler σ =
        (.ok { r with count := r.count +
          ((l.items.filter (l.shows ns)).filter (policy.removes now)).length }, σ') ∧
      Acts kind l l' σ.listers σ'.listers ∧ Like l l' ∧
      l'.items = if r.dryRun then l.items
        else l.items.filter fun c => !(l.shows ns c && policy.removes now c) := by
  obtain ⟨σ₁, hrun₁, hacts₁⟩ : ∃ σ₁ : MemoryStore,
      (reapScope kind policy selector now ns r).run handler σ = _ ∧
        Acts kind l (l.asked ns selector) σ.listers σ₁.listers := run_reapScope_of_answers hl hrefuses
  have hpresent : lister? kind σ₁.listers = some (l.asked ns selector) :=
    (hacts₁.listers kind).trans (if_pos rfl)
  obtain ⟨σ', l', hrun, hacts, hlike, hitems⟩ := run_reapAll (r := r) hverdict hpresent
    fun c hc => hname c (List.mem_filter.1 hc).1
  refine ⟨σ', l', hrun₁.trans hrun, hacts₁.trans hacts, (like_asked ..).trans hlike, ?_⟩
  rw [hitems, ← left_filter (l.shows ns) hunique]
  rfl

end Cleanup

end ScheduledScaling
