import ScheduledScaling.Proofs.Records
import ScheduledScaling.Store.Memory
/-!
# The listers of a store

The last lister of a kind answers for it: `lister?`. It is the one whose scope the registry has, and
asking it changes no other one (`acts_askLister`).
-/
namespace ScheduledScaling.MemoryStore

variable {kind : String} {l l' l'' : MemoryLister} {listers before after : List MemoryLister}
  {α : Type}

/-- The lister that answers for a kind: the last one, if there are several. -/
def lister? (kind : String) : List MemoryLister → Option MemoryLister
  | [] => none
  | l :: rest => (lister? kind rest).or (if l.kind = kind then some l else none)

/-- How many resources all listers have. -/
def size : List MemoryLister → Nat
  | [] => 0
  | l :: rest => l.items.length + size rest

theorem mem_of_lister? (h : lister? kind listers = some l) : l ∈ listers ∧ l.kind = kind := by
  induction listers with
  | nil => cases h
  | cons first rest ih =>
    rw [lister?] at h
    cases hrest : lister? kind rest with
    | some l' =>
      rw [hrest] at h
      cases h
      exact ⟨List.mem_cons_of_mem _ (ih hrest).1, (ih hrest).2⟩
    | none =>
      rw [hrest, Option.none_or] at h
      split at h
      · rename_i hkind
        cases h
        exact ⟨List.mem_cons_self, hkind⟩
      · cases h

theorem isSome_lister? : (lister? kind listers).isSome = listers.any fun l => l.kind = kind := by
  induction listers with
  | nil => rfl
  | cons first rest ih =>
    rw [lister?, Option.isSome_or, ih, List.any_cons, Bool.or_comm]
    split <;> simp [*]

/-- The registry has the scope of the lister that answers for a kind. -/
theorem get?_registry (store : MemoryStore) (kind : String) :
    store.registry.get? kind = (lister? kind store.listers).map (·.scope) := by
  unfold registry
  induction store.listers with
  | nil => rfl
  | cons first rest ih =>
    have happend : Keyed.get? kind (Keyed.ofList
        ([(first.kind, first.scope)] ++ rest.map fun l => (l.kind, l.scope))) = _ :=
      Keyed.get?_ofList_append _ _
    have hfirst : Keyed.get? kind (Keyed.ofList [(first.kind, first.scope)]) =
        if first.kind = kind then some first.scope else none := rfl
    rw [List.map_cons, ← List.singleton_append, happend, ih, hfirst, lister?]
    cases lister? kind rest with
    | some l => rfl
    | none =>
      rw [Option.none_or, Option.map_none, Option.none_or]
      split <;> rfl

/-! ## Asking a lister -/

/-- The lister of a kind has become another one, and those of other kinds are as they were. -/
structure Acts (kind : String) (l l' : MemoryLister) (before after : List MemoryLister) : Prop where
  asked : lister? kind before = some l
  listers : ∀ k, lister? k after = if k = kind then some l' else lister? k before
  size : size after + l.items.length = size before + l'.items.length

theorem Acts.trans (h : Acts kind l l' before listers) (h' : Acts kind l' l'' listers after) :
    Acts kind l l'' before after where
  asked := h.asked
  listers k := by
    rw [h'.listers, h.listers]
    split <;> rfl
  size := by
    have := h.size
    have := h'.size
    omega

theorem Acts.refl (h : lister? kind listers = some l) : Acts kind l l listers listers where
  asked := h
  listers k := by
    split
    · rename_i hk
      rw [hk, h]
    · rfl
  size := rfl

/-- Only the lister that answers for a kind is asked. -/
theorem acts_askLister {ask : MemoryLister → Except Failure α × MemoryLister}
    (h : lister? kind listers = some l) (hkind : (ask l).2.kind = kind) :
    (askLister kind ask listers).1 = (ask l).1 ∧
      Acts kind l (ask l).2 listers (askLister kind ask listers).2 := by
  induction listers with
  | nil => cases h
  | cons first rest ih =>
    rw [lister?] at h
    rw [askLister, ← isSome_lister?]
    cases hrest : lister? kind rest with
    | some later =>
      -- a later lister of this kind answers
      rw [hrest] at h
      obtain rfl := Option.some.inj h
      obtain ⟨hanswer, hacts⟩ := ih hrest
      rw [if_neg (by simp)]
      refine ⟨hanswer, ?_, fun k => ?_, ?_⟩
      · rw [lister?, hrest]
        rfl
      · rw [lister?, lister?, hacts.listers]
        split <;> rfl
      · have hsize := hacts.size
        simp only [size] at hsize ⊢
        omega
    | none =>
      rw [hrest, Option.none_or] at h
      split at h
      · rename_i hfirst
        obtain rfl := Option.some.inj h
        rw [if_pos ⟨hfirst, rfl⟩]
        refine ⟨rfl, ?_, fun k => ?_, ?_⟩
        · rw [lister?, hrest, if_pos hfirst]
          rfl
        · dsimp only
          rw [lister?, lister?, hkind, hfirst]
          by_cases hk : k = kind
          · rw [hk, hrest, if_pos rfl, if_pos rfl]
            rfl
          · rw [if_neg (Ne.symm hk), if_neg hk, if_neg (Ne.symm hk)]
        · simp only [size]
          omega
      · cases h

end ScheduledScaling.MemoryStore
