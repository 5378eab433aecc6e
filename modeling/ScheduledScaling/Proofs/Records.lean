import Mathlib.Data.List.Induction
import Mathlib.Tactic.ByContra
import ScheduledScaling.Json.Value
import ScheduledScaling.Proofs.Objects
/-!
# Members of records

`Keyed.ofList` sorts pairs by their keys and keeps the last of each (`isSorted_ofList`). So a record
has the members that it was made of, `Json.get?_record`, and a merged object has those of the patch
before those of the base: `Json.get?_merge`.
-/
namespace ScheduledScaling

namespace Keyed
variable {α : Type} {pairs : Keyed α} {key : String}

/-- The keys ascend, and none is repeated. -/
def IsSorted (pairs : Keyed α) : Prop := pairs.Pairwise fun a b => a.1 < b.1

def keys (pairs : Keyed α) : List String := pairs.map Prod.fst

theorem mem_set {value : α} {pair : String × α} (h : pair ∈ set key value pairs) :
    pair = (key, value) ∨ pair ∈ pairs := by
  induction pairs with
  | nil => exact .inl (List.mem_singleton.1 h)
  | cons first rest ih =>
    obtain ⟨k, v⟩ := first
    rw [set] at h
    split at h
    · exact List.mem_cons.1 h
    · split at h
      · rcases List.mem_cons.1 h with h | h
        · exact .inl h
        · exact .inr (List.mem_cons_of_mem _ h)
      · rcases List.mem_cons.1 h with h | h
        · exact .inr (h ▸ List.mem_cons_self)
        · rcases ih h with h | h
          · exact .inl h
          · exact .inr (List.mem_cons_of_mem _ h)

theorem isSorted_set {value : α} (h : IsSorted pairs) : IsSorted (set key value pairs) := by
  induction pairs with
  | nil => exact List.pairwise_singleton _ _
  | cons first rest ih =>
    obtain ⟨k, v⟩ := first
    obtain ⟨hfirst, hrest⟩ := List.pairwise_cons.1 h
    rw [set]
    split
    · rename_i hlt
      refine List.pairwise_cons.2 ⟨fun pair hpair => ?_, h⟩
      rcases List.mem_cons.1 hpair with rfl | hpair
      · exact hlt
      · exact String.lt_trans hlt (hfirst pair hpair)
    · split
      · rename_i heq
        subst heq
        exact List.pairwise_cons.2 ⟨hfirst, hrest⟩
      · rename_i hnot hne
        refine List.pairwise_cons.2 ⟨fun pair hpair => ?_, ih hrest⟩
        rcases mem_set hpair with rfl | hpair
        · -- The new key is neither before `k` nor equal to it.
          by_contra hge
          exact hne (String.le_antisymm (String.not_lt.1 hge) (String.not_lt.1 hnot))
        · exact hfirst pair hpair

theorem isSorted_ofList (pairs : List (String × α)) : IsSorted (ofList pairs) := by
  have h : ∀ sorted : Keyed α, IsSorted sorted →
      IsSorted (pairs.foldl (fun sorted pair => set pair.1 pair.2 sorted) sorted) := by
    induction pairs with
    | nil => exact fun _ hs => hs
    | cons pair rest ih => exact fun _ hs => ih _ (isSorted_set hs)
  exact h [] .nil

theorem IsSorted.nodup (h : IsSorted pairs) : pairs.keys.Nodup := by
  refine List.pairwise_map.2 (h.imp fun hlt heq => ?_)
  rw [heq] at hlt
  exact String.lt_irrefl _ hlt

theorem get?_set (key other : String) (value : α) (pairs : Keyed α) :
    (set key value pairs).get? other = if other = key then some value else pairs.get? other := by
  split
  · rename_i h
    rw [h, get?_set_self]
  · rename_i h
    exact get?_set_of_ne h value pairs

theorem get?_eq_none (h : key ∉ pairs.keys) : pairs.get? key = none := by
  induction pairs with
  | nil => rfl
  | cons first rest ih =>
    obtain ⟨k, v⟩ := first
    simp only [keys, List.map_cons, List.mem_cons, not_or] at h
    rw [get?, if_neg (Ne.symm h.1)]
    exact ih h.2

/-- Setting pairs one after the other leaves what was there under other keys. -/
theorem get?_foldl_set (pairs : List (String × α)) (base : Keyed α) :
    get? key (pairs.foldl (fun sorted (k, v) => set k v sorted) base) =
      ((ofList pairs).get? key).or (base.get? key) := by
  induction pairs using List.reverseRecOn with
  | nil => rfl
  | append_singleton pairs pair ih =>
    rw [ofList, List.foldl_append, List.foldl_append]
    simp only [List.foldl_cons, List.foldl_nil, get?_set]
    split
    · rfl
    · exact ih

theorem get?_ofList_append (a b : List (String × α)) :
    (ofList (a ++ b)).get? key = ((ofList b).get? key).or ((ofList a).get? key) := by
  rw [ofList, List.foldl_append]
  exact get?_foldl_set b _

theorem get?_ofList (h : (keys pairs).Nodup) : (ofList pairs).get? key = get? key pairs := by
  induction pairs with
  | nil => rfl
  | cons first rest ih =>
    obtain ⟨k, v⟩ := first
    obtain ⟨hk, hrest⟩ := List.nodup_cons.1 h
    change get? key (rest.foldl _ [(k, v)]) = _
    rw [get?_foldl_set, ih hrest, get?, get?, get?]
    split
    · -- The key does not come again, so the first pair is not replaced.
      rename_i heq
      rw [get?_eq_none (heq ▸ hk)]
      rfl
    · rw [Option.or_none]

theorem get?_of_mem {value : α} (hnodup : pairs.keys.Nodup) (h : (key, value) ∈ pairs) :
    pairs.get? key = some value := by
  induction pairs with
  | nil => cases h
  | cons first rest ih =>
    obtain ⟨k, v⟩ := first
    obtain ⟨hk, hrest⟩ : k ∉ keys rest ∧ (keys rest).Nodup := List.nodup_cons.1 hnodup
    rcases List.mem_cons.1 h with h | h
    · obtain ⟨rfl, rfl⟩ := Prod.mk.inj h
      exact if_pos rfl
    · have hne : k ≠ key := by
        rintro rfl
        exact hk (List.mem_map_of_mem h)
      rw [get?, if_neg hne]
      exact ih hrest h

theorem mem_of_get? {value : α} (h : pairs.get? key = some value) : (key, value) ∈ pairs := by
  induction pairs with
  | nil => cases h
  | cons first rest ih =>
    obtain ⟨k, v⟩ := first
    rw [get?] at h
    split at h
    · rename_i heq
      exact heq ▸ Option.some.inj h ▸ List.mem_cons_self
    · exact List.mem_cons_of_mem _ (ih h)

/-- Values under the same keys, one by one. -/
theorem get?_of_forall₂ {β : Type} {R : α → β → Prop} {as : Keyed α} {bs : Keyed β}
    (h : List.Forall₂ (fun a b => a.1 = b.1 ∧ R a.2 b.2) as bs) {a : α} (ha : as.get? key = some a) :
    ∃ b, bs.get? key = some b ∧ R a b := by
  induction h with
  | nil => cases ha
  | @cons first first' _ _ hfirst _ ih =>
    obtain ⟨k, v⟩ := first
    obtain ⟨k', v'⟩ := first'
    obtain ⟨rfl, hvalue⟩ : k = k' ∧ R v v' := hfirst
    rw [get?] at ha ⊢
    split at ha
    · rename_i heq
      rw [if_pos heq]
      exact ⟨v', rfl, Option.some.inj ha ▸ hvalue⟩
    · rename_i hne
      rw [if_neg hne]
      exact ih ha

/-! ### Sorted pairs -/

theorem mem_ofList {pair : String × α} (h : pair ∈ ofList pairs) : pair ∈ pairs := by
  induction pairs using List.reverseRecOn with
  | nil => cases h
  | append_singleton pairs last ih =>
    rw [ofList, List.foldl_append] at h
    rcases mem_set h with rfl | h
    · exact List.mem_append_right _ List.mem_cons_self
    · exact List.mem_append_left _ (ih h)

/-- A key behind all others is set at the end. -/
theorem set_of_lt {value : α} (h : ∀ pair ∈ pairs, pair.1 < key) :
    set key value pairs = pairs ++ [(key, value)] := by
  induction pairs with
  | nil => rfl
  | cons first rest ih =>
    obtain ⟨k, v⟩ := first
    obtain ⟨hfirst, hrest⟩ := List.forall_mem_cons.1 h
    have hfirst : k < key := hfirst
    have hne : key ≠ k := by
      rintro rfl
      exact String.lt_irrefl _ hfirst
    rw [set, if_neg (String.lt_asymm hfirst), if_neg hne, ih hrest]
    rfl

/-- Sorted pairs are in their order already. -/
theorem ofList_eq_self (h : IsSorted pairs) : ofList pairs = pairs := by
  induction pairs using List.reverseRecOn with
  | nil => rfl
  | append_singleton pairs last ih =>
    obtain ⟨hpairs, -, hlast⟩ := List.pairwise_append.1 h
    rw [ofList, List.foldl_append]
    change set last.1 last.2 (ofList pairs) = _
    rw [ih hpairs, set_of_lt fun pair hpair => hlast pair hpair last List.mem_cons_self]

/-- Sorted pairs with the same values are the same. -/
theorem ext_of_isSorted {pairs' : Keyed α} (h : IsSorted pairs) (h' : IsSorted pairs')
    (hget : ∀ key, pairs.get? key = pairs'.get? key) : pairs = pairs' := by
  have hmem (pair : String × α) : pair ∈ pairs ↔ pair ∈ pairs' :=
    ⟨fun hpair => mem_of_get? ((hget pair.1).symm.trans (get?_of_mem h.nodup hpair)),
      fun hpair => mem_of_get? ((hget pair.1).trans (get?_of_mem h'.nodup hpair))⟩
  have hnodup {pairs : Keyed α} (hpairs : IsSorted pairs) : pairs.Nodup := by
    refine hpairs.imp fun hlt heq => ?_
    rw [heq] at hlt
    exact String.lt_irrefl _ hlt
  have hperm : pairs.Perm pairs' := (List.perm_ext_iff_of_nodup (hnodup h) (hnodup h')).2 hmem
  refine hperm.eq_of_pairwise (fun a b _ _ hab hba => ?_) h h'
  exact absurd (String.lt_trans hab hba) (String.lt_irrefl _)

end Keyed

namespace Json
variable {key : String}

theorem get?_ofMembers (members : List (String × Json)) :
    (ofMembers members).get? key = (Keyed.ofList members).get? key := rfl

/-- The members of a record that have a value. -/
def present (members : Keyed (Option Json)) : Keyed Json :=
  members.filterMap fun (k, v) => v.map (k, ·)

theorem keys_present (members : Keyed (Option Json)) :
    List.Sublist (present members).keys members.keys := by
  induction members with
  | nil => exact .slnil
  | cons first rest ih =>
    obtain ⟨k, v⟩ := first
    cases v with
    | none => exact ih.cons k
    | some v => exact ih.cons_cons k

theorem get?_present {members : Keyed (Option Json)} (h : members.keys.Nodup) :
    (present members).get? key = (members.get? key).join := by
  induction members with
  | nil => rfl
  | cons first rest ih =>
    obtain ⟨k, v⟩ := first
    obtain ⟨hk, hrest⟩ := List.nodup_cons.1 h
    cases v with
    | none =>
      change (present rest).get? key = _
      rw [ih hrest, Keyed.get?]
      split
      · rename_i heq
        rw [Keyed.get?_eq_none (heq ▸ hk)]
        rfl
      · rfl
    | some v =>
      change Keyed.get? key ((k, v) :: present rest) = _
      rw [Keyed.get?, Keyed.get?]
      split
      · rfl
      · exact ih hrest

/-- A record has the members that it was made of, and no others. -/
theorem get?_record {members : Keyed (Option Json)} (h : members.keys.Nodup) :
    (record members).get? key = (members.get? key).join := by
  have hkeys : (present members).keys.Nodup := (keys_present members).nodup h
  rw [← get?_present h, ← Keyed.get?_ofList hkeys]
  rfl

/-- The members of a patch take the place of those of the base. -/
def merge (base patch : Json) : Json := ofMembers (base.members ++ patch.members)

theorem get?_merge (base patch : List (String × Json)) :
    ((ofMembers base).merge (ofMembers patch)).get? key =
      ((ofMembers patch).get? key).or ((ofMembers base).get? key) := by
  have hget (members : List (String × Json)) :
      (Keyed.ofList (ofMembers members).members).get? key = (ofMembers members).get? key :=
    Keyed.get?_ofList (Keyed.isSorted_ofList members).nodup
  rw [merge, get?_ofMembers, Keyed.get?_ofList_append, hget, hget]

end Json

end ScheduledScaling
