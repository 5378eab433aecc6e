import ScheduledScaling.Proofs.Accounts
import ScheduledScaling.Proofs.Pieces
/-!
# What a selector asks for

A selector is read at its commas, and each of its pieces at the first equals sign
(`requirementsOf`). The labels of a config are written into it as they are. So it asks for a label just
if the label holds nothing that is read as its end (`mem_requirementsOf_iff`), and no spec is refused
for a label that does: `selector_asks_for_plain_labels`.
-/
namespace ScheduledScaling

open Program

/-! ## Requirements -/

/-- What a selector asks of the labels of a resource: a key, and a value if there is one. -/
structure Requirement where
  key : String
  value : Option String
  deriving DecidableEq, Repr

namespace Requirement

/-- That a resource carries a label. -/
def ofLabel (label : String × String) : Requirement := ⟨label.1, some label.2⟩

/-- A piece of a selector is a key and a value with an equals sign between them, or just a key. -/
def read (piece : List Char) : Requirement :=
  match Text.cut? '=' piece with
  | some (key, value) => ⟨String.ofList key, some (String.ofList value)⟩
  | none => ⟨String.ofList piece, none⟩

/-- Whether a resource that carries some labels is as required. -/
def IsMetBy (carried : Keyed String) (r : Requirement) : Prop :=
  ∃ found, carried.get? r.key = some found ∧ ∀ value ∈ r.value, value = found

theorem ofLabel_injective : Function.Injective ofLabel := by
  rintro ⟨key, value⟩ ⟨key', value'⟩ h
  cases h
  rfl

theorem isMetBy_ofLabel {carried : Keyed String} {label : String × String} :
    (ofLabel label).IsMetBy carried ↔ carried.get? label.1 = some label.2 := by
  simp [IsMetBy, ofLabel]

end Requirement

/-- The requirements of a selector, from left to right. -/
def requirementsOf (selector : String) : List Requirement :=
  (Text.pieces (· == ',') selector.toList).map Requirement.read

/-- Whether a selector asks for the resources that carry some labels. -/
def Selects (selector : String) (carried : Keyed String) : Prop :=
  ∀ r ∈ requirementsOf selector, r.IsMetBy carried

/-- A label that is read as it is written: its key has no comma and no equals sign, and its value has
no comma. -/
def IsPlainLabel (label : String × String) : Prop :=
  ',' ∉ label.1.toList ∧ '=' ∉ label.1.toList ∧ ',' ∉ label.2.toList

instance : DecidablePred IsPlainLabel := fun _ => inferInstanceAs (Decidable (_ ∧ _ ∧ _))

/-! ## Labels in a selector -/

section
variable {labels others : Keyed String} {label : String × String} {text : String}

/-- A label as it is written. -/
def labelText (label : String × String) : List Char := label.1.toList ++ '=' :: label.2.toList

theorem toList_of_selectorOf (h : Cleanup.selectorOf labels = some text) :
    labels ≠ [] ∧ text.toList = [','].intercalate (labels.map labelText) := by
  unfold Cleanup.selectorOf at h
  split at h
  · cases h
  · rename_i hne
    obtain rfl := Option.some.inj h
    refine ⟨by simpa using hne, ?_⟩
    rw [String.toList_intercalate, List.map_map]
    congr 1
    simp [labelText]

theorem exists_selectorOf (h : labels ≠ []) : ∃ text, Cleanup.selectorOf labels = some text :=
  ⟨_, if_neg (by simpa using h)⟩

theorem IsPlainLabel.pieces (h : IsPlainLabel label) :
    Text.pieces (· == ',') (labelText label) = [labelText label] := by
  obtain ⟨hkey, -, hvalue⟩ := h
  refine Text.pieces_of_forall fun c hc => beq_eq_false_iff_ne.2 ?_
  rintro rfl
  simp [labelText, hkey, hvalue] at hc

theorem IsPlainLabel.read (h : IsPlainLabel label) :
    Requirement.read (labelText label) = .ofLabel label := by
  unfold Requirement.read labelText
  rw [Text.cut?_append h.2.1]
  simp [Requirement.ofLabel]

/-- A selector asks for what is read in each of its labels. -/
theorem requirementsOf_selectorOf (h : Cleanup.selectorOf labels = some text) :
    requirementsOf text =
      labels.flatMap fun label => (Text.pieces (· == ',') (labelText label)).map .read := by
  obtain ⟨hne, htext⟩ := toList_of_selectorOf h
  rw [requirementsOf, htext, Text.pieces_intercalate (by simpa using hne), List.flatMap_map,
    List.map_flatMap]

/-- Nothing that is read in a selector is a label that is not plain. -/
theorem isPlainLabel_of_mem (h : .ofLabel label ∈ requirementsOf text) : IsPlainLabel label := by
  obtain ⟨piece, hpiece, hread⟩ := List.mem_map.1 h
  have hcomma := Text.not_mem_of_mem_pieces hpiece
  unfold Requirement.read at hread
  cases hcut : Text.cut? '=' piece with
  | none =>
    rw [hcut] at hread
    cases (Requirement.mk.inj hread).2
  | some parts =>
    obtain ⟨key, value⟩ := parts
    rw [hcut] at hread
    obtain ⟨rfl, hequals⟩ := Text.cut?_eq_some_iff.1 hcut
    obtain ⟨hkey, hvalue⟩ := Requirement.mk.inj hread
    simp only [IsPlainLabel, ← hkey, ← Option.some.inj hvalue, String.toList_ofList]
    simp_all

/-- A selector asks for a label of its config exactly if the label is plain. -/
theorem mem_requirementsOf_iff (h : Cleanup.selectorOf labels = some text) (hmem : label ∈ labels) :
    .ofLabel label ∈ requirementsOf text ↔ IsPlainLabel label := by
  refine ⟨isPlainLabel_of_mem, fun hplain => ?_⟩
  rw [requirementsOf_selectorOf h, List.mem_flatMap]
  refine ⟨label, hmem, ?_⟩
  rw [hplain.pieces, List.map_singleton, hplain.read]
  exact List.mem_singleton_self _

theorem requirementsOf_of_isPlainLabel (h : Cleanup.selectorOf labels = some text)
    (hplain : ∀ label ∈ labels, IsPlainLabel label) :
    requirementsOf text = labels.map .ofLabel := by
  rw [requirementsOf_selectorOf h, List.map_eq_flatMap]
  refine List.flatMap_congr fun label hmem => ?_
  rw [(hplain label hmem).pieces, List.map_singleton, (hplain label hmem).read]

theorem requirementsOf_eq_iff (h : Cleanup.selectorOf labels = some text) :
    requirementsOf text = labels.map .ofLabel ↔ ∀ label ∈ labels, IsPlainLabel label := by
  refine ⟨fun heq label hmem => ?_, requirementsOf_of_isPlainLabel h⟩
  have hread : .ofLabel label ∈ requirementsOf text := by
    rw [heq]
    exact List.mem_map_of_mem hmem
  exact isPlainLabel_of_mem hread

/-- Plain labels are not written alike. -/
theorem eq_of_selectorOf (h : Cleanup.selectorOf labels = some text)
    (h' : Cleanup.selectorOf others = some text) (hplain : ∀ label ∈ labels, IsPlainLabel label)
    (hplain' : ∀ label ∈ others, IsPlainLabel label) : others = labels := by
  apply List.map_injective_iff.2 Requirement.ofLabel_injective
  rw [← requirementsOf_of_isPlainLabel h hplain, ← requirementsOf_of_isPlainLabel h' hplain']

/-! ## The resources that are asked for -/

/-- Resources of another value under a key, unless a selector asks for the one they have. -/
theorem Selects.set {carried : Keyed String} {key value : String} (h : Selects text carried)
    (hfound : carried.get? key = some value) (hnot : .ofLabel (key, value) ∉ requirementsOf text)
    (other : String) : Selects text (carried.set key other) := by
  intro r hr
  obtain ⟨found, hget, hvalue⟩ := h r hr
  by_cases hkey : r.key = key
  · refine ⟨other, by rw [hkey, Keyed.get?_set_self], fun required hrequired => ?_⟩
    obtain rfl : found = value := Option.some.inj (hget.symm.trans (hkey ▸ hfound))
    obtain rfl := hvalue required hrequired
    obtain ⟨rkey, rvalue⟩ := r
    cases hkey
    cases hrequired
    exact absurd hr hnot
  · exact ⟨found, by rw [Keyed.get?_set_of_ne hkey, hget], hvalue⟩

/-- Just resources with a label are asked for exactly if the label is plain, or nothing can be as the
selector asks. -/
theorem selects_only_iff (h : Cleanup.selectorOf labels = some text) (hmem : label ∈ labels) :
    (∀ carried, Selects text carried → carried.get? label.1 = some label.2) ↔
      IsPlainLabel label ∨ ∀ carried, ¬ Selects text carried := by
  rw [← mem_requirementsOf_iff h hmem]
  constructor
  · intro honly
    by_contra hnot
    rw [not_or, not_forall] at hnot
    obtain ⟨hnot, carried, hselects⟩ := hnot
    have hselects := not_not.1 hselects
    -- another value would do as well
    have hother := honly _ (hselects.set (honly carried hselects) hnot (label.2 ++ "'"))
    rw [Keyed.get?_set_self, Option.some.injEq] at hother
    simpa using congrArg String.length hother
  · rintro (hrequired | hnone) carried hselects
    · exact Requirement.isMetBy_ofLabel.1 (hselects _ hrequired)
    · exact absurd hselects (hnone carried)

theorem selects_iff (h : Cleanup.selectorOf labels = some text)
    (hplain : ∀ label ∈ labels, IsPlainLabel label) (carried : Keyed String) :
    Selects text carried ↔ ∀ label ∈ labels, carried.get? label.1 = some label.2 := by
  rw [Selects, requirementsOf_of_isPlainLabel h hplain, List.forall_mem_map]
  exact forall₂_congr fun label _ => Requirement.isMetBy_ofLabel

end

/-! ## The calls of a cleanup -/

/-- Resources are listed by a selector. -/
def StoreCall.ListsBy (selector : Option String) : StoreCall → Prop
  | list _ _ given => given = selector
  | _ => True

/-- A cleanup lists resources by the selector of its config, whatever the answers are. -/
theorem Cleanup.listsBy_run (registry : Registry) (config : CleanupConfig) (own : String)
    (now : Instant) :
    OnlyCalls (StoreCall.ListsBy (selectorOf config.labelSelector))
      (run registry config own now).run :=
  onlyCalls_run_of registry config own (fun _ _ _ => rfl) fun _ _ _ => trivial

/-- A spec is accepted or refused whatever labels its cleanup asks for. -/
theorem ScheduleSpec.validate_labelSelector (spec : ScheduleSpec) (zones : Zone.Lookup)
    (config : CleanupConfig) (labels : Keyed String) :
    ({ spec with cleanupConfig := some { config with labelSelector := labels } } :
        ScheduleSpec).validate zones =
      ({ spec with cleanupConfig := some config } : ScheduleSpec).validate zones := rfl

/-! ## What the labels of a config come to -/

/-- A cleanup lists resources by one selector, which reads as the labels of its config, in their order,
exactly if these are plain. Then no other plain labels are written alike, and just the resources with all
of the labels are asked for. Each label that is not plain is lost: resources without it are asked for,
unless none can be as the selector asks. And a spec is accepted whatever its labels are. -/
theorem selector_asks_for_plain_labels (labels : Keyed String) (hlabels : labels ≠ []) :
    (∀ (spec : ScheduleSpec) (zones : Zone.Lookup) (config : CleanupConfig),
      ({ spec with cleanupConfig := some { config with labelSelector := labels } } :
          ScheduleSpec).validate zones =
        ({ spec with cleanupConfig := some config } : ScheduleSpec).validate zones) ∧
    ∃ text, Cleanup.selectorOf labels = some text ∧
      (∀ registry config own now, config.labelSelector = labels →
        OnlyCalls (StoreCall.ListsBy (some text)) (Cleanup.run registry config own now).run) ∧
      (requirementsOf text = labels.map .ofLabel ↔ ∀ label ∈ labels, IsPlainLabel label) ∧
      (∀ label ∈ labels,
        (∀ carried, Selects text carried → carried.get? label.1 = some label.2) ↔
          IsPlainLabel label ∨ ∀ carried, ¬ Selects text carried) ∧
      ((∀ label ∈ labels, IsPlainLabel label) →
        (∀ carried, Selects text carried ↔
          ∀ label ∈ labels, carried.get? label.1 = some label.2) ∧
        ∀ others, (∀ label ∈ others, IsPlainLabel label) →
          Cleanup.selectorOf others = some text → others = labels) := by
  refine ⟨fun spec zones config => spec.validate_labelSelector zones config labels, ?_⟩
  obtain ⟨text, htext⟩ := exists_selectorOf hlabels
  refine ⟨text, htext, ?_, requirementsOf_eq_iff htext, fun label => selects_only_iff htext, ?_⟩
  · rintro registry config own now rfl
    rw [← htext]
    exact Cleanup.listsBy_run registry config own now
  · intro hplain
    exact ⟨selects_iff htext hplain, fun others hothers h => eq_of_selectorOf htext h hplain hothers⟩

/-- Removes what is marked among the resources of two labels. -/
def tidyPreview : CleanupConfig :=
  { tidy with labelSelector := [("app", "web"), ("tier", "preview=a")] }

/-- A value is read to its end, with the equals sign in it. -/
theorem selector_asks_for_plain_labels_preview :
    tidyPreview.labelSelector ≠ [] ∧
      Cleanup.selectorOf tidyPreview.labelSelector = some "app=web,tier=preview=a" ∧
      requirementsOf "app=web,tier=preview=a" = [⟨"app", some "web"⟩, ⟨"tier", some "preview=a"⟩] ∧
      ¬ Selects "app=web,tier=preview=a" [("app", "web")] := by
  have hlabels : tidyPreview.labelSelector ≠ [] := by decide
  obtain ⟨-, text, htext, -, hreads, -, hplain⟩ :=
    selector_asks_for_plain_labels tidyPreview.labelSelector hlabels
  have hwritten : Cleanup.selectorOf tidyPreview.labelSelector = some "app=web,tier=preview=a" := by
    decide +kernel
  obtain rfl := Option.some.inj (htext.symm.trans hwritten)
  have hall : ∀ label ∈ tidyPreview.labelSelector, IsPlainLabel label := by decide +kernel
  refine ⟨hlabels, hwritten, hreads.2 hall, fun hselects => ?_⟩
  have htier := ((hplain hall).1 _).1 hselects ("tier", "preview=a") (by decide)
  cases htier

/-- Removes what is marked among the resources of one label, if any can have it. -/
def tidyLayers : CleanupConfig := { tidy with labelSelector := [("app", "web,tier=db")] }

/-- The spec is accepted. Its cleanup asks for the resources of two other labels, as one that is
configured with these does. -/
theorem selector_asks_for_other_labels :
    ({ tidied.spec with cleanupConfig := some tidyLayers } : ScheduleSpec).validate = .ok () ∧
      (Cleanup.sweep false tidyLayers "qa" evening staleStore).2.listers.map (·.listCalls) =
        [[(some "qa", Cleanup.selectorOf tidyLayers.labelSelector)]] ∧
      Cleanup.selectorOf tidyLayers.labelSelector = some "app=web,tier=db" ∧
      requirementsOf "app=web,tier=db" ≠ tidyLayers.labelSelector.map .ofLabel ∧
      Cleanup.selectorOf [("app", "web"), ("tier", "db")] = some "app=web,tier=db" ∧
      Selects "app=web,tier=db" [("app", "web"), ("tier", "db")] ∧
      Keyed.get? "app" [("app", "web"), ("tier", "db")] ≠ some "web,tier=db" := by
  have hreads : requirementsOf "app=web,tier=db" = [⟨"app", some "web"⟩, ⟨"tier", some "db"⟩] := by
    decide +kernel
  refine ⟨by decide +kernel, by decide +kernel, by decide +kernel, ?_, by decide +kernel, ?_,
    by decide +kernel⟩
  · rw [hreads]
    decide
  · intro r hr
    rw [hreads] at hr
    rcases List.mem_pair.1 hr with rfl | rfl
    · exact ⟨"web", by decide +kernel, by simp⟩
    · exact ⟨"db", by decide +kernel, by simp⟩

end ScheduledScaling
