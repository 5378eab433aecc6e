import ScheduledScaling.Proofs.CleanupStep
/-!
# What a cleanup has done, from its calls

A cleanup that comes to a report has listed its places, one after the other, and its report has one
failure for each mention of a kind that nothing lists, and one for each call that has failed, whatever
the store answers: `accounts_of_run`.
-/
namespace ScheduledScaling

open Program MemoryStore Cleanup

/-- Where a call has listed resources. -/
def Exchange.listed? : Exchange → Option Place
  | ⟨.list kind ns _, _⟩ => some (kind, ns)
  | _ => none

/-- The failure of a call, as a cleanup reports it. -/
def Exchange.cleanupFailure? : Exchange → Option CleanupFailure
  | ⟨.list kind ns _, .error e⟩ => some ⟨kind, ns, e.message⟩
  | ⟨.delete _ candidate, .error e⟩ => some ⟨candidate.kind, candidate.ns, e.message⟩
  | _ => none

namespace Cleanup
variable {kind : String} {policy : CleanupPolicy} {selector : Option String} {now : Instant}
  {places places' : List Place} {unlisted unlisted' : List CleanupFailure}
  {step step' : CleanupReport → Program CleanupReport}

/-! ## Steps in a row -/

/-- The places that a registry has for some kinds. -/
def placesIn (registry : Registry) (namespaces kinds : List String) : List Place :=
  kinds.flatMap fun kind =>
    match registry.get? kind with
    | none => []
    | some scope => (scopesOf namespaces scope).map (kind, ·)

/-- The failures of the kinds that a registry does not have, one for each mention. -/
def unlistedIn (registry : Registry) (kinds : List String) : List CleanupFailure :=
  (kinds.filter fun kind => (registry.get? kind).isNone).map fun kind =>
    ⟨kind, none, (Failure.unsupportedKind kind).message⟩

/-- A property of the steps of a cleanup, with the places that they list and the failures that they
report of themselves, that passes from steps to those in a row. -/
structure Composes (P : List Place → List CleanupFailure →
    (CleanupReport → Program CleanupReport) → Prop) : Prop where
  done : P [] [] fun r => pure r
  failed : ∀ failure, P [] [failure] fun r => pure (r.failed failure)
  bind : ∀ {places places' unlisted unlisted' step step'}, P places unlisted step →
    P places' unlisted' step' → P (places ++ places') (unlisted ++ unlisted') fun r => step r >>= step'

section
variable {P : List Place → List CleanupFailure → (CleanupReport → Program CleanupReport) → Prop}

theorem Composes.reapScopes (h : Composes P)
    (hscope : ∀ ns, P [(kind, ns)] [] (reapScope kind policy selector now ns))
    (scopes : List (Option String)) :
    P (scopes.map (kind, ·)) [] (reapScopes kind policy selector now scopes) := by
  induction scopes with
  | nil => exact h.done
  | cons ns rest ih => exact h.bind (hscope ns) ih

/-- What holds of the listing of each place holds of the whole cleanup. -/
theorem Composes.reapKinds (h : Composes P)
    (hscope : ∀ kind ns, P [(kind, ns)] [] (reapScope kind policy selector now ns))
    (registry : Registry) (namespaces kinds : List String) :
    P (placesIn registry namespaces kinds) (unlistedIn registry kinds)
      (reapKinds registry policy selector now namespaces kinds) := by
  induction kinds with
  | nil => exact h.done
  | cons kind rest ih =>
    rw [placesIn, List.flatMap_cons, ← placesIn, unlistedIn, List.filter_cons]
    change P _ _ fun r => Cleanup.reapKinds _ policy selector now namespaces (kind :: rest) r
    unfold Cleanup.reapKinds
    cases registry.get? kind with
    | none => exact h.bind (h.failed _) ih
    | some scope => exact h.bind (h.reapScopes (hscope kind) _) ih

end

/-! ## Accounts -/

/-- A step of a cleanup lists some places, and adds to the report some failures and those of its
calls. -/
def Accounts (places : List Place) (unlisted : List CleanupFailure)
    (step : CleanupReport → Program CleanupReport) : Prop :=
  ∀ r trace r', Runs (step r) trace (.ok r') →
    trace.filterMap Exchange.listed? = places ∧
      r'.failures.Perm (r.failures ++ (unlisted ++ trace.filterMap Exchange.cleanupFailure?))

/-- What changes the report without a call. -/
theorem accounts_pure {f : CleanupReport → CleanupReport}
    (h : ∀ r, (f r).failures = r.failures ++ unlisted) :
    Accounts [] unlisted fun r => pure (f r) := by
  intro r trace r' hrun
  obtain ⟨rfl, hr⟩ := runs_pure.1 hrun
  obtain rfl := Except.ok.inj hr
  rw [h, List.filterMap_nil, List.filterMap_nil, List.append_nil]
  exact ⟨rfl, .refl _⟩

theorem accounts_done : Accounts [] [] fun r => pure r :=
  accounts_pure (f := id) fun _ => (List.append_nil _).symm

theorem accounts_counted : Accounts [] [] fun r => pure r.counted :=
  accounts_pure fun _ => (List.append_nil _).symm

theorem accounts_failed (failure : CleanupFailure) :
    Accounts [] [failure] fun r => pure (r.failed failure) :=
  accounts_pure fun _ => rfl

theorem Accounts.bind (h : Accounts places unlisted step) (h' : Accounts places' unlisted' step') :
    Accounts (places ++ places') (unlisted ++ unlisted') fun r => step r >>= step' := by
  intro r trace r'' hrun
  rcases runs_bind.1 hrun with ⟨r', first, rest, rfl, hfirst, hrest⟩ | ⟨x, hx, -⟩
  rotate_left
  · cases hx
  obtain ⟨hplaces, hfailures⟩ := h r first r' hfirst
  obtain ⟨hplaces', hfailures'⟩ := h' r' rest r'' hrest
  refine ⟨by rw [List.filterMap_append, hplaces, hplaces'], ?_⟩
  rw [List.perm_iff_count] at hfailures hfailures' ⊢
  intro failure
  have := hfailures failure
  have := hfailures' failure
  simp only [List.filterMap_append, List.count_append] at *
  omega

/-! ## The steps -/

theorem accounts_reapOne (candidate : Candidate) :
    Accounts [] [] (reapOne kind policy now candidate) := by
  intro r trace r' h
  rcases runs_lift_bind.1 h with ⟨due, -, h⟩ | ⟨x, -, -, hx⟩
  rotate_left
  · cases hx
  split at h
  · split at h
    · exact accounts_counted r trace r' h
    · obtain ⟨answer, rest, rfl, hrest⟩ := runs_call.1 h
      cases answer with
      | ok u => exact accounts_counted r rest r' hrest
      | error e =>
        obtain ⟨rfl, hr⟩ := runs_pure.1 hrest
        obtain rfl := Except.ok.inj hr
        exact ⟨rfl, .refl _⟩
  · exact accounts_done r trace r' h

theorem accounts_reapAll (candidates : List Candidate) :
    Accounts [] [] (reapAll kind policy now candidates) := by
  induction candidates with
  | nil => exact accounts_done
  | cons candidate rest ih => exact (accounts_reapOne candidate).bind ih

theorem accounts_reapScope (ns : Option String) :
    Accounts [(kind, ns)] [] (reapScope kind policy selector now ns) := by
  intro r trace r' h
  obtain ⟨answer, rest, rfl, hrest⟩ := runs_call.1 h
  cases answer with
  | error e =>
    obtain ⟨rfl, hr⟩ := runs_pure.1 hrest
    obtain rfl := Except.ok.inj hr
    exact ⟨rfl, .refl _⟩
  | ok candidates =>
    obtain ⟨hplaces, hfailures⟩ := accounts_reapAll candidates _ _ _ hrest
    exact ⟨congrArg ((kind, ns) :: ·) hplaces, hfailures⟩

theorem composes_accounts : Composes Accounts where
  done := accounts_done
  failed := accounts_failed
  bind := Accounts.bind

theorem accounts_reapKinds (registry : Registry) (namespaces kinds : List String) :
    Accounts (placesIn registry namespaces kinds) (unlistedIn registry kinds)
      (reapKinds registry policy selector now namespaces kinds) :=
  composes_accounts.reapKinds (fun _ => accounts_reapScope) registry namespaces kinds

section
variable {registry : Registry} {config : CleanupConfig} {own : String} {namespaces : List String}
  {trace : List Exchange} {report : CleanupReport}

/-- A cleanup that comes to a report has listed its places, in order, and its failures are those of
the kinds that the registry does not have and of its calls. -/
theorem accounts_of_registry
    (h : Runs (run registry config own now).run trace (.ok (.ok report)))
    (hnamespaces : namespacesOf config own = .ok namespaces) :
    trace.filterMap Exchange.listed? = placesIn registry namespaces config.resourceTypes ∧
      report.failures.Perm
        (unlistedIn registry config.resourceTypes ++ trace.filterMap Exchange.cleanupFailure?) := by
  rcases runs_run h with ⟨e, -, -, hr⟩ | ⟨namespaces', hnamespaces', ⟨x, -, -, hr⟩ |
    ⟨policy, r', -, hrun, hr⟩⟩
  · cases hr
  · cases hr
  · obtain rfl := Except.ok.inj (hnamespaces.symm.trans hnamespaces')
    cases r' with
    | error x => cases hr
    | ok r =>
      obtain rfl := Except.ok.inj (Except.ok.inj hr)
      exact accounts_reapKinds registry namespaces config.resourceTypes _ _ _ hrun

/-- The failures of the kinds that no lister answers for, one for each mention. -/
def unlistedOf (σ : MemoryStore) (kinds : List String) : List CleanupFailure :=
  (kinds.filter fun kind => (lister? kind σ.listers).isNone).map fun kind =>
    ⟨kind, none, (Failure.unsupportedKind kind).message⟩

variable {σ : MemoryStore}

theorem placesIn_registry (σ : MemoryStore) (namespaces kinds : List String) :
    placesIn σ.registry namespaces kinds = placesOf σ namespaces kinds := by
  unfold placesIn placesOf placesAt
  congr 1
  funext kind
  rw [get?_registry]
  cases lister? kind σ.listers <;> rfl

theorem unlistedIn_registry (σ : MemoryStore) (kinds : List String) :
    unlistedIn σ.registry kinds = unlistedOf σ kinds := by
  unfold unlistedIn unlistedOf
  simp only [get?_registry, Option.isNone_map]

/-- A cleanup of a store that comes to a report has listed its places, in order, and its failures are
those of the kinds that nothing lists and of its calls. -/
theorem accounts_of_run (h : Runs (run σ.registry config own now).run trace (.ok (.ok report)))
    (hnamespaces : namespacesOf config own = .ok namespaces) :
    trace.filterMap Exchange.listed? = placesOf σ namespaces config.resourceTypes ∧
      report.failures.Perm
        (unlistedOf σ config.resourceTypes ++ trace.filterMap Exchange.cleanupFailure?) := by
  rw [← placesIn_registry, ← unlistedIn_registry]
  exact accounts_of_registry h hnamespaces

end

end Cleanup

end ScheduledScaling
