import Mathlib.Data.List.DropRight
import Mathlib.Data.List.Nodup
import ScheduledScaling.Dashboard.Route
import ScheduledScaling.Proofs.FinalState
import ScheduledScaling.Proofs.Pieces
/-!
# What the dashboard answers

`Route.Names` has the paths that ask for something, without the slashes at their end; all others are
unknown (`ofPath_eq_iff`, `ofPath_eq_unknown_iff`). The listing shows each schedule as it is shown
alone, whatever becomes of the probes: `dashboard_reads_alike`.
-/
namespace ScheduledScaling

open Program

/-! ## Paths -/

namespace Route

/-- A path is a text without a slash at its end, and slashes after it. -/
structure IsTrimmed (path rest : String) : Prop where
  slashes : ∃ count, path.toList = rest.toList ++ List.replicate count '/'
  ends : rest.toList.getLast? ≠ some '/'

/-- A part of a path, between slashes. -/
def IsSegment (s : String) : Prop := s ≠ "" ∧ '/' ∉ s.toList

instance : DecidablePred IsSegment := fun _ => inferInstanceAs (Decidable (_ ∧ _))

/-- The path of a schedule. -/
def schedulePath (ns name : String) : String := schedulesPath ++ "/" ++ ns ++ "/" ++ name

/-- What the paths ask for that ask for something. -/
inductive Names : String → Route → Prop
  | page : Names "" page
  | health : Names "/healthz" health
  | schedules : Names "/api/v1/schedules" schedules
  | schedule {ns name : String} : IsSegment ns → IsSegment name →
      Names (schedulePath ns name) (schedule ns name)

section
variable {path rest ns name : String} {route : Route} {s : List Char}

theorem dropSlashes_eq (s : List Char) : dropSlashes s = s.rdropWhile (· = '/') := rfl

theorem dropSlashes_append (s : List Char) (count : Nat) :
    dropSlashes (s ++ List.replicate count '/') = dropSlashes s := by
  induction count with
  | zero => rw [List.replicate_zero, List.append_nil]
  | succ count ih =>
    rw [List.replicate_succ', ← List.append_assoc, ← ih]
    exact List.rdropWhile_concat_pos _ _ _ (by simp)

theorem IsTrimmed.dropSlashes (h : IsTrimmed path rest) : dropSlashes path.toList = rest.toList := by
  obtain ⟨⟨count, hpath⟩, hends⟩ := h
  rw [hpath, dropSlashes_append, dropSlashes_eq, List.rdropWhile_eq_self_iff]
  intro hne hlast
  rw [List.getLast?_eq_some_getLast hne, of_decide_eq_true hlast] at hends
  exact hends rfl

/-- Each path has slashes at its end and a text before them. -/
theorem exists_isTrimmed (path : String) : ∃ rest, IsTrimmed path rest := by
  refine ⟨String.ofList (dropSlashes path.toList), ⟨?_, ?_⟩⟩
  · refine ⟨(path.toList.rtakeWhile (· = '/')).length, ?_⟩
    have hslashes : path.toList.rtakeWhile (· = '/') =
        List.replicate (path.toList.rtakeWhile (· = '/')).length '/' := by
      refine List.eq_replicate_of_mem fun c hc => ?_
      simpa using List.mem_rtakeWhile_imp hc
    rw [← hslashes, String.toList_ofList, dropSlashes_eq, List.rdropWhile_append_rtakeWhile]
  · rw [String.toList_ofList, dropSlashes_eq]
    intro hlast
    have hne : path.toList.rdropWhile (· = '/') ≠ [] := by
      intro hnil
      rw [hnil] at hlast
      cases hlast
    rw [List.getLast?_eq_some_getLast hne, Option.some.injEq] at hlast
    exact List.rdropWhile_last_not (· = '/') path.toList hne (decide_eq_true hlast)

theorem toList_schedulePath (ns name : String) :
    (schedulePath ns name).toList =
      schedulesPath.toList ++ ['/'] ++ (ns.toList ++ '/' :: name.toList) := by
  simp [schedulePath]

theorem pieces_eq_pair_iff {before after : List Char} :
    Text.pieces (· = '/') s = [before, after] ↔
      '/' ∉ before ∧ '/' ∉ after ∧ s = before ++ '/' :: after := by
  have hsep : (fun c : Char => decide (c = '/')) = (· == '/') := rfl
  rw [hsep, Text.pieces_eq_iff]
  simp [and_assoc]

/-- The paths below the listing that name a schedule. -/
theorem scheduleOf_eq_some_iff :
    scheduleOf rest.toList = some route ↔
      ∃ ns name, IsSegment ns ∧ IsSegment name ∧ rest = schedulePath ns name ∧
        route = schedule ns name := by
  unfold scheduleOf
  rw [Option.bind_eq_bind, Option.bind_eq_some_iff]
  constructor
  · rintro ⟨below, hbelow, h⟩
    split at h
    · rename_i ns name hpieces
      split at h
      · cases h
      · rename_i hne
        obtain ⟨hns, hname, rfl⟩ := pieces_eq_pair_iff.1 hpieces
        rw [not_or] at hne
        refine ⟨String.ofList ns, String.ofList name, ⟨?_, ?_⟩, ⟨?_, ?_⟩, ?_, (Option.some.inj h).symm⟩
        · simpa [← String.toList_inj] using hne.1
        · simpa using hns
        · simpa [← String.toList_inj] using hne.2
        · simpa using hname
        · rw [← String.toList_inj, toList_schedulePath, String.toList_ofList, String.toList_ofList]
          exact Text.dropPrefix?_eq_some_iff.1 hbelow
    · cases h
  · rintro ⟨ns, name, ⟨hns, hnsSlash⟩, ⟨hname, hnameSlash⟩, rfl, rfl⟩
    refine ⟨ns.toList ++ '/' :: name.toList, ?_, ?_⟩
    · rw [Text.dropPrefix?_eq_some_iff, toList_schedulePath]
    · rw [pieces_eq_pair_iff.2 ⟨hnsSlash, hnameSlash, rfl⟩]
      simp [hns, hname]

theorem ofPath_of_isTrimmed (h : IsTrimmed path rest) :
    ofPath path =
      if rest = "" then page
      else if rest = "/healthz" then health
      else if rest = "/api/v1/schedules" then schedules
      else (scheduleOf rest.toList).getD unknown := by
  unfold ofPath
  simp only [h.dropSlashes, String.toList_inj, String.toList_eq_nil_iff]
  rfl

theorem names_of_ofPath (h : IsTrimmed path rest) (hroute : ofPath path ≠ unknown) :
    Names rest (ofPath path) := by
  rw [ofPath_of_isTrimmed h] at hroute ⊢
  split
  · subst rest
    exact .page
  · split
    · subst rest
      exact .health
    · split
      · subst rest
        exact .schedules
      · rename_i hpage hhealth hschedules
        rw [if_neg hpage, if_neg hhealth, if_neg hschedules] at hroute
        cases hschedule : scheduleOf rest.toList with
        | none =>
          rw [hschedule] at hroute
          exact absurd rfl hroute
        | some route =>
          obtain ⟨ns, name, hns, hname, rfl, rfl⟩ := scheduleOf_eq_some_iff.1 hschedule
          exact .schedule hns hname

theorem ofPath_of_names (h : IsTrimmed path rest) (hnames : Names rest route) :
    ofPath path = route := by
  rw [ofPath_of_isTrimmed h]
  cases hnames with
  | page => rfl
  | health => rfl
  | schedules => rfl
  | @schedule ns name hns hname =>
    have hschedule : scheduleOf (schedulePath ns name).toList = some (schedule ns name) :=
      scheduleOf_eq_some_iff.2 ⟨ns, name, hns, hname, rfl, rfl⟩
    -- none of the other paths is one of a schedule
    have hother (other : String) (hnone : scheduleOf other.toList = none) :
        schedulePath ns name ≠ other := by
      rintro rfl
      rw [hschedule] at hnone
      cases hnone
    rw [if_neg (hother "" (by decide +kernel)), if_neg (hother "/healthz" (by decide +kernel)),
      if_neg (hother "/api/v1/schedules" (by decide +kernel)), hschedule]
    rfl

theorem ofPath_eq_iff (h : IsTrimmed path rest) (hroute : route ≠ unknown) :
    ofPath path = route ↔ Names rest route := by
  constructor
  · rintro rfl
    exact names_of_ofPath h hroute
  · exact ofPath_of_names h

theorem ofPath_eq_unknown_iff (h : IsTrimmed path rest) :
    ofPath path = unknown ↔ ∀ route, ¬ Names rest route := by
  constructor
  · intro hunknown route hnames
    obtain rfl := (ofPath_of_names h hnames).symm.trans hunknown
    cases hnames
  · intro hnone
    by_contra hroute
    exact hnone _ (names_of_ofPath h hroute)

example : ofPath "/api/v1/schedules//nightly" = unknown := by decide +kernel

end

end Route

/-! ## Programs over stores that answer alike -/

section
variable {α β σ : Type} {handler : Handler σ} {usable : σ → Prop}

/-- From each usable store a program comes to a value, and leaves a usable one. -/
def Program.Yields (handler : Handler σ) (usable : σ → Prop) (p : Program α) (a : α) : Prop :=
  ∀ s, usable s → ∃ s', usable s' ∧ p.run handler s = (.ok a, s')

theorem Program.Yields.pure (a : α) : Yields handler usable (pure a) a :=
  fun s hs => ⟨s, hs, rfl⟩

theorem Program.Yields.bind {p : Program α} {f : α → Program β} {a : α} {b : β}
    (hp : Yields handler usable p a) (hf : Yields handler usable (f a) b) :
    Yields handler usable (p >>= f) b := by
  intro s hs
  obtain ⟨s₁, hs₁, hrun⟩ := hp s hs
  obtain ⟨s₂, hs₂, hrun'⟩ := hf s₁ hs₁
  refine ⟨s₂, hs₂, ?_⟩
  change (p.bind f).run handler s = _
  rw [run_bind, hrun]
  exact hrun'

/-- Schedules are read as they stand in a list, and the answer to the fetch of a target depends on the
target alone. -/
structure Serves (handler : Handler σ) (usable : σ → Prop) (schedules : List Schedule)
    (workloads : Target → Except Failure Workload) : Prop where
  list : Yields handler usable Operation.listSchedules.run (.ok schedules)
  get (ns name : String) : Yields handler usable (Operation.getSchedule ns name).run
    (.ok (schedules.find? fun s => s.metadata.ns = some ns ∧ s.metadata.name = some name))
  fetch (target : Target) : Yields handler usable (Operation.fetch target).run (workloads target)

end

namespace Schedule

/-- Where a schedule is. -/
def IsAt (ns name : String) (s : Schedule) : Prop :=
  s.metadata.ns = some ns ∧ s.metadata.name = some name

/-- Each schedule has a path, and no other has the same. -/
structure Addressable (schedules : List Schedule) : Prop where
  named : ∀ s ∈ schedules, ∃ ns name, s.IsAt ns name ∧ Route.IsSegment ns ∧ Route.IsSegment name
  distinct : (schedules.map fun s => (s.metadata.ns, s.metadata.name)).Nodup

theorem Addressable.find?_eq {schedules : List Schedule} (h : Addressable schedules) {s : Schedule}
    (hs : s ∈ schedules) {ns name : String} (hat : s.IsAt ns name) :
    schedules.find? (fun s => s.metadata.ns = some ns ∧ s.metadata.name = some name) = some s := by
  cases hfound : schedules.find? fun s => s.metadata.ns = some ns ∧ s.metadata.name = some name with
  | none =>
    have hnone := List.find?_eq_none.1 hfound s hs
    simp [hat.1, hat.2] at hnone
  | some found =>
    obtain ⟨hns, hname⟩ : found.IsAt ns name := by simpa [IsAt] using List.find?_some hfound
    rw [List.inj_on_of_nodup_map h.distinct (List.mem_of_find?_eq_some hfound) hs]
    rw [hns, hname, hat.1, hat.2]

end Schedule

namespace Dashboard

/-- How a target is doing, where its workload can be read. -/
def healthIn (workloads : Target → Except Failure Workload) (target : Option Target) :
    Option Health :=
  target.bind fun target => (workloads target).toOption.map Workload.health

/-- What is shown of a schedule. -/
def viewIn (workloads : Target → Except Failure Workload) (s : Schedule) : ScheduleView where
  name := s.name
  ns := s.metadata.ns.getD ""
  target := s.spec.target
  scaleDown := s.spec.scaleDown
  scaleUp := s.spec.scaleUp
  cleanup := s.spec.cleanup
  timeZone := s.spec.timeZone
  status := s.recorded
  health := healthIn workloads s.spec.target

section
variable {σ : Type} {handler : Handler σ} {usable : σ → Prop} {schedules : List Schedule}
  {workloads : Target → Except Failure Workload}

theorem yields_probe (h : Serves handler usable schedules workloads) (target : Option Target) :
    Yields handler usable (probe target) (healthIn workloads target) := by
  cases target with
  | none => exact .pure none
  | some target =>
    refine (h.fetch target).bind ?_
    rw [healthIn, Option.bind_some]
    cases workloads target with
    | ok w => exact .pure (some w.health)
    | error e => exact .pure none

theorem yields_viewOf (h : Serves handler usable schedules workloads) (s : Schedule) :
    Yields handler usable (viewOf s) (viewIn workloads s) :=
  (yields_probe h s.spec.target).bind (.pure _)

/-- A probe that fails leaves the other schedules as they are. -/
theorem yields_viewsOf (h : Serves handler usable schedules workloads) (shown : List Schedule) :
    Yields handler usable (viewsOf shown) (shown.map (viewIn workloads)) := by
  induction shown with
  | nil => exact .pure []
  | cons s rest ih => exact (yields_viewOf h s).bind (ih.bind (.pure _))

theorem yields_respondList (h : Serves handler usable schedules workloads) :
    Yields handler usable respondList
      ⟨200, .json (.array (schedules.map fun s => (viewIn workloads s).toJson))⟩ := by
  refine h.list.bind ((yields_viewsOf h schedules).bind ?_)
  rw [List.map_map]
  exact .pure _

theorem yields_respondOne (h : Serves handler usable schedules workloads)
    (hschedules : Schedule.Addressable schedules) {s : Schedule} (hs : s ∈ schedules)
    {ns name : String} (hat : s.IsAt ns name) :
    Yields handler usable (respondOne ns name) ⟨200, .json (viewIn workloads s).toJson⟩ := by
  refine (h.get ns name).bind ?_
  rw [hschedules.find?_eq hs hat]
  exact (yields_viewOf h s).bind (.pure _)

/-! ## Requests -/

/-- Different routes are answered differently. -/
theorem respondTo_injective : Function.Injective respondTo := by
  intro route route' h
  cases route <;> cases route' <;> cases h <;> rfl

theorem respond_of_names {path rest : String} {route : Route} (htrimmed : Route.IsTrimmed path rest)
    (hnames : Route.Names rest route) : respond "GET" path = respondTo route :=
  congrArg respondTo (Route.ofPath_of_names htrimmed hnames)

/-- A path is answered by its route, if what is left of it without the slashes at its end asks for one,
and by a 404 if it does not. Over a store whose schedules have paths of their own, and whose answer to a
fetch depends on the target alone, the listing has the schedules in the order of the store, each as it
is answered alone, whichever of the probes fail. -/
theorem dashboard_reads_alike :
    (∀ path, ∃ rest, Route.IsTrimmed path rest ∧
      (∀ route, route ≠ .unknown →
        (respond "GET" path = respondTo route ↔ Route.Names rest route)) ∧
      (respond "GET" path = pure ⟨404, .text "Not Found"⟩ ↔ ∀ route, ¬ Route.Names rest route)) ∧
    ∀ {σ : Type} (handler : Handler σ) (usable : σ → Prop) (schedules : List Schedule)
      (workloads : Target → Except Failure Workload),
      Serves handler usable schedules workloads → Schedule.Addressable schedules →
        (∀ path, Route.IsTrimmed path "/api/v1/schedules" →
          Yields handler usable (respond "GET" path)
            ⟨200, .json (.array (schedules.map fun s => (viewIn workloads s).toJson))⟩) ∧
        ∀ s ∈ schedules, ∃ ns name, s.IsAt ns name ∧
          ∀ path, Route.IsTrimmed path (Route.schedulePath ns name) →
            Yields handler usable (respond "GET" path) ⟨200, .json (viewIn workloads s).toJson⟩ := by
  refine ⟨fun path => ?_, fun handler usable schedules workloads hserves haddressable => ⟨?_, ?_⟩⟩
  · obtain ⟨rest, hrest⟩ := Route.exists_isTrimmed path
    refine ⟨rest, hrest, fun route hroute => ?_, ?_⟩
    · rw [← Route.ofPath_eq_iff hrest hroute]
      exact respondTo_injective.eq_iff
    · rw [← Route.ofPath_eq_unknown_iff hrest]
      change respondTo (.ofPath path) = respondTo .unknown ↔ _
      exact respondTo_injective.eq_iff
  · intro path hpath
    rw [respond_of_names hpath .schedules]
    exact yields_respondList hserves
  · intro s hs
    obtain ⟨ns, name, hat, hns, hname⟩ := haddressable.named s hs
    refine ⟨ns, name, hat, fun path hpath => ?_⟩
    rw [respond_of_names hpath (.schedule hns hname)]
    exact yields_respondOne hserves haddressable hs hat

end

/-! ## Stores in memory -/

theorem fetch_of_unlimited {store : MemoryStore} (hfetch : store.fetchBudget = none)
    (hrace : store.race = none) (target : Target) : (MemoryStore.fetch target store).2 = store := by
  cases store
  cases hfetch
  cases hrace
  unfold MemoryStore.fetch
  dsimp only [MemoryStore.spend]
  split <;> rfl

/-- A store in memory answers alike while it is made to fail nowhere. -/
theorem serves_memory {store : MemoryStore} (hup : store.schedulesDown = false)
    (hfetch : store.fetchBudget = none) (hrace : store.race = none) :
    Serves MemoryStore.handler (· = store) store.schedules
      fun target => (MemoryStore.fetch target store).1 where
  list := by
    rintro _ rfl
    refine ⟨_, rfl, ?_⟩
    change (Except.ok (MemoryStore.listSchedules _), _) = _
    rw [MemoryStore.listSchedules, hup]
    rfl
  get ns name := by
    rintro _ rfl
    refine ⟨_, rfl, ?_⟩
    change (Except.ok (MemoryStore.getSchedule ns name _), _) = _
    rw [MemoryStore.getSchedule, hup]
    rfl
  fetch target := by
    rintro _ rfl
    refine ⟨_, rfl, ?_⟩
    change (Except.ok (MemoryStore.fetch target _).1, (MemoryStore.fetch target _).2) = _
    rw [fetch_of_unlimited hfetch hrace]

/-- A schedule whose target is not there. -/
def adrift : Schedule where
  metadata := { (default : ObjectMeta) with name := some "adrift", ns := some "shop" }
  spec := { nightly.spec with target := some ⟨"gone", "shop", "Deployment", "apps/v1"⟩ }
  status := none

/-- The store with the deployment of one of the schedules. -/
def shownStore : MemoryStore := { nightlyStore with schedules := [adrift, nightly] }

def shownWorkloads (target : Target) : Except Failure Workload :=
  (MemoryStore.fetch target shownStore).1

theorem dashboard_reads_alike_shown :
    Serves MemoryStore.handler (· = shownStore) [adrift, nightly] shownWorkloads ∧
      Schedule.Addressable [adrift, nightly] ∧
      (viewIn shownWorkloads adrift).health = none ∧
      (viewIn shownWorkloads nightly).health = some ⟨true, 3, 0, 0, none⟩ ∧
      Yields MemoryStore.handler (· = shownStore) (respond "GET" "/api/v1/schedules//")
        ⟨200, .json (.array
          [(viewIn shownWorkloads adrift).toJson, (viewIn shownWorkloads nightly).toJson])⟩ ∧
      Yields MemoryStore.handler (· = shownStore) (respond "GET" "/api/v1/schedules/shop/adrift")
        ⟨200, .json (viewIn shownWorkloads adrift).toJson⟩ := by
  have hserves : Serves MemoryStore.handler (· = shownStore) [adrift, nightly] shownWorkloads :=
    serves_memory rfl rfl rfl
  have haddressable : Schedule.Addressable [adrift, nightly] := by
    refine ⟨fun s hs => ?_, by decide⟩
    rcases List.mem_pair.1 hs with rfl | rfl
    · exact ⟨"shop", "adrift", ⟨rfl, rfl⟩, by decide +kernel, by decide +kernel⟩
    · exact ⟨"shop", "nightly", ⟨rfl, rfl⟩, by decide +kernel, by decide +kernel⟩
  obtain ⟨hlist, halone⟩ := dashboard_reads_alike.2 _ _ _ _ hserves haddressable
  refine ⟨hserves, haddressable, by decide +kernel, by decide +kernel, ?_, ?_⟩
  · exact hlist "/api/v1/schedules//" ⟨⟨2, by decide +kernel⟩, by decide +kernel⟩
  · obtain ⟨ns, name, hat, hyields⟩ := halone adrift List.mem_cons_self
    obtain rfl : "shop" = ns := Option.some.inj hat.1
    obtain rfl : "adrift" = name := Option.some.inj hat.2
    exact hyields "/api/v1/schedules/shop/adrift" ⟨⟨0, by decide +kernel⟩, by decide +kernel⟩

end Dashboard

end ScheduledScaling
