import ScheduledScaling.Pass.Reconcile
/-!
# Programs and their traces

`Program.Runs` relates a program to its calls with their answers, and to what it comes to. The
answers are arbitrary, so what holds of all runs holds over every store and with every failure.

- `runs_trace`: what a program does over a store is one of its runs.
- `runs_bind`: a run of two programs is a run of the first and then one of the second.
- `view_run_eq`, `run_congr_view`: what a program leaves alone in a store, and what it depends on.
-/
namespace ScheduledScaling

/-- A call and its answer. -/
structure Exchange where
  call : StoreCall
  answer : call.Answer

/-- How a call has failed, if it has. -/
def Exchange.failure? : Exchange → Option Failure
  | ⟨_, .error e⟩ => some e
  | ⟨_, .ok _⟩ => none

namespace Program

variable {α β σ : Type}

instance : LawfulMonad Program :=
  LawfulMonad.mk' Program (fun p => bind_pure p) (fun _ _ => rfl) fun p f g => bind_assoc p f g

/-! ## Runs -/

/-- The calls of a program with their answers, and its end. -/
inductive Runs : Program α → List Exchange → Except Overflow α → Prop
  | done (a : α) : Runs (.done a) [] (.ok a)
  | abort (e : Overflow) : Runs (.abort e) [] (.error e)
  | call {c next trace r} (answer : c.Answer) : Runs (next answer) trace r →
      Runs (.call c next) (⟨c, answer⟩ :: trace) r

/-- The calls of a program over a store, with their answers. -/
def trace (handler : Handler σ) : Program α → σ → List Exchange
  | done _, _ | abort _, _ => []
  | call c next, s =>
    let (answer, s) := handler c s
    ⟨c, answer⟩ :: (next answer).trace handler s

theorem runs_trace (handler : Handler σ) (p : Program α) (s : σ) :
    Runs p (p.trace handler s) (p.run handler s).1 := by
  induction p generalizing s with
  | done a => exact .done a
  | abort e => exact .abort e
  | call c next ih => exact .call _ (ih _ _)

@[simp] theorem runs_done {a : α} {trace : List Exchange} {r : Except Overflow α} :
    Runs (.done a) trace r ↔ trace = [] ∧ r = .ok a := by
  constructor
  · intro h
    cases h
    exact ⟨rfl, rfl⟩
  · rintro ⟨rfl, rfl⟩
    exact .done a

@[simp] theorem runs_abort {e : Overflow} {trace : List Exchange} {r : Except Overflow α} :
    Runs (.abort e) trace r ↔ trace = [] ∧ r = .error e := by
  constructor
  · intro h
    cases h
    exact ⟨rfl, rfl⟩
  · rintro ⟨rfl, rfl⟩
    exact .abort e

theorem runs_call {c : StoreCall} {next : c.Answer → Program α} {trace : List Exchange}
    {r : Except Overflow α} :
    Runs (.call c next) trace r ↔ ∃ answer rest, trace = ⟨c, answer⟩ :: rest ∧
      Runs (next answer) rest r := by
  constructor
  · intro h
    cases h with
    | call answer h => exact ⟨answer, _, rfl, h⟩
  · rintro ⟨answer, rest, rfl, h⟩
    exact .call answer h

/-- A run of two programs is a run of the first and then one of the second, or the first breaks
off. -/
theorem runs_bind {p : Program α} {f : α → Program β} {trace : List Exchange}
    {r : Except Overflow β} :
    Runs (p >>= f) trace r ↔
      (∃ a before after, trace = before ++ after ∧ Runs p before (.ok a) ∧ Runs (f a) after r) ∨
        ∃ e, r = .error e ∧ Runs p trace (.error e) := by
  change Runs (p.bind f) trace r ↔ _
  induction p generalizing trace with
  | done a =>
    rw [bind_done]
    constructor
    · intro h
      exact .inl ⟨a, [], trace, rfl, .done a, h⟩
    · rintro (⟨a', before, after, rfl, h1, h2⟩ | ⟨e, -, h⟩)
      · cases h1
        exact h2
      · cases h
  | abort e =>
    rw [bind_abort, runs_abort]
    constructor
    · rintro ⟨rfl, rfl⟩
      exact .inr ⟨e, rfl, .abort e⟩
    · rintro (⟨a, before, after, -, h, -⟩ | ⟨e', rfl, h⟩)
      · cases h
      · cases h
        exact ⟨rfl, rfl⟩
  | call c next ih =>
    simp only [bind_call, runs_call, ih]
    constructor
    · rintro ⟨answer, rest, rfl, ⟨a, before, after, rfl, h1, h2⟩ | ⟨e, rfl, h⟩⟩
      · exact .inl ⟨a, ⟨c, answer⟩ :: before, after, rfl, ⟨answer, before, rfl, h1⟩, h2⟩
      · exact .inr ⟨e, rfl, answer, rest, rfl, h⟩
    · rintro (⟨a, _, after, rfl, ⟨answer, before, rfl, h1⟩, h2⟩ | ⟨e, rfl, answer, rest, rfl, h⟩)
      · exact ⟨answer, before ++ after, rfl, .inl ⟨a, before, after, rfl, h1, h2⟩⟩
      · exact ⟨answer, rest, rfl, .inr ⟨e, rfl, h⟩⟩

@[simp] theorem runs_pure {a : α} {trace : List Exchange} {r : Except Overflow α} :
    Runs (pure a) trace r ↔ trace = [] ∧ r = .ok a := runs_done

/-- A value that is there already takes no call. -/
theorem runs_lift_bind {x : Except Overflow α} {f : α → Program β} {trace : List Exchange}
    {r : Except Overflow β} :
    Runs (lift x >>= f) trace r ↔
      (∃ a, x = .ok a ∧ Runs (f a) trace r) ∨ ∃ e, x = .error e ∧ trace = [] ∧ r = .error e := by
  cases x with
  | ok a =>
    change Runs (f a) trace r ↔ _
    constructor
    · exact fun h => .inl ⟨a, rfl, h⟩
    · rintro (⟨a', ha, h⟩ | ⟨e, he, -⟩)
      · cases ha
        exact h
      · cases he
  | error e =>
    change Runs (.abort e) trace r ↔ _
    rw [runs_abort]
    constructor
    · exact fun h => .inr ⟨e, rfl, h⟩
    · rintro (⟨a, ha, -⟩ | ⟨e', he, h⟩)
      · cases ha
      · cases he
        exact h

/-- A program whose value is turned into another one makes the same calls. -/
theorem runs_map {p : Program α} {f : α → β} {trace : List Exchange} {r : Except Overflow β} :
    Runs (f <$> p) trace r ↔ ∃ r', Runs p trace r' ∧ r = r'.map f := by
  rw [map_eq_pure_bind, runs_bind]
  constructor
  · rintro (⟨a, before, after, rfl, hp, hf⟩ | ⟨e, rfl, hp⟩)
    · obtain ⟨rfl, rfl⟩ := runs_pure.1 hf
      rw [List.append_nil]
      exact ⟨.ok a, hp, rfl⟩
    · exact ⟨.error e, hp, rfl⟩
  · rintro ⟨r', hp, rfl⟩
    cases r' with
    | ok a => exact .inl ⟨a, trace, [], (List.append_nil _).symm, hp, runs_pure.2 ⟨rfl, rfl⟩⟩
    | error e => exact .inr ⟨e, rfl, hp⟩

/-- The answers decide a run: two runs of one program that begin the same calls are the same. -/
theorem Runs.unique {p : Program α} {first first' rest rest' : List Exchange}
    {r r' : Except Overflow α} (h : Runs p first r) (h' : Runs p first' r')
    (heq : first ++ rest = first' ++ rest') : first = first' ∧ r = r' := by
  induction h generalizing first' with
  | done a =>
    obtain ⟨rfl, rfl⟩ := runs_done.1 h'
    exact ⟨rfl, rfl⟩
  | abort e =>
    obtain ⟨rfl, rfl⟩ := runs_abort.1 h'
    exact ⟨rfl, rfl⟩
  | call answer _ ih =>
    obtain ⟨answer', later', rfl, hnext⟩ := runs_call.1 h'
    rw [List.cons_append, List.cons_append, List.cons.injEq] at heq
    obtain ⟨hfirst, hrest⟩ := heq
    cases hfirst
    obtain ⟨rfl, rfl⟩ := ih hnext hrest
    exact ⟨rfl, rfl⟩

/-! ## Calls -/

/-- A program makes calls of one sort only, whatever the answers are. -/
def OnlyCalls (allowed : StoreCall → Prop) : Program α → Prop
  | .done _ | .abort _ => True
  | .call c next => allowed c ∧ ∀ answer, OnlyCalls allowed (next answer)

variable {allowed : StoreCall → Prop}

theorem OnlyCalls.mono {wider : StoreCall → Prop} {p : Program α} (hp : OnlyCalls allowed p)
    (h : ∀ c, allowed c → wider c) : OnlyCalls wider p := by
  induction p with
  | done | abort => trivial
  | call c next ih => exact ⟨h c hp.1, fun answer => ih answer (hp.2 answer)⟩

theorem onlyCalls_bind {p : Program α} {f : α → Program β} (hp : OnlyCalls allowed p)
    (hf : ∀ a, OnlyCalls allowed (f a)) : OnlyCalls allowed (p >>= f) := by
  change OnlyCalls allowed (p.bind f)
  induction p with
  | done a => exact hf a
  | abort e => trivial
  | call c next ih => exact ⟨hp.1, fun answer => ih answer (hp.2 answer)⟩

theorem onlyCalls_lift {x : Except Overflow α} : OnlyCalls allowed (lift x) := by
  cases x <;> trivial

theorem Runs.call_of_mem {p : Program α} {trace : List Exchange} {r : Except Overflow α}
    (h : Runs p trace r) (hp : OnlyCalls allowed p) : ∀ x ∈ trace, allowed x.call := by
  induction h with
  | done | abort =>
    intro x hx
    cases hx
  | call answer _ ih =>
    intro x hx
    rcases List.mem_cons.1 hx with rfl | hx
    · exact hp.1
    · exact ih (hp.2 answer) x hx

/-- Each answer over a store is one that the store gives. -/
theorem exists_answer_of_mem_trace {handler : Handler σ} {p : Program α} {s : σ} {x : Exchange}
    (hx : x ∈ p.trace handler s) : ∃ s', x.answer = (handler x.call s').1 := by
  induction p generalizing s with
  | done | abort => cases hx
  | call c next ih =>
    rcases List.mem_cons.1 hx with rfl | hx
    · exact ⟨s, rfl⟩
    · exact ih _ hx

/-! ## Programs that do not break off -/

/-- A program comes to a value, whatever the answers are. -/
def Completes : Program α → Prop
  | .done _ => True
  | .abort _ => False
  | .call _ next => ∀ answer, Completes (next answer)

theorem completes_bind {p : Program α} {f : α → Program β} (hp : Completes p)
    (hf : ∀ a, Completes (f a)) : Completes (p >>= f) := by
  change Completes (p.bind f)
  induction p with
  | done a => exact hf a
  | abort e => exact hp.elim
  | call c next ih => exact fun answer => ih answer (hp answer)

theorem Runs.ok_of_completes {p : Program α} {trace : List Exchange} {r : Except Overflow α}
    (h : Runs p trace r) (hp : Completes p) : ∃ a, r = .ok a := by
  induction h with
  | done a => exact ⟨a, rfl⟩
  | abort e => exact hp.elim
  | call answer _ ih => exact ih (hp answer)

/-! ## Parts of a store -/

/-- The calls of two programs over a store: those of the first, and then those of the second. -/
theorem trace_bind (handler : Handler σ) (p : Program α) (f : α → Program β) (s : σ) :
    (p >>= f).trace handler s = p.trace handler s ++
      match p.run handler s with
      | (.ok a, s) => (f a).trace handler s
      | (.error _, _) => [] := by
  change (p.bind f).trace handler s = _
  induction p generalizing s with
  | done a => rfl
  | abort e => rfl
  | call c next ih => exact congrArg (_ :: ·) (ih _ _)

theorem trace_bind_of_ok {handler : Handler σ} {p : Program α} {f : α → Program β} {a : α}
    {before after : σ} (h : p.run handler before = (.ok a, after)) :
    (p >>= f).trace handler before = p.trace handler before ++ (f a).trace handler after := by
  rw [trace_bind, h]

theorem trace_bind_of_error {handler : Handler σ} {p : Program α} {f : α → Program β}
    {x : Overflow} {before after : σ} (h : p.run handler before = (.error x, after)) :
    (p >>= f).trace handler before = p.trace handler before := by
  rw [trace_bind, h, List.append_nil]

section View
variable {τ : Type} {handler : Handler σ} {view : σ → τ} {p : Program α} {s s' : σ}

/-- A part of the store that no call of a program changes is the same at the end. -/
theorem view_run_eq (view : σ → τ) (hp : OnlyCalls allowed p)
    (h : ∀ c, allowed c → ∀ s, view (handler c s).2 = view s) :
    view (p.run handler s).2 = view s := by
  induction p generalizing s with
  | done a => rfl
  | abort e => rfl
  | call c next ih => exact (ih _ (hp.2 _)).trans (h c hp.1 s)

/-- Stores that agree in the part that the calls of a program are about give the same answers. -/
theorem run_congr_view (hp : OnlyCalls allowed p)
    (h : ∀ c, allowed c → ∀ s s', view s = view s' →
      (handler c s).1 = (handler c s').1 ∧ view (handler c s).2 = view (handler c s').2)
    (hs : view s = view s') :
    p.trace handler s = p.trace handler s' ∧ (p.run handler s).1 = (p.run handler s').1 ∧
      view (p.run handler s).2 = view (p.run handler s').2 := by
  induction p generalizing s s' with
  | done a => exact ⟨rfl, rfl, hs⟩
  | abort e => exact ⟨rfl, rfl, hs⟩
  | call c next ih =>
    obtain ⟨hanswer, hview⟩ := h c hp.1 s s' hs
    obtain ⟨htrace, hrun⟩ := ih (handler c s).1 (hp.2 _) hview
    change (⟨c, (handler c s).1⟩ :: (next (handler c s).1).trace handler (handler c s).2) =
        ⟨c, (handler c s').1⟩ :: (next (handler c s').1).trace handler (handler c s').2 ∧
      ((next (handler c s).1).run handler (handler c s).2).1 =
        ((next (handler c s').1).run handler (handler c s').2).1 ∧
      view ((next (handler c s).1).run handler (handler c s).2).2 =
        view ((next (handler c s').1).run handler (handler c s').2).2
    rw [← hanswer]
    exact ⟨congrArg (_ :: ·) htrace, hrun⟩

end View

end Program

end ScheduledScaling
