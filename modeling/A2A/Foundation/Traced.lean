/-
# Programs that call into a hidden world, and what their calls look like.
-/
import Mathlib.Data.List.Basic

namespace A2A.Foundation

universe u

/-- What a run of a program leaves behind. -/
structure Outcome (ε σ α : Type u) where
  value : Option α
  world : σ
  events : List ε

/-- A program over the world `σ` that emits events `ε`. -/
def Traced (ε σ α : Type u) : Type u := σ → Outcome ε σ α

namespace Traced

variable {ε σ α β γ : Type u}

def run (p : Traced ε σ α) (s : σ) : Outcome ε σ α := p s

instance : Monad (Traced ε σ) where
  pure a := fun s => ⟨some a, s, []⟩
  bind p f := fun s =>
    match p s with
    | ⟨none, s', es⟩ => ⟨none, s', es⟩
    | ⟨some a, s', es⟩ => ⟨(f a s').value, (f a s').world, es ++ (f a s').events⟩

/-- Call a function of the world, and record the call with its answer. -/
def call (f : σ → α × σ) (event : α → ε) : Traced ε σ α := fun s =>
  ⟨some (f s).1, (f s).2, [event (f s).1]⟩

/-- Read from the world without a record. -/
def observe (f : σ → α) : Traced ε σ α := fun s => ⟨some (f s), s, []⟩

/-- A program that does not return. -/
def diverge : Traced ε σ α := fun s => ⟨none, s, []⟩

/-! ## Runs -/

variable {p : Traced ε σ α} {f : α → Traced ε σ β} {s : σ} {a : α} {D : List ε → Prop} {Q : α → List ε → Prop}

@[simp] theorem run_call (f : σ → α × σ) (event : α → ε) (s : σ) :
    run (call f event) s = ⟨some (f s).1, (f s).2, [event (f s).1]⟩ := rfl

@[simp] theorem run_pure (a : α) (s : σ) : run (pure a : Traced ε σ α) s = ⟨some a, s, []⟩ := rfl

theorem run_bind_some (h : (run p s).value = some a) :
    run (p >>= f) s = ⟨(run (f a) (run p s).world).value, (run (f a) (run p s).world).world,
        (run p s).events ++ (run (f a) (run p s).world).events⟩ := by
  unfold run at h ⊢
  show (match p s with | ⟨none, s', es⟩ => _ | ⟨some a, s', es⟩ => _) = _
  cases hp : p s with
  | mk value world events =>
    rw [hp] at h
    cases h
    rfl

theorem run_bind_none (h : (run p s).value = none) : run (p >>= f) s = ⟨none, (run p s).world, (run p s).events⟩ := by
  unfold run at h ⊢
  show (match p s with | ⟨none, s', es⟩ => _ | ⟨some a, s', es⟩ => _) = _
  cases hp : p s with
  | mk value world events =>
    rw [hp] at h
    cases h
    rfl

@[simp] theorem run_call_bind (f : σ → α × σ) (event : α → ε) (k : α → Traced ε σ β) (s : σ) :
    run (call f event >>= k) s = ⟨(run (k (f s).1) (f s).2).value, (run (k (f s).1) (f s).2).world,
        event (f s).1 :: (run (k (f s).1) (f s).2).events⟩ := rfl

@[simp] theorem run_observe_bind (f : σ → α) (k : α → Traced ε σ β) (s : σ) :
    run (observe f >>= k) s = run (k (f s)) s := rfl

/-! ## The judgements -/

/-- A value satisfies `Q` with its events; a run that used up its rounds owes `D` of its events. -/
def Spec (p : Traced ε σ α) (D : List ε → Prop) (Q : α → List ε → Prop) : Prop :=
  ∀ s, (∀ a, (run p s).value = some a → Q a (run p s).events) ∧
    ((run p s).value = none → D (run p s).events)

/-- Every event satisfies `E`, and a value satisfies `R` with its events. -/
def Emits (p : Traced ε σ α) (E : ε → Prop) (R : α → List ε → Prop) : Prop :=
  Spec p (fun es => ∀ e ∈ es, E e) fun a es => (∀ e ∈ es, E e) ∧ R a es

theorem Spec.weaken {D' : List ε → Prop} {Q' : α → List ε → Prop} (h : Spec p D Q) (hD : ∀ es, D es → D' es)
    (hQ : ∀ a es, Q a es → Q' a es) : Spec p D' Q' := by
  intro s
  refine ⟨?_, fun hnone => hD _ ((h s).2 hnone)⟩
  intro a ha
  exact hQ a _ ((h s).1 a ha)

/-- What is owed of the events in either case holds of them after every run. -/
theorem Spec.events (h : Spec p D Q) (hD : ∀ a es, Q a es → D es) (s : σ) : D (run p s).events := by
  cases hvalue : (run p s).value with
  | none => exact (h s).2 hvalue
  | some a => exact hD a _ ((h s).1 a hvalue)

theorem spec_pure (h : Q a []) : Spec (pure a : Traced ε σ α) D Q := by
  intro s
  refine ⟨?_, nofun⟩
  intro b hb
  obtain rfl : a = b := Option.some.inj hb
  exact h

theorem spec_call {f : σ → α × σ} {event : α → ε} (h : ∀ a, Q a [event a]) : Spec (call f event) D Q := by
  intro s
  refine ⟨?_, nofun⟩
  intro a ha
  obtain rfl : (f s).1 = a := Option.some.inj ha
  exact h _

theorem spec_bind {C : List ε → Prop} {P : α → List ε → Prop} {Q : β → List ε → Prop} (hp : Spec p C P)
    (hD : ∀ es, C es → D es)
    (hf : ∀ a es, P a es → Spec (f a) (fun es' => D (es ++ es')) fun b es' => Q b (es ++ es')) :
    Spec (p >>= f) D Q := by
  intro s
  obtain ⟨hreturned, hstopped⟩ := hp s
  cases hrun : (run p s).value with
  | none =>
    rw [run_bind_none hrun]
    exact ⟨fun b hb => absurd hb (by simp), fun _ => hD _ (hstopped hrun)⟩
  | some a =>
    rw [run_bind_some hrun]
    exact hf a _ (hreturned a hrun) (run p s).world

/-! ### Events that all satisfy a condition -/

section Emits

variable {E : ε → Prop} {R : α → List ε → Prop}

variable {p : Traced ε σ α}

theorem Emits.weaken {E' : ε → Prop} {R' : α → List ε → Prop} (h : Emits p E R) (hE : ∀ e, E e → E' e)
    (hR : ∀ a es, R a es → R' a es) : Emits p E' R' := by
  refine Spec.weaken h (fun es hes e he => hE e (hes e he)) ?_
  rintro a es ⟨hes, ha⟩
  exact ⟨fun e he => hE e (hes e he), hR a es ha⟩

theorem emits_pure {a : α} (h : R a []) : Emits (pure a : Traced ε σ α) E R :=
  spec_pure ⟨nofun, h⟩

theorem emits_call {f : σ → α × σ} {event : α → ε} (hE : ∀ a, E (event a))
    (hR : ∀ a, R a [event a]) : Emits (call f event) E R := by
  refine spec_call fun a => ⟨?_, hR a⟩
  intro e he
  obtain rfl := List.mem_singleton.mp he
  exact hE a

theorem emits_observe {f : σ → α} (h : ∀ a, R a []) : Emits (observe f : Traced ε σ α) E R := by
  intro s
  exact ⟨fun a _ => ⟨nofun, h a⟩, nofun⟩

theorem emits_diverge : Emits (diverge : Traced ε σ α) E R := by
  intro s
  refine ⟨?_, nofun⟩
  intro a ha
  exact absurd ha (by simp [run, diverge])

theorem emits_bind {f : α → Traced ε σ β} {P : α → List ε → Prop} {Q : β → List ε → Prop} (hp : Emits p E P)
    (hf : ∀ a es, P a es → Emits (f a) E fun b es' => Q b (es ++ es')) : Emits (p >>= f) E Q := by
  refine spec_bind hp (fun _ hes => hes) ?_
  rintro a es ⟨hes, ha⟩
  have happend : ∀ es', (∀ e ∈ es', E e) → ∀ e ∈ es ++ es', E e := by
    intro es' hes' e he
    rcases List.mem_append.mp he with he | he
    · exact hes e he
    · exact hes' e he
  refine Spec.weaken (hf a es ha) happend ?_
  rintro b es' ⟨hes', hb⟩
  exact ⟨happend es' hes', hb⟩

end Emits

/-! ### Programs that always return -/

/-- The program returns from every world. -/
def Returns (p : Traced ε σ α) : Prop := ∀ s, ∃ a, (run p s).value = some a

variable {p : Traced ε σ α} {f : α → Traced ε σ β} {s t u : σ} {a : α}

theorem returns_pure : Returns (pure a : Traced ε σ α) := fun _ => ⟨a, rfl⟩

theorem returns_call {f : σ → α × σ} {event : α → ε} : Returns (call f event) :=
  fun s => ⟨(f s).1, rfl⟩

theorem returns_bind (hp : Returns p) (hf : ∀ a, Returns (f a)) : Returns (p >>= f) := by
  intro s
  obtain ⟨a, ha⟩ := hp s
  rw [run_bind_some ha]
  exact hf a _

/-! ### What one run gives -/

/-- From `s` the program returns `a` and leaves the world `t`. -/
def Gives (p : Traced ε σ α) (s : σ) (a : α) (t : σ) : Prop :=
  (run p s).value = some a ∧ (run p s).world = t

theorem gives_pure : Gives (pure a : Traced ε σ α) s a s := ⟨rfl, rfl⟩

theorem gives_bind {b : β} (hp : Gives p s a t) (hf : Gives (f a) t b u) : Gives (p >>= f) s b u := by
  obtain ⟨hvalue, rfl⟩ := hp
  unfold Gives
  rw [run_bind_some hvalue]
  exact hf

theorem value_bind_of_gives (h : Gives p s a t) : (run (p >>= f) s).value = (run (f a) t).value := by
  obtain ⟨hvalue, rfl⟩ := h
  rw [run_bind_some hvalue]

end Traced

end A2A.Foundation
