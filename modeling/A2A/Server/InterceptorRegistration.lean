/-
# Hooks of a dispatch while interceptors are added (`dispatcher.cpp`).
-/
import A2A.Foundation.Machine
import Mathlib.Data.List.ReduceOption

namespace A2A.Server.InterceptorRegistration

open A2A.Foundation

variable {ι : Type}

inductive Phase (ι : Type) where
  | notCalled
  /-- The lock is held, and the hooks of these interceptors are to be run. -/
  | before (rest : List (Option ι))
  /-- The lock is free: the executor is asked, or a refusal is handed on. -/
  | between
  /-- `RunAfterInterceptors`, with the lock. -/
  | after (rest : List (Option ι))
  | returned

/-- The dispatcher and one call; the last fields say who is registered when it takes the lock, and between the locks. -/
structure World (ι : Type) where
  hasExecutor : Bool
  interceptors : List (Option ι)
  phase : Phase ι := .notCalled
  beforeCalls : List ι := []
  afterCalls : List ι := []
  snapshot : List (Option ι) := []
  meanwhile : List ι := []

inductive Label (ι : Type) where
  | addInterceptor (interceptor : Option ι)
  | dispatch (authorized : Bool)
  | beforeDispatch (ok : Bool)
  | unlock
  | runAfterInterceptors
  | afterDispatch
  | leave

/-- One step; the lock keeps `AddInterceptor` out of the two loops. -/
def World.step (w : World ι) : Label ι → Option (World ι)
  | .addInterceptor none => some w
  | .addInterceptor (some added) =>
    match w.phase with
    | .before _ | .after _ => none
    | .between =>
      some { w with interceptors := w.interceptors ++ [some added], meanwhile := w.meanwhile ++ [added] }
    | .notCalled | .returned => some { w with interceptors := w.interceptors ++ [some added] }
  | .dispatch authorized =>
    match w.phase with
    | .notCalled =>
      some { w with
        snapshot := w.interceptors
        phase := if ¬ w.hasExecutor then .returned else if authorized then .before w.interceptors else .between }
    | _ => none
  | .beforeDispatch ok =>
    match w.phase with
    | .before (none :: rest) => some { w with phase := .before rest }
    | .before (some called :: rest) =>
      some { w with beforeCalls := w.beforeCalls ++ [called], phase := if ok then .before rest else .between }
    | _ => none
  | .unlock =>
    match w.phase with
    | .before [] => some { w with phase := .between }
    | _ => none
  | .runAfterInterceptors =>
    match w.phase with
    | .between => some { w with phase := .after w.interceptors.reverse }
    | _ => none
  | .afterDispatch =>
    match w.phase with
    | .after (none :: rest) => some { w with phase := .after rest }
    | .after (some called :: rest) => some { w with afterCalls := w.afterCalls ++ [called], phase := .after rest }
    | _ => none
  | .leave =>
    match w.phase with
    | .after [] => some { w with phase := .returned }
    | _ => none

/-- One dispatch, with registrations at any time. -/
def machine (hasExecutor : Bool) (interceptors : List (Option ι)) : Machine (World ι) (Label ι) where
  start := { hasExecutor, interceptors }
  step := World.step

/-- The interceptors that are called: the snapshot and those that came meanwhile, last first. -/
def World.reversed (w : World ι) : List ι := (w.snapshot ++ w.meanwhile.map some).reverse.reduceOption

/-- What has been called, phase by phase. -/
def World.Inv (w : World ι) : Prop :=
  match w.phase with
  | .notCalled => w.afterCalls = [] ∧ w.meanwhile = []
  | .before _ => w.hasExecutor = true ∧ w.interceptors = w.snapshot ∧ w.afterCalls = [] ∧ w.meanwhile = []
  | .between => w.hasExecutor = true ∧ w.interceptors = w.snapshot ++ w.meanwhile.map some ∧ w.afterCalls = []
  | .after rest => w.hasExecutor = true ∧ w.afterCalls ++ rest.reduceOption = w.reversed
  | .returned => w.afterCalls = if w.hasExecutor then w.reversed else []

theorem inv_step {w w' : World ι} {label : Label ι} (h : w.Inv) (hstep : w.step label = some w') : w'.Inv := by
  obtain ⟨hasExecutor, interceptors, phase, beforeCalls, afterCalls, snapshot, meanwhile⟩ := w
  cases label with
  | addInterceptor interceptor =>
    cases interceptor with
    | none => exact Option.some.inj hstep ▸ h
    | some added =>
      cases phase with
      | before | after => nomatch hstep
      | notCalled | returned => exact Option.some.inj hstep ▸ h
      | between =>
        cases hstep
        obtain ⟨hexecutor, hlist, hcalls⟩ := h
        refine ⟨hexecutor, ?_, hcalls⟩
        show interceptors ++ [some added] = snapshot ++ (meanwhile ++ [added]).map some
        rw [show interceptors = snapshot ++ meanwhile.map some from hlist, List.map_append, List.append_assoc]
        rfl
  | dispatch authorized =>
    cases phase with
    | notCalled =>
      cases hstep
      obtain ⟨hcalls, hmeanwhile⟩ := h
      cases hasExecutor <;> cases authorized <;> simp_all [World.Inv]
    | _ => nomatch hstep
  | beforeDispatch ok =>
    match phase, hstep with
    | .before (none :: rest), hstep => exact Option.some.inj hstep ▸ h
    | .before (some called :: rest), hstep =>
      cases hstep
      cases ok <;> simp_all [World.Inv]
  | unlock =>
    match phase, hstep with
    | .before [], hstep =>
      cases hstep
      simp_all [World.Inv]
  | runAfterInterceptors =>
    match phase, hstep with
    | .between, hstep =>
      cases hstep
      simp_all [World.Inv, World.reversed]
  | afterDispatch =>
    match phase, hstep with
    | .after (none :: rest), hstep => exact Option.some.inj hstep ▸ h
    | .after (some called :: rest), hstep =>
      cases hstep
      simp_all [World.Inv, World.reversed]
  | leave =>
    match phase, hstep with
    | .after [], hstep =>
      cases hstep
      simp_all [World.Inv, World.reversed]

theorem inv_of_reachable {hasExecutor : Bool} {interceptors : List (Option ι)} {w : World ι}
    (h : (machine hasExecutor interceptors).Reachable w) : w.Inv := by
  have hstart : World.Inv (machine hasExecutor interceptors).start := ⟨rfl, rfl⟩
  exact h.invariant hstart fun _ _ _ hinv hstep => inv_step hinv hstep

/-- A call runs the `AfterDispatch` hooks of those who were registered when it took the lock, in reverse order, exactly
if nobody was registered between its two locks; without an executor it runs none. -/
theorem after_hooks_are_those_of_snapshot_iff {hasExecutor : Bool} {interceptors : List (Option ι)} {w : World ι}
    (h : (machine hasExecutor interceptors).Reachable w) (hreturned : w.phase = .returned) :
    w.afterCalls = w.snapshot.reduceOption.reverse ↔
      if w.hasExecutor then w.meanwhile = [] else w.snapshot.reduceOption = [] := by
  have hinv := inv_of_reachable h
  unfold World.Inv at hinv
  rw [hreturned] at hinv
  dsimp only at hinv
  rw [hinv]
  cases w.hasExecutor with
  | false =>
    rw [if_neg Bool.false_ne_true, if_neg Bool.false_ne_true, eq_comm]
    exact List.reverse_eq_nil_iff
  | true =>
    have hreversed : w.reversed = w.meanwhile.reverse ++ w.snapshot.reduceOption.reverse := by
      simp [World.reversed, List.reduceOption, List.filterMap_reverse]
    simp [hreversed]

def undisturbedRun : List (Label Nat) :=
  [.dispatch true, .beforeDispatch true, .unlock, .runAfterInterceptors, .afterDispatch, .leave]

theorem undisturbed_run_calls_snapshot :
    ∃ w, (machine true [some 0]).Reachable w ∧ w.afterCalls = w.snapshot.reduceOption.reverse := by
  have hrun : (machine true [some 0]).Reachable _ := ⟨undisturbedRun, rfl⟩
  exact ⟨_, hrun, (after_hooks_are_those_of_snapshot_iff hrun rfl).mpr rfl⟩

/-- The second interceptor comes while the executor is asked. -/
theorem late_interceptor_is_called :
    ∃ w, (machine true [some 0]).Reachable w ∧ w.phase = .returned ∧ w.snapshot = [some 0] ∧ w.beforeCalls = [0] ∧
      w.afterCalls = [1, 0] :=
  ⟨_, ⟨[.dispatch true, .beforeDispatch true, .unlock, .addInterceptor (some 1), .runAfterInterceptors, .afterDispatch,
    .afterDispatch, .leave], rfl⟩, rfl, rfl, rfl, rfl⟩

end A2A.Server.InterceptorRegistration
