/-
# Labelled machines, their runs, and the rules for reasoning about a run.
-/
import Mathlib.Data.List.Basic

namespace A2A.Foundation

open List

universe u v

/-- A labelled machine with a partial step function. -/
structure Machine (State : Type u) (Label : Type v) where
  start : State
  step : State → Label → Option State

namespace Machine

variable {State : Type u} {Label : Type v} (M : Machine State Label)

/-- Run the labels in order; `none` as soon as one of them is not enabled. -/
def exec : State → List Label → Option State
  | s, [] => some s
  | s, l :: ls => (M.step s l).bind fun s' => exec s' ls

/-- Reachable by some interleaving from the start state. -/
def Reachable (s : State) : Prop := ∃ ls, M.exec M.start ls = some s

/-- Every step of the run meets `C` in the state it starts from. -/
def Meets (C : State → Label → Prop) : State → List Label → Prop
  | _, [] => True
  | s, l :: ls => C s l ∧ ∀ s', M.step s l = some s' → Meets C s' ls

/-- Reachable by an interleaving whose every step meets `C`. -/
def ReachableMeeting (C : State → Label → Prop) (s : State) : Prop :=
  ∃ ls, M.exec M.start ls = some s ∧ M.Meets C M.start ls

variable {M}

variable {s t : State} {l : Label} {ls ms : List Label} {C : State → Label → Prop} {I : State → Prop}
    {c : State → Label → Bool} {p : State → Bool}

theorem exec_cons : M.exec s (l :: ls) = some t ↔ ∃ s', M.step s l = some s' ∧ M.exec s' ls = some t := by
  simp only [exec, Option.bind_eq_some_iff]

theorem exec_append {u : State} : M.exec s (ls ++ ms) = some u ↔ ∃ t, M.exec s ls = some t ∧ M.exec t ms = some u := by
  induction ls generalizing s with
  | nil => simp [exec]
  | cons l ls ih =>
    simp only [cons_append, exec_cons, ih]
    constructor
    · rintro ⟨s', hs', t, ht, hu⟩
      exact ⟨t, ⟨s', hs', ht⟩, hu⟩
    · rintro ⟨t, ⟨s', hs', ht⟩, hu⟩
      exact ⟨s', hs', t, ht, hu⟩

theorem meets_append (h : M.exec s ls = some t) : M.Meets C s (ls ++ ms) ↔ M.Meets C s ls ∧ M.Meets C t ms := by
  induction ls generalizing s with
  | nil =>
    obtain rfl : s = t := Option.some.inj h
    simp [Meets]
  | cons l ls ih =>
    obtain ⟨s', hs', ht⟩ := exec_cons.mp h
    simp only [cons_append, Meets]
    constructor
    · rintro ⟨hC, hrest⟩
      have hboth := (ih ht).mp (hrest s' hs')
      refine ⟨⟨hC, ?_⟩, hboth.2⟩
      intro s'' hs''
      obtain rfl : s' = s'' := Option.some.inj (hs'.symm.trans hs'')
      exact hboth.1
    · rintro ⟨⟨hC, hls⟩, hms⟩
      refine ⟨hC, ?_⟩
      intro s'' hs''
      obtain rfl : s' = s'' := Option.some.inj (hs'.symm.trans hs'')
      exact (ih ht).mpr ⟨hls s' hs', hms⟩

theorem Meets.mono {D : State → Label → Prop} (hCD : ∀ s l, C s l → D s l) (h : M.Meets C s ls) : M.Meets D s ls := by
  induction ls generalizing s with
  | nil => trivial
  | cons l ls ih => exact ⟨hCD s l h.1, fun s' hs' => ih (h.2 s' hs')⟩

/-- Invariant rule for one run; the condition may be used in the step obligation. -/
theorem exec_invariant (hstep : ∀ s l s', I s → C s l → M.step s l = some s' → I s') (hI : I s)
    (hm : M.Meets C s ls) (h : M.exec s ls = some t) : I t := by
  induction ls generalizing s with
  | nil =>
    obtain rfl : s = t := Option.some.inj h
    exact hI
  | cons l ls ih =>
    obtain ⟨s', hs', ht⟩ := exec_cons.mp h
    exact ih (hstep s l s' hI hm.1 hs') (hm.2 s' hs') ht

theorem meets_true (s : State) (ls : List Label) : M.Meets (fun _ _ => True) s ls := by
  induction ls generalizing s with
  | nil => trivial
  | cons l ls ih => exact ⟨trivial, fun s' _ => ih s'⟩

/-- The invariant rule over all interleavings. -/
theorem Reachable.invariant (h0 : I M.start) (hstep : ∀ s l s', I s → M.step s l = some s' → I s')
    (h : M.Reachable s) : I s := by
  obtain ⟨ls, hls⟩ := h
  exact exec_invariant (C := fun _ _ => True) (fun s l s' hI _ => hstep s l s' hI) h0 (meets_true _ _) hls

/-- The invariant rule over the interleavings that meet `C`. -/
theorem ReachableMeeting.invariant (h0 : I M.start)
    (hstep : ∀ s l s', I s → C s l → M.step s l = some s' → I s') (h : M.ReachableMeeting C s) : I s := by
  obtain ⟨ls, hls, hm⟩ := h
  exact exec_invariant hstep h0 hm hls

theorem ReachableMeeting.reachable (h : M.ReachableMeeting C s) : M.Reachable s := by
  obtain ⟨ls, hls, _⟩ := h
  exact ⟨ls, hls⟩

theorem Reachable.exec (h : M.Reachable s) (ht : M.exec s ls = some t) : M.Reachable t := by
  obtain ⟨ms, hms⟩ := h
  exact ⟨ms ++ ls, exec_append.mpr ⟨s, hms, ht⟩⟩

theorem Reachable.step (h : M.Reachable s) (ht : M.step s l = some t) : M.Reachable t := by
  have hone : M.exec s [l] = some t := exec_cons.mpr ⟨t, ht, rfl⟩
  exact h.exec hone

theorem ReachableMeeting.step (h : M.ReachableMeeting C s) (hC : C s l) (ht : M.step s l = some t) :
    M.ReachableMeeting C t := by
  obtain ⟨ms, hms, hm⟩ := h
  refine ⟨ms ++ [l], exec_append.mpr ⟨s, hms, exec_cons.mpr ⟨t, ht, rfl⟩⟩, ?_⟩
  exact (meets_append hms).mpr ⟨hm, hC, fun _ _ => trivial⟩

/-- What each step relates, a run relates; the invariant `I` and the condition `C` hold at every step. -/
theorem exec_rel {R : State → State → Prop} (hrefl : ∀ s, R s s) (htrans : ∀ {a b c}, R a b → R b c → R a c)
    (hI : ∀ s l s', I s → C s l → M.step s l = some s' → I s')
    (hR : ∀ s l s', I s → C s l → M.step s l = some s' → R s s') (hs : I s) (hm : M.Meets C s ls)
    (h : M.exec s ls = some t) : R s t := by
  induction ls generalizing s with
  | nil =>
    obtain rfl : s = t := Option.some.inj h
    exact hrefl s
  | cons l ls ih =>
    obtain ⟨s', hs', ht⟩ := exec_cons.mp h
    exact htrans (hR s l s' hs hm.1 hs') (ih (hI s l s' hs hm.1 hs') (hm.2 s' hs') ht)

/-- A condition that decides at every step decides for the whole run. -/
theorem forall_prefix_iff_meets {G : State → Prop} (hI : ∀ s l s', I s → M.step s l = some s' → I s')
    (hG : ∀ s l s', I s → G s → M.step s l = some s' → (G s' ↔ C s l)) (hs : I s) (hgoal : G s)
    (h : M.exec s ls = some t) : (∀ front, front <+: ls → ∀ u, M.exec s front = some u → G u) ↔ M.Meets C s ls := by
  induction ls generalizing s with
  | nil =>
    refine iff_of_true ?_ trivial
    intro front hfront u hu
    obtain rfl := prefix_nil.mp hfront
    obtain rfl : s = u := Option.some.inj hu
    exact hgoal
  | cons l ls ih =>
    obtain ⟨s', hs', ht⟩ := exec_cons.mp h
    constructor
    · intro hall
      have hgoal' : G s' :=
        hall [l] (prefix_iff_eq_append.mpr rfl) s' (exec_cons.mpr ⟨s', hs', rfl⟩)
      refine ⟨(hG s l s' hs hgoal hs').mp hgoal', ?_⟩
      intro s'' hs''
      obtain rfl : s' = s'' := Option.some.inj (hs'.symm.trans hs'')
      apply (ih (hI s l s' hs hs') hgoal' ht).mp
      intro front hfront u hu
      exact hall (l :: front) (cons_prefix_cons.mpr ⟨rfl, hfront⟩) u (exec_cons.mpr ⟨s', hs', hu⟩)
    · rintro ⟨hC, hrest⟩ front hfront u hu
      have hgoal' := (hG s l s' hs hgoal hs').mpr hC
      cases front with
      | nil =>
        obtain rfl : s = u := Option.some.inj hu
        exact hgoal
      | cons l' front =>
        obtain ⟨rfl, hfront'⟩ := cons_prefix_cons.mp hfront
        obtain ⟨s'', hs'', hu'⟩ := exec_cons.mp hu
        obtain rfl : s' = s'' := Option.some.inj (hs'.symm.trans hs'')
        exact (ih (hI s l' s' hs hs') hgoal' ht).mpr (hrest s' hs') front hfront' u hu'

/-! ## Monitors -/

section Monitors

variable {Event Ledger : Type*} {emits : State → Label → List Event}
    {follow : Ledger → Event → Option Ledger} {R : State → Ledger → Prop} {D : State → Label → Prop}
    {ledger : Ledger}

/-- The events that the steps of a run leave, in order. -/
def emitted (M : Machine State Label) (emits : State → Label → List Event) :
    State → List Label → List Event
  | _, [] => []
  | s, l :: ls => emits s l ++ (M.step s l).elim [] (emitted M emits · ls)

/-- A monitor reads the events of a run in which every step meets `D`. If it accepts those of one
step exactly when the step meets `C`, and `R` ties the state to its ledger, then it accepts the
whole run exactly when every step meets `C`. -/
theorem accepted_iff_meets
    (haccepts : ∀ s l ledger, R s ledger → D s l → C s l →
      ∃ after, (emits s l).foldlM follow ledger = some after ∧ ∀ s', M.step s l = some s' → R s' after)
    (hrejects : ∀ s l ledger, R s ledger → D s l → ¬ C s l → (emits s l).foldlM follow ledger = none)
    (hR : R s ledger) (hD : M.Meets D s ls) :
    (M.emitted emits s ls).foldlM follow ledger ≠ none ↔ M.Meets C s ls := by
  induction ls generalizing s ledger with
  | nil => exact iff_of_true nofun trivial
  | cons l ls ih =>
    rw [emitted, foldlM_append]
    by_cases hC : C s l
    · obtain ⟨after, hafter, hkept⟩ := haccepts s l ledger hR hD.1 hC
      rw [hafter]
      cases hs' : M.step s l with
      | none => exact iff_of_true nofun ⟨hC, fun s' hstep => nomatch hs'.symm.trans hstep⟩
      | some s' =>
        have hrest := ih (hkept s' hs') (hD.2 s' hs')
        refine hrest.trans ⟨fun hmeets => ⟨hC, fun s'' hs'' => ?_⟩, fun hmeets => hmeets.2 s' hs'⟩
        obtain rfl : s' = s'' := Option.some.inj (hs'.symm.trans hs'')
        exact hmeets
    · rw [hrejects s l ledger hR hD.1 hC]
      exact iff_of_false (fun hne => hne rfl) fun hmeets => hC hmeets.1

end Monitors

/-- Run the labels in order, as long as each step meets the Boolean condition `c`. -/
def execIf (M : Machine State Label) (c : State → Label → Bool) : State → List Label → Option State
  | s, [] => some s
  | s, l :: ls => if c s l then (M.step s l).bind fun s' => execIf M c s' ls else none

theorem execIf_spec (h : M.execIf c s ls = some t) : M.exec s ls = some t ∧ M.Meets (fun s l => c s l) s ls := by
  induction ls generalizing s with
  | nil => exact ⟨h, trivial⟩
  | cons l ls ih =>
    unfold execIf at h
    split_ifs at h with hc
    obtain ⟨s', hs', ht⟩ := Option.bind_eq_some_iff.mp h
    obtain ⟨hexec, hmeets⟩ := ih ht
    refine ⟨exec_cons.mpr ⟨s', hs', hexec⟩, hc, ?_⟩
    intro s'' hs''
    obtain rfl : s' = s'' := Option.some.inj (hs'.symm.trans hs'')
    exact hmeets

/-- A concrete interleaving exhibits a reachable state with a decidable property. -/
theorem reachable_of_exec (ls : List Label) (h : (M.exec M.start ls).map p = some true) : ∃ s, M.Reachable s ∧ p s := by
  cases hrun : M.exec M.start ls with
  | none => simp [hrun] at h
  | some s => exact ⟨s, ⟨ls, hrun⟩, by simpa [hrun] using h⟩

theorem reachableMeeting_of_execIf (ls : List Label) (h : (M.execIf c M.start ls).map p = some true) :
    ∃ s, M.ReachableMeeting (fun s l => c s l) s ∧ p s := by
  obtain ⟨s, hrun, hp⟩ := Option.map_eq_some_iff.mp h
  exact ⟨s, ⟨ls, execIf_spec hrun⟩, hp⟩

end Machine

end A2A.Foundation
