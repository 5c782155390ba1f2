/-
# Properties of the events of a log, each in terms of what came before it.
-/
import Mathlib.Data.List.Basic
import Mathlib.Data.List.Induction

namespace A2A.Foundation

open List

universe u v

variable {ε : Type u}

/-- Every event of the log is related to the events before it. -/
def EachEvent (P : List ε → ε → Prop) (log : List ε) : Prop :=
  ∀ before event after, log = before ++ event :: after → P before event

variable {P : List ε → ε → Prop} {log later : List ε} {event : ε} {β : Type v}

theorem eachEvent_nil (P : List ε → ε → Prop) : EachEvent P [] := by
  intro before event after h
  exact absurd h (by simp)

theorem eachEvent_append_singleton :
    EachEvent P (log ++ [event]) ↔ EachEvent P log ∧ P log event := by
  constructor
  · intro h
    refine ⟨?_, h log event [] rfl⟩
    intro before e after hlog
    exact h before e (after ++ [event]) (by rw [hlog, append_assoc, cons_append])
  · rintro ⟨hlog, hevent⟩ before e after hsplit
    -- The split is either inside `log` or exactly in front of the new event.
    rcases eq_nil_or_concat after with rfl | ⟨rest, last, rfl⟩
    · obtain ⟨rfl, hlast⟩ := append_inj' hsplit rfl
      obtain rfl : event = e := singleton_inj.mp hlast
      exact hevent
    · rw [concat_eq_append, ← cons_append, ← append_assoc] at hsplit
      obtain ⟨rfl, _⟩ := append_inj' hsplit rfl
      exact hlog before e rest rfl

/-- The step rule from the front: the later events see the first one before them. -/
theorem eachEvent_cons (hevent : P [] event) (hlog : EachEvent (fun before => P (event :: before)) log) :
    EachEvent P (event :: log) := by
  intro before e after hsplit
  cases before with
  | nil =>
    obtain ⟨rfl, -⟩ := List.cons.inj hsplit
    exact hevent
  | cons first before =>
    obtain ⟨rfl, hrest⟩ := List.cons.inj hsplit
    exact hlog before e after hrest

/-- Appending several events: each of them sees the log and the new events before it. -/
theorem EachEvent.append (hlog : EachEvent P log)
    (hlater : ∀ before event after, later = before ++ event :: after → P (log ++ before) event) :
    EachEvent P (log ++ later) := by
  induction later using List.reverseRecOn with
  | nil =>
    rw [append_nil]
    exact hlog
  | append_singleton later last ih =>
    rw [← append_assoc]
    refine eachEvent_append_singleton.mpr ⟨ih ?_, hlater later last [] rfl⟩
    intro before event after hsplit
    apply hlater before event (after ++ [last])
    rw [hsplit, append_assoc, cons_append]

theorem EachEvent.append_toList (h : EachEvent P log) {event : Option ε} (hevent : ∀ e ∈ event, P log e) :
    EachEvent P (log ++ event.toList) := by
  cases event with
  | none =>
    rw [Option.toList_none, append_nil]
    exact h
  | some e => exact eachEvent_append_singleton.mpr ⟨h, hevent e rfl⟩

theorem EachEvent.pairwise {R : ε → ε → Prop}
    (hR : ∀ before a between b, P before a → P (before ++ a :: between) b → R a b) (h : EachEvent P log) :
    log.Pairwise R := by
  induction log using List.reverseRecOn with
  | nil => exact List.Pairwise.nil
  | append_singleton log b ih =>
    obtain ⟨hlog, hb⟩ := eachEvent_append_singleton.mp h
    refine pairwise_append.mpr ⟨ih hlog, pairwise_singleton R b, ?_⟩
    intro a ha b' hb'
    obtain rfl := mem_singleton.mp hb'
    obtain ⟨before, between, rfl⟩ := append_of_mem ha
    exact hR before a between b' (hlog before a between rfl) hb

/-- The last event that `f` recognises. -/
def lastOf {β : Type v} (f : ε → Option β) (log : List ε) : Option β := (log.filterMap f).getLast?

@[simp] theorem lastOf_append_singleton (f : ε → Option β) (log : List ε) (event : ε) :
    lastOf f (log ++ [event]) = (f event).or (lastOf f log) := by
  unfold lastOf
  rw [filterMap_append]
  cases hf : f event with
  | none | some => simp [hf]

theorem lastOf_cons (f : ε → Option β) (event : ε) (log : List ε) :
    lastOf f (event :: log) = (lastOf f log).or (f event) := by
  unfold lastOf
  cases hf : f event with
  | none => simp [hf]
  | some b =>
    rw [filterMap_cons_some hf, List.getLast?_cons]
    cases (log.filterMap f).getLast? with
    | none | some => rfl

theorem lastOf_append_of_forall_none {f : ε → Option β} (log : List ε) (h : ∀ e ∈ later, f e = none) :
    lastOf f (log ++ later) = lastOf f log := by
  unfold lastOf
  rw [filterMap_append, filterMap_eq_nil_iff.mpr h, append_nil]

end A2A.Foundation
