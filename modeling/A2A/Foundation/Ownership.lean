/-
# Who holds what, seen from both sides.
-/
import Mathlib.Logic.Function.Basic

namespace A2A.Foundation

open Function

universe u v

variable {T : Type u} {R : Type v}

/-- The agent `t` has the token of the resource `holds t`; `owner r` has the token of `r`. -/
def Owns (holds : T → Option R) (owner : R → Option T) : Prop :=
  ∀ t r, holds t = some r ↔ owner r = some t

namespace Owns

variable {holds : T → Option R} {owner : R → Option T} (h : Owns holds owner)

variable [DecidableEq T] [DecidableEq R] {t : T} {r : R}

include h

theorem acquire (hagent : holds t = none) (hfree : owner r = none) :
    Owns (update holds t (some r)) (update owner r (some t)) := by
  intro t' r'
  by_cases ht : t' = t <;> by_cases hr : r' = r
  · simp [ht, hr]
  · have hnot : owner r' ≠ some t := fun howner => by simp [(h t r').mpr howner] at hagent
    simp [ht, update_of_ne hr, hnot, Ne.symm hr]
  · have hnot : holds t' ≠ some r := fun hholds => by simp [(h t' r).mp hholds] at hfree
    simp [hr, update_of_ne ht, hnot, Ne.symm ht]
  · simp [update_of_ne ht, update_of_ne hr, h t' r']

theorem release (hheld : holds t = some r) : Owns (update holds t none) (update owner r none) := by
  have howner := (h t r).mp hheld
  intro t' r'
  by_cases ht : t' = t <;> by_cases hr : r' = r
  · simp [ht, hr]
  · have hnot : owner r' ≠ some t := fun h' => by
      have hsame := hheld.symm.trans ((h t r').mpr h')
      exact hr (Option.some.inj hsame).symm
    simp [ht, update_of_ne hr, hnot]
  · have hnot : holds t' ≠ some r := fun h' => by
      have hsame := howner.symm.trans ((h t' r).mp h')
      exact ht (Option.some.inj hsame).symm
    simp [hr, update_of_ne ht, hnot]
  · simp [update_of_ne ht, update_of_ne hr, h t' r']

omit [DecidableEq R] in
theorem keep {p : Option R} (hp : p = holds t) : Owns (update holds t p) owner := by
  rw [hp, update_eq_self]
  exact h

omit [DecidableEq T] in
theorem stay {p : Option T} (hp : p = owner r) : Owns holds (update owner r p) := by
  rw [hp, update_eq_self]
  exact h

omit [DecidableEq T] in
theorem appear (hnobody : ∀ t, holds t ≠ some r) : Owns holds (update owner r none) := by
  have hnone : owner r = none := by
    cases howner : owner r with
    | none => rfl
    | some t => exact absurd ((h t r).mpr howner) (hnobody t)
  exact h.stay hnone.symm

end Owns

end A2A.Foundation
