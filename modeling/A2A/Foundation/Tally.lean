/-
# What some agents have together.
-/
import Mathlib.Algebra.BigOperators.Group.Finset.Piecewise
import Mathlib.Algebra.Order.BigOperators.Group.Finset

namespace A2A.Foundation

open Function

universe u v w

variable {T : Type u} {S : Type v} {M : Type w} [Fintype T] [AddCommMonoid M]

/-- What the agents have together. -/
def tally (has : S → M) (agents : T → S) : M := ∑ t, has (agents t)

theorem tally_const_zero {has : S → M} {s : S} (h : has s = 0) : tally has (fun _ : T => s) = 0 :=
  Finset.sum_eq_zero fun _ _ => h

variable [DecidableEq T]

/-- One agent changes. -/
theorem tally_update (has : S → M) (agents : T → S) (t : T) (s : S) :
    tally has (update agents t s) + has (agents t) = tally has agents + has s := by
  have hnew : tally has (update agents t s) = ∑ u, update (fun u => has (agents u)) t (has s) u :=
    Finset.sum_congr rfl fun u _ => congrFun (comp_update has agents t s) u
  rw [hnew, Finset.sum_update_of_mem (Finset.mem_univ t), tally,
    Finset.sum_eq_add_sum_sdiff_singleton_of_mem (Finset.mem_univ t) fun u => has (agents u)]
  ac_rfl

/-- An agent that has as much as before. -/
theorem tally_update_of_eq [IsRightCancelAdd M] {has : S → M} {agents : T → S} {t : T} {s : S}
    (h : has s = has (agents t)) : tally has (update agents t s) = tally has agents := by
  have hupdate := tally_update has agents t s
  rw [h] at hupdate
  exact add_right_cancel hupdate

omit [DecidableEq T] in
theorem le_tally (has : S → Nat) (agents : T → S) (t : T) : has (agents t) ≤ tally has agents :=
  Finset.single_le_sum (fun u _ => Nat.zero_le (has (agents u))) (Finset.mem_univ t)

end A2A.Foundation
