/-
# Maps whose values carry a write count.
-/
import Mathlib.Data.List.Basic
import Mathlib.Logic.Function.Basic

namespace A2A.Foundation

universe u v

/-- A value with the number of writes its key has received. -/
structure Version (V : Type v) where
  value : V
  revision : Nat

/-- A partial map into versions; an absent key has received no write. -/
abbrev VersionedMap (K : Type u) (V : Type v) := K → Option (Version V)

namespace VersionedMap

variable {K : Type u} {V : Type v} [DecidableEq K] (m : VersionedMap K V)

omit [DecidableEq K] in
/-- The write count of a key, zero when it is absent. -/
def revisionOf (k : K) : Nat := ((m k).map Version.revision).getD 0

def write (k : K) (v : V) : VersionedMap K V :=
  Function.update m k (some ⟨v, m.revisionOf k + 1⟩)

def writes : VersionedMap K V → List (K × V) → VersionedMap K V
  | m, [] => m
  | m, (k, v) :: ws => writes (m.write k v) ws

@[simp] theorem write_self (k : K) (v : V) :
    m.write k v k = some ⟨v, m.revisionOf k + 1⟩ := Function.update_self ..

theorem write_of_ne {k k' : K} (h : k' ≠ k) (v : V) : m.write k v k' = m k' :=
  Function.update_of_ne h ..

@[simp] theorem revisionOf_write_self (k : K) (v : V) : (m.write k v).revisionOf k = m.revisionOf k + 1 := by
  simp [revisionOf]

theorem revisionOf_write_of_ne {k k' : K} (h : k' ≠ k) (v : V) : (m.write k v).revisionOf k' = m.revisionOf k' := by
  rw [revisionOf, write_of_ne m h, revisionOf]

theorem writes_append (ws ws' : List (K × V)) : m.writes (ws ++ ws') = (m.writes ws).writes ws' := by
  induction ws generalizing m with
  | nil => rfl
  | cons w ws ih =>
    show (m.write w.1 w.2).writes (ws ++ ws') = ((m.write w.1 w.2).writes ws).writes ws'
    exact ih _

/-- A sequence of writes moves the count of a key by the number of writes to that key. -/
theorem revisionOf_writes (ws : List (K × V)) (k : K) :
    (m.writes ws).revisionOf k = m.revisionOf k + (ws.map Prod.fst).count k := by
  induction ws generalizing m with
  | nil => rfl
  | cons w ws ih =>
    obtain ⟨k', v⟩ := w
    show ((m.write k' v).writes ws).revisionOf k = _
    rw [ih, List.map_cons, List.count_cons]
    by_cases hk : k' = k
    · subst hk
      rw [revisionOf_write_self, if_pos (by simp)]
      omega
    · rw [revisionOf_write_of_ne m (fun h => hk h.symm), if_neg (by simpa using hk)]
      omega

theorem writes_of_not_mem {ws : List (K × V)} {k : K} (h : k ∉ ws.map Prod.fst) : m.writes ws k = m k := by
  induction ws generalizing m with
  | nil => rfl
  | cons w ws ih =>
    obtain ⟨k', v⟩ := w
    rw [List.map_cons, List.mem_cons, not_or] at h
    show (m.write k' v).writes ws k = m k
    rw [ih _ h.2, write_of_ne m h.1]

theorem revisionOf_writes_eq_iff (ws : List (K × V)) (k : K) :
    (m.writes ws).revisionOf k = m.revisionOf k ↔ k ∉ ws.map Prod.fst := by
  rw [revisionOf_writes, ← List.count_eq_zero]
  omega

theorem revisionOf_le_writes (ws : List (K × V)) (k : K) : m.revisionOf k ≤ (m.writes ws).revisionOf k := by
  rw [revisionOf_writes]
  exact Nat.le_add_right _ _

end VersionedMap

end A2A.Foundation
