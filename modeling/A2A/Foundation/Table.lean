/-
# Tables with a primary key.
-/
import Mathlib.Data.List.Nodup

namespace A2A.Foundation

open List

universe u v

/-- Rows of type `R` with the primary key `key`. -/
@[ext] structure Table {K : Type u} {R : Type v} (key : R → K) where
  rows : List R
  unique : (rows.map key).Nodup

namespace Table

variable {K : Type u} {R : Type v} [DecidableEq K] {key : R → K}

/-- No rows. -/
def empty : Table key := ⟨[], nodup_nil⟩

/-- The row with this key. -/
def find (table : Table key) (k : K) : Option R := table.rows.find? fun row => key row = k

variable {table : Table key} {k : K} {row : R}

theorem find_eq_some_iff : table.find k = some row ↔ row ∈ table.rows ∧ key row = k := by
  obtain ⟨rows, unique⟩ := table
  show rows.find? (fun row => key row = k) = some row ↔ row ∈ rows ∧ key row = k
  constructor
  · intro h
    exact ⟨mem_of_find?_eq_some h, by simpa using List.find?_some h⟩
  · rintro ⟨hmem, rfl⟩
    induction rows with
    | nil => nomatch hmem
    | cons first rest ih =>
      obtain ⟨hfresh, hrest⟩ := nodup_cons.mp unique
      rcases mem_cons.mp hmem with rfl | hmem
      · exact List.find?_cons_of_pos (by simp)
      · have hne : key first ≠ key row := by
          intro heq
          exact hfresh (mem_map.mpr ⟨row, hmem, heq.symm⟩)
        rw [List.find?_cons_of_neg (by simpa using hne)]
        exact ih hrest hmem

theorem find_key (h : table.find k = some row) : key row = k :=
  (find_eq_some_iff.mp h).2

theorem find_eq_none_iff : table.find k = none ↔ k ∉ table.rows.map key := by
  rw [find, List.find?_eq_none]
  simp [mem_map]

/-- Replace the row that has the key of `row`, or add `row` if there is none. -/
def put (table : Table key) (row : R) : Table key where
  rows :=
    if (table.find (key row)).isSome then
      table.rows.map fun stored => if key stored = key row then row else stored
    else table.rows ++ [row]
  unique := by
    split_ifs with hstored
    · have hkeys : (table.rows.map fun stored => if key stored = key row then row else stored).map key =
          table.rows.map key := by
        rw [map_map]
        apply map_congr_left
        intro stored _
        show key (if key stored = key row then row else stored) = key stored
        split_ifs with hkey
        · exact hkey.symm
        · rfl
      rw [hkeys]
      exact table.unique
    · rw [map_append, map_singleton]
      refine List.Nodup.append table.unique (nodup_singleton _) ?_
      intro k hk hnew
      obtain rfl := mem_singleton.mp hnew
      exact find_eq_none_iff.mp (Option.not_isSome_iff_eq_none.mp hstored) hk

/-- Take the row with this key away. -/
def delete (table : Table key) (k : K) : Table key where
  rows := table.rows.filter fun row => key row ≠ k
  unique := table.unique.sublist (filter_sublist.map key)

/-- Take the rows with these keys away. -/
def deleteAll (table : Table key) (ks : List K) : Table key where
  rows := table.rows.filter fun row => key row ∉ ks
  unique := table.unique.sublist (filter_sublist.map key)

/-! ## What can be found afterwards -/

variable {table : Table key}

variable {row : R} {k : K} {ks : List K}

@[simp] theorem find_empty (k : K) : (empty : Table key).find k = none := rfl

theorem mem_put {found : R} :
    found ∈ (table.put row).rows ↔ found = row ∨ (found ∈ table.rows ∧ key found ≠ key row) := by
  show found ∈ (if _ then _ else _) ↔ _
  split_ifs with hstored
  · rw [mem_map]
    constructor
    · rintro ⟨stored, hmem, rfl⟩
      by_cases hkey : key stored = key row
      · exact .inl (if_pos hkey)
      · exact .inr (by rw [if_neg hkey]; exact ⟨hmem, hkey⟩)
    · rintro (rfl | ⟨hmem, hkey⟩)
      · obtain ⟨stored, hfind⟩ := Option.isSome_iff_exists.mp hstored
        obtain ⟨hmem, hkey⟩ := find_eq_some_iff.mp hfind
        exact ⟨stored, hmem, if_pos hkey⟩
      · exact ⟨found, hmem, if_neg hkey⟩
  · have hfree := find_eq_none_iff.mp (Option.not_isSome_iff_eq_none.mp hstored)
    rw [mem_append, mem_singleton]
    constructor
    · rintro (hmem | rfl)
      · refine .inr ⟨hmem, ?_⟩
        intro hkey
        exact hfree (hkey ▸ mem_map_of_mem hmem)
      · exact .inl rfl
    · rintro (rfl | ⟨hmem, -⟩)
      · exact .inr rfl
      · exact .inl hmem

/-- What holds of the row put and of all rows holds afterwards. -/
theorem forall_mem_put {P : R → Prop} (hrow : P row) (hold : ∀ stored ∈ table.rows, P stored) :
    ∀ stored ∈ (table.put row).rows, P stored := by
  intro stored hstored
  rcases mem_put.mp hstored with rfl | ⟨hmem, -⟩
  · exact hrow
  · exact hold stored hmem

/-- Rows that are put one after the other, where rows with the same key are equal. -/
theorem mem_foldl_put {rows : List R} (h : ∀ a ∈ rows, ∀ b ∈ rows, key a = key b → a = b) {found : R} :
    found ∈ (rows.foldl put table).rows ↔ found ∈ rows ∨ found ∈ table.rows ∧ ∀ row ∈ rows, key row ≠ key found := by
  induction rows generalizing table with
  | nil => simp
  | cons row rows ih =>
    rw [foldl_cons, ih fun a ha b hb => h a (mem_cons_of_mem _ ha) b (mem_cons_of_mem _ hb), mem_put]
    have hsame := h row mem_cons_self
    simp only [mem_cons, forall_eq_or_imp] at hsame ⊢
    grind

@[simp] theorem find_put_self (row : R) : (table.put row).find (key row) = some row :=
  find_eq_some_iff.mpr ⟨mem_put.mpr (.inl rfl), rfl⟩

theorem find_put_of_ne (hne : k ≠ key row) : (table.put row).find k = table.find k := by
  apply Option.ext
  intro found
  rw [find_eq_some_iff, find_eq_some_iff, mem_put]
  constructor
  · rintro ⟨rfl | ⟨hmem, -⟩, rfl⟩
    · exact absurd rfl hne
    · exact ⟨hmem, rfl⟩
  · rintro ⟨hmem, rfl⟩
    exact ⟨.inr ⟨hmem, hne⟩, rfl⟩

theorem rows_put_of_notMem (h : key row ∉ table.rows.map key) : (table.put row).rows = table.rows ++ [row] := by
  show (if _ then _ else _) = _
  rw [find_eq_none_iff.mpr h]
  rfl

theorem length_put_le (row : R) : (table.put row).rows.length ≤ table.rows.length + 1 := by
  show (if _ then _ else _ : List R).length ≤ _
  split_ifs
  · rw [length_map]
    exact Nat.le_succ _
  · rw [length_append]
    exact Nat.le_refl _

@[simp] theorem find_delete_self (k : K) : (table.delete k).find k = none := by
  cases hfind : (table.delete k).find k with
  | none => rfl
  | some row =>
    obtain ⟨hmem, hkey⟩ := find_eq_some_iff.mp hfind
    have hkept := (mem_filter.mp hmem).2
    simp [hkey] at hkept

theorem find_delete_of_ne {k' : K} (hne : k' ≠ k) : (table.delete k).find k' = table.find k' := by
  apply Option.ext
  intro found
  rw [find_eq_some_iff, find_eq_some_iff]
  constructor
  · rintro ⟨hmem, hkey⟩
    exact ⟨(mem_filter.mp hmem).1, hkey⟩
  · rintro ⟨hmem, rfl⟩
    exact ⟨mem_filter.mpr ⟨hmem, by simpa using hne⟩, rfl⟩

theorem mem_delete : row ∈ (table.delete k).rows ↔ row ∈ table.rows ∧ key row ≠ k := by
  simp only [delete, mem_filter, decide_eq_true_eq]

theorem mem_deleteAll : row ∈ (table.deleteAll ks).rows ↔ row ∈ table.rows ∧ key row ∉ ks := by
  simp only [deleteAll, mem_filter, decide_eq_true_eq]

theorem find_deleteAll_of_notMem (h : k ∉ ks) : (table.deleteAll ks).find k = table.find k := by
  apply Option.ext
  intro found
  rw [find_eq_some_iff, find_eq_some_iff, mem_deleteAll]
  constructor
  · rintro ⟨⟨hmem, -⟩, hkey⟩
    exact ⟨hmem, hkey⟩
  · rintro ⟨hmem, rfl⟩
    exact ⟨⟨hmem, h⟩, rfl⟩

theorem find_deleteAll_of_mem (h : k ∈ ks) : (table.deleteAll ks).find k = none := by
  rw [find_eq_none_iff]
  intro hmem
  obtain ⟨row, hrow, rfl⟩ := mem_map.mp hmem
  exact (mem_deleteAll.mp hrow).2 h

end Table

end A2A.Foundation
