/-
# Maps as association lists in the order of their keys.
-/
import Mathlib.Order.Lattice
import Mathlib.Data.List.Basic

namespace A2A.Foundation.SortedAssoc

open List

universe u v

variable {K : Type u} {V : Type v} [LinearOrder K]

def get (key : K) : List (K × V) → Option V
  | [] => none
  | (k, v) :: rest => if key = k then some v else get key rest

def set (key : K) (value : V) : List (K × V) → List (K × V)
  | [] => [(key, value)]
  | (k, v) :: rest =>
    if key < k then (key, value) :: (k, v) :: rest
    else if key = k then (key, value) :: rest
    else (k, v) :: set key value rest

/-- The entries are sorted by distinct keys. -/
def Ascending (entries : List (K × V)) : Prop := entries.Pairwise fun a b => a.1 < b.1

variable {key : K} {entries : List (K × V)}

theorem ascending_nil : Ascending ([] : List (K × V)) := List.Pairwise.nil

@[simp] theorem get_set_self (key : K) (value : V) (entries : List (K × V)) :
    get key (set key value entries) = some value := by
  induction entries with
  | nil => simp [set, get]
  | cons entry rest ih =>
    unfold set
    split_ifs with hlt heq
    · simp [get]
    · simp [get]
    · rw [get, if_neg heq]
      exact ih

theorem get_set_of_ne {key' : K} (hne : key' ≠ key) (value : V) (entries : List (K × V)) :
    get key' (set key value entries) = get key' entries := by
  induction entries with
  | nil => simp [set, get, hne]
  | cons entry rest ih =>
    unfold set
    split_ifs with hlt heq
    · rw [get, if_neg hne]
    · subst heq
      rw [get, get, if_neg hne, if_neg hne]
    · rw [get, get, ih]

theorem mem_set {value : V} {entry : K × V} (h : entry ∈ set key value entries) :
    entry = (key, value) ∨ entry ∈ entries := by
  induction entries with
  | nil => exact .inl (mem_singleton.mp h)
  | cons first rest ih =>
    unfold set at h
    split_ifs at h
    · exact mem_cons.mp h
    · rcases mem_cons.mp h with h | h
      · exact .inl h
      · exact .inr (mem_cons_of_mem _ h)
    · rcases mem_cons.mp h with h | h
      · exact .inr (h ▸ mem_cons_self)
      · exact (ih h).imp_right (mem_cons_of_mem _)

theorem ascending_set (h : Ascending entries) (key : K) (value : V) : Ascending (set key value entries) := by
  induction entries with
  | nil => exact pairwise_singleton _ _
  | cons first rest ih =>
    obtain ⟨hfirst, hrest⟩ := pairwise_cons.mp h
    unfold set
    split_ifs with hlt heq
    · refine pairwise_cons.mpr ⟨?_, h⟩
      intro entry hentry
      rcases mem_cons.mp hentry with rfl | hentry
      · exact hlt
      · exact lt_trans hlt (hfirst entry hentry)
    · subst heq
      exact pairwise_cons.mpr ⟨hfirst, hrest⟩
    · refine pairwise_cons.mpr ⟨?_, ih hrest⟩
      intro entry hentry
      rcases mem_set hentry with rfl | hentry
      · exact lt_of_le_of_ne (not_lt.mp hlt) (Ne.symm heq)
      · exact hfirst entry hentry

theorem mem_iff_get {value : V} (h : Ascending entries) : (key, value) ∈ entries ↔ get key entries = some value := by
  induction entries with
  | nil => simp [get]
  | cons first rest ih =>
    obtain ⟨hfirst, hrest⟩ := pairwise_cons.mp h
    rw [mem_cons, get]
    split_ifs with heq
    · subst heq
      -- The rest has greater keys only.
      have hnot : (first.1, value) ∉ rest := fun hmem => absurd (hfirst _ hmem) (lt_irrefl _)
      simp [hnot, Prod.ext_iff, eq_comm]
    · simp [ih hrest, Prod.ext_iff, heq]

theorem ext {entries' : List (K × V)} (h : Ascending entries) (h' : Ascending entries')
    (hget : ∀ key, get key entries = get key entries') : entries = entries' := by
  have hnodup : ∀ {l : List (K × V)}, Ascending l → l.Nodup := fun hl =>
    Pairwise.imp (fun hlt heq => ne_of_lt hlt (congrArg Prod.fst heq)) hl
  refine Perm.eq_of_pairwise (fun _ _ _ _ hab hba => absurd hba (lt_asymm hab)) h h' ?_
  refine (perm_ext_iff_of_nodup (hnodup h) (hnodup h')).mpr ?_
  rintro ⟨key, value⟩
  rw [mem_iff_get h, mem_iff_get h', hget]

/-! ## Many writes -/

/-- The entries after writes, one after the other. -/
def setAll (writes entries : List (K × V)) : List (K × V) :=
  writes.foldl (fun entries write => set write.1 write.2 entries) entries

variable {writes writes' : List (K × V)}

theorem ascending_setAll (h : Ascending entries) : Ascending (setAll writes entries) := by
  induction writes generalizing entries with
  | nil => exact h
  | cons write writes ih => exact ih (ascending_set h _ _)

theorem get_setAll_of_not_mem (h : key ∉ writes.map Prod.fst) :
    get key (setAll writes entries) = get key entries := by
  induction writes generalizing entries with
  | nil => rfl
  | cons write writes ih =>
    rw [map_cons, mem_cons, not_or] at h
    exact (ih h.2).trans (get_set_of_ne h.1 _ _)

/-- Without a key written twice, a read finds what was written. -/
theorem get_setAll_iff {value : V} (hnodup : (writes.map Prod.fst).Nodup) :
    get key (setAll writes []) = some value ↔ (key, value) ∈ writes := by
  have hwritten : ∀ {entries : List (K × V)} {value : V}, (key, value) ∈ writes →
      get key (setAll writes entries) = some value := by
    induction writes with
    | nil => nofun
    | cons write writes ih =>
      intro entries value hmem
      obtain ⟨hfresh, hnodup⟩ := nodup_cons.mp hnodup
      rcases mem_cons.mp hmem with rfl | hmem
      · exact (get_setAll_of_not_mem hfresh).trans (get_set_self _ _ _)
      · exact ih hnodup hmem
  refine ⟨fun h => ?_, hwritten⟩
  by_cases hkey : key ∈ writes.map Prod.fst
  · obtain ⟨⟨_, value'⟩, hmem, rfl⟩ := mem_map.mp hkey
    rw [hwritten hmem] at h
    exact Option.some.inj h ▸ hmem
  · rw [get_setAll_of_not_mem hkey] at h
    cases h

theorem get_setAll_congr (hnodup : (writes.map Prod.fst).Nodup) (hnodup' : (writes'.map Prod.fst).Nodup)
    (h : ∀ value, (key, value) ∈ writes ↔ (key, value) ∈ writes') :
    get key (setAll writes []) = get key (setAll writes' []) := by
  ext value
  rw [get_setAll_iff hnodup, get_setAll_iff hnodup', h]

/-- The order of the writes does not matter. -/
theorem setAll_congr (hnodup : (writes.map Prod.fst).Nodup) (hnodup' : (writes'.map Prod.fst).Nodup)
    (h : ∀ write ∈ writes, write ∈ writes') (h' : ∀ write ∈ writes', write ∈ writes) :
    setAll writes [] = setAll writes' [] :=
  ext (ascending_setAll ascending_nil) (ascending_setAll ascending_nil) fun _ =>
    get_setAll_congr hnodup hnodup' fun _ => ⟨h _, h' _⟩

end A2A.Foundation.SortedAssoc
