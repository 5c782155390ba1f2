/-
# An ordered set with `insert`, `extract` and `upperBound`.
-/
import Mathlib.Data.List.Basic
import Mathlib.Order.Defs.Unbundled

namespace A2A.Foundation

open List

universe u

variable {α : Type u} (lt : α → α → Prop) [DecidableRel lt]

/-- Insert into a sorted list, unless an equivalent element is there. -/
def insertSorted (a : α) : List α → List α
  | [] => [a]
  | b :: l => if lt a b then a :: b :: l else if lt b a then b :: insertSorted a l else b :: l

variable [IsStrictTotalOrder α lt]

omit [DecidableRel lt] in
theorem eq_of_not_lt {a b : α} (h : ¬ lt a b) (h' : ¬ lt b a) : a = b :=
  Std.Trichotomous.trichotomous a b h h'

theorem mem_insertSorted {a x : α} {l : List α} : x ∈ insertSorted lt a l ↔ x = a ∨ x ∈ l := by
  induction l with
  | nil => simp [insertSorted]
  | cons b l ih =>
    unfold insertSorted
    split_ifs with hab hba
    · simp
    · simp only [mem_cons, ih]
      tauto
    · have hEq : a = b := eq_of_not_lt lt hab hba
      simp [hEq]

theorem pairwise_insertSorted {a : α} {l : List α} (h : l.Pairwise lt) : (insertSorted lt a l).Pairwise lt := by
  induction l with
  | nil => simp [insertSorted]
  | cons b l ih =>
    obtain ⟨hb, hl⟩ := pairwise_cons.mp h
    unfold insertSorted
    split_ifs with hab hba
    · refine pairwise_cons.mpr ⟨?_, h⟩
      intro c hc
      rcases mem_cons.mp hc with rfl | hc
      · exact hab
      · exact trans_of lt hab (hb c hc)
    · refine pairwise_cons.mpr ⟨?_, ih hl⟩
      intro c hc
      rcases (mem_insertSorted lt).mp hc with rfl | hc
      · exact hba
      · exact hb c hc
    · exact h

omit [DecidableRel lt] [IsStrictTotalOrder α lt] in
/-- The last element kept is after all others kept and before all left. -/
theorem exists_last_of_pairwise_take {l : List α} (h : l.Pairwise lt) {n : Nat} (hn : 1 ≤ n) (hlt : n < l.length) :
    ∃ last ∈ l.take n, (l.take n).getLast? = some last ∧
      (∀ x ∈ l.take n, x = last ∨ lt x last) ∧ ∀ y ∈ l.drop n, lt last y := by
  have hne : l.take n ≠ [] := by
    rw [← length_pos_iff, length_take]
    omega
  refine ⟨(l.take n).getLast hne, getLast_mem hne, List.getLast?_eq_some_getLast hne, ?_, ?_⟩
  · have hsorted : ((l.take n).dropLast ++ [(l.take n).getLast hne]).Pairwise lt := by
      rw [dropLast_append_getLast hne]
      exact h.sublist (take_sublist n l)
    intro x hx
    rw [← dropLast_append_getLast hne, mem_append, mem_singleton] at hx
    rcases hx with hx | hx
    · exact .inr ((pairwise_append.mp hsorted).2.2 x hx _ (mem_singleton_self _))
    · exact .inl hx
  · have hsplit : (l.take n ++ l.drop n).Pairwise lt := by
      rw [take_append_drop]
      exact h
    intro y hy
    exact (pairwise_append.mp hsplit).2.2 _ (getLast_mem hne) y hy

omit [IsStrictTotalOrder α lt] in
/-- In a sorted list, what is after an element is what stands behind it. -/
theorem filter_lt_of_pairwise [Std.Asymm lt] {front back : List α} {a : α} (h : (front ++ a :: back).Pairwise lt) :
    (front ++ a :: back).filter (fun x => decide (lt a x)) = back := by
  obtain ⟨-, hback, hfront⟩ := pairwise_append.mp h
  have hnone : front.filter (fun x => decide (lt a x)) = [] := by
    rw [filter_eq_nil_iff]
    intro x hx
    have hlt : lt x a := hfront x hx a mem_cons_self
    simpa using asymm_of lt hlt
  have hall : back.filter (fun x => decide (lt a x)) = back := by
    rw [filter_eq_self]
    intro x hx
    simpa using (pairwise_cons.mp hback).1 x hx
  have hself : ¬ lt a a := fun hlt => asymm_of lt hlt hlt
  rw [filter_append, hnone, nil_append, filter_cons_of_neg (by simpa using hself), hall]

/-! ## The set -/

omit [DecidableRel lt] [IsStrictTotalOrder α lt] in
/-- The elements in iteration order, with the proof that they are sorted. -/
@[ext]
structure OrderedSet (α : Type u) (lt : α → α → Prop) where
  toList : List α
  sorted : toList.Pairwise lt

namespace OrderedSet

variable {lt}

def empty : OrderedSet α lt := ⟨[], List.Pairwise.nil⟩

instance : Membership α (OrderedSet α lt) := ⟨fun s a => a ∈ s.toList⟩

/-- Insertion; a set holds one copy of each element. -/
def insert (s : OrderedSet α lt) (a : α) : OrderedSet α lt :=
  ⟨insertSorted lt a s.toList, pairwise_insertSorted lt s.sorted⟩

/-- Take the element equivalent to `a` out of the set; `none` if there is none. -/
def extract (s : OrderedSet α lt) (a : α) : OrderedSet α lt × Option α :=
  (⟨s.toList.filter fun b => decide (lt a b ∨ lt b a), s.sorted.filter _⟩,
    s.toList.find? fun b => decide (¬ lt a b ∧ ¬ lt b a))

/-- The elements from the first one strictly after `a` on, in iteration order. -/
def upperBound (s : OrderedSet α lt) (a : α) : List α :=
  s.toList.dropWhile fun b => !decide (lt a b)

omit [DecidableRel lt] [IsStrictTotalOrder α lt] in
theorem mem_def {s : OrderedSet α lt} {a : α} : a ∈ s ↔ a ∈ s.toList := Iff.rfl

omit [DecidableRel lt] [IsStrictTotalOrder α lt] in
@[simp] theorem not_mem_empty (a : α) : a ∉ (empty : OrderedSet α lt) := not_mem_nil

@[simp] theorem mem_insert {s : OrderedSet α lt} {a x : α} : x ∈ s.insert a ↔ x = a ∨ x ∈ s :=
  mem_insertSorted lt

variable {s : OrderedSet α lt} {a x : α}

@[simp] theorem mem_extract : x ∈ (s.extract a).1 ↔ x ∈ s ∧ x ≠ a := by
  simp only [extract, mem_def, mem_filter, decide_eq_true_eq, and_congr_right_iff]
  intro _
  constructor
  · rintro h rfl
    exact h.elim (irrefl_of lt x) (irrefl_of lt x)
  · intro hne
    by_contra hno
    exact hne (eq_of_not_lt lt (fun h => hno (.inr h)) (fun h => hno (.inl h)))

theorem extract_snd_of_mem (h : a ∈ s) : (s.extract a).2 = some a := by
  cases hfind : (s.extract a).2 with
  | none =>
    have hnone := List.find?_eq_none.mp hfind a h
    simp [irrefl_of lt a] at hnone
  | some b =>
    have hb := List.find?_some hfind
    simp only [decide_eq_true_eq] at hb
    exact congrArg some (eq_of_not_lt lt hb.2 hb.1)

/-- Seeking is filtering: past the first element after `a` every element is after `a`. -/
theorem upperBound_eq_filter (s : OrderedSet α lt) (a : α) :
    s.upperBound a = s.toList.filter fun b => decide (lt a b) := by
  obtain ⟨l, hl⟩ := s
  simp only [upperBound]
  induction l with
  | nil => rfl
  | cons b l ih =>
    obtain ⟨hb, hl'⟩ := pairwise_cons.mp hl
    by_cases hab : lt a b
    · have hall : ∀ c ∈ l, lt a c := fun c hc => trans_of lt hab (hb c hc)
      have hfilter : l.filter (fun c => decide (lt a c)) = l :=
        filter_eq_self.mpr fun c hc => by simpa using hall c hc
      simp [hab, hfilter]
    · simpa [hab] using ih hl'

theorem mem_upperBound : x ∈ s.upperBound a ↔ x ∈ s ∧ lt a x := by
  rw [upperBound_eq_filter, mem_filter, decide_eq_true_eq, mem_def]

theorem pairwise_upperBound (s : OrderedSet α lt) (a : α) : (s.upperBound a).Pairwise lt := by
  rw [upperBound_eq_filter]
  exact s.sorted.filter _

end OrderedSet

end A2A.Foundation
