/-
# Looking for a text inside a text.
-/
import Mathlib.Data.List.Infix

namespace A2A.Foundation

open List Option

universe u

variable {α : Type u} [DecidableEq α]

/-- What stands before the first occurrence of the pattern, and what stands after it. -/
def breakOn (pattern : List α) : List α → Option (List α × List α)
  | [] => if pattern.isEmpty then some ([], []) else none
  | c :: text =>
    if pattern.isPrefixOf (c :: text) then some ([], (c :: text).drop pattern.length)
    else (breakOn pattern text).map fun split => (c :: split.1, split.2)

variable {pattern text before after part : List α} {c lead : α} {P : List α → Prop}

theorem breakOn_self_append (rest : List α) : breakOn pattern (pattern ++ rest) = some ([], rest) := by
  cases htext : pattern ++ rest with
  | nil =>
    obtain ⟨rfl, rfl⟩ := append_eq_nil_iff.mp htext
    rfl
  | cons c text =>
    have hbegins : pattern.isPrefixOf (c :: text) = true := by
      rw [ isPrefixOf_iff_prefix, ← htext]
      exact prefix_append _ _
    rw [breakOn, if_pos hbegins, ← htext, drop_left]

theorem breakOn_cons_of_not_begins (h : ¬ pattern <+: c :: text) :
    breakOn pattern (c :: text) = (breakOn pattern text).map fun split => (c :: split.1, split.2) := by
  rw [breakOn, if_neg (mt isPrefixOf_iff_prefix.mp h)]

/-- The inversion: the text is put together again from the two parts and the pattern. -/
theorem eq_of_breakOn (h : breakOn pattern text = some (before, after)) : text = before ++ pattern ++ after := by
  induction text generalizing before with
  | nil =>
    unfold breakOn at h
    split_ifs at h with hempty
    cases h
    rw [List.isEmpty_iff.mp hempty]
    rfl
  | cons c text ih =>
    by_cases hbegins : pattern <+: c :: text
    · obtain ⟨rest, hrest⟩ := hbegins
      rw [← hrest, breakOn_self_append] at h
      cases h
      exact hrest.symm
    · rw [breakOn_cons_of_not_begins hbegins] at h
      obtain ⟨⟨before', after'⟩, hsplit, hEq⟩ := map_eq_some_iff.mp h
      cases hEq
      rw [ih hsplit]
      rfl

theorem breakOn_append (h : breakOn pattern text = some (before, after)) (more : List α) :
    breakOn pattern (text ++ more) = some (before, after ++ more) := by
  induction text generalizing before with
  | nil =>
    have hparts := eq_of_breakOn h
    obtain ⟨hfirst, rfl⟩ := append_eq_nil_iff.mp hparts.symm
    obtain ⟨rfl, rfl⟩ := append_eq_nil_iff.mp hfirst
    exact breakOn_self_append more
  | cons c text ih =>
    by_cases hbegins : pattern <+: c :: text
    · obtain ⟨rest, hrest⟩ := hbegins
      rw [← hrest, breakOn_self_append] at h
      cases h
      rw [← hrest, append_assoc]
      exact breakOn_self_append _
    · rw [breakOn_cons_of_not_begins hbegins] at h
      obtain ⟨⟨before', after'⟩, hsplit, hEq⟩ := map_eq_some_iff.mp h
      cases hEq
      have hlonger : ¬ pattern <+: c :: (text ++ more) := by
        intro hlong
        apply hbegins
        have hlength : pattern.length ≤ (c :: text).length := by
          rw [eq_of_breakOn hsplit]
          simp only [length_cons, length_append]
          omega
        exact prefix_of_prefix_length_le hlong (prefix_append (c :: text) more) hlength
      rw [cons_append, breakOn_cons_of_not_begins hlonger, ih hsplit]
      rfl

theorem breakOn_eq_none_iff : breakOn pattern text = none ↔ ¬ pattern <:+: text := by
  induction text with
  | nil =>
    unfold breakOn
    split_ifs with hempty
    · rw [List.isEmpty_iff.mp hempty]
      simp
    · rw [List.isEmpty_iff] at hempty
      simp [hempty]
  | cons c text ih =>
    rw [infix_cons_iff, not_or]
    by_cases hbegins : pattern <+: c :: text
    · obtain ⟨rest, hrest⟩ := hbegins
      have hfound : breakOn pattern (c :: text) ≠ none := by
        rw [← hrest, breakOn_self_append]
        exact some_ne_none _
      exact iff_of_false hfound fun h => h.1 ⟨rest, hrest⟩
    · rw [breakOn_cons_of_not_begins hbegins, map_eq_none_iff, ih]
      exact ⟨fun h => ⟨hbegins, h⟩, fun h => h.2⟩

/-- What is found only after more text was appended ends in that text. -/
theorem length_lt_of_breakOn_append {more : List α} (hnone : breakOn pattern text = none)
    (h : breakOn pattern (text ++ more) = some (before, after)) : text.length < before.length + pattern.length := by
  by_contra hle
  have hwhole : before ++ pattern <+: text ++ more := ⟨after, (eq_of_breakOn h).symm⟩
  have hlength : (before ++ pattern).length ≤ text.length := by
    rw [length_append]
    omega
  have hbegins : before ++ pattern <+: text :=
    prefix_of_prefix_length_le hwhole (prefix_append text more) hlength
  apply breakOn_eq_none_iff.mp hnone
  exact ( suffix_append before pattern).isInfix.trans hbegins.isInfix

theorem breakOn_append_of_notMem (h : lead ∉ before) (text : List α) :
    breakOn (lead :: pattern) (before ++ text) =
      (breakOn (lead :: pattern) text).map fun split => (before ++ split.1, split.2) := by
  induction before with
  | nil => simp
  | cons c before ih =>
    obtain ⟨hne, hrest⟩ := not_or.mp (mt mem_cons.mpr h)
    have hbegins : ¬ lead :: pattern <+: c :: (before ++ text) := by
      intro hbegins
      exact hne (cons_prefix_cons.mp hbegins).1
    rw [cons_append, breakOn_cons_of_not_begins hbegins, ih hrest, Option.map_map]
    rfl

theorem breakOn_of_notMem (h : lead ∉ before) (after : List α) :
    breakOn (lead :: pattern) (before ++ (lead :: pattern ++ after)) = some (before, after) := by
  rw [breakOn_append_of_notMem h, breakOn_self_append]
  simp

theorem breakOn_eq_none_of_notMem (h : lead ∉ text) : breakOn (lead :: pattern) text = none := by
  rw [breakOn_eq_none_iff]
  intro hoccurs
  exact h (hoccurs.subset (mem_cons_self ..))

/-! ## Splitting -/

/-- The loop of `splitOn`: `skip` bytes are still to be passed, `current` is the part being read, in reverse. -/
def splitOnLoop (pattern : List α) : Nat → List α → List α → List (List α)
  | _, current, [] => [current.reverse]
  | skip + 1, current, _ :: text => splitOnLoop pattern skip current text
  | 0, current, c :: text =>
    if pattern.isPrefixOf (c :: text) then
      current.reverse :: splitOnLoop pattern (pattern.length - 1) [] text
    else splitOnLoop pattern 0 (c :: current) text

/-- The parts of the text between the occurrences of a pattern. -/
def splitOn (pattern text : List α) : List (List α) := splitOnLoop pattern 0 [] text

theorem splitOnLoop_skip (pattern current text : List α) (skip : Nat) :
    splitOnLoop pattern skip current text = splitOnLoop pattern 0 current (text.drop skip) := by
  induction text generalizing skip with
  | nil =>
    rw [drop_nil]
    cases skip with
    | zero | succ => rfl
  | cons c text ih =>
    cases skip with
    | zero => rfl
    | succ skip => exact ih skip

theorem splitOnLoop_eq (current text : List α) :
    splitOnLoop (lead :: pattern) 0 current text =
      match breakOn (lead :: pattern) text with
      | none => [current.reverse ++ text]
      | some (before, after) => (current.reverse ++ before) :: splitOn (lead :: pattern) after := by
  induction text generalizing current with
  | nil => simp [splitOnLoop, breakOn]
  | cons c text ih =>
    by_cases hbegins : lead :: pattern <+: c :: text
    · obtain ⟨rest, hrest⟩ := hbegins
      have htext : text = pattern ++ rest := (List.cons.inj hrest).2.symm
      rw [splitOnLoop, if_pos ( isPrefixOf_iff_prefix.mpr ⟨rest, hrest⟩), splitOnLoop_skip, ← hrest,
        breakOn_self_append, htext]
      simp [splitOn]
    · rw [splitOnLoop, if_neg (mt isPrefixOf_iff_prefix.mp hbegins), ih, breakOn_cons_of_not_begins hbegins]
      cases breakOn (lead :: pattern) text with
      | none | some => simp

theorem splitOn_eq (text : List α) :
    splitOn (lead :: pattern) text =
      match breakOn (lead :: pattern) text with
      | none => [text]
      | some (before, after) => before :: splitOn (lead :: pattern) after :=
  splitOnLoop_eq [] text

theorem splitOn_of_notMem (h : lead ∉ text) : splitOn (lead :: pattern) text = [text] := by
  rw [splitOn_eq, breakOn_eq_none_of_notMem h]

theorem splitOn_append (h : lead ∉ before) (after : List α) :
    splitOn (lead :: pattern) (before ++ (lead :: pattern ++ after)) = before :: splitOn (lead :: pattern) after := by
  rw [splitOn_eq, breakOn_of_notMem h]

/-- Induction over the parts of a text, from its last part on. -/
@[elab_as_elim]
theorem splitOn_induct (lead : α) (pattern : List α) (whole : ∀ text, breakOn (lead :: pattern) text = none → P text)
    (cut : ∀ text before after, breakOn (lead :: pattern) text = some (before, after) → P after → P text)
    (text : List α) : P text := by
  induction hlength : text.length using Nat.strong_induction_on generalizing text with
  | _ length ih =>
    cases hbreak : breakOn (lead :: pattern) text with
    | none => exact whole text hbreak
    | some split =>
      have hshorter : split.2.length < length := by
        rw [← hlength, eq_of_breakOn hbreak]
        simp only [length_append, length_cons]
        omega
      exact cut text split.1 split.2 hbreak (ih split.2.length hshorter split.2 rfl)

theorem sublist_of_mem_splitOn (h : part ∈ splitOn (lead :: pattern) text) : part <+ text := by
  induction text using splitOn_induct lead pattern with
  | whole text hbreak =>
    rw [splitOn_eq, hbreak] at h
    rw [mem_singleton.mp h]
  | cut text before after hbreak ih =>
    rw [splitOn_eq, hbreak] at h
    rw [eq_of_breakOn hbreak]
    rcases mem_cons.mp h with rfl | hafter
    · rw [append_assoc]
      exact sublist_append_left _ _
    · exact (ih hafter).trans (sublist_append_right _ _)

theorem notMem_of_breakOn_singleton (h : breakOn [lead] text = some (before, after)) : lead ∉ before := by
  induction text generalizing before with
  | nil => nomatch h
  | cons c text ih =>
    by_cases hbegins : [lead] <+: c :: text
    · obtain ⟨rest, hrest⟩ := hbegins
      rw [← hrest, breakOn_self_append] at h
      rw [← (Prod.mk.inj (Option.some.inj h)).1]
      exact not_mem_nil
    · rw [breakOn_cons_of_not_begins hbegins] at h
      obtain ⟨⟨before', after'⟩, hsplit, hEq⟩ := map_eq_some_iff.mp h
      cases hEq
      intro hmem
      rcases mem_cons.mp hmem with rfl | hmem
      · exact hbegins ⟨text, rfl⟩
      · exact ih hsplit hmem

@[elab_as_elim]
theorem splitOn_singleton_induct (lead : α) (whole : ∀ text, lead ∉ text → P text)
    (cut : ∀ before after, lead ∉ before → P after → P (before ++ lead :: after)) (text : List α) : P text := by
  induction text using splitOn_induct lead [] with
  | whole text hbreak =>
    apply whole
    intro hmem
    obtain ⟨before, after, rfl⟩ := append_of_mem hmem
    exact breakOn_eq_none_iff.mp hbreak ⟨before, after, by simp⟩
  | cut text before after hbreak ih =>
    rw [eq_of_breakOn hbreak, append_assoc]
    exact cut before after (notMem_of_breakOn_singleton hbreak) ih

theorem notMem_of_mem_splitOn_singleton (h : part ∈ splitOn [lead] text) : lead ∉ part := by
  induction text using splitOn_singleton_induct lead with
  | whole text hfree =>
    rw [splitOn_of_notMem hfree] at h
    rwa [mem_singleton.mp h]
  | cut before after hbefore ih =>
    rw [show before ++ lead :: after = before ++ ([lead] ++ after) from rfl, splitOn_append hbefore] at h
    rcases mem_cons.mp h with rfl | hafter
    · exact hbefore
    · exact ih hafter

theorem exists_splitOn_append (lead : α) (pattern text : List α) :
    ∃ init last, splitOn (lead :: pattern) text = init ++ [last] ∧
      ∀ more, splitOn (lead :: pattern) (text ++ more) = init ++ splitOn (lead :: pattern) (last ++ more) := by
  induction text using splitOn_induct lead pattern with
  | whole text hbreak =>
    refine ⟨[], text, ?_, fun _ => rfl⟩
    rw [splitOn_eq, hbreak]
    rfl
  | cut text before after hbreak ih =>
    obtain ⟨init, last, hsplit, hmore⟩ := ih
    refine ⟨before :: init, last, ?_, ?_⟩
    · rw [splitOn_eq, hbreak]
      show before :: splitOn (lead :: pattern) after = _
      rw [hsplit, cons_append]
    · intro more
      rw [splitOn_eq, breakOn_append hbreak more]
      show before :: splitOn (lead :: pattern) (after ++ more) = _
      rw [hmore, cons_append]

theorem splitOn_cons_of_ne (hne : lead ≠ c) (pattern text : List α) :
    ∃ first rest, splitOn (lead :: pattern) text = first :: rest ∧
      splitOn (lead :: pattern) (c :: text) = (c :: first) :: rest := by
  have hbegins : ¬ lead :: pattern <+: c :: text := fun hbegins => hne (cons_prefix_cons.mp hbegins).1
  rw [splitOn_eq, splitOn_eq, breakOn_cons_of_not_begins hbegins]
  cases breakOn (lead :: pattern) text with
  | none => exact ⟨text, [], rfl, rfl⟩
  | some split => exact ⟨split.1, splitOn (lead :: pattern) split.2, rfl, rfl⟩

theorem splitOn_append_of_notMem {first : List α} {rest : List (List α)} (h : lead ∉ before)
    (htext : splitOn (lead :: pattern) text = first :: rest) :
    splitOn (lead :: pattern) (before ++ text) = (before ++ first) :: rest := by
  induction before with
  | nil => exact htext
  | cons c before ih =>
    rw [mem_cons, not_or] at h
    obtain ⟨first', rest', hsplit, hcons⟩ := splitOn_cons_of_ne h.1 pattern (before ++ text)
    rw [ih h.2] at hsplit
    obtain ⟨rfl, rfl⟩ := List.cons.inj hsplit
    exact hcons

end A2A.Foundation
