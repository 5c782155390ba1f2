/-
# Encodings that can be read back from the front of a text.
-/
import Mathlib.Data.List.Basic

namespace A2A.Foundation

open List

universe u v

variable {α : Type u} {σ : Type v}

/-- The rest of a text, from where a value's encoding ends. -/
def Delimited (stop : σ → Prop) (rest : List σ) : Prop := ∀ b ∈ rest.head?, stop b

/-- The value and the end of its encoding can be told from the text. -/
def SelfDelimiting (stop : σ → Prop) (encode : α → List σ) (x : α) : Prop :=
  ∀ y rest rest', Delimited stop rest → Delimited stop rest' →
    encode x ++ rest = encode y ++ rest' → x = y ∧ rest = rest'

variable {stop : σ → Prop}

theorem delimited_nil : Delimited stop [] := nofun

theorem delimited_cons {b : σ} (h : stop b) (rest : List σ) : Delimited stop (b :: rest) := by
  intro c hc
  cases hc
  exact h

/-- A word over symbols that do not stop ends where the first stop symbol stands. -/
theorem append_inj_of_delimited {word word' rest rest' : List σ} (hword : ∀ b ∈ word, ¬ stop b)
    (hword' : ∀ b ∈ word', ¬ stop b) (hrest : Delimited stop rest) (hrest' : Delimited stop rest')
    (h : word ++ rest = word' ++ rest') : word = word' ∧ rest = rest' := by
  induction word generalizing word' with
  | nil =>
    cases word' with
    | nil => exact ⟨rfl, h⟩
    | cons b word' =>
      rw [nil_append] at h
      exact absurd (hrest b (by rw [h]; rfl)) (hword' b mem_cons_self)
  | cons b word ih =>
    cases word' with
    | nil =>
      rw [nil_append] at h
      exact absurd (hrest' b (by rw [← h]; rfl)) (hword b mem_cons_self)
    | cons b' word' =>
      obtain ⟨rfl, htail⟩ := List.cons.inj h
      obtain ⟨rfl, hsame⟩ := ih (fun c hc => hword c (mem_cons_of_mem b hc))
        (fun c hc => hword' c (mem_cons_of_mem b hc)) htail
      exact ⟨rfl, hsame⟩

/-- The texts with a separator between two. -/
def separatedBy (separator : σ) : List (List σ) → List σ
  | [] => []
  | [text] => text
  | text :: texts => text ++ separator :: separatedBy separator texts

theorem separatedBy_cons (separator : σ) (text : List σ) (texts : List (List σ)) :
    separatedBy separator (text :: texts) = text ++ texts.flatMap (fun text' => separator :: text') := by
  induction texts generalizing text with
  | nil => simp [separatedBy]
  | cons text' texts ih =>
    show text ++ separator :: separatedBy separator (text' :: texts) = _
    rw [ih]
    rfl

section Lists

variable {encode : α → List σ} {separator close : σ}

variable {xs ys : List α} {rest rest' : List σ}

section

variable (hseparator : stop separator) (hclose : stop close)

include hseparator hclose

theorem delimited_tail (xs : List α)
    (rest : List σ) : Delimited stop (xs.flatMap (fun x => separator :: encode x) ++ close :: rest) := by
  cases xs with
  | nil => exact delimited_cons hclose rest
  | cons x xs => exact delimited_cons hseparator _

theorem tail_inj_of_selfDelimiting
    (hne : separator ≠ close) (hxs : ∀ x ∈ xs, SelfDelimiting stop encode x)
    (h : xs.flatMap (fun x => separator :: encode x) ++ close :: rest =
      ys.flatMap (fun y => separator :: encode y) ++ close :: rest') :
    xs = ys ∧ rest = rest' := by
  induction xs generalizing ys with
  | nil =>
    cases ys with
    | nil => exact ⟨rfl, (List.cons.inj h).2⟩
    | cons y ys => exact absurd (List.cons.inj h).1.symm hne
  | cons x xs ih =>
    cases ys with
    | nil => exact absurd (List.cons.inj h).1 hne
    | cons y ys =>
      simp only [flatMap_cons, cons_append, append_assoc, List.cons.injEq, true_and] at h
      obtain ⟨rfl, hmore⟩ := hxs x mem_cons_self y _ _ (delimited_tail hseparator hclose xs rest)
        (delimited_tail hseparator hclose ys rest') h
      obtain ⟨rfl, hrest⟩ := ih (fun z hz => hxs z (mem_cons_of_mem x hz)) hmore
      exact ⟨rfl, hrest⟩

/-- A separated and closed list can be read back, if no encoding starts like the closing symbol. -/
theorem separatedBy_inj_of_selfDelimiting
    (hne : separator ≠ close) (hstart : ∀ x, ∃ b text, encode x = b :: text ∧ b ≠ close)
    (hxs : ∀ x ∈ xs, SelfDelimiting stop encode x)
    (h : separatedBy separator (xs.map encode) ++ close :: rest =
      separatedBy separator (ys.map encode) ++ close :: rest') :
    xs = ys ∧ rest = rest' := by
  have hjoin : ∀ (z : α) (zs : List α) (r : List σ), separatedBy separator ((z :: zs).map encode) ++ close :: r =
        encode z ++ (zs.flatMap (fun z => separator :: encode z) ++ close :: r) := by
    intro z zs r
    rw [map_cons, separatedBy_cons, append_assoc, flatMap_map]
  cases xs with
  | nil =>
    cases ys with
    | nil => exact ⟨rfl, (List.cons.inj h).2⟩
    | cons y ys =>
      obtain ⟨b, text, hy, hb⟩ := hstart y
      rw [hjoin, hy] at h
      exact absurd (List.cons.inj h).1.symm hb
  | cons x xs =>
    cases ys with
    | nil =>
      obtain ⟨b, text, hx, hb⟩ := hstart x
      rw [hjoin, hx] at h
      exact absurd (List.cons.inj h).1 hb
    | cons y ys =>
      rw [hjoin, hjoin] at h
      obtain ⟨rfl, hmore⟩ := hxs x mem_cons_self y _ _ (delimited_tail hseparator hclose xs rest)
        (delimited_tail hseparator hclose ys rest') h
      obtain ⟨rfl, hrest⟩ := tail_inj_of_selfDelimiting hseparator hclose hne
        (fun z hz => hxs z (mem_cons_of_mem x hz)) hmore
      exact ⟨rfl, hrest⟩

end

end Lists

end A2A.Foundation
