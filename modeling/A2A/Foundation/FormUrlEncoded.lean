/-
# Percent escapes and query texts.
-/
import A2A.Foundation.Hexadecimal

namespace A2A.Foundation

open List

/-- The raw text is a spelling of the text. -/
inductive Spells : Bytes → Bytes → Prop
  | nil : Spells [] []
  | blank {raw text : Bytes} : Spells raw text → Spells (43 :: raw) (32 :: text)
  | escape {hi lo : UInt8} {high low : Nat} {raw text : Bytes} : hexDigitValue hi = some high →
      hexDigitValue lo = some low → Spells raw text →
      Spells (37 :: hi :: lo :: raw) (UInt8.ofNat (high * 16 + low) :: text)
  | literal {b : UInt8} {raw text : Bytes} : b ≠ 43 → b ≠ 37 → Spells raw text → Spells (b :: raw) (b :: text)

def WellEscaped (raw : Bytes) : Prop := ∃ text, Spells raw text

namespace Spells

variable {raw text : Bytes}

/-- A raw text spells at most one text. -/
theorem unique {text' : Bytes} (h : Spells raw text) (h' : Spells raw text') : text = text' := by
  induction h generalizing text' with
  | nil => cases h' with
    | nil => rfl
  | blank _ ih => cases h' with
    | blank h' => rw [ih h']
    | literal hplus => exact absurd rfl hplus
  | escape hhi hlo _ ih => cases h' with
    | escape hhi' hlo' h' =>
      cases hhi.symm.trans hhi'
      cases hlo.symm.trans hlo'
      rw [ih h']
    | literal _ hpercent => exact absurd rfl hpercent
  | literal hplus hpercent _ ih => cases h' with
    | blank => exact absurd rfl hplus
    | escape => exact absurd rfl hpercent
    | literal _ _ h' => rw [ih h']

theorem append {raw' text' : Bytes} (h : Spells raw text) (h' : Spells raw' text') :
    Spells (raw ++ raw') (text ++ text') := by
  induction h with
  | nil => exact h'
  | blank _ ih => exact .blank ih
  | escape hhi hlo _ ih => exact .escape hhi hlo ih
  | literal hplus hpercent _ ih => exact .literal hplus hpercent ih

theorem of_plain (hplus : 43 ∉ raw) (hpercent : 37 ∉ raw) : Spells raw raw := by
  induction raw with
  | nil => exact .nil
  | cons b raw ih =>
    rw [mem_cons, not_or] at hplus hpercent
    exact .literal (Ne.symm hplus.1) (Ne.symm hpercent.1) (ih hplus.2 hpercent.2)

theorem length_le (h : Spells raw text) : text.length ≤ raw.length := by
  induction h with
  | nil => exact Nat.le_refl _
  | blank _ ih | literal _ _ _ ih => exact Nat.succ_le_succ ih
  | escape _ _ _ ih =>
    simp only [length_cons]
    omega

end Spells

/-! ## Cutting raw texts -/

/-- A byte that cannot stand inside an escape. -/
def SeparatesEscapes (b : UInt8) : Prop := hexDigitValue b = none ∧ b ≠ 37

namespace WellEscaped

variable {before after : Bytes} {sep : UInt8}

theorem nil : WellEscaped [] := ⟨[], .nil⟩

theorem append (h : WellEscaped before) (h' : WellEscaped after) : WellEscaped (before ++ after) := by
  obtain ⟨text, htext⟩ := h
  obtain ⟨text', htext'⟩ := h'
  exact ⟨text ++ text', htext.append htext'⟩

theorem of_plain {raw : Bytes} (h : 37 ∉ raw) : WellEscaped raw := by
  induction raw with
  | nil => exact nil
  | cons b raw ih =>
    rw [mem_cons, not_or] at h
    obtain ⟨text, htext⟩ := ih h.2
    by_cases hplus : b = 43
    · exact ⟨32 :: text, hplus ▸ .blank htext⟩
    · exact ⟨b :: text, .literal hplus (Ne.symm h.1) htext⟩

/-- Before a byte that is no hexadecimal digit, a raw text can be cut. -/
theorem of_append_cons (hsep : hexDigitValue sep = none) {raw text : Bytes} (h : Spells raw text) :
    ∀ {before}, raw = before ++ sep :: after → WellEscaped before ∧ WellEscaped (sep :: after) := by
  induction h with
  | nil =>
    intro before hraw
    exact absurd hraw.symm (by simp)
  | @blank raw _ h ih =>
    intro before hraw
    cases before with
    | nil => exact ⟨nil, (show _ = sep :: after from hraw) ▸ ⟨_, .blank h⟩⟩
    | cons b before =>
      obtain ⟨rfl, hrest⟩ := List.cons.inj hraw
      obtain ⟨⟨text, hbefore⟩, hafter⟩ := ih hrest
      exact ⟨⟨_, .blank hbefore⟩, hafter⟩
  | @escape hi lo _ _ raw _ hhi hlo h ih =>
    intro before hraw
    -- the byte is not one of the two digits
    match before with
    | [] => exact ⟨nil, (show _ = sep :: after from hraw) ▸ ⟨_, .escape hhi hlo h⟩⟩
    | [_] =>
      obtain ⟨rfl, -⟩ := List.cons.inj (List.cons.inj hraw).2
      rw [hsep] at hhi
      cases hhi
    | [_, _] =>
      obtain ⟨rfl, -⟩ := List.cons.inj (List.cons.inj (List.cons.inj hraw).2).2
      rw [hsep] at hlo
      cases hlo
    | b :: b' :: b'' :: before =>
      simp only [cons_append, List.cons.injEq] at hraw
      obtain ⟨rfl, rfl, rfl, hraw⟩ := hraw
      obtain ⟨⟨text, hbefore⟩, hafter⟩ := ih hraw
      exact ⟨⟨_, .escape hhi hlo hbefore⟩, hafter⟩
  | @literal b raw _ hplus hpercent h ih =>
    intro before hraw
    cases before with
    | nil => exact ⟨nil, (show _ = sep :: after from hraw) ▸ ⟨_, .literal hplus hpercent h⟩⟩
    | cons b' before =>
      obtain ⟨rfl, hrest⟩ := List.cons.inj hraw
      obtain ⟨⟨text, hbefore⟩, hafter⟩ := ih hrest
      exact ⟨⟨_, .literal hplus hpercent hbefore⟩, hafter⟩

theorem of_cons (hsep : sep ≠ 37) (h : WellEscaped (sep :: after)) : WellEscaped after := by
  obtain ⟨text, h⟩ := h
  cases h with
  | blank h | literal _ _ h => exact ⟨_, h⟩
  | escape => exact absurd rfl hsep

theorem append_cons_iff (hsep : SeparatesEscapes sep) (hplus : sep ≠ 43) :
    WellEscaped (before ++ sep :: after) ↔ WellEscaped before ∧ WellEscaped after := by
  constructor
  · rintro ⟨text, h⟩
    obtain ⟨hbefore, hafter⟩ := of_append_cons hsep.1 h rfl
    exact ⟨hbefore, of_cons hsep.2 hafter⟩
  · rintro ⟨hbefore, text, hafter⟩
    exact hbefore.append ⟨sep :: text, .literal hplus hsep.2 hafter⟩

end WellEscaped

/-- Some percent sign does not start an escape. -/
def HasStrayPercent (raw : Bytes) : Prop :=
  ∃ before after, raw = before ++ 37 :: after ∧ ¬ ∃ hi lo rest, after = hi :: lo :: rest ∧
    (hexDigitValue hi).isSome ∧ (hexDigitValue lo).isSome

theorem WellEscaped.not_hasStrayPercent {raw : Bytes} (h : WellEscaped raw) : ¬ HasStrayPercent raw := by
  rintro ⟨before, after, hraw, hstray⟩
  obtain ⟨text, h⟩ := h
  obtain ⟨-, text, hafter⟩ := WellEscaped.of_append_cons rfl h hraw
  cases hafter with
  | escape hhi hlo _ => exact hstray ⟨_, _, _, rfl, Option.isSome_of_eq_some hhi, Option.isSome_of_eq_some hlo⟩
  | literal _ hpercent _ => exact hpercent rfl

/-! ## The form encoding -/

/-- Letters, digits and `-._~` stand for themselves, a blank is `+` or `%20`. -/
def formEncodeByte (plus : Bool) (b : UInt8) : Bytes :=
  if isDigitByte b ∨ 65 ≤ b ∧ b ≤ 90 ∨ 97 ≤ b ∧ b ≤ 122 ∨ b ∈ bytes "-._~" then [b]
  else if plus ∧ b = 32 then [43]
  else [37, hexDigit (b.toNat / 16), hexDigit (b.toNat % 16)]

def formEncode (plus : Bool) (text : Bytes) : Bytes := text.flatMap (formEncodeByte plus)

theorem spells_formEncodeByte (plus : Bool) (b : UInt8) : Spells (formEncodeByte plus b) [b] := by
  unfold formEncodeByte
  split_ifs with hplain hblank
  · refine .literal ?_ ?_ .nil
    · rintro rfl
      exact absurd hplain (by decide)
    · rintro rfl
      exact absurd hplain (by decide)
  · rw [hblank.2]
    exact .blank .nil
  · have hb := b.toNat_lt
    have hescape := Spells.escape (hexDigitValue_hexDigit (show b.toNat / 16 < 16 by omega))
      (hexDigitValue_hexDigit (show b.toNat % 16 < 16 by omega)) .nil
    rw [show b.toNat / 16 * 16 + b.toNat % 16 = b.toNat by omega, UInt8.ofNat_toNat] at hescape
    exact hescape

theorem spells_formEncode (plus : Bool) (text : Bytes) : Spells (formEncode plus text) text := by
  induction text with
  | nil => exact .nil
  | cons b text ih => exact (spells_formEncodeByte plus b).append ih

theorem notMem_formEncode {plus : Bool} {sep : UInt8} (hsep : formEncodeByte plus sep ≠ [sep])
    (hdigit : hexDigitValue sep = none) (hother : sep ≠ 43 ∧ sep ≠ 37) (text : Bytes) : sep ∉ formEncode plus text := by
  intro hmem
  obtain ⟨b, -, hb⟩ := mem_flatMap.mp hmem
  have hne {d : Nat} (hd : d < 16) : sep ≠ hexDigit d := fun heq =>
    nomatch hdigit.symm.trans ((congrArg hexDigitValue heq).trans (hexDigitValue_hexDigit hd))
  have hlt := b.toNat_lt
  unfold formEncodeByte at hb
  split_ifs at hb with hplain
  · obtain rfl := mem_singleton.mp hb
    exact hsep (if_pos hplain)
  · exact hother.1 (mem_singleton.mp hb)
  · simp only [mem_cons, not_mem_nil, or_false] at hb
    rcases hb with hb | hb | hb
    · exact hother.2 hb
    · exact hne (by omega) hb
    · exact hne (by omega) hb

end A2A.Foundation
