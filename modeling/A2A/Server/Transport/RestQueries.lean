/-
# What the query parser reads (`ParseQueryStringImpl`).
-/
import A2A.Server.Transport.RestServerTransport
import Mathlib.Data.List.Forall2

namespace A2A.Server.Transport

open A2A.Foundation A2A.Core A2A.Server.Tasks List

/-! ## Components -/

variable {raw text part name value : Bytes} {parts : List Bytes} {out params : QueryParams}

theorem decodeUrlLoop_of_spells (h : Spells raw text) : decodeUrlLoop raw = .ok text := by
  induction h with
  | nil => rfl
  | blank _ ih =>
    rw [decodeUrlLoop, ih]
    rfl
  | escape hhi hlo _ ih =>
    simp only [decodeUrlLoop, hhi, hlo, ih]
    rfl
  | literal hplus hpercent _ ih =>
    rw [decodeUrlLoop, if_neg hpercent, ih]
    · rfl
    · exact hplus
    · intro hi lo raw hb
      exact absurd hb hpercent

theorem spells_of_decodeUrlLoop : ∀ {text : Bytes}, decodeUrlLoop raw = .ok text → Spells raw text := by
  fun_induction decodeUrlLoop raw with
  | case1 =>
    intro text h
    cases h
    exact .nil
  | case2 raw ih =>
    intro text h
    obtain ⟨rest, hrest, rfl⟩ := ok_of_map h
    exact .blank (ih hrest)
  | case3 hi lo raw high low hlo hhi ih =>
    intro text h
    obtain ⟨rest, hrest, rfl⟩ := ok_of_map h
    exact .escape hhi hlo (ih hrest)
  | case4 => nofun
  | case5 => nofun
  | case6 ch raw hplus _ hpercent ih =>
    intro text h
    obtain ⟨rest, hrest, rfl⟩ := ok_of_map h
    exact .literal hplus hpercent (ih hrest)

/-- The decoder reads the spellings of a text, and nothing else. -/
theorem decodeUrlComponent_eq_ok_iff : decodeUrlComponent raw = .ok text ↔ Spells raw text := by
  unfold decodeUrlComponent
  split_ifs with hplain
  · constructor
    · intro h
      cases h
      exact .of_plain hplain.1 hplain.2
    · intro h
      rw [(Spells.of_plain hplain.1 hplain.2).unique h]
  · exact ⟨spells_of_decodeUrlLoop, decodeUrlLoop_of_spells⟩

/-! ## Parts -/

/-- A part of a query assigns the value to the name. -/
def Assigns (part name value : Bytes) : Prop :=
  part ≠ [] ∧ Spells (splitParameter part).1 name ∧ Spells (splitParameter part).2 value

theorem splitParameter_of_notMem {key : Bytes} (h : 61 ∉ key) (value : Bytes) :
    splitParameter (key ++ 61 :: value) = (key, value) := by
  show (breakOn [61] (key ++ ([61] ++ value))).getD _ = _
  rw [breakOn_of_notMem h]
  rfl

theorem eq_of_splitParameter (part : Bytes) :
    part = (splitParameter part).1 ++ 61 :: (splitParameter part).2 ∨ splitParameter part = (part, []) := by
  unfold splitParameter
  cases hbreak : breakOn (bytes "=") part with
  | none => exact .inr rfl
  | some pair => exact .inl ((eq_of_breakOn hbreak).trans (append_assoc ..))

theorem separatesEscapes_equals : SeparatesEscapes 61 := ⟨rfl, by decide⟩

theorem separatesEscapes_ampersand : SeparatesEscapes 38 := ⟨rfl, by decide⟩

theorem wellEscaped_iff_splitParameter (part : Bytes) :
    WellEscaped part ↔ WellEscaped (splitParameter part).1 ∧ WellEscaped (splitParameter part).2 := by
  rcases eq_of_splitParameter part with hpart | hpart
  · conv_lhs => rw [hpart]
    exact WellEscaped.append_cons_iff separatesEscapes_equals (by decide)
  · rw [hpart]
    exact (and_iff_left WellEscaped.nil).symm

theorem exists_assigns_iff (hne : part ≠ []) : (∃ name value, Assigns part name value) ↔ WellEscaped part := by
  rw [wellEscaped_iff_splitParameter]
  constructor
  · rintro ⟨name, value, -, hname, hvalue⟩
    exact ⟨⟨name, hname⟩, value, hvalue⟩
  · rintro ⟨⟨name, hname⟩, value, hvalue⟩
    exact ⟨name, value, hne, hname, hvalue⟩

theorem Assigns.unique {name' value' : Bytes} (h : Assigns part name value) (h' : Assigns part name' value') :
    name = name' ∧ value = value' :=
  ⟨h.2.1.unique h'.2.1, h.2.2.unique h'.2.2⟩

theorem Assigns.length_le (h : Assigns part name value) : value.length ≤ part.length := by
  have hvalue := h.2.2.length_le
  rcases eq_of_splitParameter part with hpart | hpart
  · have hlength := congrArg List.length hpart
    rw [length_append, length_cons] at hlength
    omega
  · rw [hpart] at hvalue
    exact hvalue.trans (Nat.zero_le _)

/-! ## Queries -/

/-- The last part that assigns something to the name assigns the value. -/
def LastAssigned (parts : List Bytes) (name value : Bytes) : Prop :=
  ∃ lead part rest, parts = lead ++ part :: rest ∧ Assigns part name value ∧ ∀ p ∈ rest, ∀ v, ¬ Assigns p name v

/-- No part assigns anything to the name. -/
def Unassigned (parts : List Bytes) (name : Bytes) : Prop := ∀ part ∈ parts, ∀ value, ¬ Assigns part name value

theorem parseQueryParts_cons_of_assigns (h : Assigns part name value) (parts : List Bytes) (out : QueryParams) :
    parseQueryParts (part :: parts) out = parseQueryParts parts (out.put (name, value)) := by
  rw [parseQueryParts, if_neg (mt List.isEmpty_iff.mp h.1)]
  simp only [decodeUrlComponent_eq_ok_iff.mpr h.2.1, decodeUrlComponent_eq_ok_iff.mpr h.2.2]

/-- One part: it is empty and skipped, it assigns a value, or the query is refused. -/
theorem parseQueryParts_cons (h : parseQueryParts (part :: parts) out = .ok params) :
    (part = [] ∧ parseQueryParts parts out = .ok params) ∨
      ∃ name value, Assigns part name value ∧ parseQueryParts parts (out.put (name, value)) = .ok params := by
  by_cases hempty : part = []
  · refine .inl ⟨hempty, ?_⟩
    rw [parseQueryParts, if_pos (List.isEmpty_iff.mpr hempty)] at h
    exact h
  · refine .inr ?_
    rw [parseQueryParts, if_neg (mt List.isEmpty_iff.mp hempty)] at h
    cases hname : decodeUrlComponent (splitParameter part).1 with
    | error e =>
      simp only [hname] at h
      cases h
    | ok name =>
      cases hvalue : decodeUrlComponent (splitParameter part).2 with
      | error e =>
        simp only [hname, hvalue] at h
        cases h
      | ok value =>
        simp only [hname, hvalue] at h
        exact ⟨name, value,
          ⟨hempty, decodeUrlComponent_eq_ok_iff.mp hname, decodeUrlComponent_eq_ok_iff.mp hvalue⟩, h⟩

theorem exists_parseQueryParts_iff :
    (∃ params, parseQueryParts parts out = .ok params) ↔ ∀ part ∈ parts, WellEscaped part := by
  induction parts generalizing out with
  | nil => exact ⟨nofun, fun _ => ⟨out, rfl⟩⟩
  | cons part parts ih =>
    rw [forall_mem_cons]
    constructor
    · rintro ⟨params, h⟩
      rcases parseQueryParts_cons h with ⟨rfl, hrest⟩ | ⟨name, value, hassigns, hrest⟩
      · exact ⟨.nil, ih.mp ⟨params, hrest⟩⟩
      · exact ⟨(exists_assigns_iff hassigns.1).mp ⟨name, value, hassigns⟩, ih.mp ⟨params, hrest⟩⟩
    · rintro ⟨hpart, hparts⟩
      by_cases hempty : part = []
      · obtain ⟨params, hrest⟩ := ih.mpr hparts
        refine ⟨params, ?_⟩
        rw [parseQueryParts, if_pos (List.isEmpty_iff.mpr hempty)]
        exact hrest
      · obtain ⟨name, value, hassigns⟩ := (exists_assigns_iff hempty).mpr hpart
        obtain ⟨params, hrest⟩ := ih.mpr hparts
        exact ⟨params, (parseQueryParts_cons_of_assigns hassigns parts out).trans hrest⟩

theorem not_lastAssigned_nil (name value : Bytes) : ¬ LastAssigned [] name value := by
  rintro ⟨lead, part, rest, hparts, -⟩
  exact absurd hparts.symm (by simp)

theorem lastAssigned_cons :
    LastAssigned (part :: parts) name value ↔
      LastAssigned parts name value ∨ (Unassigned parts name ∧ Assigns part name value) := by
  constructor
  · rintro ⟨lead, last, rest, hparts, hassigns, hrest⟩
    cases lead with
    | nil =>
      obtain ⟨rfl, rfl⟩ := List.cons.inj hparts
      exact .inr ⟨hrest, hassigns⟩
    | cons first lead =>
      obtain ⟨-, hparts⟩ := List.cons.inj hparts
      exact .inl ⟨lead, last, rest, hparts, hassigns, hrest⟩
  · rintro (⟨lead, last, rest, rfl, hassigns, hrest⟩ | ⟨hunassigned, hassigns⟩)
    · exact ⟨part :: lead, last, rest, rfl, hassigns, hrest⟩
    · exact ⟨[], part, parts, rfl, hassigns, hunassigned⟩

theorem not_lastAssigned_empty (name value : Bytes) : ¬ LastAssigned [[]] name value := by
  intro h
  rcases lastAssigned_cons.mp h with hnil | ⟨-, hpart⟩
  · exact not_lastAssigned_nil name value hnil
  · exact hpart.1 rfl

theorem unassigned_iff : Unassigned parts name ↔ ∀ value, ¬ LastAssigned parts name value := by
  induction parts with
  | nil => exact iff_of_true nofun (not_lastAssigned_nil name)
  | cons part parts ih =>
    have hcons : Unassigned (part :: parts) name ↔ (∀ v, ¬ Assigns part name v) ∧ Unassigned parts name :=
      forall_mem_cons
    constructor
    · intro h value hlast
      obtain ⟨hpart, hparts⟩ := hcons.mp h
      rcases lastAssigned_cons.mp hlast with hlast | ⟨-, hassigns⟩
      · exact ih.mp hparts value hlast
      · exact hpart value hassigns
    · intro h
      have hparts : Unassigned parts name := ih.mpr fun value hlast => h value (lastAssigned_cons.mpr (.inl hlast))
      exact hcons.mpr ⟨fun value hassigns => h value (lastAssigned_cons.mpr (.inr ⟨hparts, hassigns⟩)), hparts⟩

/-- The last assignment to a name counts. -/
theorem find_parseQueryParts (h : parseQueryParts parts out = .ok params) (name value : Bytes) :
    params.find name = some (name, value) ↔
      LastAssigned parts name value ∨ (Unassigned parts name ∧ out.find name = some (name, value)) := by
  induction parts generalizing out with
  | nil =>
    cases h
    simp [not_lastAssigned_nil, Unassigned]
  | cons part parts ih =>
    have hcons : Unassigned (part :: parts) name ↔ (∀ v, ¬ Assigns part name v) ∧ Unassigned parts name :=
      forall_mem_cons
    rw [lastAssigned_cons, hcons]
    rcases parseQueryParts_cons h with ⟨rfl, hrest⟩ | ⟨name', value', hassigns, hrest⟩
    · have hnone : ∀ v, ¬ Assigns [] name v := fun v hv => hv.1 rfl
      rw [ih hrest]
      simp only [hnone, and_false, or_false, not_false_eq_true, implies_true, true_and]
    · rw [ih hrest]
      by_cases hname : name = name'
      · -- the part assigns to the name, so that what was there before does not matter
        subst hname
        have hfound : (out.put (name, value')).find name = some (name, value') := Table.find_put_self (name, value')
        have hassigned : Assigns part name value ↔ value' = value :=
          ⟨fun hv => (hassigns.unique hv).2, fun hv => hv ▸ hassigns⟩
        have hsome : ¬ ∀ v, ¬ Assigns part name v := fun hnone => hnone value' hassigns
        rw [hfound]
        simp only [hassigned, hsome, false_and, or_false, Option.some.injEq, Prod.mk.injEq, true_and]
      · have hnone : ∀ v, ¬ Assigns part name v := fun v hv => hname (hv.unique hassigns).1
        rw [Table.find_put_of_ne hname]
        simp only [hnone, and_false, or_false, not_false_eq_true, implies_true, true_and]

theorem wellEscaped_iff_splitOn (raw : Bytes) : WellEscaped raw ↔ ∀ part ∈ splitOn [38] raw, WellEscaped part := by
  induction raw using splitOn_singleton_induct (38 : UInt8) with
  | whole raw hfree => rw [splitOn_of_notMem hfree, forall_mem_singleton]
  | cut before after hbefore ih =>
    rw [show before ++ 38 :: after = before ++ ([38] ++ after) from rfl, splitOn_append hbefore, forall_mem_cons,
      ← ih]
    exact WellEscaped.append_cons_iff separatesEscapes_ampersand (by decide)

/-- A query is accepted exactly if all of it is well escaped. -/
theorem exists_parseQueryString_iff : (∃ params, parseQueryString raw = .ok params) ↔ WellEscaped raw := by
  unfold parseQueryString
  split_ifs with hempty
  · rw [List.isEmpty_iff.mp hempty]
    exact ⟨fun _ => .nil, fun _ => ⟨_, rfl⟩⟩
  · rw [wellEscaped_iff_splitOn]
    exact exists_parseQueryParts_iff

/-- In an accepted query, a name has the value that was assigned to it last. -/
theorem find_parseQueryString (h : parseQueryString raw = .ok params) (name value : Bytes) :
    params.find name = some (name, value) ↔ LastAssigned (splitOn [38] raw) name value := by
  unfold parseQueryString at h
  split_ifs at h with hempty
  · cases h
    rw [List.isEmpty_iff.mp hempty, Table.find_empty]
    exact iff_of_false nofun (not_lastAssigned_empty name value)
  · rw [find_parseQueryParts h, Table.find_empty]
    exact or_iff_left fun hnone => nomatch hnone.2

theorem lookup_parseQueryString (h : parseQueryString raw = .ok params) (name value : Bytes) :
    (params.find name).map Prod.snd = some value ↔ LastAssigned (splitOn [38] raw) name value := by
  rw [← find_parseQueryString h, Option.map_eq_some_iff]
  constructor
  · rintro ⟨⟨key, value⟩, hrow, rfl⟩
    rw [hrow, show key = name from Table.find_key hrow]
  · exact fun hrow => ⟨(name, value), hrow, rfl⟩

/-! ## Queries of distinct fields -/

/-- A spelling of a name and a value. -/
structure SpellsField (raw field : Bytes × Bytes) : Prop where
  name : Spells raw.1 field.1
  value : Spells raw.2 field.2
  notInName : 38 ∉ raw.1 ∧ 61 ∉ raw.1
  notInValue : 38 ∉ raw.2

/-- Name and value with an equals sign. -/
def fieldText (raw : Bytes × Bytes) : Bytes := raw.1 ++ 61 :: raw.2

def queryText (raws : List (Bytes × Bytes)) : Bytes := [38].intercalate (raws.map fieldText)

section Fields

variable {raw field : Bytes × Bytes} {raws fields : List (Bytes × Bytes)}

theorem SpellsField.notMem (h : SpellsField raw field) : 38 ∉ fieldText raw := by
  rw [fieldText, mem_append, mem_cons, not_or, not_or]
  exact ⟨h.notInName.1, by decide, h.notInValue⟩

theorem SpellsField.wellEscaped (h : SpellsField raw field) : WellEscaped (fieldText raw) :=
  (WellEscaped.append_cons_iff separatesEscapes_equals (by decide)).mpr ⟨⟨_, h.name⟩, ⟨_, h.value⟩⟩

theorem SpellsField.assigns_iff (h : SpellsField raw field) {name value : Bytes} :
    Assigns (fieldText raw) name value ↔ field = (name, value) := by
  have hassigns : Assigns (fieldText raw) field.1 field.2 := by
    refine ⟨?_, ?_⟩
    · rw [fieldText]
      exact append_ne_nil_of_right_ne_nil _ (cons_ne_nil _ _)
    · rw [fieldText, splitParameter_of_notMem h.notInName.2]
      exact ⟨h.name, h.value⟩
  constructor
  · intro hother
    exact Prod.ext_iff.mpr (hassigns.unique hother)
  · rintro rfl
    exact hassigns

section

variable (hspells : List.Forall₂ SpellsField raws fields)

include hspells

theorem splitOn_queryText (hne : raws ≠ []) : splitOn [38] (queryText raws) = raws.map fieldText := by
  induction hspells with
  | nil => exact absurd rfl hne
  | @cons raw field raws fields hfirst hrest ih =>
    cases raws with
    | nil =>
      rw [queryText, map_singleton, intercalate_singleton]
      exact splitOn_of_notMem hfirst.notMem
    | cons second raws =>
      have hcons : queryText (raw :: second :: raws) = fieldText raw ++ ([38] ++ queryText (second :: raws)) := by
        rw [queryText, map_cons, map_cons, intercalate_cons_cons, append_assoc]
        rfl
      rw [hcons, splitOn_append hfirst.notMem, ih (cons_ne_nil _ _)]
      rfl

theorem wellEscaped_queryText : WellEscaped (queryText raws) := by
  by_cases hne : raws = []
  · rw [hne]
    exact .nil
  · rw [wellEscaped_iff_splitOn, splitOn_queryText hspells hne]
    clear hne
    induction hspells with
    | nil => exact fun part hpart => nomatch hpart
    | cons hfirst _ ih => exact forall_mem_cons.mpr ⟨hfirst.wellEscaped, ih⟩

theorem lastAssigned_fields {name value : Bytes} :
    LastAssigned (raws.map fieldText) name value ↔ fields.reverse.lookup name = some value := by
  induction hspells generalizing value with
  | nil => exact iff_of_false (not_lastAssigned_nil name value) nofun
  | @cons raw field raws fields hfirst hrest ih =>
    obtain ⟨key, text⟩ := field
    have ih := fun v => @ih v
    rw [map_cons, lastAssigned_cons, hfirst.assigns_iff, unassigned_iff, reverse_cons, lookup_append]
    simp only [ih]
    cases fields.reverse.lookup name with
    | some last => simp
    | none =>
      by_cases hkey : name = key
      · simp [hkey]
      · simp [lookup_cons, beq_false_of_ne hkey, Ne.symm hkey]

/-- A query of fields is accepted, and the last field of each name is found in it. -/
theorem lookup_reverse_queryText : ∃ params, parseQueryString (queryText raws) = .ok params ∧
    ∀ name, (params.find name).map Prod.snd = fields.reverse.lookup name := by
  obtain ⟨params, hparams⟩ := exists_parseQueryString_iff.mpr (wellEscaped_queryText hspells)
  refine ⟨params, hparams, fun name => Option.ext fun value => ?_⟩
  rw [lookup_parseQueryString hparams]
  by_cases hne : raws = []
  · subst hne
    obtain rfl := forall₂_nil_left_iff.mp hspells
    exact iff_of_false (not_lastAssigned_empty name value) nofun
  · rw [splitOn_queryText hspells hne, lastAssigned_fields hspells]

end

/-- Where no name occurs twice, the last field of a name is the first one. -/
theorem lookup_reverse (hdistinct : (fields.map Prod.fst).Nodup) (name : Bytes) :
    fields.reverse.lookup name = fields.lookup name := by
  induction fields with
  | nil => rfl
  | cons field fields ih =>
    obtain ⟨key, text⟩ := field
    obtain ⟨hfresh, hrest⟩ := nodup_cons.mp hdistinct
    rw [reverse_cons, lookup_append, ih hrest, lookup_cons]
    by_cases hkey : name = key
    · have hnone : fields.lookup key = none := by
        rw [lookup_eq_none_iff]
        intro field hfield
        rw [bne_iff_ne]
        exact fun heq => hfresh (mem_map.mpr ⟨field, hfield, heq.symm⟩)
      simp [hkey, hnone]
    · simp [lookup_cons, beq_false_of_ne hkey]

end Fields

/-! ## Numbers -/

variable {raw : Bytes} {z : Int}

theorem toNat_byteChar (c : UInt8) : (byteChar c).toNat = c.toNat := by
  have hvalid : Nat.isValidChar c.toNat := .inl (by have := c.toNat_lt; omega)
  rw [byteChar, Char.ofNat, dif_pos hvalid]
  rfl

theorem parsePageSizeLoop_digits (h : ∀ b ∈ raw, isDigitByte b) {parsed n : Nat} (hparsed : parsed = n % sizeValues) :
    parsePageSizeLoop raw parsed = some (Nat.ofDigitChars 10 (raw.map byteChar) n % sizeValues) := by
  induction raw generalizing parsed n with
  | nil =>
    rw [parsePageSizeLoop, hparsed]
    rfl
  | cons c raw ih =>
    rw [forall_mem_cons] at h
    rw [parsePageSizeLoop, if_neg (not_not.mpr h.1), map_cons, Nat.ofDigitChars_cons]
    apply ih h.2
    rw [hparsed, toNat_byteChar]
    show (n % sizeValues * 10 + (c.toNat - 48)) % sizeValues = (10 * n + (c.toNat - 48)) % sizeValues
    rw [Nat.add_mod, Nat.mod_mul_mod, ← Nat.add_mod, Nat.mul_comm]

theorem parsePageSizeLoop_eq_none (h : ¬ ∀ b ∈ raw, isDigitByte b) (parsed : Nat) :
    parsePageSizeLoop raw parsed = none := by
  induction raw generalizing parsed with
  | nil => exact absurd (fun b hb => nomatch hb) h
  | cons c raw ih =>
    rw [parsePageSizeLoop]
    split_ifs with hc
    · rw [forall_mem_cons, not_and] at h
      exact ih (h hc) _
    · rfl

/-- A text reads as a number up to a multiple of 2^64, and that is an `int`. -/
def ReadsAsInt (raw : Bytes) : Prop := (∀ b ∈ raw, isDigitByte b = true) ∧ decimalValue raw % sizeValues ≤ 2147483647

theorem parsePageSize_eq (h : ReadsAsInt raw) : parsePageSize raw = ((decimalValue raw % sizeValues : Nat) : Int) := by
  unfold parsePageSize
  split_ifs with hempty
  · rw [List.isEmpty_iff.mp hempty]
    rfl
  · rw [parsePageSizeLoop_digits h.1 (Nat.zero_mod _).symm]
    exact if_neg (Nat.not_lt.mpr h.2)

theorem parsePageSize_of_not (h : ¬ ReadsAsInt raw) : parsePageSize raw = -1 := by
  unfold parsePageSize
  split_ifs with hempty
  · rw [List.isEmpty_iff.mp hempty] at h
    exact absurd ⟨fun b hb => absurd hb not_mem_nil, by decide⟩ h
  · by_cases hdigits : ∀ b ∈ raw, isDigitByte b
    · rw [parsePageSizeLoop_digits hdigits (Nat.zero_mod _).symm]
      exact if_pos (Nat.lt_of_not_le fun hle => h ⟨hdigits, hle⟩)
    · rw [parsePageSizeLoop_eq_none hdigits]

theorem parsePageSize_nonneg_iff : 0 ≤ parsePageSize raw ↔ ReadsAsInt raw := by
  by_cases h : ReadsAsInt raw
  · rw [parsePageSize_eq h]
    exact iff_of_true (Int.natCast_nonneg _) h
  · rw [parsePageSize_of_not h]
    exact iff_of_false (by decide) h

/-- What a text of digits stands for: its decimal value, if this is an `int`. -/
def intValue (raw : Bytes) : Option Nat := if decimalValue raw ≤ 2147483647 then some (decimalValue raw) else none

theorem parsePageSize_eq_intValue_iff (hdigits : ∀ b ∈ raw, isDigitByte b) :
    parsePageSize raw = (intValue raw).elim (-1) Nat.cast ↔
      decimalValue raw ≤ 2147483647 ∨ 2147483647 < decimalValue raw % sizeValues := by
  have hsmall : decimalValue raw ≤ 2147483647 → decimalValue raw % sizeValues = decimalValue raw := fun h =>
    Nat.mod_eq_of_lt (Nat.lt_of_le_of_lt h (by decide))
  unfold intValue
  by_cases hreads : decimalValue raw % sizeValues ≤ 2147483647
  · rw [parsePageSize_eq ⟨hdigits, hreads⟩]
    split_ifs with hvalue
    · exact iff_of_true (congrArg Nat.cast (hsmall hvalue)) (.inl hvalue)
    · refine iff_of_false (fun h => ?_) (by omega)
      exact absurd h (by simp only [Option.elim]; omega)
  · rw [parsePageSize_of_not fun h => hreads h.2]
    have hlarge : ¬ decimalValue raw ≤ 2147483647 := fun h => hreads (by rw [hsmall h]; exact h)
    rw [if_neg hlarge]
    exact iff_of_true rfl (.inr (by omega))

/-- Digits are read as their decimal value wherever they stand in a request, unless a value that is no `int` becomes one
in `std::size_t`. -/
theorem digits_are_read_as_their_value_iff {raw : Bytes} (hdigits : ∀ b ∈ raw, isDigitByte b = true) :
    (parsePageSize raw = (intValue raw).elim (-1) Nat.cast ∧ ∀ request : RestRequest,
        (lookupQuery request "historyLength" = some raw → listTasksHistoryLength request = (intValue raw).map some ∧
          ∀ payload, applyHistoryLengthQuery request payload =
            (intValue raw).map fun n => { payload with historyLength := some (Int32.ofInt n) }) ∧
        (lookupQuery request "pageSize" = some raw → listTasksPageSize request =
          (intValue raw).bind fun n => (normalizeListTasksPageSize (some (Int64.ofInt n))).toOption)) ↔
      decimalValue raw ≤ 2147483647 ∨ 2147483647 < decimalValue raw % sizeValues := by
  rw [← parsePageSize_eq_intValue_iff hdigits]
  refine ⟨fun h => h.1, fun hparsed => ⟨hparsed, fun request => ?_⟩⟩
  refine ⟨fun hlookup => ⟨?_, fun payload => ?_⟩, fun hlookup => ?_⟩
  · rw [listTasksHistoryLength, hlookup]
    dsimp only
    rw [hparsed]
    cases intValue raw <;> rfl
  · rw [applyHistoryLengthQuery, hlookup]
    dsimp only
    rw [hparsed]
    cases intValue raw <;> rfl
  · rw [listTasksPageSize, hlookup]
    dsimp only
    rw [hparsed]
    cases intValue raw <;> rfl

theorem hundred_is_read_as_its_value : parsePageSize "100" = 100 :=
  ((@digits_are_read_as_their_value_iff (bytes "100") (by decide +kernel)).mpr
    (.inl (by decide +kernel))).1.trans (by decide +kernel)

/-- The value 2^64 + 5 is read as five. -/
theorem twenty_digits_wrap_round :
    (∀ b ∈ bytes "18446744073709551621", isDigitByte b = true) ∧
      decimalValue "18446744073709551621" = 18446744073709551621 ∧
      parsePageSize "18446744073709551621" = 5 ∧
      ∀ request : RestRequest, lookupQuery request "historyLength" = some (bytes "18446744073709551621") →
        listTasksHistoryLength request = some (some 5) := by
  have hfive : parsePageSize "18446744073709551621" = 5 := by decide +kernel
  refine ⟨by decide +kernel, by decide +kernel, hfive, fun request hlookup => ?_⟩
  rw [listTasksHistoryLength, hlookup]
  dsimp only
  rw [hfive]
  rfl

theorem parsePageSize_toDecimal (hlow : 0 ≤ z) (hhigh : z ≤ 2147483647) : parsePageSize (toDecimal z) = z := by
  have hvalue : z.toNat % sizeValues = z.toNat := Nat.mod_eq_of_lt (by rw [sizeValues]; omega)
  have hreads : ReadsAsInt (decimal z.toNat) := by
    refine ⟨fun b hb => isDigitByte_of_mem_decimal hb, ?_⟩
    rw [decimalValue_decimal, hvalue]
    omega
  rw [toDecimal_of_nonneg hlow, parsePageSize_eq hreads, decimalValue_decimal, hvalue]
  omega

theorem parsePageSize_toDecimal_of_neg (h : z < 0) : parsePageSize (toDecimal z) = -1 := by
  apply parsePageSize_of_not
  intro hreads
  rw [toDecimal, if_pos h] at hreads
  exact absurd (hreads.1 _ (mem_cons_self ..)) (by decide)

theorem normalizeListTasksPageSize_toOption (size : Int64) :
    (normalizeListTasksPageSize (some size)).toOption =
      if 1 ≤ size.toInt ∧ size.toInt ≤ kMaxListTasksPageSize then some size.toInt.toNat else none := by
  have hone : size < 1 ↔ size.toInt < 1 := Int64.lt_iff_toInt_lt
  unfold normalizeListTasksPageSize
  dsimp only
  by_cases hsize : 1 ≤ size.toInt ∧ size.toInt ≤ kMaxListTasksPageSize
  · rw [if_pos hsize, if_neg (by rw [hone]; omega)]
    rfl
  · rw [if_neg hsize, if_pos (by rw [hone]; omega)]
    rfl

end A2A.Server.Transport
