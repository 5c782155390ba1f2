/-
# JSON values, their normal form, and canonical text.
-/
import A2A.Foundation.SelfDelimiting
import Mathlib.Data.List.Sort

namespace A2A.Foundation

open List

/-- A text: the code points of a valid UTF-8 string. -/
abbrev Text := List Char

/-- A JSON value with numbers in `N`. -/
inductive Json (N : Type) where
  | null
  | bool (value : Bool)
  | number (value : N)
  | string (value : Text)
  | array (items : List (Json N))
  | object (members : List (Text × Json N))

namespace Json

variable {N : Type}

/-- Induction over values, with the hypothesis for all elements and all members. -/
@[elab_as_elim]
theorem induct {P : Json N → Prop} (null : P .null) (bool : ∀ value, P (.bool value))
    (number : ∀ value, P (.number value)) (string : ∀ value, P (.string value))
    (array : ∀ items, (∀ j ∈ items, P j) → P (.array items))
    (object : ∀ members, (∀ m ∈ members, P m.2) → P (.object members)) (j : Json N) : P j := by
  refine @Json.rec N P (fun items => ∀ j ∈ items, P j) (fun members => ∀ m ∈ members, P m.2)
    (fun m => P m.2) null bool number string array object ?_ ?_ ?_ ?_ ?_ j
  · intro j hj
    cases hj
  · intro head tail hhead htail j hj
    rcases mem_cons.mp hj with rfl | hj
    · exact hhead
    · exact htail j hj
  · intro m hm
    cases hm
  · intro head tail hhead htail m hm
    rcases mem_cons.mp hm with rfl | hm
    · exact hhead
    · exact htail m hm
  · intro _ _ h
    exact h

/-- No object in the value has two members of one name. -/
inductive DistinctNames : Json N → Prop
  | null : DistinctNames .null
  | bool {value : Bool} : DistinctNames (.bool value)
  | number {value : N} : DistinctNames (.number value)
  | string {value : Text} : DistinctNames (.string value)
  | array {items : List (Json N)} : (∀ j ∈ items, DistinctNames j) → DistinctNames (.array items)
  | object {members : List (Text × Json N)} : (members.map Prod.fst).Nodup →
      (∀ m ∈ members, DistinctNames m.2) → DistinctNames (.object members)

theorem DistinctNames.items {items : List (Json N)} (h : (Json.array items).DistinctNames) :
    ∀ j ∈ items, j.DistinctNames := by
  cases h with
  | array hitems => exact hitems

theorem DistinctNames.values {members : List (Text × Json N)} (h : (Json.object members).DistinctNames) :
    ∀ m ∈ members, m.2.DistinctNames := by
  cases h with
  | object _ hvalues => exact hvalues

theorem DistinctNames.names {members : List (Text × Json N)} (h : (Json.object members).DistinctNames) :
    (members.map Prod.fst).Nodup := by
  cases h with
  | object hnames _ => exact hnames

/-! ## Normal forms -/

section Normalize

variable (le : Text → Text → Bool)

def sortMembers {α : Type} (members : List (Text × α)) : List (Text × α) :=
  members.insertionSort fun a b => le a.1 b.1 = true

mutual

def normalize : Json N → Json N
  | .null => .null
  | .bool value => .bool value
  | .number value => .number value
  | .string value => .string value
  | .array items => .array (normalizeItems items)
  | .object members => .object (sortMembers le (normalizeMembers members))

/-- `normalize`, for each element. -/
def normalizeItems : List (Json N) → List (Json N)
  | [] => []
  | item :: items => normalize item :: normalizeItems items

/-- `normalize`, for the value of each member. -/
def normalizeMembers : List (Text × Json N) → List (Text × Json N)
  | [] => []
  | (name, value) :: members => (name, normalize value) :: normalizeMembers members

end

@[simp] theorem normalizeItems_eq (items : List (Json N)) : normalizeItems le items = items.map (normalize le) := by
  induction items with
  | nil => rfl
  | cons item items ih => rw [normalizeItems, ih, map_cons]

@[simp] theorem normalizeMembers_eq (members : List (Text × Json N)) :
    normalizeMembers le members = members.map fun m => (m.1, normalize le m.2) := by
  induction members with
  | nil => rfl
  | cons m members ih => rw [normalizeMembers, ih, map_cons]

theorem mem_sortMembers {α : Type} {members : List (Text × α)} {m : Text × α} :
    m ∈ sortMembers le members ↔ m ∈ members :=
  (perm_insertionSort _ members).mem_iff

theorem sortMembers_map {α β : Type} (f : Text × α → β) (members : List (Text × α)) :
    sortMembers le (members.map fun m => (m.1, f m)) = (sortMembers le members).map fun m => (m.1, f m) :=
  (map_insertionSort (fun a b : Text × α => le a.1 b.1 = true)
    (fun a b : Text × β => le a.1 b.1 = true) (fun m => (m.1, f m)) members
    (fun _ _ _ _ => Iff.rfl)).symm

/-- Two values that differ in the order of members only, where no name comes twice. -/
structure Reordered (j j' : Json N) : Prop where
  same : j.normalize le = j'.normalize le
  distinct : j.DistinctNames
  distinct' : j'.DistinctNames

variable {le}

theorem Reordered.symm {j j' : Json N} (h : Reordered le j j') : Reordered le j' j :=
  ⟨h.same.symm, h.distinct', h.distinct⟩

/-- Every member has its counterpart. -/
theorem Reordered.of_members {members members' : List (Text × Json N)}
    (h : Reordered le (.object members) (.object members')) :
    ∀ m ∈ members, ∃ value', (m.1, value') ∈ members' ∧ Reordered le m.2 value' := by
  obtain ⟨hsame, hdistinct, hdistinct'⟩ := h
  intro m hm
  simp only [normalize, normalizeMembers_eq, Json.object.injEq] at hsame
  have hmem : (m.1, m.2.normalize le) ∈ sortMembers le (members.map fun m => (m.1, m.2.normalize le)) :=
    (mem_sortMembers le).mpr (mem_map.mpr ⟨m, hm, rfl⟩)
  rw [hsame, mem_sortMembers] at hmem
  obtain ⟨m', hm', heq⟩ := mem_map.mp hmem
  obtain ⟨hname, hvalue⟩ := Prod.mk.inj heq
  refine ⟨m'.2, ?_, hvalue.symm, hdistinct.values m hm, hdistinct'.values m' hm'⟩
  rw [← hname]
  exact hm'

theorem Reordered.of_object {members : List (Text × Json N)} {j' : Json N}
    (h : Reordered le (.object members) j') : ∃ members', j' = .object members' := by
  cases j' with
  | object members' => exact ⟨members', rfl⟩
  | _ => simpa [normalize] using h.same

theorem Reordered.of_array {items : List (Json N)} {j' : Json N} (h : Reordered le (.array items) j') :
    ∃ items', j' = .array items' ∧ List.Forall₂ (Reordered le) items items' := by
  obtain ⟨hsame, hdistinct, hdistinct'⟩ := h
  cases j' with
  | array items' =>
    refine ⟨items', rfl, ?_⟩
    have hitems := hdistinct.items
    have hitems' := hdistinct'.items
    clear hdistinct hdistinct'
    simp only [normalize, normalizeItems_eq, Json.array.injEq] at hsame
    induction items generalizing items' with
    | nil =>
      obtain rfl := map_eq_nil_iff.mp hsame.symm
      exact .nil
    | cons item items ih =>
      cases items' with
      | nil => exact absurd hsame (cons_ne_nil _ _)
      | cons item' items' =>
        obtain ⟨hitem, hrest⟩ := List.cons.inj hsame
        refine .cons ⟨hitem, hitems _ mem_cons_self, hitems' _ mem_cons_self⟩ ?_
        exact ih items' (fun j hj => hitems j (mem_cons_of_mem _ hj))
          (fun j hj => hitems' j (mem_cons_of_mem _ hj)) hrest
  | _ => simp [normalize] at hsame

theorem Reordered.eq_of_atom {j j' : Json N} (h : Reordered le j j')
    (harray : ∀ items, j ≠ .array items) (hobject : ∀ members, j ≠ .object members) : j = j' := by
  obtain ⟨hsame, -, -⟩ := h
  cases j with
  | array items => exact absurd rfl (harray items)
  | object members => exact absurd rfl (hobject members)
  | _ =>
    cases j' with
    | _ => simp_all [normalize]

end Normalize

/-! ## Canonical text -/

section Render

variable (renderNumber : N → Text) (renderString : Text → Text)

mutual

def render : Json N → Text
  | .null => ['n', 'u', 'l', 'l']
  | .bool true => ['t', 'r', 'u', 'e']
  | .bool false => ['f', 'a', 'l', 's', 'e']
  | .number value => renderNumber value
  | .string value => renderString value
  | .array items => '[' :: separatedBy ',' (renderItems items) ++ [']']
  | .object members => '\x7b' :: separatedBy ',' (renderMembers members) ++ ['\x7d']

def renderItems : List (Json N) → List Text
  | [] => []
  | item :: items => render item :: renderItems items

def renderMembers : List (Text × Json N) → List Text
  | [] => []
  | (name, value) :: members => (renderString name ++ ':' :: render value) :: renderMembers members

end

def renderMember (m : Text × Json N) : Text :=
  renderString m.1 ++ ':' :: render renderNumber renderString m.2

theorem renderItems_eq (items : List (Json N)) :
    renderItems renderNumber renderString items = items.map (render renderNumber renderString) := by
  induction items with
  | nil => rfl
  | cons item items ih => rw [renderItems, ih, map_cons]

theorem renderMembers_eq (members : List (Text × Json N)) :
    renderMembers renderNumber renderString members = members.map (renderMember renderNumber renderString) := by
  induction members with
  | nil => rfl
  | cons m members ih =>
    rw [renderMembers, ih, map_cons]
    rfl

/-! ### The text determines the value -/

/-- What a value is, as its first symbol tells. -/
inductive Kind where
  | null
  | yes
  | no
  | number
  | string
  | array
  | object
  deriving DecidableEq

def kind : Json N → Kind
  | .null => .null
  | .bool true => .yes
  | .bool false => .no
  | .number _ => .number
  | .string _ => .string
  | .array _ => .array
  | .object _ => .object

/-- The form of a value of the kind. -/
def HasForm (j : Json N) : Kind → Prop
  | .null => j = .null
  | .yes => j = .bool true
  | .no => j = .bool false
  | .number => ∃ value, j = .number value
  | .string => ∃ value, j = .string value
  | .array => ∃ items, j = .array items
  | .object => ∃ members, j = .object members

theorem hasForm_kind (j : Json N) : HasForm j j.kind := by
  cases j with
  | null => rfl
  | bool value => cases value <;> rfl
  | number value | string value => exact ⟨value, rfl⟩
  | array items => exact ⟨items, rfl⟩
  | object members => exact ⟨members, rfl⟩

def kindOfLead (lead : Char) : Kind :=
  if lead = 'n' then .null
  else if lead = 't' then .yes
  else if lead = 'f' then .no
  else if lead = '"' then .string
  else if lead = '[' then .array
  else if lead = '\x7b' then .object
  else .number

/-- The symbols that can stand behind a value. -/
def EndsValue (c : Char) : Prop := c = ',' ∨ c = ']' ∨ c = '\x7d'

/-- What the writers of numbers and strings must provide. -/
structure Readable (renderNumber : N → Text) (renderString : Text → Text) : Prop where
  number_injective : Function.Injective renderNumber
  number_goes_on : ∀ n, ∀ c ∈ renderNumber n, ¬ EndsValue c
  number_lead : ∀ n, ∃ lead text, renderNumber n = lead :: text ∧ kindOfLead lead = .number
  string_lead : ∀ s, ∃ text, renderString s = '"' :: text
  string_delimits : ∀ s s' rest rest', renderString s ++ rest = renderString s' ++ rest' →
    s = s' ∧ rest = rest'

variable {renderNumber} {renderString} (h : Readable renderNumber renderString)

include h

theorem render_lead (j : Json N) :
    ∃ lead text, render renderNumber renderString j = lead :: text ∧ kindOfLead lead = j.kind ∧ ¬ EndsValue lead := by
  have hends : ∀ c, kindOfLead c ≠ .number → ¬ EndsValue c := by
    rintro c hc (rfl | rfl | rfl) <;> exact hc (by decide)
  cases j with
  | null | array | object => exact ⟨_, _, rfl, rfl, hends _ (by decide)⟩
  | bool value =>
    cases value with
    | true | false => exact ⟨_, _, rfl, rfl, hends _ (by decide)⟩
  | number value =>
    obtain ⟨lead, text, htext, hlead⟩ := h.number_lead value
    refine ⟨lead, text, htext, hlead, h.number_goes_on value lead ?_⟩
    rw [htext]
    exact mem_cons_self
  | string value =>
    obtain ⟨text, htext⟩ := h.string_lead value
    exact ⟨_, text, htext, rfl, hends _ (by decide)⟩

theorem hasForm_of_render {j j' : Json N} {rest rest' : Text}
    (heq : render renderNumber renderString j ++ rest = render renderNumber renderString j' ++ rest') :
    HasForm j' j.kind := by
  obtain ⟨lead, text, htext, hlead, -⟩ := render_lead h j
  obtain ⟨lead', text', htext', hlead', -⟩ := render_lead h j'
  rw [htext, htext'] at heq
  rw [← hlead, (List.cons.inj heq).1, hlead']
  exact hasForm_kind j'

theorem renderMember_selfDelimiting {m : Text × Json N}
    (hvalue : SelfDelimiting EndsValue (render renderNumber renderString) m.2) :
    SelfDelimiting EndsValue (renderMember renderNumber renderString) m := by
  intro m' rest rest' hrest hrest' heq
  unfold renderMember at heq
  rw [append_assoc, append_assoc] at heq
  obtain ⟨hname, htail⟩ := h.string_delimits _ _ _ _ heq
  obtain ⟨hsame, hend⟩ := hvalue m'.2 rest rest' hrest hrest' (List.cons.inj htail).2
  exact ⟨Prod.ext hname hsame, hend⟩

/-- A value can be read back from the front of a text that it begins. -/
theorem render_selfDelimiting (j : Json N) : SelfDelimiting EndsValue (render renderNumber renderString) j := by
  have hcomma : EndsValue ',' := .inl rfl
  have hbracket : EndsValue ']' := .inr (.inl rfl)
  have hbrace : EndsValue '\x7d' := .inr (.inr rfl)
  induction j using Json.induct with
  | null =>
    intro j' rest rest' _ _ heq
    obtain rfl : j' = .null := hasForm_of_render h heq
    exact ⟨rfl, append_cancel_left heq⟩
  | bool value =>
    intro j' rest rest' _ _ heq
    obtain rfl : j' = .bool value := by
      cases value with
      | true | false => exact hasForm_of_render h heq
    exact ⟨rfl, append_cancel_left heq⟩
  | number value =>
    intro j' rest rest' hrest hrest' heq
    obtain ⟨value', rfl⟩ : ∃ value', j' = .number value' := hasForm_of_render h heq
    obtain ⟨htext, hend⟩ := append_inj_of_delimited (h.number_goes_on value) (h.number_goes_on value')
      hrest hrest' heq
    exact ⟨congrArg _ (h.number_injective htext), hend⟩
  | string value =>
    intro j' rest rest' _ _ heq
    obtain ⟨value', rfl⟩ : ∃ value', j' = .string value' := hasForm_of_render h heq
    obtain ⟨rfl, hend⟩ := h.string_delimits value value' rest rest' heq
    exact ⟨rfl, hend⟩
  | array items ih =>
    intro j' rest rest' _ _ heq
    obtain ⟨items', rfl⟩ : ∃ items', j' = .array items' := hasForm_of_render h heq
    simp only [render, renderItems_eq, cons_append, append_assoc, nil_append] at heq
    have hstart : ∀ j : Json N, ∃ b text, render renderNumber renderString j = b :: text ∧ b ≠ ']' := by
      intro j
      obtain ⟨lead, text, htext, -, hends⟩ := render_lead h j
      exact ⟨lead, text, htext, fun heq => hends (heq ▸ hbracket)⟩
    obtain ⟨rfl, hend⟩ := separatedBy_inj_of_selfDelimiting hcomma hbracket (by decide) hstart ih
      (List.cons.inj heq).2
    exact ⟨rfl, hend⟩
  | object members ih =>
    intro j' rest rest' _ _ heq
    obtain ⟨members', rfl⟩ : ∃ members', j' = .object members' := hasForm_of_render h heq
    simp only [render, renderMembers_eq, cons_append, append_assoc, nil_append] at heq
    have hstart : ∀ m : Text × Json N,
        ∃ b text, renderMember renderNumber renderString m = b :: text ∧ b ≠ '\x7d' := by
      intro m
      obtain ⟨text, htext⟩ := h.string_lead m.1
      exact ⟨'"', _, by rw [renderMember, htext, cons_append], by decide⟩
    obtain ⟨rfl, hend⟩ := separatedBy_inj_of_selfDelimiting hcomma hbrace (by decide) hstart
      (fun m hm => renderMember_selfDelimiting h (ih m hm)) (List.cons.inj heq).2
    exact ⟨rfl, hend⟩

/-- The canonical text determines the value. -/
theorem render_injective : Function.Injective (render renderNumber renderString) := by
  intro j j' heq
  refine (render_selfDelimiting h j j' [] [] delimited_nil delimited_nil ?_).1
  rw [heq]

end Render

end Json

end A2A.Foundation
