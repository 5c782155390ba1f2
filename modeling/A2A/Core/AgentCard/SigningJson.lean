/-
# The canonical signing payload of an Agent Card (`agent_card_json.cpp`).
-/
import A2A.Core.AgentCard.JsonNumber
import A2A.Foundation.Bytes
import Mathlib.Data.List.Lex

namespace A2A.Core.AgentCard

open A2A.Foundation List

/-- JSON as simdjson reads it. -/
abbrev JsonValue := Json JsonNumber

/-! ## Sort keys -/

def kMaximumBmpCodePoint : Nat := 0xFFFF
def kSupplementaryCodePointOffset : Nat := 0x10000
def kHighSurrogateStart : Nat := 0xD800
def kLowSurrogateStart : Nat := 0xDC00
def kSurrogateBits : Nat := 10
def kSurrogateMask : Nat := 0x3FF

/-- The UTF-16 code units of a character. -/
def utf16Units (c : Char) : List Nat :=
  if c.toNat > kMaximumBmpCodePoint then
    let code := c.toNat - kSupplementaryCodePointOffset
    [kHighSurrogateStart + (code >>> kSurrogateBits), kLowSurrogateStart + (code &&& kSurrogateMask)]
  else [c.toNat]

/-- `Utf16`. -/
def utf16 (text : Text) : List Nat := text.flatMap utf16Units

/-- Members are sorted by this order of their names. -/
def precedesOrEqual (name name' : Text) : Bool := decide (utf16 name ≤ utf16 name')

/-! ## Strings -/

def kHexDigits : Text := "0123456789abcdef".toList
def kFirstPrintableCharacter : Nat := 0x20
def kHexDigitBits : Nat := 4
def kHexDigitMask : Nat := 0xF

/-- What `AppendString` writes for one character. -/
def escape (c : Char) : Text :=
  if c = '"' then ['\\', '"']
  else if c = '\\' then ['\\', '\\']
  else if c = '\x08' then ['\\', 'b']
  else if c = '\x0c' then ['\\', 'f']
  else if c = '\n' then ['\\', 'n']
  else if c = '\r' then ['\\', 'r']
  else if c = '\t' then ['\\', 't']
  else if c.toNat < kFirstPrintableCharacter then
    ['\\', 'u', '0', '0', kHexDigits.getD (c.toNat >>> kHexDigitBits) '0',
      kHexDigits.getD (c.toNat &&& kHexDigitMask) '0']
  else [c]

/-- `AppendString`. -/
def appendString (text : Text) : Text := '"' :: (text.flatMap escape ++ ['"'])

/-! ## Values -/

def kMaximumNestingDepth : Nat := 128
def kMaximumJsonSize : Nat := 1024 * 1024
def kCanonicalNull : Text := "null".toList
def kCanonicalTrue : Text := "true".toList
def kCanonicalFalse : Text := "false".toList

/-- `CanonicalMember`. -/
structure CanonicalMember where
  sortKey : List Nat
  name : Text
  value : Text

/-- The check of the output loop of `AppendObject`. -/
def hasDuplicateNeighbours : List CanonicalMember → Bool
  | member :: next :: rest => member.name == next.name || hasDuplicateNeighbours (next :: rest)
  | _ => false

/-- `AppendObject`, from the point where the members have been read. -/
def appendObject (excludedMember : Text) (members : List CanonicalMember) : Option Text :=
  let sorted := members.insertionSort fun a b => a.sortKey ≤ b.sortKey
  if hasDuplicateNeighbours sorted then none
  else
    let written := sorted.filter fun m => excludedMember.isEmpty || m.name != excludedMember
    some ('\x7b' ::
      (separatedBy ',' (written.map fun m => appendString m.name ++ ':' :: m.value) ++ ['\x7d']))

mutual

/-- `AppendCanonical`. -/
def appendCanonical (depth : Nat) (excludedMember : Text) : JsonValue → Option Text
  | .number value => some (number value)
  | .string value => some (appendString value)
  | .bool value => some (if value then kCanonicalTrue else kCanonicalFalse)
  | .null => some kCanonicalNull
  | .object members =>
    if depth ≥ kMaximumNestingDepth then none
    else (readMembers (depth + 1) members).bind (appendObject excludedMember)
  | .array items =>
    if depth ≥ kMaximumNestingDepth then none
    else (readItems (depth + 1) items).map fun texts => '[' :: (separatedBy ',' texts ++ [']'])

/-- The loop over the elements of an array. -/
def readItems (depth : Nat) : List JsonValue → Option (List Text)
  | [] => some []
  | item :: items => do
    let text ← appendCanonical depth [] item
    let texts ← readItems depth items
    pure (text :: texts)

/-- The loop of `AppendObject` that reads the members. -/
def readMembers (depth : Nat) : List (Text × JsonValue) → Option (List CanonicalMember)
  | [] => some []
  | (name, value) :: members => do
    let text ← appendCanonical depth [] value
    let rest ← readMembers depth members
    pure ({ sortKey := utf16 name, name, value := text } :: rest)

end

/-- `SigningJson::canonical`, with simdjson's reading of the text. -/
def signingJson (simdjson : Bytes → Option JsonValue) (input : Bytes) (excludedRootMember : Text) :
    Option Text :=
  if input.length > kMaximumJsonSize then none
  else (simdjson input).bind (appendCanonical 0 excludedRootMember)

/-! ## Sort keys determine names -/

/-- The code units of a text determine it. -/
theorem utf16Units_append_inj {c c' : Char} {rest rest' : List Nat}
    (h : utf16Units c ++ rest = utf16Units c' ++ rest') : c = c' ∧ rest = rest' := by
  -- A code point is never a surrogate, so its first unit tells how many there are.
  have hvalid : ∀ d : Char, d.toNat < 0xD800 ∨ (0xDFFF < d.toNat ∧ d.toNat < 0x110000) :=
    fun d => d.valid
  have heq : ∀ {d d' : Char}, d.toNat = d'.toNat → d = d' := fun hd => Char.toNat_inj.mp hd
  have hc := hvalid c
  have hc' := hvalid c'
  have hshift : ∀ n : Nat, n >>> 10 = n / 1024 := fun n => Nat.shiftRight_eq_div_pow n 10
  have hmask : ∀ n : Nat, n &&& 0x3FF = n % 1024 := fun n => Nat.and_two_pow_sub_one_eq_mod n 10
  simp only [utf16Units, kMaximumBmpCodePoint, kSupplementaryCodePointOffset, kHighSurrogateStart,
    kLowSurrogateStart, kSurrogateBits, kSurrogateMask, hshift, hmask] at h
  split_ifs at h with hlarge hlarge' hlarge'
  · simp only [cons_append, nil_append, List.cons.injEq] at h
    exact ⟨heq (by omega), h.2.2⟩
  · simp only [cons_append, nil_append, List.cons.injEq] at h
    omega
  · simp only [cons_append, nil_append, List.cons.injEq] at h
    omega
  · simp only [cons_append, nil_append, List.cons.injEq] at h
    exact ⟨heq h.1, h.2⟩

theorem utf16_injective : Function.Injective utf16 := by
  have hne : ∀ c, utf16Units c ≠ [] := by
    intro c
    unfold utf16Units
    split_ifs <;> exact cons_ne_nil _ _
  intro text text' h
  induction text generalizing text' with
  | nil =>
    cases text' with
    | nil => rfl
    | cons c' text' =>
      exact absurd (append_eq_nil_iff.mp h.symm).1 (hne c')
  | cons c text ih =>
    cases text' with
    | nil => exact absurd (append_eq_nil_iff.mp h).1 (hne c)
    | cons c' text' =>
      obtain ⟨rfl, hrest⟩ := utf16Units_append_inj h
      rw [ih hrest]

/-! ## Strings can be read back -/

/-- The character that stands for itself or is escaped behind a backslash. -/
def readEscaped : Text → Option (Char × Text)
  | 'u' :: '0' :: '0' :: high :: low :: rest =>
    some (Char.ofNat (kHexDigits.idxOf high * 16 + kHexDigits.idxOf low), rest)
  | 'b' :: rest => some ('\x08', rest)
  | 'f' :: rest => some ('\x0c', rest)
  | 'n' :: rest => some ('\n', rest)
  | 'r' :: rest => some ('\r', rest)
  | 't' :: rest => some ('\t', rest)
  | c :: rest => some (c, rest)
  | [] => none

/-- The first character of the rest of a string. -/
def readCharacter : Text → Option (Char × Text)
  | [] => none
  | c :: rest => if c = '\\' then readEscaped rest else some (c, rest)

theorem escape_of_plain {c : Char} (hprintable : ¬ c.toNat < 32) (hquote : c ≠ '"')
    (hslash : c ≠ '\\') : escape c = [c] := by
  have hne : ∀ d : Char, d.toNat < 32 → c ≠ d := by
    rintro d hd rfl
    exact hprintable hd
  unfold escape
  rw [if_neg hquote, if_neg hslash, if_neg (hne _ (by decide)), if_neg (hne _ (by decide)),
    if_neg (hne _ (by decide)), if_neg (hne _ (by decide)), if_neg (hne _ (by decide))]
  exact if_neg hprintable

theorem readCharacter_escape (c : Char) (rest : Text) : readCharacter (escape c ++ rest) = some (c, rest) := by
  by_cases hcontrol : c.toNat < 32
  · have hall : ∀ n < 32, readCharacter (escape (Char.ofNat n) ++ rest) = some (Char.ofNat n, rest) := by
      intro n hn
      interval_cases n <;> rfl
    have hc := hall c.toNat hcontrol
    rwa [Char.ofNat_toNat] at hc
  · by_cases hquote : c = '"'
    · subst hquote
      rfl
    · by_cases hslash : c = '\\'
      · subst hslash
        rfl
      · rw [escape_of_plain hcontrol hquote hslash, singleton_append, readCharacter, if_neg hslash]

theorem escape_ne_quote (c : Char) (rest text : Text) : escape c ++ rest ≠ '"' :: text := by
  intro h
  have hread := readCharacter_escape c rest
  rw [h] at hread
  cases hread
  exact absurd (List.cons.inj h).1 (by decide)

/-- A string ends where its closing quote is. -/
theorem appendString_delimits (text text' rest rest' : Text)
    (h : appendString text ++ rest = appendString text' ++ rest') : text = text' ∧ rest = rest' := by
  have hbody : ∀ s s' : Text, s.flatMap escape ++ '"' :: rest = s'.flatMap escape ++ '"' :: rest' →
      s = s' ∧ rest = rest' := by
    intro s
    induction s with
    | nil =>
      intro s' hs
      cases s' with
      | nil => exact ⟨rfl, (List.cons.inj hs).2⟩
      | cons c' s' =>
        rw [flatMap_cons, append_assoc] at hs
        exact absurd hs.symm (escape_ne_quote c' _ _)
    | cons c s ih =>
      intro s' hs
      rw [flatMap_cons, append_assoc] at hs
      cases s' with
      | nil => exact absurd hs (escape_ne_quote c _ _)
      | cons c' s' =>
        rw [flatMap_cons, append_assoc] at hs
        have hread := congrArg readCharacter hs
        rw [readCharacter_escape, readCharacter_escape] at hread
        obtain ⟨rfl, hrest⟩ := Prod.mk.inj (Option.some.inj hread)
        obtain ⟨rfl, hend⟩ := ih s' hrest
        exact ⟨rfl, hend⟩
  apply hbody
  simpa [appendString] using h

/-- Written values can be told apart as they are read. -/
theorem readable : Json.Readable number appendString where
  number_injective := number_injective
  number_goes_on := by
    rintro n c hc (rfl | rfl | rfl)
    · exact absurd (numberSymbol_number n _ hc) (by unfold NumberSymbol; decide)
    · exact absurd (numberSymbol_number n _ hc) (by unfold NumberSymbol; decide)
    · exact absurd (numberSymbol_number n _ hc) (by unfold NumberSymbol; decide)
  number_lead := by
    intro n
    cases htext : number n with
    | nil => exact absurd htext (number_ne_nil n)
    | cons lead text =>
      refine ⟨lead, text, rfl, ?_⟩
      have hsymbol := numberSymbol_number n lead (by rw [htext]; exact mem_cons_self)
      have hne : ∀ c, ¬ NumberSymbol c → lead ≠ c := by
        rintro c hc rfl
        exact hc hsymbol
      unfold Json.kindOfLead
      rw [if_neg (hne _ (by unfold NumberSymbol; decide)), if_neg (hne _ (by unfold NumberSymbol; decide)),
        if_neg (hne _ (by unfold NumberSymbol; decide)), if_neg (hne _ (by unfold NumberSymbol; decide)),
        if_neg (hne _ (by unfold NumberSymbol; decide)), if_neg (hne _ (by unfold NumberSymbol; decide))]
  string_lead := fun _ => ⟨_, rfl⟩
  string_delimits := appendString_delimits

/-! ## What has been accepted -/

/-- Sorted members without duplicate neighbours have strictly increasing keys. -/
theorem pairwise_of_no_duplicate {members : List CanonicalMember} (hkeys : ∀ m ∈ members, m.sortKey = utf16 m.name)
    (hsorted : members.Pairwise fun a b => a.sortKey ≤ b.sortKey) (hno : hasDuplicateNeighbours members = false) :
    members.Pairwise fun a b => a.sortKey < b.sortKey := by
  have hchain : members.IsChain fun a b => a.sortKey < b.sortKey := by
    induction members with
    | nil => exact .nil
    | cons member rest ih =>
      cases rest with
      | nil => exact .singleton _
      | cons next rest =>
        rw [hasDuplicateNeighbours, Bool.or_eq_false_iff, beq_eq_false_iff_ne] at hno
        obtain ⟨hle, hsorted'⟩ := pairwise_cons.mp hsorted
        refine .cons_cons ?_ (ih (fun m hm => hkeys m (mem_cons_of_mem _ hm)) hsorted' hno.2)
        refine lt_of_le_of_ne (hle next mem_cons_self) ?_
        intro hsame
        rw [hkeys member mem_cons_self, hkeys next (mem_cons_of_mem _ mem_cons_self)] at hsame
        exact hno.1 (utf16_injective hsame)
  have htrans : IsTrans CanonicalMember fun a b => a.sortKey < b.sortKey :=
    ⟨fun _ _ _ hab hbc => lt_trans hab hbc⟩
  exact isChain_iff_pairwise.mp hchain

section Members

variable {α : Type} (text : Text × α → Text)

/-- The member as the loop of `AppendObject` stores it. -/
def canonicalMember (m : Text × α) : CanonicalMember :=
  { sortKey := utf16 m.1, name := m.1, value := text m }

theorem insertionSort_canonicalMember (members : List (Text × α)) :
    (members.map (canonicalMember text)).insertionSort (fun a b => a.sortKey ≤ b.sortKey) =
      (Json.sortMembers precedesOrEqual members).map (canonicalMember text) := by
  refine (map_insertionSort (fun a b : Text × α => precedesOrEqual a.1 b.1 = true)
    (fun a b : CanonicalMember => a.sortKey ≤ b.sortKey) (canonicalMember text) members ?_).symm
  intro a _ b _
  simp [precedesOrEqual, canonicalMember]

/-- `AppendObject` accepts distinct names only, and writes the members in their order. -/
theorem appendObject_spec {excludedMember : Text} {members : List (Text × α)} {output : Text}
    (h : appendObject excludedMember (members.map (canonicalMember text)) = some output) :
    (members.map Prod.fst).Nodup ∧
    output = '\x7b' :: (separatedBy ',' (((Json.sortMembers precedesOrEqual members).filter
        fun m => excludedMember.isEmpty || m.1 != excludedMember).map
        fun m => appendString m.1 ++ ':' :: text m) ++ ['\x7d']) := by
  unfold appendObject at h
  rw [insertionSort_canonicalMember] at h
  dsimp only at h
  split_ifs at h with hduplicate
  refine ⟨?_, ?_⟩
  · have hsorted : ((Json.sortMembers precedesOrEqual members).map (canonicalMember text)).Pairwise
        fun a b => a.sortKey ≤ b.sortKey := by
      rw [← insertionSort_canonicalMember]
      exact pairwise_insertionSort _ _
    have hkeys : ∀ m ∈ (Json.sortMembers precedesOrEqual members).map (canonicalMember text),
        m.sortKey = utf16 m.name := by
      intro m hm
      obtain ⟨_, -, rfl⟩ := mem_map.mp hm
      rfl
    have hstrict := pairwise_of_no_duplicate hkeys hsorted (by simpa using hduplicate)
    have hnames : ((Json.sortMembers precedesOrEqual members).map Prod.fst).Nodup := by
      rw [pairwise_map] at hstrict
      refine pairwise_map.mpr (hstrict.imp ?_)
      intro a b hlt hsame
      have hkey : utf16 a.1 < utf16 b.1 := hlt
      rw [hsame] at hkey
      exact lt_irrefl _ hkey
    exact ((perm_insertionSort _ members).map Prod.fst).nodup_iff.mp hnames
  · rw [← Option.some.inj h, filter_map, map_map]
    rfl

end Members

/-- The canonical text: what `AppendCanonical` writes if nothing is excluded. -/
def canonicalText (value : JsonValue) : Text :=
  Json.render number appendString (value.normalize precedesOrEqual)

variable {depth : Nat} {members : List (Text × JsonValue)} {simdjson : Bytes → Option JsonValue}
    {input : Bytes} {excluded payload name : Text} {value : JsonValue}

/-- The loop over the elements, where each is written canonically. -/
theorem readItems_spec {items : List JsonValue} {texts : List Text}
    (hitems : ∀ j ∈ items, ∀ text, appendCanonical depth [] j = some text → text = canonicalText j ∧ j.DistinctNames)
    (h : readItems depth items = some texts) : texts = items.map canonicalText ∧ ∀ j ∈ items, j.DistinctNames := by
  induction items generalizing texts with
  | nil =>
    cases h
    exact ⟨rfl, fun j hj => nomatch hj⟩
  | cons item items ih =>
    obtain ⟨text, htext, h⟩ := Option.bind_eq_some_iff.mp h
    obtain ⟨rest, hrest, h⟩ := Option.bind_eq_some_iff.mp h
    cases h
    obtain ⟨rfl, hitem⟩ := hitems item mem_cons_self text htext
    obtain ⟨rfl, hothers⟩ := ih (fun j hj => hitems j (mem_cons_of_mem _ hj)) hrest
    exact ⟨rfl, forall_mem_cons.mpr ⟨hitem, hothers⟩⟩

/-- The loop over the members, where each value is written canonically. -/
theorem readMembers_spec {canonical : List CanonicalMember}
    (hmembers : ∀ m ∈ members, ∀ text, appendCanonical depth [] m.2 = some text →
      text = canonicalText m.2 ∧ m.2.DistinctNames)
    (h : readMembers depth members = some canonical) :
    canonical = members.map (canonicalMember fun m => canonicalText m.2) ∧ ∀ m ∈ members, m.2.DistinctNames := by
  induction members generalizing canonical with
  | nil =>
    cases h
    exact ⟨rfl, fun m hm => nomatch hm⟩
  | cons m members ih =>
    obtain ⟨text, htext, h⟩ := Option.bind_eq_some_iff.mp h
    obtain ⟨rest, hrest, h⟩ := Option.bind_eq_some_iff.mp h
    cases h
    obtain ⟨rfl, hm⟩ := hmembers m mem_cons_self text htext
    obtain ⟨rfl, hothers⟩ := ih (fun m' hm' => hmembers m' (mem_cons_of_mem _ hm')) hrest
    exact ⟨rfl, forall_mem_cons.mpr ⟨hm, hothers⟩⟩

/-- The members that are written, sorted and in normal form. -/
def writtenMembers (excludedMember : Text) (members : List (Text × JsonValue)) :
    List (Text × JsonValue) :=
  (Json.sortMembers precedesOrEqual (members.map fun m => (m.1, m.2.normalize precedesOrEqual))).filter
    fun m => excludedMember.isEmpty || m.1 != excludedMember

theorem appendCanonical_object_spec {excludedMember output : Text}
    (hmembers : ∀ m ∈ members, ∀ text, appendCanonical (depth + 1) [] m.2 = some text →
      text = canonicalText m.2 ∧ m.2.DistinctNames)
    (h : appendCanonical depth excludedMember (.object members) = some output) :
    output = Json.render number appendString (.object (writtenMembers excludedMember members)) ∧
      (Json.object members).DistinctNames := by
  rw [appendCanonical] at h
  split_ifs at h
  obtain ⟨canonical, hread, h⟩ := Option.bind_eq_some_iff.mp h
  obtain ⟨rfl, hvalues⟩ := readMembers_spec hmembers hread
  obtain ⟨hnames, rfl⟩ := appendObject_spec _ h
  refine ⟨?_, .object hnames hvalues⟩
  have hsort := Json.sortMembers_map precedesOrEqual
    (fun m : Text × JsonValue => m.2.normalize precedesOrEqual) members
  rw [Json.render, Json.renderMembers_eq, writtenMembers, hsort, filter_map, map_map]
  rfl

/-- Without an excluded member, `AppendCanonical` writes the canonical text. -/
theorem appendCanonical_spec (value : JsonValue) : ∀ (depth : Nat) (output : Text),
    appendCanonical depth [] value = some output → output = canonicalText value ∧ value.DistinctNames := by
  induction value using Json.induct with
  | null =>
    intro depth output h
    cases h
    exact ⟨rfl, .null⟩
  | bool value =>
    intro depth output h
    cases h
    refine ⟨?_, .bool⟩
    cases value <;> rfl
  | number value =>
    intro depth output h
    cases h
    exact ⟨rfl, .number⟩
  | string value =>
    intro depth output h
    cases h
    exact ⟨rfl, .string⟩
  | array items ih =>
    intro depth output h
    rw [appendCanonical] at h
    split_ifs at h
    obtain ⟨texts, hread, rfl⟩ := Option.map_eq_some_iff.mp h
    obtain ⟨rfl, hitems⟩ := readItems_spec (fun j hj => ih j hj (depth + 1)) hread
    refine ⟨?_, .array hitems⟩
    simp only [canonicalText, Json.normalize, Json.render, Json.normalizeItems_eq, Json.renderItems_eq, map_map]
    rfl
  | object members ih =>
    intro depth output h
    obtain ⟨rfl, hdistinct⟩ := appendCanonical_object_spec (fun m hm => ih m hm (depth + 1)) h
    refine ⟨?_, hdistinct⟩
    simp [canonicalText, writtenMembers, Json.normalize]

/-! ## What a payload determines -/

/-- What the payload of a value is the text of. -/
def signedValue (excluded : Text) : JsonValue → JsonValue
  | .object members => .object (writtenMembers excluded members)
  | value => value.normalize precedesOrEqual

/-- An accepted value has distinct names, and the payload is what is signed of it. -/
theorem signingJson_spec (hvalue : simdjson input = some value)
    (h : signingJson simdjson input excluded = some payload) :
    payload = Json.render number appendString (signedValue excluded value) ∧ value.DistinctNames := by
  unfold signingJson at h
  split_ifs at h
  rw [hvalue] at h
  cases value with
  | object members => exact appendCanonical_object_spec (fun m _ => appendCanonical_spec m.2 1) h
  -- Only an object has members to exclude.
  | array items => exact appendCanonical_spec (.array items) 0 payload h
  | _ => exact appendCanonical_spec _ 0 payload h

/-- Texts with the same payload have the same signed value. -/
theorem payload_determines_signedValue {input' : Bytes} {value' : JsonValue} (hvalue : simdjson input = some value)
    (hvalue' : simdjson input' = some value') (h : signingJson simdjson input excluded = some payload)
    (h' : signingJson simdjson input' excluded = some payload) :
    signedValue excluded value = signedValue excluded value' := by
  obtain ⟨hpayload, -⟩ := signingJson_spec hvalue h
  obtain ⟨hpayload', -⟩ := signingJson_spec hvalue' h'
  exact Json.render_injective readable (hpayload.symm.trans hpayload')

theorem mem_writtenMembers (hexcluded : excluded ≠ []) :
    (name, value) ∈ writtenMembers excluded members ↔
      name ≠ excluded ∧ ∃ v, (name, v) ∈ members ∧ v.normalize precedesOrEqual = value := by
  have hempty : excluded.isEmpty = false := by simpa using hexcluded
  simp only [writtenMembers, mem_filter, Json.mem_sortMembers, mem_map, Prod.mk.injEq, hempty,
    Bool.false_or, bne_iff_ne, ne_eq, Prod.exists]
  constructor
  · rintro ⟨⟨_, v, hm, rfl, hv⟩, hne⟩
    exact ⟨hne, v, hm, hv⟩
  · rintro ⟨hne, v, hm, hv⟩
    exact ⟨⟨name, v, hm, rfl, hv⟩, hne⟩

/-- What is signed of an object determines its members, up to order and the excluded one. -/
theorem signedValue_determines_members {members' : List (Text × JsonValue)} (hexcluded : excluded ≠ [])
    (h : signedValue excluded (.object members) = signedValue excluded (.object members'))
    (hm : (name, value) ∈ members) (hname : name ≠ excluded) :
    ∃ value', (name, value') ∈ members' ∧ value.normalize precedesOrEqual = value'.normalize precedesOrEqual := by
  have hmem := (mem_writtenMembers hexcluded).mpr ⟨hname, value, hm, rfl⟩
  rw [Json.object.inj h] at hmem
  obtain ⟨-, value', hm', hnorm⟩ := (mem_writtenMembers hexcluded).mp hmem
  exact ⟨value', hm', hnorm.symm⟩

theorem signedValue_of_not_object (h : ¬ ∃ members, value = .object members) :
    signedValue excluded value = value.normalize precedesOrEqual := by
  cases value with
  | object members => exact absurd ⟨members, rfl⟩ h
  | _ => rfl

/-- Whether a value is an object can be told from what is signed of it. -/
theorem signedValue_eq_object (h : signedValue excluded value = .object members) :
    ∃ members', value = .object members' := by
  cases value with
  | object members' => exact ⟨members', rfl⟩
  | _ => simp [signedValue, Json.normalize] at h

end A2A.Core.AgentCard
