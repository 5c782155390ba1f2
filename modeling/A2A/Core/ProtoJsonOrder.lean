/-
# Decoding does not depend on the order of members.
-/
import A2A.Core.ProtoJson

namespace A2A.Core.ProtoJson

open A2A.Foundation SortedAssoc List
open A2A.Core.AgentCard (JsonValue precedesOrEqual)

/-- The same value up to the order of members. -/
abbrev Reordered (value value' : JsonValue) : Prop := Json.Reordered precedesOrEqual value value'

/-! ## Computations that succeed -/

variable {ε α β : Type} {x : Except ε α} {b : β}

/-- Results made of equal parts are equal. -/
theorem eq_of_map {x' : Except ε α} {b' : β} {f : α → β} (h : f <$> x = .ok b) (h' : f <$> x' = .ok b')
    (hsame : ∀ {a a'}, x = .ok a → x' = .ok a' → a = a') : b = b' := by
  obtain ⟨a, ha, rfl⟩ := ok_of_map h
  obtain ⟨a', ha', rfl⟩ := ok_of_map h'
  rw [hsame ha ha']

/-! ## No field is named twice -/

/-- The fields that the members name, in their order. -/
def namedFields (descriptor : Descriptor) (members : List (Text × JsonValue)) : List Text :=
  members.filterMap fun m => (findField descriptor m.1).map FieldOf.name

variable {members members' : List (Text × JsonValue)} {descriptor : Descriptor} {value value' : JsonValue}
  {key name : Text} {fields fields' message result entries : Fields} {type : FieldType} {field : Field}
  {decoded : Option Value} {items items' : List JsonValue} {root : Bool} {m : Text × JsonValue}

/-- The strict check accepts the value of a field. -/
def NoFieldTwice (value : JsonValue) (label : Label) (type : FieldType) : Prop :=
  ∃ options root, options.rejectDuplicateTopLevelFields = true ∧
    validateNestedField options root value label type = .ok ()

theorem namedFields_cons (hfield : findField descriptor m.1 = some field) :
    namedFields descriptor (m :: members) = field.name :: namedFields descriptor members := by
  simp [namedFields, hfield]

/-- No field is named twice, also in the values of the fields. -/
structure NamedOnce (descriptor : Descriptor) (members : List (Text × JsonValue)) : Prop where
  nodup : (namedFields descriptor members).Nodup
  values : ∀ m ∈ members, ∀ field, findField descriptor m.1 = some field → NoFieldTwice m.2 field.label field.type

section Strict

variable {options : ProtoJsonParseOptions} (hstrict : options.rejectDuplicateTopLevelFields = true)

include hstrict

/-- What the strict check has passed names no field twice. -/
theorem validateMembers_spec {seen : List Text} (h : validateMembers options root members descriptor seen = .ok ()) :
    NamedOnce descriptor members ∧ ∀ key ∈ namedFields descriptor members, key ∉ seen := by
  induction members generalizing seen with
  | nil => exact ⟨⟨nodup_nil, nofun⟩, nofun⟩
  | cons m members ih =>
    obtain ⟨name, value⟩ := m
    rw [validateMembers] at h
    cases hfield : findField descriptor name with
    | none =>
      rw [hfield] at h
      obtain ⟨⟨hnodup, hvalues⟩, hseen⟩ := ih h
      have hnamed : namedFields descriptor ((name, value) :: members) =
          namedFields descriptor members := by simp [namedFields, hfield]
      rw [hnamed]
      exact ⟨⟨hnamed ▸ hnodup, forall_mem_cons.mpr ⟨by simp [hfield], hvalues⟩⟩, hseen⟩
    | some field =>
      rw [hfield] at h
      obtain ⟨_, hcheck, h⟩ := ok_of_bind h
      obtain ⟨_, hnested, h⟩ := ok_of_bind h
      obtain ⟨⟨hnodup, hvalues⟩, hseen⟩ := ih h
      have hfresh : field.name ∉ seen := by
        intro hmem
        simp [validateField, hstrict, hmem] at hcheck
      have hnamed : namedFields descriptor ((name, value) :: members) = _ := namedFields_cons hfield
      refine ⟨⟨hnamed ▸ nodup_cons.mpr ⟨?_, hnodup⟩, forall_mem_cons.mpr ⟨?_, hvalues⟩⟩,
        hnamed ▸ forall_mem_cons.mpr ⟨hfresh, ?_⟩⟩
      · intro hmem
        exact hseen _ hmem mem_cons_self
      · intro field' hnames
        cases hfield.symm.trans hnames
        exact ⟨options, root, hstrict, hnested⟩
      · intro key hkey hmem
        exact hseen key hkey (mem_cons_of_mem _ hmem)

theorem validateItems_spec (h : validateItems options root items descriptor = .ok ()) :
    ∀ item ∈ items, NoFieldTwice item .single descriptor.type := by
  induction items with
  | nil => nofun
  | cons item items ih =>
    rw [validateItems] at h
    split_ifs at h
    obtain ⟨_, hitem, h⟩ := ok_of_bind h
    exact forall_mem_cons.mpr ⟨⟨options, false, hstrict, hitem⟩, ih h⟩

theorem validateEntries_spec {entries : List (Text × JsonValue)}
    (h : validateEntries options entries descriptor = .ok ()) :
    ∀ entry ∈ entries, NoFieldTwice entry.2 .single descriptor.type := by
  induction entries with
  | nil => nofun
  | cons entry entries ih =>
    obtain ⟨name, value⟩ := entry
    rw [validateEntries] at h
    obtain ⟨_, hentry, h⟩ := ok_of_bind h
    exact forall_mem_cons.mpr ⟨⟨options, false, hstrict, hentry⟩, ih h⟩

end Strict

theorem noFieldTwice_of_scalar (value : JsonValue)
    (htype : ∀ wellKnownType fields, type ≠ .message wellKnownType fields) : NoFieldTwice value .single type := by
  refine ⟨{ rejectDuplicateTopLevelFields := true }, false, rfl, ?_⟩
  cases type with
  | message wellKnownType fields => exact absurd rfl (htype wellKnownType fields)
  | _ => cases value <;> rfl

theorem NoFieldTwice.item
    (h : NoFieldTwice (.array items) .repeated type) : ∀ item ∈ items, NoFieldTwice item .single type := by
  intro item hitem
  cases type with
  | message wellKnownType fields =>
    obtain ⟨options, root, hstrict, h⟩ := h
    exact validateItems_spec hstrict h item hitem
  | _ => exact noFieldTwice_of_scalar item nofun

theorem NoFieldTwice.entry {entries : List (Text × JsonValue)} {stringKeys : Bool}
    (h : NoFieldTwice (.object entries) (.map stringKeys) type) :
    ∀ entry ∈ entries, NoFieldTwice entry.2 .single type := by
  intro entry hentry
  cases type with
  | message wellKnownType fields =>
    obtain ⟨options, root, hstrict, h⟩ := h
    exact validateEntries_spec hstrict h entry hentry
  | _ => exact noFieldTwice_of_scalar entry.2 nofun

theorem NoFieldTwice.namedOnce {fields : List Field}
    (h : NoFieldTwice (.object members) .single (.message none fields)) : NamedOnce ⟨none, fields⟩ members := by
  obtain ⟨options, root, hstrict, h⟩ := h
  exact (validateMembers_spec hstrict h).1

/-- The strict check accepts a message. -/
def StrictlyValid (descriptor : Descriptor) (value : JsonValue) : Prop :=
  ∃ options root, options.rejectDuplicateTopLevelFields = true ∧
    validateFields options value descriptor root = .ok ()

theorem StrictlyValid.namedOnce (h : StrictlyValid descriptor (.object members))
    (hordinary : descriptor.wellKnownType = none) : NamedOnce descriptor members := by
  obtain ⟨options, root, hstrict, h⟩ := h
  rw [validateFields, hordinary] at h
  exact (validateMembers_spec hstrict h).1

/-! ## What the loops write -/

theorem structFields_eq :
    structFields members fields = setAll (members.map fun m => (m.1, jsonToValue m.2)) fields := by
  induction members generalizing fields with
  | nil => rfl
  | cons m members ih => exact ih

theorem names_written (members : List (Text × JsonValue)) :
    (members.map fun m => (m.1, jsonToValue m.2)).map Prod.fst = members.map Prod.fst := by
  simp [Function.comp_def]

section Loops

variable {options : ProtoJsonParseOptions} {protobuf : Protobuf}

/-- The loop over the entries of a map writes one entry for each. -/
theorem decodeEntries_spec (h : decodeEntries options protobuf members type entries = .ok result) :
    ∃ writes, result = setAll writes entries ∧ writes.map Prod.fst = members.map Prod.fst ∧
      (∀ w ∈ writes, ∃ m ∈ members, ∃ decoded, decodeField options protobuf m.2 .single type = .ok decoded ∧
        w = (m.1, decoded.getD (.enum 0))) ∧
      ∀ m ∈ members, ∃ decoded, decodeField options protobuf m.2 .single type = .ok decoded ∧
        (m.1, decoded.getD (.enum 0)) ∈ writes := by
  induction members generalizing entries with
  | nil =>
    cases h
    exact ⟨[], rfl, rfl, nofun, nofun⟩
  | cons m members ih =>
    rw [decodeEntries] at h
    split_ifs at h
    obtain ⟨decoded, hdecoded, h⟩ := ok_of_bind h
    obtain ⟨writes, rfl, hnames, hsound, htotal⟩ := ih h
    refine ⟨(m.1, decoded.getD (.enum 0)) :: writes, rfl, by simp [hnames], ?_, ?_⟩
    · refine forall_mem_cons.mpr ⟨⟨m, mem_cons_self, decoded, hdecoded, rfl⟩, fun w hw => ?_⟩
      obtain ⟨m', hm', hw⟩ := hsound w hw
      exact ⟨m', mem_cons_of_mem _ hm', hw⟩
    · refine forall_mem_cons.mpr ⟨⟨decoded, hdecoded, mem_cons_self⟩, fun m' hm' => ?_⟩
      obtain ⟨decoded', hdecoded', hw⟩ := htotal m' hm'
      exact ⟨decoded', hdecoded', mem_cons_of_mem _ hw⟩

/-- What the loop of `DecodeMessage` writes: the members that name a field and are not null, decoded. -/
structure Writes (options : ProtoJsonParseOptions) (protobuf : Protobuf) (descriptor : Descriptor)
    (members : List (Text × JsonValue)) (writes : Fields) : Prop where
  names : (writes.map Prod.fst).Sublist (namedFields descriptor members)
  sound : ∀ w ∈ writes, ∃ m ∈ members, ∃ field, findField descriptor m.1 = some field ∧ isNull m.2 = false ∧
    field.name = w.1 ∧ decodeField options protobuf m.2 field.label field.type = .ok (some w.2)
  total : ∀ m ∈ members, ∀ field, findField descriptor m.1 = some field → isNull m.2 = false →
    ∃ decoded, decodeField options protobuf m.2 field.label field.type = .ok decoded ∧
      ∀ value ∈ decoded, (field.name, value) ∈ writes

theorem Writes.skip {writes : Fields} (h : Writes options protobuf descriptor members writes)
    (hm : ∀ field, findField descriptor m.1 = some field → isNull m.2) :
    Writes options protobuf descriptor (m :: members) writes where
  names := h.names.trans ((sublist_cons_self m members).filterMap _)
  sound w hw := by
    obtain ⟨m', hm', hrest⟩ := h.sound w hw
    exact ⟨m', mem_cons_of_mem _ hm', hrest⟩
  total := forall_mem_cons.mpr ⟨fun field hfield hnull => absurd (hm field hfield) (by simp [hnull]), h.total⟩

theorem Writes.write {writes : Fields} (h : Writes options protobuf descriptor members writes)
    (hfield : findField descriptor m.1 = some field) (hnull : isNull m.2 = false)
    (hdecoded : decodeField options protobuf m.2 field.label field.type = .ok decoded) :
    Writes options protobuf descriptor (m :: members) ((decoded.map (field.name, ·)).toList ++ writes) where
  names := by
    rw [namedFields_cons hfield]
    cases decoded with
    | none => exact h.names.cons _
    | some value => exact h.names.cons_cons _
  sound w hw := by
    rcases mem_append.mp hw with hw | hw
    · obtain ⟨value, rfl, rfl⟩ := Option.map_eq_some_iff.mp (Option.mem_toList.mp hw)
      exact ⟨m, mem_cons_self, field, hfield, hnull, rfl, hdecoded⟩
    · obtain ⟨m', hm', hrest⟩ := h.sound w hw
      exact ⟨m', mem_cons_of_mem _ hm', hrest⟩
  total := by
    refine forall_mem_cons.mpr ⟨fun field' hfield' _ => ?_, fun m' hm' field' hfield' hnull' => ?_⟩
    · cases hfield.symm.trans hfield'
      exact ⟨decoded, hdecoded, fun value hvalue => mem_append_left _ (by simp [Option.mem_def.mp hvalue])⟩
    · obtain ⟨decoded', hdecoded', hw⟩ := h.total m' hm' field' hfield' hnull'
      exact ⟨decoded', hdecoded', fun value hvalue => mem_append_right _ (hw value hvalue)⟩

theorem setField_eq (field : Field) (decoded : Option Value) (message : Fields) :
    setField field decoded message = setAll (decoded.map (field.name, ·)).toList message := by
  cases decoded <;> rfl

/-- The loop over the members sets each field that it reads. -/
theorem decodeMembers_spec (h : decodeMembers options protobuf members descriptor message = .ok result) :
    ∃ writes, result = setAll writes message ∧ Writes options protobuf descriptor members writes := by
  induction members generalizing message with
  | nil =>
    cases h
    exact ⟨[], rfl, nil_sublist _, nofun, nofun⟩
  | cons m members ih =>
    obtain ⟨name, value⟩ := m
    rw [decodeMembers] at h
    cases hfield : findField descriptor name with
    | none =>
      rw [hfield] at h
      dsimp only at h
      split_ifs at h
      obtain ⟨writes, hresult, hwrites⟩ := ih h
      exact ⟨writes, hresult, hwrites.skip (by simp [hfield])⟩
    | some field =>
      rw [hfield] at h
      dsimp only at h
      split_ifs at h with hnull hset
      · obtain ⟨writes, hresult, hwrites⟩ := ih h
        exact ⟨writes, hresult, hwrites.skip fun _ _ => hnull⟩
      · obtain ⟨decoded, hdecoded, h⟩ := ok_of_bind h
        obtain ⟨writes, hresult, hwrites⟩ := ih h
        refine ⟨_, ?_, hwrites.write hfield (by simpa using hnull) hdecoded⟩
        rw [hresult, setField_eq, setAll, setAll, setAll, foldl_append]

theorem decodeMembers_ascending (h : decodeMembers options protobuf members descriptor [] = .ok result) :
    SortedAssoc.Ascending result := by
  obtain ⟨writes, rfl, -⟩ := decodeMembers_spec h
  exact ascending_setAll ascending_nil

end Loops

/-! ## Two runs -/

theorem isNull_eq_of_reordered (h : Reordered value value') : isNull value = isNull value' := by
  cases value with
  | array items =>
    obtain ⟨items', rfl, -⟩ := h.of_array
    rfl
  | object members =>
    obtain ⟨members', rfl⟩ := h.of_object
    rfl
  | _ => rw [h.eq_of_atom nofun nofun]

/-- What names the field in one object has its counterpart in the other. -/
def SameField (descriptor : Descriptor) (key : Text) (members members' : List (Text × JsonValue)) : Prop :=
  ∀ m ∈ members, ∀ field, findField descriptor m.1 = some field → field.name = key →
    ∃ value', (m.1, value') ∈ members' ∧ Reordered m.2 value'

theorem sameField_of_reordered (h : Reordered (.object members) (.object members')) (descriptor : Descriptor)
    (key : Text) : SameField descriptor key members members' := fun m hm _ _ _ => h.of_members m hm

/-- `google.protobuf.Value` keeps its members sorted. -/
theorem jsonToValue_agrees (value : JsonValue) :
    ∀ {value' : JsonValue}, Reordered value value' → jsonToValue value = jsonToValue value' := by
  induction value using Json.induct with
  | array items ih =>
    intro value' h
    obtain ⟨items', rfl, hitems⟩ := h.of_array
    rw [jsonToValue, jsonToValue]
    congr 1
    clear h
    induction hitems with
    | nil => rfl
    | cons hitem _ ihitems =>
      rw [listValues, listValues, ih _ mem_cons_self hitem, ihitems fun j hj => ih j (mem_cons_of_mem _ hj)]
  | object members ih =>
    intro value' h
    obtain ⟨members', rfl⟩ := h.of_object
    rw [jsonToValue, jsonToValue, structFields_eq, structFields_eq]
    congr 1
    refine setAll_congr (names_written _ ▸ h.distinct.names) (names_written _ ▸ h.distinct'.names) ?_ ?_
    · refine forall_mem_map.mpr fun m hm => ?_
      obtain ⟨value', hm', hvalue⟩ := h.of_members m hm
      exact mem_map.mpr ⟨_, hm', by rw [ih m hm hvalue]⟩
    · refine forall_mem_map.mpr fun m' hm' => ?_
      obtain ⟨value, hm, hvalue⟩ := h.symm.of_members m' hm'
      exact mem_map.mpr ⟨_, hm, by rw [ih _ hm hvalue.symm]⟩
  | _ =>
    intro value' h
    rw [h.eq_of_atom nofun nofun]

/-- Two decoders read the same where both accept, whatever the order of members. -/
structure Compatible (protobuf protobuf' : Protobuf) : Prop where
  int32Value : ∀ {value value' number number'}, Reordered value value' →
    protobuf.int32Value value = some number → protobuf'.int32Value value' = some number' →
      number = number'
  bytesValue : ∀ {value value' bytes bytes'}, Reordered value value' →
    protobuf.bytesValue value = .ok bytes → protobuf'.bytesValue value' = .ok bytes' → bytes = bytes'
  messages : ∀ {ignoreUnknownFields descriptor value value' fields fields'}, Reordered value value' →
    StrictlyValid descriptor value → StrictlyValid descriptor value' →
    protobuf.jsonStringToMessage ignoreUnknownFields descriptor value = .ok fields →
    protobuf'.jsonStringToMessage ignoreUnknownFields descriptor value' = .ok fields' →
      fields = fields'

/-- Members that name the same field are read alike, in any order of their own members. -/
def ReadAlike (options : ProtoJsonParseOptions) (protobuf protobuf' : Protobuf) (descriptor : Descriptor)
    (members members' : List (Text × JsonValue)) : Prop :=
  ∀ m ∈ members, ∀ m' ∈ members', ∀ field, findField descriptor m.1 = some field →
    findField descriptor m'.1 = some field → Reordered m.2 m'.2 → ∀ {x x'},
    decodeField options protobuf m.2 field.label field.type = .ok x →
    decodeField options protobuf' m'.2 field.label field.type = .ok x' → x = x'

section TwoRuns

variable {options : ProtoJsonParseOptions} {protobuf protobuf' : Protobuf}
variable (hcompatible : Compatible protobuf protobuf')

include hcompatible

section

variable (h : Reordered value value')

include h

theorem decodeByProtobuf_agrees {x x' : Value} (hx : decodeByProtobuf options protobuf descriptor value = .ok x)
    (hx' : decodeByProtobuf options protobuf' descriptor value' = .ok x') : x = x' := by
  obtain ⟨_, hvalid, hx⟩ := ok_of_bind hx
  obtain ⟨fields, hfields, hx⟩ := ok_of_bind hx
  obtain ⟨_, hvalid', hx'⟩ := ok_of_bind hx'
  obtain ⟨fields', hfields', hx'⟩ := ok_of_bind hx'
  cases hx
  cases hx'
  rw [hcompatible.messages h ⟨_, _, rfl, hvalid⟩ ⟨_, _, rfl, hvalid'⟩ hfields hfields']

theorem decodeSpecial_agrees {x x' : Value} (hx : decodeSpecial options protobuf descriptor value = .ok x)
    (hx' : decodeSpecial options protobuf' descriptor value' = .ok x') : x = x' := by
  obtain ⟨_, -, hx⟩ := ok_of_bind hx
  obtain ⟨_, -, hx'⟩ := ok_of_bind hx'
  have hsame := jsonToValue_agrees value h
  -- The branch depends on the form of the value only, which both values share.
  cases value with
  | array items =>
    obtain ⟨items', rfl, -⟩ := h.of_array
    rcases descriptor with ⟨_ | _ | _ | _, fields⟩
    · exact decodeByProtobuf_agrees hcompatible h hx hx'
    · exact decodeByProtobuf_agrees hcompatible h hx hx'
    · rw [← Except.ok.inj hx, ← Except.ok.inj hx', hsame]
    · rw [← Except.ok.inj hx, ← Except.ok.inj hx', hsame]
  | object members =>
    obtain ⟨members', rfl⟩ := h.of_object
    rcases descriptor with ⟨_ | _ | _ | _, fields⟩
    · exact decodeByProtobuf_agrees hcompatible h hx hx'
    · rw [← Except.ok.inj hx, ← Except.ok.inj hx', hsame]
    · rw [← Except.ok.inj hx, ← Except.ok.inj hx', hsame]
    · exact decodeByProtobuf_agrees hcompatible h hx hx'
  | _ =>
    obtain rfl := h.eq_of_atom nofun nofun
    rcases descriptor with ⟨_ | _ | _ | _, fields⟩
    · exact decodeByProtobuf_agrees hcompatible h hx hx'
    · exact decodeByProtobuf_agrees hcompatible h hx hx'
    · rw [← Except.ok.inj hx, ← Except.ok.inj hx']
    · exact decodeByProtobuf_agrees hcompatible h hx hx'

theorem readInt32_agrees {number number' : Int} (hnumber : readInt32 protobuf value = .ok number)
    (hnumber' : readInt32 protobuf' value' = .ok number') : number = number' := by
  unfold readInt32 at hnumber hnumber'
  split at hnumber
  · rename_i n hn
    split at hnumber'
    · rename_i n' hn'
      rw [← Except.ok.inj hnumber, ← Except.ok.inj hnumber', hcompatible.int32Value h hn hn']
    · cases hnumber'
  · cases hnumber

/-- A scalar has one reading. -/
theorem decodeScalar_agrees {x x' : Option Value} (hx : decodeScalar options protobuf value type = .ok x)
    (hx' : decodeScalar options protobuf' value' type = .ok x') : x = x' := by
  cases type with
  | message wellKnownType fields =>
    simp only [decodeScalar] at hx hx'
    split_ifs at hx hx'
    exact eq_of_map hx hx' (decodeSpecial_agrees hcompatible h)
  | bytes => exact eq_of_map hx hx' (hcompatible.bytesValue h)
  | int32 => exact eq_of_map hx hx' (readInt32_agrees hcompatible h)
  | other => nomatch hx
  | string =>
    cases value with
    | string text =>
      obtain rfl := h.eq_of_atom nofun nofun
      exact Except.ok.inj (hx.symm.trans hx')
    | _ => nomatch hx
  | bool =>
    cases value with
    | bool b =>
      obtain rfl := h.eq_of_atom nofun nofun
      exact Except.ok.inj (hx.symm.trans hx')
    | _ => nomatch hx
  | enum values =>
    -- Only names of enum values are read without protobuf.
    have hnumber : ∀ {y y' : Option Value}, (some ∘ Value.enum) <$> readInt32 protobuf value = .ok y →
        (some ∘ Value.enum) <$> readInt32 protobuf' value' = .ok y' → y = y' :=
      fun hy hy' => eq_of_map hy hy' (readInt32_agrees hcompatible h)
    cases value with
    | array items =>
      obtain ⟨items', rfl, -⟩ := h.of_array
      exact hnumber hx hx'
    | object members =>
      obtain ⟨members', rfl⟩ := h.of_object
      exact hnumber hx hx'
    | string name =>
      obtain rfl := h.eq_of_atom nofun nofun
      exact Except.ok.inj (hx.symm.trans hx')
    | _ =>
      obtain rfl := h.eq_of_atom nofun nofun
      exact hnumber hx hx'

end

omit hcompatible in
/-- What is written to a field in one object is written in the other, if its members have their counterparts. -/
theorem Writes.subset {writes writes' : Fields} (h : Writes options protobuf descriptor members writes)
    (h' : Writes options protobuf' descriptor members' writes') (hsame : SameField descriptor key members members')
    (halike : ReadAlike options protobuf protobuf' descriptor members members') {value : Value}
    (hw : (key, value) ∈ writes) : (key, value) ∈ writes' := by
  obtain ⟨m, hm, field, hfield, hnull, rfl, hdecoded⟩ := h.sound _ hw
  obtain ⟨value', hm', hvalue⟩ := hsame m hm field hfield rfl
  obtain ⟨decoded', hdecoded', hmem⟩ := h'.total _ hm' field hfield (isNull_eq_of_reordered hvalue ▸ hnull)
  exact hmem value (halike m hm _ hm' field hfield hfield hvalue hdecoded hdecoded').symm

omit hcompatible in
/-- Members in another order give a field the same value, if each names it once. -/
theorem decodeMembers_agree (h : decodeMembers options protobuf members descriptor [] = .ok fields)
    (h' : decodeMembers options protobuf' members' descriptor [] = .ok fields')
    (honce : NamedOnce descriptor members) (honce' : NamedOnce descriptor members')
    (hsame : SameField descriptor key members members') (hsame' : SameField descriptor key members' members)
    (hagree : ∀ m ∈ members, ∀ {value' label type x x'}, Reordered m.2 value' → NoFieldTwice m.2 label type →
      NoFieldTwice value' label type → decodeField options protobuf m.2 label type = .ok x →
      decodeField options protobuf' value' label type = .ok x' → x = x') :
    SortedAssoc.get key fields = SortedAssoc.get key fields' := by
  obtain ⟨writes, rfl, hwrites⟩ := decodeMembers_spec h
  obtain ⟨writes', rfl, hwrites'⟩ := decodeMembers_spec h'
  have halike : ReadAlike options protobuf protobuf' descriptor members members' :=
    fun m hm m' hm' field hfield hfield' hvalue =>
      hagree m hm hvalue (honce.values m hm field hfield) (honce'.values m' hm' field hfield')
  refine get_setAll_congr (hwrites.names.nodup honce.nodup) (hwrites'.names.nodup honce'.nodup) fun value => ⟨?_, ?_⟩
  · exact hwrites.subset hwrites' hsame halike
  · refine hwrites'.subset hwrites hsame' fun m' hm' m hm field hfield' hfield hvalue x' x hx' hx => ?_
    exact (halike m hm m' hm' field hfield hfield' hvalue.symm hx hx').symm

omit hcompatible in
/-- Arrays are read element by element. -/
theorem decodeItems_agree {values values' : List Value}
    (hitems : List.Forall₂ (Json.Reordered precedesOrEqual) items items')
    (hvalid : ∀ item ∈ items, NoFieldTwice item .single type)
    (hvalid' : ∀ item ∈ items', NoFieldTwice item .single type)
    (hagree : ∀ item ∈ items, ∀ {item' x x'}, Reordered item item' → NoFieldTwice item .single type →
      NoFieldTwice item' .single type → decodeField options protobuf item .single type = .ok x →
      decodeField options protobuf' item' .single type = .ok x' → x = x')
    (h : decodeItems options protobuf items type = .ok values)
    (h' : decodeItems options protobuf' items' type = .ok values') : values = values' := by
  induction hitems generalizing values values' with
  | nil => rw [← Except.ok.inj h, ← Except.ok.inj h']
  | cons hitem _ ih =>
    rw [forall_mem_cons] at hvalid hvalid' hagree
    rw [decodeItems] at h h'
    split_ifs at h h'
    obtain ⟨y, hy, h⟩ := ok_of_bind h
    obtain ⟨ys, hys, h⟩ := ok_of_bind h
    obtain ⟨y', hy', h'⟩ := ok_of_bind h'
    obtain ⟨ys', hys', h'⟩ := ok_of_bind h'
    have hfirst := hagree.1 hitem hvalid.1 hvalid'.1 hy hy'
    have hrest := ih hvalid.2 hvalid'.2 hagree.2 hys hys'
    rw [← Except.ok.inj h, ← Except.ok.inj h', hfirst, hrest]

omit hcompatible in
theorem decodeField_of_scalar (value : JsonValue)
    (htype : ∀ wellKnownType fields, type ≠ .message wellKnownType fields) :
    decodeField options protobuf value .single type = decodeScalar options protobuf value type := by
  cases type with
  | message wellKnownType fields => exact absurd rfl (htype wellKnownType fields)
  | _ => cases value <;> rfl

/-- Without a field named twice, the order of members does not matter. -/
theorem decodeField_agrees (value : JsonValue) :
    ∀ {value' : JsonValue} {label : Label} {type : FieldType} {x x' : Option Value},
      Reordered value value' → NoFieldTwice value label type → NoFieldTwice value' label type →
      decodeField options protobuf value label type = .ok x →
      decodeField options protobuf' value' label type = .ok x' → x = x' := by
  induction value using Json.induct with
  | array items ih =>
    intro value' label type x x' h hvalid hvalid' hx hx'
    obtain ⟨items', rfl, hitems⟩ := h.of_array
    rcases label with _ | _ | _ | _
    · exact decodeScalar_agrees hcompatible h hx hx'
    · exact eq_of_map hx hx' (decodeItems_agree hitems hvalid.item hvalid'.item fun j hj => ih j hj)
    · cases hx
    · cases hx
  | object members ih =>
    intro value' label type x x' h hvalid hvalid' hx hx'
    obtain ⟨members', rfl⟩ := h.of_object
    rcases label with _ | _ | _ | _
    · by_cases hmessage : ∃ wellKnownType fields, type = .message wellKnownType fields
      · obtain ⟨wellKnownType, fields, rfl⟩ := hmessage
        rw [decodeField] at hx hx'
        split_ifs at hx hx' with hneeds
        · exact eq_of_map hx hx' (decodeSpecial_agrees hcompatible h)
        · refine eq_of_map hx hx' fun hys hys' => ?_
          obtain rfl : wellKnownType = none := by
            cases wellKnownType with
            | none => rfl
            | some _ => exact absurd rfl hneeds
          refine ext (decodeMembers_ascending hys) (decodeMembers_ascending hys') fun key => ?_
          exact decodeMembers_agree hys hys' hvalid.namedOnce hvalid'.namedOnce (sameField_of_reordered h _ _)
            (sameField_of_reordered h.symm _ _) fun m hm => ih m hm
      · have htype : ∀ wellKnownType fields, type ≠ .message wellKnownType fields :=
          fun wellKnownType fields heq => hmessage ⟨wellKnownType, fields, heq⟩
        rw [decodeField_of_scalar _ htype] at hx hx'
        exact decodeScalar_agrees hcompatible h hx hx'
    · cases hx
    · cases hx
    · refine eq_of_map hx hx' fun hys hys' => ?_
      obtain ⟨writes, rfl, hnames, hsound, htotal⟩ := decodeEntries_spec hys
      obtain ⟨writes', rfl, hnames', hsound', htotal'⟩ := decodeEntries_spec hys'
      refine setAll_congr (hnames ▸ h.distinct.names) (hnames' ▸ h.distinct'.names) ?_ ?_
      · intro w hw
        obtain ⟨m, hm, y, hy, rfl⟩ := hsound w hw
        obtain ⟨value', hm', hvalue⟩ := h.of_members m hm
        obtain ⟨y', hy', hw'⟩ := htotal' _ hm'
        rwa [ih m hm hvalue (hvalid.entry m hm) (hvalid'.entry _ hm') hy hy']
      · intro w hw
        obtain ⟨m', hm', y', hy', rfl⟩ := hsound' w hw
        obtain ⟨value, hm, hvalue⟩ := h.symm.of_members m' hm'
        obtain ⟨y, hy, hw'⟩ := htotal _ hm
        rwa [← ih _ hm hvalue.symm (hvalid.entry _ hm) (hvalid'.entry m' hm') hy hy']
  | _ =>
    intro value' label type x x' h _ _ hx hx'
    obtain rfl := h.eq_of_atom nofun nofun
    rcases label with _ | _ | _ | _
    · exact decodeScalar_agrees hcompatible h hx hx'
    · cases hx
    · cases hx
    · cases hx

end TwoRuns

/-! ## Documents -/

/-- The two readers of simdjson read the value that the text denotes. -/
def Simdjson.Coherent (simdjson : Simdjson) : Prop :=
  ∀ json value value', simdjson.dom json = some value → simdjson.ondemand json = some value' →
    value = value'

variable {message message' : Value} {json json' : Bytes} {ignoreUnknownFields : Bool}

/-- Two objects agree on a field whose members have their counterparts. -/
theorem decodeMembers_agree_of_sameField {options : ProtoJsonParseOptions} {protobuf protobuf' : Protobuf}
    (hcompatible : Compatible protobuf protobuf') (hwellKnown : descriptor.wellKnownType = none)
    (hvalid : StrictlyValid descriptor (.object members)) (hvalid' : StrictlyValid descriptor (.object members'))
    (hsame : SameField descriptor key members members') (hsame' : SameField descriptor key members' members)
    (h : decodeMembers options protobuf members descriptor [] = .ok fields)
    (h' : decodeMembers options protobuf' members' descriptor [] = .ok fields') :
    SortedAssoc.get key fields = SortedAssoc.get key fields' := by
  exact decodeMembers_agree h h' (hvalid.namedOnce hwellKnown) (hvalid'.namedOnce hwellKnown) hsame hsame'
    fun m _ => decodeField_agrees hcompatible m.2

/-- Protobuf's decoder, where no field is named twice: the order of members does not matter, a field depends on its
member, and without `null` fields are read as `DecodeMessage` reads them, where both accept. -/
structure ReadsProtoJson (protobuf : Protobuf) : Prop where
  unordered : Compatible protobuf protobuf
  byField : ∀ {ignoreUnknownFields descriptor members members' fields fields' key},
    descriptor.wellKnownType = none → StrictlyValid descriptor (.object members) →
    StrictlyValid descriptor (.object members') → SameField descriptor key members members' →
    SameField descriptor key members' members →
    protobuf.jsonStringToMessage ignoreUnknownFields descriptor (.object members) = .ok fields →
    protobuf.jsonStringToMessage ignoreUnknownFields descriptor (.object members') = .ok fields' →
      SortedAssoc.get key fields = SortedAssoc.get key fields'
  likeDecoder : ∀ {ignoreUnknownFields descriptor members members' fields fields' key},
    descriptor.wellKnownType = none → StrictlyValid descriptor (.object members) →
    StrictlyValid descriptor (.object members') → SameField descriptor key members members' →
    SameField descriptor key members' members → containsNull (.object members) = false →
    decodeMembers { ignoreUnknownFields } protobuf members descriptor [] = .ok fields →
    protobuf.jsonStringToMessage ignoreUnknownFields descriptor (.object members') = .ok fields' →
      SortedAssoc.get key fields = SortedAssoc.get key fields'

section Document

variable {options : ProtoJsonParseOptions} {protobuf : Protobuf} {simdjson : Simdjson}
variable {descriptor : Descriptor} (hordinary : needsProtobufDecoder descriptor = false)

include hordinary

theorem wellKnownType_of_ordinary : descriptor.wellKnownType = none := by
  unfold needsProtobufDecoder at hordinary
  rw [Bool.or_eq_false_iff, Option.isSome_eq_false_iff, Option.isNone_iff_eq_none] at hordinary
  exact hordinary.1

/-- `DecodeMessage` accepts objects only, and loops over the members. -/
theorem decodeMessage_cases (h : decodeMessage options protobuf value descriptor = .ok message) :
    ∃ members fields, value = .object members ∧ message = .message fields ∧
      decodeMembers options protobuf members descriptor [] = .ok fields := by
  obtain ⟨decoded, hdecoded, h⟩ := ok_of_bind h
  cases h
  cases value with
  | object members =>
    simp only [Descriptor.type, decodeField, hordinary, Bool.false_eq_true, if_false] at hdecoded
    obtain ⟨fields, hfields, rfl⟩ := ok_of_map hdecoded
    exact ⟨members, fields, rfl, rfl, hfields⟩
  | _ =>
    simp only [Descriptor.type, decodeField, decodeScalar, hordinary, Bool.false_eq_true, if_false] at hdecoded
    cases hdecoded

/-- A document with `null` is left to protobuf, any other is read directly. -/
theorem decodeDocument_cases (hsimdjson : simdjson.Coherent)
    (h : decodeDocument options protobuf simdjson descriptor json = .ok message) :
    ∃ root, simdjson.dom json = some root ∧
      ((containsNull root ∧ decodeByProtobuf options protobuf descriptor root = .ok message) ∨
       (containsNull root = false ∧ decodeMessage options protobuf root descriptor = .ok message)) := by
  obtain ⟨root, hroot, h⟩ := ok_of_bind h
  have hdom : simdjson.dom json = some root := by
    unfold parseDocument at hroot
    split_ifs at hroot
    cases hdom : simdjson.dom json with
    | none =>
      rw [hdom] at hroot
      cases hroot
    | some value =>
      rw [hdom] at hroot
      rw [Except.ok.inj hroot]
  refine ⟨root, hdom, ?_⟩
  rw [hordinary, if_neg (by decide)] at h
  obtain ⟨_, -, h⟩ := ok_of_bind h
  split_ifs at h with hnull
  · exact .inl ⟨hnull, h⟩
  · obtain ⟨value, hvalue, h⟩ := ok_of_bind h
    unfold openCursor at hvalue
    cases hondemand : simdjson.ondemand json with
    | none =>
      rw [hondemand] at hvalue
      cases hvalue
    | some value' =>
      rw [hondemand] at hvalue
      obtain rfl := Except.ok.inj hvalue
      obtain rfl := hsimdjson json root value' hdom hondemand
      exact .inr ⟨by simpa using hnull, h⟩

omit hordinary in
theorem decodeByProtobuf_cases (h : decodeByProtobuf options protobuf descriptor value = .ok message) :
    ∃ fields, message = .message fields ∧
      protobuf.jsonStringToMessage options.ignoreUnknownFields descriptor value = .ok fields := by
  obtain ⟨_, -, h⟩ := ok_of_bind h
  obtain ⟨fields, hfields, h⟩ := ok_of_bind h
  exact ⟨fields, (Except.ok.inj h).symm, hfields⟩

variable (hprotobuf : ReadsProtoJson protobuf)

include hprotobuf

/-- Two decoded objects agree on a field whose members have their counterparts. -/
theorem decodeDocument_agree (hsimdjson : simdjson.Coherent)
    (hroot : simdjson.dom json = some (.object members)) (hroot' : simdjson.dom json' = some (.object members'))
    (hvalid : StrictlyValid descriptor (.object members)) (hvalid' : StrictlyValid descriptor (.object members'))
    (hsame : SameField descriptor key members members') (hsame' : SameField descriptor key members' members)
    (h : decodeDocument { ignoreUnknownFields } protobuf simdjson descriptor json = .ok message)
    (h' : decodeDocument { ignoreUnknownFields } protobuf simdjson descriptor json' = .ok message') :
    SortedAssoc.get key message.fields = SortedAssoc.get key message'.fields := by
  have hwellKnown := wellKnownType_of_ordinary hordinary
  obtain ⟨root, hdom, hdecoded⟩ := decodeDocument_cases hordinary hsimdjson h
  cases hroot.symm.trans hdom
  obtain ⟨root', hdom', hdecoded'⟩ := decodeDocument_cases hordinary hsimdjson h'
  cases hroot'.symm.trans hdom'
  obtain ⟨-, hbuf⟩ | ⟨hnull, hdec⟩ := hdecoded
  · obtain ⟨fields, rfl, hfields⟩ := decodeByProtobuf_cases hbuf
    obtain ⟨-, hbuf'⟩ | ⟨hnull', hdec'⟩ := hdecoded'
    · obtain ⟨fields', rfl, hfields'⟩ := decodeByProtobuf_cases hbuf'
      exact hprotobuf.byField hwellKnown hvalid hvalid' hsame hsame' hfields hfields'
    · obtain ⟨_, fields', hobject', rfl, hfields'⟩ := decodeMessage_cases hordinary hdec'
      obtain rfl := Json.object.inj hobject'
      exact (hprotobuf.likeDecoder hwellKnown hvalid' hvalid hsame' hsame hnull' hfields' hfields).symm
  · obtain ⟨_, fields, hobject, rfl, hfields⟩ := decodeMessage_cases hordinary hdec
    obtain rfl := Json.object.inj hobject
    obtain ⟨-, hbuf'⟩ | ⟨hnull', hdec'⟩ := hdecoded'
    · obtain ⟨fields', rfl, hfields'⟩ := decodeByProtobuf_cases hbuf'
      exact hprotobuf.likeDecoder hwellKnown hvalid hvalid' hsame hsame' hnull hfields hfields'
    · obtain ⟨_, fields', hobject', rfl, hfields'⟩ := decodeMessage_cases hordinary hdec'
      obtain rfl := Json.object.inj hobject'
      exact decodeMembers_agree_of_sameField hprotobuf.unordered hwellKnown hvalid hvalid' hsame hsame'
        hfields hfields'

theorem decodeDocument_agree_of_reordered {root root' : JsonValue}
    (hsimdjson : simdjson.Coherent) (hroot : simdjson.dom json = some root) (hroot' : simdjson.dom json' = some root')
    (hobject : ∀ members, root ≠ .object members) (hobject' : ∀ members, root' ≠ .object members)
    (hsame : Reordered root root') (h : decodeDocument options protobuf simdjson descriptor json = .ok message)
    (h' : decodeDocument options protobuf simdjson descriptor json' = .ok message') : message = message' := by
  obtain ⟨_, hdom, hdecoded⟩ := decodeDocument_cases hordinary hsimdjson h
  cases hroot.symm.trans hdom
  obtain ⟨_, hdom', hdecoded'⟩ := decodeDocument_cases hordinary hsimdjson h'
  cases hroot'.symm.trans hdom'
  obtain ⟨-, hbuf⟩ | ⟨-, hdec⟩ := hdecoded
  · obtain ⟨-, hbuf'⟩ | ⟨-, hdec'⟩ := hdecoded'
    · exact decodeByProtobuf_agrees hprotobuf.unordered hsame hbuf hbuf'
    · obtain ⟨members, _, hmembers, -⟩ := decodeMessage_cases hordinary hdec'
      exact absurd hmembers (hobject' members)
  · obtain ⟨members, _, hmembers, -⟩ := decodeMessage_cases hordinary hdec
    exact absurd hmembers (hobject members)

end Document

/-! ## A decoder that reads so -/

/-- A protobuf that reads nothing. -/
def noProtobuf : Protobuf where
  int32Value _ := none
  bytesValue _ := .error kInvalidField
  jsonStringToMessage _ _ _ := .error kInvalidField

/-- A protobuf that decodes ordinary messages as `DecodeMessage` does. -/
def plainProtobuf : Protobuf where
  int32Value _ := none
  bytesValue _ := .error kInvalidField
  jsonStringToMessage ignoreUnknownFields descriptor value :=
    match descriptor.wellKnownType, value with
    | none, .object members => decodeMembers { ignoreUnknownFields } noProtobuf members descriptor []
    | _, _ => .error kInvalidField

theorem compatible_noProtobuf (protobuf : Protobuf) : Compatible protobuf noProtobuf where
  int32Value _ _ h := nomatch h
  bytesValue _ _ h := nomatch h
  messages _ _ _ _ h := nomatch h

theorem plainProtobuf_cases {ignoreUnknownFields : Bool} {descriptor : Descriptor} {value : JsonValue} {fields : Fields}
    (h : plainProtobuf.jsonStringToMessage ignoreUnknownFields descriptor value = .ok fields) :
    ∃ members, value = .object members ∧ descriptor.wellKnownType = none ∧
      decodeMembers { ignoreUnknownFields } noProtobuf members descriptor [] = .ok fields := by
  unfold plainProtobuf at h
  dsimp only at h
  split at h
  · rename_i members hwellKnown
    exact ⟨members, rfl, hwellKnown, h⟩
  · cases h

theorem readsProtoJson_plainProtobuf : ReadsProtoJson plainProtobuf where
  unordered := by
    refine ⟨nofun, nofun, ?_⟩
    intro ignoreUnknownFields descriptor value value' fields fields' hsame hvalid hvalid' h h'
    obtain ⟨members, rfl, hwellKnown, hfields⟩ := plainProtobuf_cases h
    obtain ⟨members', rfl, -, hfields'⟩ := plainProtobuf_cases h'
    refine ext (decodeMembers_ascending hfields) (decodeMembers_ascending hfields') fun key => ?_
    exact decodeMembers_agree_of_sameField (compatible_noProtobuf _) hwellKnown hvalid hvalid'
      (sameField_of_reordered hsame descriptor key) (sameField_of_reordered hsame.symm descriptor key)
      hfields hfields'
  byField := by
    intro _ _ _ _ _ _ _ hwellKnown hvalid hvalid' hsame hsame' h h'
    obtain ⟨_, hmembers, -, hfields⟩ := plainProtobuf_cases h
    obtain rfl := Json.object.inj hmembers
    obtain ⟨_, hmembers', -, hfields'⟩ := plainProtobuf_cases h'
    obtain rfl := Json.object.inj hmembers'
    exact decodeMembers_agree_of_sameField (compatible_noProtobuf _) hwellKnown hvalid hvalid' hsame hsame'
      hfields hfields'
  likeDecoder := by
    intro _ _ _ _ _ _ _ hwellKnown hvalid hvalid' hsame hsame' _ h h'
    obtain ⟨_, hmembers', -, hfields'⟩ := plainProtobuf_cases h'
    obtain rfl := Json.object.inj hmembers'
    exact decodeMembers_agree_of_sameField (compatible_noProtobuf _) hwellKnown hvalid hvalid' hsame hsame' h hfields'

end A2A.Core.ProtoJson
