/-
# Decoding JSON into protobuf messages (`protojson.cpp`, `JsonToValue` of `json.cpp`).
-/
import A2A.Core.AgentCard.SigningJson
import A2A.Core.Error
import A2A.Foundation.SortedAssoc
import Mathlib.Data.Char

namespace A2A.Core.ProtoJson

open A2A.Foundation
open A2A.Core.AgentCard (JsonValue JsonNumber)

/-! ## Descriptors -/

/-- `Descriptor::well_known_type`, where it is not unspecified. -/
inductive WellKnownType where
  | struct
  | value
  | listValue
  deriving DecidableEq

/-- Whether a field holds one value, any number, or a value a key. -/
inductive Label where
  | single
  | repeated
  | map (stringKeys : Bool)
  deriving DecidableEq

/-- A field whose type is described by `T`; for a map, that of its values. -/
structure FieldOf (T : Type) where
  name : Text
  jsonName : Text
  label : Label := .single
  oneof : Option Text := none
  type : T

/-- The type of a field; `other` are the numeric types besides `int32`. -/
inductive FieldType where
  | string
  | bytes
  | bool
  | int32
  | enum (values : List (Text × Int))
  | message (wellKnownType : Option WellKnownType) (fields : List (FieldOf FieldType))
  | other

abbrev Field := FieldOf FieldType

/-- `google::protobuf::Descriptor`. -/
structure Descriptor where
  wellKnownType : Option WellKnownType := none
  fields : List Field

def Descriptor.type (descriptor : Descriptor) : FieldType :=
  .message descriptor.wellKnownType descriptor.fields

/-- A field of the source's `.proto` file, with its two names. -/
def field (name jsonName : String) (type : FieldType) (label : Label := .single)
    (oneof : Option Text := none) : Field :=
  { name := name.toList, jsonName := jsonName.toList, label, oneof, type }

/-- `FindField`. -/
def findField (descriptor : Descriptor) (name : Text) : Option Field :=
  descriptor.fields.find? fun field => field.name == name || field.jsonName == name

/-- A type for which `NeedsProtobufDecoder` does not hold by itself. -/
def FieldType.isCommon : FieldType → Bool
  | .other => false
  | _ => true

/-- `NeedsProtobufDecoder`. -/
def needsProtobufDecoder (descriptor : Descriptor) : Bool :=
  descriptor.wellKnownType.isSome ||
    descriptor.fields.any fun field => field.label == .map false || !field.type.isCommon

/-! ## Messages -/

def utf8 (text : Text) : Bytes := Foundation.bytes (String.ofList text)

/-- The value of a field. A `Struct` is the map of its members. -/
inductive Value where
  | text (value : Text)
  | bytes (value : Bytes)
  | bool (value : Bool)
  | int32 (value : Int)
  | enum (number : Int)
  | null
  | number (value : JsonNumber)
  | list (values : List Value)
  | map (entries : List (Text × Value))
  | message (fields : List (Text × Value))

/-- The set fields of a message, by the names of the fields. -/
abbrev Fields := List (Text × Value)

def Value.fields : Value → Fields
  | .message fields => fields
  | _ => []

def textOf (name : String) (fields : Fields) : Text :=
  match SortedAssoc.get name.toList fields with
  | some (.text text) => text
  | _ => []

/-- `Reflection::HasOneof`, for the oneof of the field. -/
def hasOneof (descriptor : Descriptor) (field : Field) (message : Fields) : Bool :=
  field.oneof.isSome && descriptor.fields.any fun other =>
    other.oneof == field.oneof && (SortedAssoc.get other.name message).isSome

/-! ## Parameters -/

/-- `ProtoJsonParseOptions`. -/
structure ProtoJsonParseOptions where
  ignoreUnknownFields : Bool := false
  rejectTopLevelNullFields : Bool := false
  rejectDuplicateTopLevelFields : Bool := false

/-- A result, or the reason of the exception. -/
abbrev Decoded (α : Type) := Except Bytes α

/-- What is used of protobuf's JSON decoder. -/
structure Protobuf where
  /-- `JsonStringToMessage` for the wrapper `Int32Value`. -/
  int32Value : JsonValue → Option Int
  /-- `JsonStringToMessage` for the wrapper `BytesValue`. -/
  bytesValue : JsonValue → Decoded Bytes
  /-- `JsonStringToMessage`; the first argument is `ignore_unknown_fields`. -/
  jsonStringToMessage : Bool → Descriptor → JsonValue → Decoded Fields

/-- The readers of simdjson; the DOM reader refuses more than `kMaximumJsonDepth` levels. -/
structure Simdjson where
  dom : Bytes → Option JsonValue
  ondemand : Bytes → Option JsonValue

def kInvalidField : Bytes := "JSON value does not match the protobuf field type"

/-- A protobuf that refuses whatever is left to it. -/
def Protobuf.refusing : Protobuf where
  int32Value _ := none
  bytesValue _ := .error kInvalidField
  jsonStringToMessage _ _ _ := .error kInvalidField

def kDuplicateField : Bytes := "ProtoJSON object contains duplicate fields"
def kUnknownField : Bytes := "Unknown ProtoJSON field"
def kNullField : Bytes := "ProtoJSON field must not be null"
def kNullElement : Bytes := "ProtoJSON repeated field must not contain null"
/-- The text of simdjson's `INCORRECT_TYPE`. -/
def kIncorrectType : Bytes := "The JSON element does not have the requested type."
/-- simdjson's `TAPE_ERROR`, which stands for all errors of a malformed text. -/
def kTapeError : Bytes :=
  "The JSON document has an improper structure: missing or superfluous commas, braces, missing keys, etc."
def kJsonSizeError : Bytes := "JSON input exceeds the 64 MiB limit"
def kMaximumJsonBytes : Nat := 64 * 1024 * 1024

def isNull : JsonValue → Bool
  | .null => true
  | _ => false

mutual

/-- `ContainsNull`. -/
def containsNull : JsonValue → Bool
  | .null => true
  | .array items => itemsContainNull items
  | .object members => membersContainNull members
  | _ => false

def itemsContainNull : List JsonValue → Bool
  | [] => false
  | item :: items => containsNull item || itemsContainNull items

def membersContainNull : List (Text × JsonValue) → Bool
  | [] => false
  | (_, value) :: members => containsNull value || membersContainNull members

end

/-! ## `JsonToValue` -/

mutual

/-- `JsonToValue`. -/
def jsonToValue : JsonValue → Value
  | .object members => .map (structFields members [])
  | .array items => .list (listValues items)
  | .string value => .text value
  | .bool value => .bool value
  | .null => .null
  | .number value => .number value

/-- The loop over the members, from the fields that have been written. -/
def structFields : List (Text × JsonValue) → Fields → Fields
  | [], fields => fields
  | (name, value) :: members, fields =>
    structFields members (SortedAssoc.set name (jsonToValue value) fields)

def listValues : List JsonValue → List Value
  | [] => []
  | item :: items => jsonToValue item :: listValues items

end

section Options

variable (options : ProtoJsonParseOptions)

/-! ## `ValidateFields` -/

/-- `ValidateField`. -/
def validateField (isNull : Bool) (field : Field) (seen : List Text) (root : Bool) : Decoded Unit :=
  if options.rejectDuplicateTopLevelFields && seen.contains field.name then .error kDuplicateField
  else if isNull && root && options.rejectTopLevelNullFields then .error kNullField
  else .ok ()

mutual

/-- `ValidateNestedField`. -/
def validateNestedField (root : Bool) : JsonValue → Label → FieldType → Decoded Unit
  | .object entries, .map _, .message wellKnownType fields =>
    validateEntries entries ⟨wellKnownType, fields⟩
  | .array items, .repeated, .message wellKnownType fields =>
    validateItems root items ⟨wellKnownType, fields⟩
  | .object members, .repeated, .message wellKnownType fields =>
    if wellKnownType.isSome then .ok () else validateMembers false members ⟨wellKnownType, fields⟩ []
  | .object members, .single, .message wellKnownType fields =>
    if wellKnownType.isSome then .ok () else validateMembers false members ⟨wellKnownType, fields⟩ []
  | _, _, _ => .ok ()

/-- The loop of `ValidateFields`. -/
def validateMembers (root : Bool) : List (Text × JsonValue) → Descriptor → List Text → Decoded Unit
  | [], _, _ => .ok ()
  | (name, value) :: members, descriptor, seen =>
    match findField descriptor name with
    | none => validateMembers root members descriptor seen
    | some field => do
      validateField options (isNull value) field seen root
      validateNestedField root value field.label field.type
      validateMembers root members descriptor (field.name :: seen)

/-- The loop over the elements of a repeated message field. -/
def validateItems (root : Bool) : List JsonValue → Descriptor → Decoded Unit
  | [], _ => .ok ()
  | item :: items, descriptor =>
    if root && options.rejectTopLevelNullFields && isNull item then .error kNullElement
    else do
      validateNestedField false item .single descriptor.type
      validateItems root items descriptor

/-- The loop over the entries of a map of messages. -/
def validateEntries : List (Text × JsonValue) → Descriptor → Decoded Unit
  | [], _ => .ok ()
  | (_, value) :: entries, descriptor => do
    validateNestedField false value .single descriptor.type
    validateEntries entries descriptor

end

/-- `ValidateFields`. -/
def validateFields (value : JsonValue) (descriptor : Descriptor) (root : Bool) : Decoded Unit :=
  match value with
  | .object members =>
    if descriptor.wellKnownType.isSome then .ok () else validateMembers options root members descriptor []
  | _ => .ok ()

/-! ## Decoding -/

variable (protobuf : Protobuf)

/-- The check with which `JsonToMessage` begins. -/
def validateStrictly (descriptor : Descriptor) (value : JsonValue) : Decoded Unit :=
  if options.rejectTopLevelNullFields || options.rejectDuplicateTopLevelFields then
    validateFields options value descriptor true
  else .ok ()

/-- The branch of `JsonToMessage` that leaves the decoding to protobuf. -/
def decodeByProtobuf (descriptor : Descriptor) (value : JsonValue) : Decoded Value := do
  validateFields { options with rejectDuplicateTopLevelFields := true } value descriptor true
  let fields ← protobuf.jsonStringToMessage options.ignoreUnknownFields descriptor value
  pure (.message fields)

/-- `JsonToMessage` for a message that `NeedsProtobufDecoder`. -/
def decodeSpecial (descriptor : Descriptor) (value : JsonValue) : Decoded Value := do
  validateStrictly options descriptor value
  match descriptor.wellKnownType, value with
  | some .value, value => pure (jsonToValue value)
  | some .struct, .object members => pure (jsonToValue (.object members))
  | some .listValue, .array items => pure (jsonToValue (.array items))
  | _, value => decodeByProtobuf options protobuf descriptor value

/-- `ReadInt32`. What `from_chars` reads of a token, `Int32Value` reads as well. -/
def readInt32 (value : JsonValue) : Decoded Int :=
  match protobuf.int32Value value with
  | some number => .ok number
  | none => .error kInvalidField

/-- `DecodeSingleField`, but for messages. An unknown enum name sets nothing if unknown fields are ignored. -/
def decodeScalar (value : JsonValue) : FieldType → Decoded (Option Value)
  | .message wellKnownType fields =>
    if needsProtobufDecoder ⟨wellKnownType, fields⟩ then
      some <$> decodeSpecial options protobuf ⟨wellKnownType, fields⟩ value
    else .error kIncorrectType
  | .string =>
    match value with
    | .string text => .ok (some (.text text))
    | _ => .error kIncorrectType
  | .bytes => (some ∘ Value.bytes) <$> protobuf.bytesValue value
  | .bool =>
    match value with
    | .bool b => .ok (some (.bool b))
    | _ => .error kIncorrectType
  | .int32 => (some ∘ Value.int32) <$> readInt32 protobuf value
  | .enum values =>
    match value with
    | .string name =>
      match values.find? fun entry => entry.1 == name with
      | some entry => .ok (some (.enum entry.2))
      | none => if options.ignoreUnknownFields then .ok none else .error kInvalidField
    | value => (some ∘ Value.enum) <$> readInt32 protobuf value
  | .other => .error kInvalidField

/-- What `DecodeField` leaves of a message. -/
def setField (field : Field) (decoded : Option Value) (message : Fields) : Fields :=
  match decoded with
  | some value => SortedAssoc.set field.name value message
  | none => message

mutual

/-- `DecodeField`; with the label `single` it is `DecodeSingleField`. -/
def decodeField : JsonValue → Label → FieldType → Decoded (Option Value)
  | _, .map false, _ => .error kInvalidField
  | .object entries, .map true, type => (some ∘ Value.map) <$> decodeEntries entries type []
  | .array items, .repeated, type => (some ∘ Value.list) <$> decodeItems items type
  | .object members, .single, .message wellKnownType fields =>
    if needsProtobufDecoder ⟨wellKnownType, fields⟩ then
      some <$> decodeSpecial options protobuf ⟨wellKnownType, fields⟩ (.object members)
    else (some ∘ Value.message) <$> decodeMembers members ⟨wellKnownType, fields⟩ []
  | value, .single, type => decodeScalar options protobuf value type
  | _, _, _ => .error kIncorrectType

/-- The loop over the elements of a repeated field. -/
def decodeItems : List JsonValue → FieldType → Decoded (List Value)
  | [], _ => .ok []
  | item :: items, type =>
    if isNull item then .error kNullElement
    else do
      let value ← decodeField item .single type
      let values ← decodeItems items type
      pure (value.toList ++ values)

/-- The loop over the entries of a map; a value that was not set is the default. -/
def decodeEntries : List (Text × JsonValue) → FieldType → Fields → Decoded Fields
  | [], _, entries => .ok entries
  | (name, value) :: members, type, entries =>
    if isNull value then .error kNullElement
    else do
      let decoded ← decodeField value .single type
      decodeEntries members type (SortedAssoc.set name (decoded.getD (.enum 0)) entries)

/-- The loop of `DecodeMessage`. -/
def decodeMembers : List (Text × JsonValue) → Descriptor → Fields → Decoded Fields
  | [], _, message => .ok message
  | (name, value) :: members, descriptor, message =>
    match findField descriptor name with
    | none =>
      if options.ignoreUnknownFields then decodeMembers members descriptor message
      else .error kUnknownField
    | some field =>
      if isNull value then decodeMembers members descriptor message
      else if hasOneof descriptor field message then .error kDuplicateField
      else do
        let decoded ← decodeField value field.label field.type
        decodeMembers members descriptor (setField field decoded message)

end

/-- `DecodeMessage`. -/
def decodeMessage (value : JsonValue) (descriptor : Descriptor) : Decoded Value := do
  let decoded ← decodeField options protobuf value .single descriptor.type
  pure (decoded.getD (.message []))

/-- `JsonDocument::Parse`. -/
def parseDocument (simdjson : Simdjson) (json : Bytes) : Decoded JsonValue :=
  if json.length > kMaximumJsonBytes then .error kJsonSizeError
  else
    match simdjson.dom json with
    | some value => .ok value
    | none => .error kTapeError

/-- `JsonCursor`. -/
def openCursor (simdjson : Simdjson) (json : Bytes) : Decoded JsonValue :=
  match simdjson.ondemand json with
  | some value => .ok value
  | none => .error kTapeError

/-- `JsonToMessage`, up to exceptions. A value `null` contains the text, so the search in the text is left out. -/
def decodeDocument (simdjson : Simdjson) (descriptor : Descriptor) (json : Bytes) : Decoded Value := do
  let root ← parseDocument simdjson json
  if needsProtobufDecoder descriptor then decodeSpecial options protobuf descriptor root
  else do
    validateStrictly options descriptor root
    if containsNull root then decodeByProtobuf options protobuf descriptor root
    else do
      let value ← openCursor simdjson json
      decodeMessage options protobuf value descriptor

/-- `JsonToMessage`. -/
def jsonToMessage (simdjson : Simdjson) (descriptor : Descriptor) (json : Bytes) : Result Value :=
  (decodeDocument options protobuf simdjson descriptor json).mapError Error.serialization

end Options

end A2A.Core.ProtoJson
