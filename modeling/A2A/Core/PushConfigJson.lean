/-
# Push notification configurations as JSON.
-/
import A2A.Core.Messages
import A2A.Core.ProtoJson

namespace A2A.Core

open A2A.Foundation
open A2A.Core.AgentCard (JsonValue)
open A2A.Core.ProtoJson

namespace PushConfigJson

/-! ## Reading -/

/-- The fields of `AuthenticationInfo`. -/
def authenticationInfo : Descriptor where
  fields := [field "scheme" "scheme" .string, field "credentials" "credentials" .string]

/-- The fields of `TaskPushNotificationConfig`, in the order of their numbers. -/
def taskPushNotificationConfig : Descriptor where
  fields := [field "tenant" "tenant" .string, field "id" "id" .string, field "task_id" "taskId" .string,
    field "url" "url" .string, field "token" "token" .string,
    field "authentication" "authentication" authenticationInfo.type]

/-- The record that the decoded fields of `AuthenticationInfo` are. -/
def toAuthenticationInfo (fields : Fields) : AuthenticationInfo where
  scheme := utf8 (textOf "scheme" fields)
  credentials := utf8 (textOf "credentials" fields)

/-- The record that the decoded fields of a configuration are. -/
def toPushConfig (fields : Fields) : TaskPushNotificationConfig where
  tenant := utf8 (textOf "tenant" fields)
  id := utf8 (textOf "id" fields)
  taskId := utf8 (textOf "task_id" fields)
  url := utf8 (textOf "url" fields)
  token := utf8 (textOf "token" fields)
  authentication := (SortedAssoc.get "authentication".toList fields).map fun info => toAuthenticationInfo info.fields

/-- `JsonToMessage` for a `TaskPushNotificationConfig`, with unknown fields ignored. -/
def jsonToPushConfig (protobuf : Protobuf) (simdjson : Simdjson) (json : Bytes) : Result TaskPushNotificationConfig :=
  (jsonToMessage { ignoreUnknownFields := true } protobuf simdjson taskPushNotificationConfig json).map fun message =>
    toPushConfig message.fields

/-! ## Printing -/

/-- The texts of an `AuthenticationInfo`. -/
structure AuthenticationTexts where
  scheme : Text
  credentials : Text

/-- The texts of a configuration. -/
structure PushConfigTexts where
  tenant : Text
  id : Text
  taskId : Text
  url : Text
  token : Text
  authentication : Option AuthenticationTexts

/-- A text is printed unless it is empty. -/
def textMember (jsonName : String) (text : Text) : List (Text × JsonValue) :=
  if text = [] then [] else [(jsonName.toList, .string text)]

/-- What the printer writes of an `AuthenticationInfo`. -/
def AuthenticationTexts.members (texts : AuthenticationTexts) : List (Text × JsonValue) :=
  textMember "scheme" texts.scheme ++ textMember "credentials" texts.credentials

/-- The `AuthenticationInfo` with these texts. -/
def AuthenticationTexts.info (texts : AuthenticationTexts) : AuthenticationInfo where
  scheme := utf8 texts.scheme
  credentials := utf8 texts.credentials

namespace PushConfigTexts

variable (texts : PushConfigTexts)

/-- The authentication is printed if it is set, even without texts. -/
def authenticationMember : List (Text × JsonValue) :=
  texts.authentication.toList.map fun authentication => ("authentication".toList, .object authentication.members)

/-- What the printer writes of a configuration. -/
def members : List (Text × JsonValue) :=
  textMember "tenant" texts.tenant ++ (textMember "id" texts.id ++ (textMember "taskId" texts.taskId ++
    (textMember "url" texts.url ++ (textMember "token" texts.token ++ texts.authenticationMember))))

/-- The configuration with these texts. -/
def config : TaskPushNotificationConfig where
  tenant := utf8 texts.tenant
  id := utf8 texts.id
  taskId := utf8 texts.taskId
  url := utf8 texts.url
  token := utf8 texts.token
  authentication := texts.authentication.map AuthenticationTexts.info

end PushConfigTexts

/-- `MessageToJson` prints a configuration as documented, and both readers of simdjson read it. -/
def Prints (messageToJson : TaskPushNotificationConfig → Result Bytes) (simdjson : Simdjson) : Prop :=
  ∀ config body, messageToJson config = .ok body → ∃ texts : PushConfigTexts, config = texts.config ∧
    simdjson.dom body = some (.object texts.members) ∧ simdjson.ondemand body = some (.object texts.members)

/-! ## Fields -/

section Fields

/-- A text that is read: an empty one is not set. -/
def setText (name : String) (text : Text) (fields : Fields) : Fields :=
  if text = [] then fields else SortedAssoc.set name.toList (.text text) fields

theorem textOf_setText_self {name : String} {text : Text} {fields : Fields}
    (hfields : SortedAssoc.get name.toList fields = none) : textOf name (setText name text fields) = text := by
  unfold setText textOf
  split_ifs with htext
  · rw [hfields, htext]
  · rw [SortedAssoc.get_set_self]

theorem get_setText_of_ne {name : String} {key : Text} (hne : key ≠ name.toList) (text : Text) (fields : Fields) :
    SortedAssoc.get key (setText name text fields) = SortedAssoc.get key fields := by
  unfold setText
  split_ifs with htext
  · rfl
  · exact SortedAssoc.get_set_of_ne hne _ _

theorem textOf_congr {name : String} {fields fields' : Fields}
    (h : SortedAssoc.get name.toList fields = SortedAssoc.get name.toList fields') :
    textOf name fields = textOf name fields' := by
  unfold textOf
  rw [h]

theorem textOf_setText_of_ne {name name' : String} (hne : name.toList ≠ name'.toList) (text : Text) (fields : Fields) :
    textOf name (setText name' text fields) = textOf name fields :=
  textOf_congr (get_setText_of_ne hne text fields)

variable {options : ProtoJsonParseOptions} {protobuf : Protobuf}

/-- Reading a printed text sets its field, whatever follows. -/
theorem decodeMembers_textMember (name jsonName : String) {descriptor : Descriptor}
    (hfield : findField descriptor jsonName.toList = some (field name jsonName .string)) (text : Text)
    (members : List (Text × JsonValue)) (message : Fields) :
    decodeMembers options protobuf (textMember jsonName text ++ members) descriptor message =
      decodeMembers options protobuf members descriptor (setText name text message) := by
  unfold textMember setText
  split_ifs with htext
  · rfl
  · rw [List.singleton_append, decodeMembers, hfield]
    rfl

/-- The message that the texts of an `AuthenticationInfo` are read as. -/
def AuthenticationTexts.fields (texts : AuthenticationTexts) : Fields :=
  setText "credentials" texts.credentials (setText "scheme" texts.scheme [])

theorem decodeMembers_authentication (texts : AuthenticationTexts) :
    decodeMembers options protobuf texts.members authenticationInfo [] = .ok texts.fields := by
  rw [AuthenticationTexts.members, ← List.append_nil (textMember "credentials" _),
    decodeMembers_textMember "scheme" "scheme" rfl, decodeMembers_textMember "credentials" "credentials" rfl]
  rfl

theorem toAuthenticationInfo_fields (texts : AuthenticationTexts) : toAuthenticationInfo texts.fields = texts.info := by
  have hscheme : textOf "scheme" texts.fields = texts.scheme := by
    rw [AuthenticationTexts.fields, textOf_setText_of_ne (by decide), textOf_setText_self rfl]
  have hcredentials : textOf "credentials" texts.fields = texts.credentials :=
    textOf_setText_self (get_setText_of_ne (by decide) ..)
  rw [toAuthenticationInfo, hscheme, hcredentials]
  rfl

namespace PushConfigTexts

variable (texts : PushConfigTexts)

/-- The fields of a configuration that are texts. -/
def textFields : Fields :=
  setText "token" texts.token (setText "url" texts.url (setText "task_id" texts.taskId (setText "id" texts.id
    (setText "tenant" texts.tenant []))))

/-- The message that the texts of a configuration are read as. -/
def fields : Fields :=
  match texts.authentication with
  | none => texts.textFields
  | some authentication => SortedAssoc.set "authentication".toList (.message authentication.fields) texts.textFields

/-- The printed members are read as the fields they were printed from. -/
theorem decodeMembers_members :
    decodeMembers options protobuf texts.members taskPushNotificationConfig [] = .ok texts.fields := by
  rw [members, decodeMembers_textMember "tenant" "tenant" rfl, decodeMembers_textMember "id" "id" rfl,
    decodeMembers_textMember "task_id" "taskId" rfl, decodeMembers_textMember "url" "url" rfl,
    decodeMembers_textMember "token" "token" rfl]
  show decodeMembers _ _ _ _ texts.textFields = _
  unfold authenticationMember fields
  cases texts.authentication with
  | none => rfl
  | some authentication =>
    have hfield : findField taskPushNotificationConfig "authentication".toList =
        some (field "authentication" "authentication" authenticationInfo.type) := rfl
    have hobject : decodeField options protobuf (.object authentication.members) .single authenticationInfo.type =
        .ok (some (.message authentication.fields)) := by
      rw [Descriptor.type, decodeField, if_neg (by decide)]
      show (some ∘ ProtoJson.Value.message) <$>
        decodeMembers options protobuf authentication.members authenticationInfo [] = _
      rw [decodeMembers_authentication]
      rfl
    show decodeMembers _ _ [("authentication".toList, .object authentication.members)] _ _ = _
    rw [decodeMembers, hfield]
    show (decodeField options protobuf (.object authentication.members) .single authenticationInfo.type >>= _) = _
    rw [hobject]
    rfl

theorem textOf_fields {name : String} (hne : name.toList ≠ "authentication".toList) :
    textOf name texts.fields = textOf name texts.textFields := by
  unfold fields
  cases texts.authentication with
  | none => rfl
  | some authentication => exact textOf_congr (SortedAssoc.get_set_of_ne hne _ _)

theorem get_authentication :
    (SortedAssoc.get "authentication".toList texts.fields).map (fun info => toAuthenticationInfo info.fields) =
      texts.authentication.map AuthenticationTexts.info := by
  unfold fields
  cases texts.authentication with
  | none =>
    unfold textFields
    simp (disch := decide) only [get_setText_of_ne]
    rfl
  | some authentication =>
    rw [SortedAssoc.get_set_self]
    exact congrArg some (toAuthenticationInfo_fields authentication)

theorem textOf_textFields :
    textOf "tenant" texts.textFields = texts.tenant ∧ textOf "id" texts.textFields = texts.id ∧
      textOf "task_id" texts.textFields = texts.taskId ∧ textOf "url" texts.textFields = texts.url ∧
      textOf "token" texts.textFields = texts.token := by
  unfold textFields
  refine ⟨?_, ?_, ?_, ?_, ?_⟩
  · simp (disch := decide) only [textOf_setText_of_ne]
    exact textOf_setText_self rfl
  · simp (disch := decide) only [textOf_setText_of_ne]
    exact textOf_setText_self (get_setText_of_ne (by decide) ..)
  · simp (disch := decide) only [textOf_setText_of_ne]
    apply textOf_setText_self
    simp (disch := decide) only [get_setText_of_ne]
    rfl
  · simp (disch := decide) only [textOf_setText_of_ne]
    apply textOf_setText_self
    simp (disch := decide) only [get_setText_of_ne]
    rfl
  · apply textOf_setText_self
    simp (disch := decide) only [get_setText_of_ne]
    rfl

/-- The fields give the configuration back. -/
theorem toPushConfig_fields : toPushConfig texts.fields = texts.config := by
  obtain ⟨htenant, hid, htaskId, hurl, htoken⟩ := texts.textOf_textFields
  rw [toPushConfig, get_authentication, textOf_fields _ (by decide), textOf_fields _ (by decide),
    textOf_fields _ (by decide), textOf_fields _ (by decide), textOf_fields _ (by decide), htenant, hid, htaskId, hurl,
    htoken]
  rfl

end PushConfigTexts

end Fields

/-! ## Reading back -/

theorem membersContainNull_append (members members' : List (Text × JsonValue)) :
    membersContainNull (members ++ members') = (membersContainNull members || membersContainNull members') := by
  induction members with
  | nil => rfl
  | cons m members ih =>
    rw [List.cons_append, membersContainNull, membersContainNull, ih, Bool.or_assoc]

theorem membersContainNull_textMember (jsonName : String) (text : Text) :
    membersContainNull (textMember jsonName text) = false := by
  unfold textMember
  split_ifs with htext
  · rfl
  · rfl

/-- The printer writes no null, which the reader would refuse. -/
theorem membersContainNull_members (texts : PushConfigTexts) : membersContainNull texts.members = false := by
  have hauthentication : membersContainNull texts.authenticationMember = false := by
    unfold PushConfigTexts.authenticationMember
    cases texts.authentication with
    | none => rfl
    | some authentication =>
      show (membersContainNull authentication.members || false) = false
      rw [AuthenticationTexts.members, membersContainNull_append, membersContainNull_textMember,
        membersContainNull_textMember]
      rfl
  simp only [PushConfigTexts.members, membersContainNull_append, membersContainNull_textMember, hauthentication,
    Bool.or_false]

variable {messageToJson : TaskPushNotificationConfig → Result Bytes} {protobuf : Protobuf} {simdjson : Simdjson}
  {config : TaskPushNotificationConfig} {body : Bytes}

/-- A configuration that was printed is read back, if the text is not too long. -/
theorem jsonToPushConfig_of_prints (hprints : Prints messageToJson simdjson) (h : messageToJson config = .ok body)
    (hlength : body.length ≤ kMaximumJsonBytes) : jsonToPushConfig protobuf simdjson body = .ok config := by
  obtain ⟨texts, rfl, hdom, hondemand⟩ := hprints config body h
  have hdecode : decodeMessage { ignoreUnknownFields := true } protobuf (.object texts.members)
      taskPushNotificationConfig = .ok (.message texts.fields) := by
    rw [decodeMessage, Descriptor.type, decodeField, if_neg (by decide)]
    show (do
      let decoded ← (some ∘ ProtoJson.Value.message) <$>
        decodeMembers { ignoreUnknownFields := true } protobuf texts.members taskPushNotificationConfig []
      pure (decoded.getD (.message []))) = _
    rw [texts.decodeMembers_members]
    rfl
  have hread : jsonToMessage { ignoreUnknownFields := true } protobuf simdjson taskPushNotificationConfig body =
      .ok (.message texts.fields) := by
    have hnull : containsNull (.object texts.members) = false := membersContainNull_members texts
    unfold jsonToMessage decodeDocument parseDocument openCursor
    rw [if_neg (Nat.not_lt.mpr hlength), hdom, hondemand]
    show Except.mapError _ (if containsNull (.object texts.members) = true then _ else
      decodeMessage { ignoreUnknownFields := true } protobuf (.object texts.members) taskPushNotificationConfig) = _
    rw [hnull, if_neg Bool.false_ne_true, hdecode]
    rfl
  rw [jsonToPushConfig, hread]
  exact congrArg Except.ok texts.toPushConfig_fields

/-- A text that is too long is refused before it is parsed. -/
theorem jsonToPushConfig_of_long (hlength : kMaximumJsonBytes < body.length) :
    jsonToPushConfig protobuf simdjson body = .error (.serialization kJsonSizeError) := by
  unfold jsonToPushConfig jsonToMessage decodeDocument parseDocument
  rw [if_pos hlength]
  rfl

end PushConfigJson

end A2A.Core
