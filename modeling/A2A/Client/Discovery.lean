/-
# Verified Agent Cards (`discovery.cpp`, `agent_card_signing.cpp`).
-/
import A2A.Core.ProtoJsonOrder
import A2A.Core.Version

namespace A2A.Client

open A2A.Foundation
open A2A.Core
open A2A.Core.AgentCard
open A2A.Core.ProtoJson

/-! ## The messages of an Agent Card -/

/-- `google.protobuf.Struct`. -/
def struct : Descriptor := { wellKnownType := some .struct, fields := [] }

/-- `AgentInterface`. -/
def agentInterface : Descriptor where
  fields := [field "url" "url" .string, field "protocol_binding" "protocolBinding" .string,
    field "tenant" "tenant" .string, field "protocol_version" "protocolVersion" .string]

/-- `AgentProvider`. -/
def agentProvider : Descriptor where
  fields := [field "url" "url" .string, field "organization" "organization" .string]

/-- `AgentExtension`. -/
def agentExtension : Descriptor where
  fields := [field "uri" "uri" .string, field "description" "description" .string,
    field "required" "required" .bool, field "params" "params" struct.type]

/-- `AgentCapabilities`. -/
def agentCapabilities : Descriptor where
  fields := [field "streaming" "streaming" .bool,
    field "push_notifications" "pushNotifications" .bool,
    field "extensions" "extensions" agentExtension.type .repeated,
    field "extended_agent_card" "extendedAgentCard" .bool]

/-- `StringList`. -/
def stringList : Descriptor where
  fields := [field "list" "list" .string .repeated]

/-- `SecurityRequirement`. -/
def securityRequirement : Descriptor where
  fields := [field "schemes" "schemes" stringList.type (.map true)]

/-- `AgentSkill`. -/
def agentSkill : Descriptor where
  fields := [field "id" "id" .string, field "name" "name" .string,
    field "description" "description" .string, field "tags" "tags" .string .repeated,
    field "examples" "examples" .string .repeated, field "input_modes" "inputModes" .string .repeated,
    field "output_modes" "outputModes" .string .repeated,
    field "security_requirements" "securityRequirements" securityRequirement.type .repeated]

/-- `AgentCardSignature`. -/
def agentCardSignature : Descriptor where
  fields := [field "protected" "protected" .string, field "signature" "signature" .string,
    field "header" "header" struct.type]

/-- `APIKeySecurityScheme`. -/
def apiKeySecurityScheme : Descriptor where
  fields := [field "description" "description" .string, field "location" "location" .string,
    field "name" "name" .string]

/-- `HTTPAuthSecurityScheme`. -/
def httpAuthSecurityScheme : Descriptor where
  fields := [field "description" "description" .string, field "scheme" "scheme" .string,
    field "bearer_format" "bearerFormat" .string]

/-- `AuthorizationCodeOAuthFlow`. -/
def authorizationCodeOAuthFlow : Descriptor where
  fields := [field "authorization_url" "authorizationUrl" .string, field "token_url" "tokenUrl" .string,
    field "refresh_url" "refreshUrl" .string, field "scopes" "scopes" .string (.map true),
    field "pkce_required" "pkceRequired" .bool]

/-- `ClientCredentialsOAuthFlow`. -/
def clientCredentialsOAuthFlow : Descriptor where
  fields := [field "token_url" "tokenUrl" .string, field "refresh_url" "refreshUrl" .string,
    field "scopes" "scopes" .string (.map true)]

/-- `ImplicitOAuthFlow`. -/
def implicitOAuthFlow : Descriptor where
  fields := [field "authorization_url" "authorizationUrl" .string,
    field "refresh_url" "refreshUrl" .string, field "scopes" "scopes" .string (.map true)]

/-- `PasswordOAuthFlow`. -/
def passwordOAuthFlow : Descriptor where
  fields := [field "token_url" "tokenUrl" .string, field "refresh_url" "refreshUrl" .string,
    field "scopes" "scopes" .string (.map true)]

/-- `DeviceCodeOAuthFlow`. -/
def deviceCodeOAuthFlow : Descriptor where
  fields := [field "device_authorization_url" "deviceAuthorizationUrl" .string,
    field "token_url" "tokenUrl" .string, field "refresh_url" "refreshUrl" .string,
    field "scopes" "scopes" .string (.map true)]

/-- A field of the oneof `flow`. -/
def flow (name jsonName : String) (descriptor : Descriptor) : Field :=
  field name jsonName descriptor.type .single (some "flow".toList)

/-- `OAuthFlows`. -/
def oauthFlows : Descriptor where
  fields := [flow "authorization_code" "authorizationCode" authorizationCodeOAuthFlow,
    flow "client_credentials" "clientCredentials" clientCredentialsOAuthFlow,
    flow "implicit" "implicit" implicitOAuthFlow, flow "password" "password" passwordOAuthFlow,
    flow "device_code" "deviceCode" deviceCodeOAuthFlow]

/-- `OAuth2SecurityScheme`. -/
def oauth2SecurityScheme : Descriptor where
  fields := [field "description" "description" .string, field "flows" "flows" oauthFlows.type,
    field "oauth2_metadata_url" "oauth2MetadataUrl" .string]

/-- `OpenIdConnectSecurityScheme`. -/
def openIdConnectSecurityScheme : Descriptor where
  fields := [field "description" "description" .string,
    field "open_id_connect_url" "openIdConnectUrl" .string]

/-- `MutualTlsSecurityScheme`. -/
def mutualTlsSecurityScheme : Descriptor where
  fields := [field "description" "description" .string]

/-- A field of the oneof `scheme`. -/
def scheme (name jsonName : String) (descriptor : Descriptor) : Field :=
  field name jsonName descriptor.type .single (some "scheme".toList)

/-- `SecurityScheme`. -/
def securityScheme : Descriptor where
  fields := [scheme "api_key_security_scheme" "apiKeySecurityScheme" apiKeySecurityScheme,
    scheme "http_auth_security_scheme" "httpAuthSecurityScheme" httpAuthSecurityScheme,
    scheme "oauth2_security_scheme" "oauth2SecurityScheme" oauth2SecurityScheme,
    scheme "open_id_connect_security_scheme" "openIdConnectSecurityScheme" openIdConnectSecurityScheme,
    scheme "mtls_security_scheme" "mtlsSecurityScheme" mutualTlsSecurityScheme]

/-- `lf.a2a.v1.AgentCard`. -/
def agentCard : Descriptor where
  fields := [field "name" "name" .string, field "description" "description" .string,
    field "supported_interfaces" "supportedInterfaces" agentInterface.type .repeated,
    field "provider" "provider" agentProvider.type, field "version" "version" .string,
    field "documentation_url" "documentationUrl" .string,
    field "capabilities" "capabilities" agentCapabilities.type,
    field "security_schemes" "securitySchemes" securityScheme.type (.map true),
    field "security_requirements" "securityRequirements" securityRequirement.type .repeated,
    field "default_input_modes" "defaultInputModes" .string .repeated,
    field "default_output_modes" "defaultOutputModes" .string .repeated,
    field "skills" "skills" agentSkill.type .repeated,
    field "signatures" "signatures" agentCardSignature.type .repeated,
    field "icon_url" "iconUrl" .string]

/-- A repeated field. -/
def listOf (name : String) (fields : Fields) : List ProtoJson.Value :=
  match SortedAssoc.get name.toList fields with
  | some (.list values) => values
  | _ => []

/-- A map field. -/
def mapOf (name : String) (fields : Fields) : Fields :=
  match SortedAssoc.get name.toList fields with
  | some (.map entries) => entries
  | _ => []

/-! ## `ValidateAgentCard` -/

def kHttpJson : Text := "HTTP+JSON".toList
def kJsonRpc : Text := "JSONRPC".toList
def kGrpc : Text := "GRPC".toList

/-- `HasHttpScheme`. -/
def hasHttpScheme (url : Text) : Bool :=
  "http://".toList.isPrefixOf url || "https://".toList.isPrefixOf url

/-- `HasGrpcScheme`. -/
def hasGrpcScheme (url : Text) : Bool :=
  "grpc://".toList.isPrefixOf url || "grpcs://".toList.isPrefixOf url || "dns:///".toList.isPrefixOf url

/-- `HasHostPortShape`. -/
def hasHostPortShape (endpoint : Text) : Bool := endpoint.contains ':'

/-- `IsValidInterfaceEndpoint`. -/
def isValidInterfaceEndpoint (protocolBinding endpoint : Text) : Bool :=
  if protocolBinding = kHttpJson ∨ protocolBinding = kJsonRpc then hasHttpScheme endpoint
  else if protocolBinding = kGrpc then
    hasGrpcScheme endpoint || hasHttpScheme endpoint || hasHostPortShape endpoint
  else false

/-- The loop over the security requirements, in the order of their names; C++ does not specify one. -/
def validateRequirements (card : Fields) : Result Unit :=
  let names := (listOf "security_requirements" card).flatMap fun requirement =>
    (mapOf "schemes" requirement.fields).map Prod.fst
  match names.find? fun name => (SortedAssoc.get name (mapOf "security_schemes" card)).isNone with
  | none => .ok ()
  | some name => .error (.validation
      (bytes "Agent Card security requirement references an unknown security scheme: " ++
        bytes (String.ofList name)))

/-- The body of the loop over the interfaces. -/
def validateInterface (card iface : Fields) : Result Unit :=
  if (textOf "protocol_binding" iface).isEmpty then
    .error (.validation "Agent Card contains an interface with unspecified protocol binding")
  else if (textOf "protocol_version" iface).isEmpty then
    .error (.validation "Agent Card contains an interface with no protocol version")
  else if !Version.isSupported (textOf "protocol_version" iface) then
    .error (.unsupportedVersion "Only A2A protocol version 1.0 is supported")
  else if (textOf "url" iface).isEmpty then
    .error (.validation "Agent Card contains an interface without a URL")
  else if !isValidInterfaceEndpoint (textOf "protocol_binding" iface) (textOf "url" iface) then
    .error (.validation "Agent Card interface endpoint is invalid for its protocol binding")
  else validateRequirements card

/-- The loop over the interfaces: the first error counts. -/
def validateInterfaces (card : Fields) : List ProtoJson.Value → Result Unit
  | [] => .ok ()
  | iface :: rest => do
    validateInterface card iface.fields
    validateInterfaces card rest

/-- `DiscoveryClient::ValidateAgentCard`. -/
def validateAgentCard (card : Fields) : Result Unit :=
  if (listOf "supported_interfaces" card).isEmpty then
    .error (.validation "Agent Card must include at least one supported interface")
  else validateInterfaces card (listOf "supported_interfaces" card)

/-! ## Verification -/

def kSignatures : Text := "signatures".toList
def kMaxAgentCardSignatures : Nat := 16
def kInvalidSignature : Bytes := "invalid Agent Card signature or key policy"

/-- The loop of `VerifyAgentCardJson` over the members of the root. -/
def verifyMembers (verifySignature : JsonValue → Text → Bool) (payload : Text) :
    List (Text × JsonValue) → Bool
  | [] => false
  | (name, value) :: members =>
    if name = kSignatures then
      match value with
      | .array signatures =>
        if signatures.length = 0 ∨ kMaxAgentCardSignatures < signatures.length then false
        else signatures.any (fun signature => verifySignature signature payload) ||
          verifyMembers verifySignature payload members
      | _ => false
    else verifyMembers verifySignature payload members

/-- `VerifyAgentCardJson`; `verifySignature` is `VerifySignature` for the payload. -/
def verifyAgentCardJson (simdjson : Simdjson) (verifySignature : JsonValue → Text → Bool)
    (json : Bytes) : Result Unit :=
  match signingJson simdjson.ondemand json kSignatures, simdjson.ondemand json with
  | some payload, some (.object members) =>
    if verifyMembers verifySignature payload members then .ok ()
    else .error (.validation kInvalidSignature)
  | _, _ => .error (.validation kInvalidSignature)

/-- `AgentCardVerifier`, which may be empty. -/
abbrev AgentCardVerifier := Option (Bytes → Result Unit)

/-- Without a verifier every text passes. -/
def AgentCardVerifier.verify (verifier : AgentCardVerifier) (json : Bytes) : Result Unit :=
  match verifier with
  | some verify => verify json
  | none => .ok ()

/-- `DiscoveryClient::VerifyAndParseAgentCard`. -/
def verifyAndParseAgentCard (verifier : AgentCardVerifier) (protobuf : Protobuf) (simdjson : Simdjson)
    (json : Bytes) : Result ProtoJson.Value := do
  verifier.verify json
  let card ← jsonToMessage { ignoreUnknownFields := true } protobuf simdjson agentCard json
  validateAgentCard card.fields
  pure card

/-! ## What the payload determines -/

variable {simdjson : Simdjson} {json : Bytes}

theorem agentCard_ordinary : needsProtobufDecoder agentCard = false := rfl

theorem findField_signatures {found : Field} (h : findField agentCard kSignatures = some found) :
    found.name = kSignatures := by
  have hname : (findField agentCard kSignatures).map FieldOf.name = some kSignatures := by
    decide +kernel
  rw [h] at hname
  exact Option.some.inj hname

/-- A card that is returned was decoded from the text. -/
theorem verifyAndParseAgentCard_cases {verifier : AgentCardVerifier} {protobuf : Protobuf}
    {card : ProtoJson.Value} (h : verifyAndParseAgentCard verifier protobuf simdjson json = .ok card) :
    decodeDocument { ignoreUnknownFields := true } protobuf simdjson agentCard json = .ok card := by
  obtain ⟨_, -, h⟩ := ok_of_bind h
  obtain ⟨message, hmessage, h⟩ := ok_of_bind h
  obtain ⟨_, -, h⟩ := ok_of_bind h
  cases h
  unfold jsonToMessage at hmessage
  generalize decodeDocument _ protobuf simdjson agentCard json = decoded at hmessage ⊢
  cases decoded with
  | error e => cases hmessage
  | ok message => exact congrArg _ (Except.ok.inj hmessage)

/-- What was signed determines the members that do not name `signatures`. -/
theorem sameField_of_signedValue {members members' : List (Text × JsonValue)} {name : Text}
    (hname : name ≠ kSignatures) (hdistinct : (Json.object members).DistinctNames)
    (hdistinct' : (Json.object members').DistinctNames)
    (h : signedValue kSignatures (.object members) = signedValue kSignatures (.object members')) :
    SameField agentCard name members members' := by
  intro m hm found hfound hkey
  have hother : m.1 ≠ kSignatures := by
    intro heq
    rw [heq] at hfound
    exact hname (hkey.symm.trans (findField_signatures hfound))
  obtain ⟨value', hm', hnorm⟩ := signedValue_determines_members (by decide) h hm hother
  exact ⟨value', hm', hnorm, hdistinct.values m hm, hdistinct'.values _ hm'⟩

/-- A text with a payload is read by both readers, as the same value. -/
theorem exists_root_of_payload (hsimdjson : simdjson.Coherent) {payload : Text} {root : JsonValue}
    (hroot : simdjson.dom json = some root)
    (hpayload : signingJson simdjson.ondemand json kSignatures = some payload) :
    simdjson.ondemand json = some root := by
  unfold signingJson at hpayload
  split_ifs at hpayload
  obtain ⟨value, hvalue, -⟩ := Option.bind_eq_some_iff.mp hpayload
  rw [hvalue, hsimdjson json root value hroot hvalue]

/-- If two texts have the same payload and no message in them names a field twice, then the cards that
are parsed from them are equal but for the signatures. -/
theorem payload_determines_card {verifier : AgentCardVerifier} {protobuf : Protobuf}
    {simdjson : Simdjson} (hsimdjson : simdjson.Coherent) (hprotobuf : ReadsProtoJson protobuf)
    {json json' : Bytes} {payload : Text} {card card' : ProtoJson.Value}
    (hpayload : signingJson simdjson.ondemand json kSignatures = some payload)
    (hpayload' : signingJson simdjson.ondemand json' kSignatures = some payload)
    (hstrict : ∀ root, simdjson.dom json = some root →
      validateFields { rejectDuplicateTopLevelFields := true } root agentCard true = .ok ())
    (hstrict' : ∀ root, simdjson.dom json' = some root →
      validateFields { rejectDuplicateTopLevelFields := true } root agentCard true = .ok ())
    (h : verifyAndParseAgentCard verifier protobuf simdjson json = .ok card)
    (h' : verifyAndParseAgentCard verifier protobuf simdjson json' = .ok card') :
    ∀ name, name ≠ kSignatures → SortedAssoc.get name card.fields = SortedAssoc.get name card'.fields := by
  intro name hname
  have hdecoded := verifyAndParseAgentCard_cases h
  have hdecoded' := verifyAndParseAgentCard_cases h'
  obtain ⟨root, hroot, -⟩ := decodeDocument_cases agentCard_ordinary hsimdjson hdecoded
  obtain ⟨root', hroot', -⟩ := decodeDocument_cases agentCard_ordinary hsimdjson hdecoded'
  have hread := exists_root_of_payload hsimdjson hroot hpayload
  have hread' := exists_root_of_payload hsimdjson hroot' hpayload'
  have hsigned := payload_determines_signedValue hread hread' hpayload hpayload'
  have hdistinct := (signingJson_spec hread hpayload).2
  have hdistinct' := (signingJson_spec hread' hpayload').2
  by_cases hobject : ∃ members, root = .object members
  · obtain ⟨members, rfl⟩ := hobject
    obtain ⟨members', rfl⟩ := signedValue_eq_object hsigned.symm
    exact decodeDocument_agree agentCard_ordinary hprotobuf hsimdjson hroot hroot'
      ⟨_, _, rfl, hstrict _ hroot⟩ ⟨_, _, rfl, hstrict' _ hroot'⟩
      (sameField_of_signedValue hname hdistinct hdistinct' hsigned)
      (sameField_of_signedValue hname hdistinct' hdistinct hsigned.symm) hdecoded hdecoded'
  · -- Nothing is excluded from a root that is no object.
    have hobject' : ¬ ∃ members', root' = .object members' := by
      rintro ⟨members', rfl⟩
      exact hobject (signedValue_eq_object hsigned)
    have hnorm : root.normalize precedesOrEqual = root'.normalize precedesOrEqual := by
      rw [signedValue_of_not_object hobject, signedValue_of_not_object hobject'] at hsigned
      exact hsigned
    rw [decodeDocument_agree_of_reordered agentCard_ordinary hprotobuf hsimdjson hroot hroot'
      (fun members heq => hobject ⟨members, heq⟩) (fun members heq => hobject' ⟨members, heq⟩)
      ⟨hnorm, hdistinct, hdistinct'⟩ hdecoded hdecoded']

/-! ## Two texts -/

namespace Cards

/-- A card with these members, one interface and one signature. -/
def card (members : List (Text × JsonValue)) (signature : String) : JsonValue :=
  .object (members ++
    [("supportedInterfaces".toList, .array [.object [("url".toList, .string "https://agent".toList),
        ("protocolBinding".toList, .string kJsonRpc),
        ("protocolVersion".toList, .string Version.kProtocolVersion)]]),
      (kSignatures, .array [.object [("protected".toList, .string "header".toList),
        ("signature".toList, .string signature.toList)]])])

/-- The text of a value whose characters are all ASCII. -/
def text (value : JsonValue) : Bytes := (Json.render number appendString value).map charByte

/-- A reader for the texts of two values. -/
def reader (first second : JsonValue) : Simdjson :=
  let read := fun json =>
    if json = text first then some first else if json = text second then some second else none
  { dom := read, ondemand := read }

theorem reader_coherent (first second : JsonValue) : (reader first second).Coherent :=
  fun _ _ _ h h' => Option.some.inj (h.symm.trans h')

theorem reader_first (first second : JsonValue) : (reader first second).dom (text first) = some first :=
  if_pos rfl

theorem reader_second {first second : JsonValue} (hne : text second ≠ text first) :
    (reader first second).dom (text second) = some second := by
  show (if text second = text first then some first else if text second = text second then some second
    else none) = some second
  rw [if_neg hne, if_pos rfl]

theorem exists_ok {ε α : Type} {x : Except ε α} (h : x.toOption.isSome = true) : ∃ a, x = .ok a := by
  cases x with
  | error e => nomatch h
  | ok a => exact ⟨a, rfl⟩

/-- A member that is a text. -/
def docs (name url : String) : Text × JsonValue := (name.toList, .string url.toList)

/-- A card, and the same with its members in another order and another signature. -/
def plain : JsonValue := card [docs "documentationUrl" "https://docs", docs "name" "agent"] "first"
@[inherit_doc plain] def reordered : JsonValue :=
  card [docs "name" "agent", docs "documentationUrl" "https://docs"] "second"

/-- A card that names a field twice, and the same with these members in the other order. -/
def twice : JsonValue :=
  card [docs "documentationUrl" "https://docs", docs "documentation_url" "https://other"] "first"
@[inherit_doc twice] def swapped : JsonValue :=
  card [docs "documentation_url" "https://other", docs "documentationUrl" "https://docs"] "first"

/-- The verifier of a client that trusts a signature for the payload of the text. -/
def verifier (simdjson : Simdjson) (json : Bytes) : AgentCardVerifier :=
  some (verifyAgentCardJson simdjson fun _ payload =>
    signingJson simdjson.ondemand json kSignatures == some payload)

end Cards

open Cards in
/-- Members in another order give the same card. -/
theorem reordered_card_is_equal : ∃ c c',
    verifyAndParseAgentCard (verifier (reader plain reordered) (text plain)) plainProtobuf
      (reader plain reordered) (text plain) = .ok c ∧
    verifyAndParseAgentCard (verifier (reader plain reordered) (text plain)) plainProtobuf
      (reader plain reordered) (text reordered) = .ok c' ∧
    ∀ name, name ≠ kSignatures → SortedAssoc.get name c.fields = SortedAssoc.get name c'.fields := by
  have hparsed (json : Bytes) : (verifyAndParseAgentCard (verifier (reader plain reordered) (text plain)) plainProtobuf
      (reader plain reordered) json).toOption.isSome → ∃ c, verifyAndParseAgentCard _ _ _ json = .ok c := exists_ok
  obtain ⟨c, hc⟩ := hparsed (text plain) (by decide +kernel)
  obtain ⟨c', hc'⟩ := hparsed (text reordered) (by decide +kernel)
  have hsome : (signingJson (reader plain reordered).ondemand (text plain) kSignatures).isSome := by
    decide +kernel
  obtain ⟨payload, hpayload⟩ := Option.isSome_iff_exists.mp hsome
  have hsame : signingJson (reader plain reordered).ondemand (text reordered) kSignatures =
      signingJson (reader plain reordered).ondemand (text plain) kSignatures := by decide +kernel
  refine ⟨c, c', hc, hc', payload_determines_card (reader_coherent _ _) readsProtoJson_plainProtobuf
    hpayload (hsame.trans hpayload) ?_ ?_ hc hc'⟩
  · intro root hroot
    rw [reader_first] at hroot
    cases hroot
    decide +kernel
  · intro root hroot
    rw [reader_second (by decide +kernel)] at hroot
    cases hroot
    decide +kernel

open Cards in
/-- A signature for the one text is a signature for the other, but the cards have different
documentation. -/
theorem payload_does_not_determine_card :
    ReadsProtoJson plainProtobuf ∧ (reader twice swapped).Coherent ∧
    (signingJson (reader twice swapped).ondemand (text twice) kSignatures ≠ none) ∧
    signingJson (reader twice swapped).ondemand (text swapped) kSignatures =
      signingJson (reader twice swapped).ondemand (text twice) kSignatures ∧
    ((verifyAndParseAgentCard (verifier (reader twice swapped) (text twice)) plainProtobuf
      (reader twice swapped) (text twice)).toOption.map fun card => textOf "documentation_url" card.fields) =
        some "https://other".toList ∧
    ((verifyAndParseAgentCard (verifier (reader twice swapped) (text twice)) plainProtobuf
      (reader twice swapped) (text swapped)).toOption.map fun card => textOf "documentation_url" card.fields) =
        some "https://docs".toList := by
  refine ⟨readsProtoJson_plainProtobuf, reader_coherent _ _, ?_⟩
  decide +kernel

end A2A.Client
