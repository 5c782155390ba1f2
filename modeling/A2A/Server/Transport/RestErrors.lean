/-
# Errors between the REST server and its client.
-/
import A2A.Client.SseSession
import A2A.Server.Transport.ServerSentEvents

namespace A2A.Server.Transport

open A2A.Foundation A2A.Core A2A.Client

namespace RestTransport

/-! ## The server (`rest_transport.cpp`) -/

/-- `RestResponse`. -/
structure RestResponse where
  httpStatus : Int
  headers : HttpHeaders
  body : Bytes

/-- `ErrorStatusName`. -/
def errorStatusName (httpStatus : Int) : Bytes :=
  match httpStatus with
  | 400 => "INVALID_ARGUMENT"
  | 404 => "NOT_FOUND"
  | 409 => "FAILED_PRECONDITION"
  | 415 => "UNSUPPORTED_MEDIA_TYPE"
  | 502 | 500 => "INTERNAL"
  | 503 => "UNAVAILABLE"
  | _ => "UNKNOWN"

open ProtocolCodes in
/-- `ErrorInfoReason`. -/
def errorInfoReason (error : Error) : Bytes :=
  let has (code : Bytes) : Bool := error.protocolCode = some code
  if has taskNotFound then "TASK_NOT_FOUND"
  else if has taskNotCancelable then "TASK_NOT_CANCELABLE"
  else if has pushNotificationNotSupported then "PUSH_NOTIFICATION_NOT_SUPPORTED"
  else if has unsupportedOperation then "UNSUPPORTED_OPERATION"
  else if has contentTypeNotSupported then "CONTENT_TYPE_NOT_SUPPORTED"
  else
    match error.code with
    | .unsupportedVersion => "VERSION_NOT_SUPPORTED"
    | .remoteProtocol | .validation => "UNSUPPORTED_OPERATION"
    | _ => "INVALID_AGENT_RESPONSE"

/-- `ToHttpStatus`. -/
def toHttpStatus (error : Error) : Int :=
  match error.httpStatus, error.code with
  | some httpStatus, _ => httpStatus
  | none, .validation | none, .unsupportedVersion => 400
  | none, .network => 503
  | none, .remoteProtocol => 502
  | none, _ => 500

def kFailedToSerializeBody : Bytes :=
  "\x7b\"error\":\x7b\"code\":500,\"status\":\"INTERNAL\",\"message\":\"Failed to serialize error\"\x7d\x7d"

/-- Protobuf JSON for `Struct`: an object, which is read as a struct with the same entries. -/
structure StructJson extends ProtoJsonWriter where
  /-- `JsonToMessage` into a `Struct`. -/
  parse : Bytes → Option Struct
  reads : ∀ written text, struct written = .ok text →
    text.head? = some 123 ∧ ∃ read, parse text = some read ∧ ∀ name, read.find name = written.find name
  reads_failed : ∀ read, parse kFailedToSerializeBody = some read → read.find "code" = none

/-- The `google.rpc.ErrorInfo` of an error. -/
def errorInfo (error : Error) : Struct :=
  let info := ((({} : Struct).set "@type" (.stringValue "type.googleapis.com/google.rpc.ErrorInfo")).set "reason"
    (.stringValue (errorInfoReason error))).set "domain" (.stringValue "a2a-protocol.org")
  if error.transport.isSome ∨ error.protocolCode.isSome then
    let metadata := error.transport.elim ({} : Struct) fun transport => .set {} "transport" (.stringValue transport)
    let metadata := error.protocolCode.elim metadata fun code => metadata.set "protocolCode" (.stringValue code)
    info.set "metadata" (.structValue metadata.fields)
  else info

/-- The envelope of `RestTransport::BuildErrorResponse`. -/
def errorEnvelope (error : Error) : Struct :=
  let node := (((({} : Struct).set "code" (.numberValue (doubleBits (toHttpStatus error)))).set "status"
    (.stringValue (errorStatusName (toHttpStatus error)))).set "message" (.stringValue error.message)).set "details"
    (.listValue [.structValue (errorInfo error).fields])
  ({} : Struct).set "error" (.structValue node.fields)

variable (json : StructJson)

/-- `RestTransport::BuildErrorResponse`. -/
def buildErrorResponse (error : Error) : RestResponse where
  httpStatus := toHttpStatus error
  headers := Table.put .empty (kContentTypeHeaderName, kContentTypeApplicationJson)
  body :=
    match json.struct (errorEnvelope error) with
    | .ok text => text
    | .error _ => kFailedToSerializeBody

/-- The response of `RestTransport::Handle` to an error of the dispatcher. -/
def dispatchErrorResponse (error : Error) : RestResponse := buildErrorResponse json (error.withTransport "rest")

/-! ## The client (`http_json_transport_internal.cpp`) -/

def stringMember (payload name : Bytes) : Option Bytes :=
  match (json.parse payload).bind (·.find name) with
  | some (.stringValue text) => some text
  | _ => none

/-- The response as the client gets it. -/
def RestResponse.received (response : RestResponse) : HttpClientResponse where
  statusCode := response.httpStatus
  headers := response.headers
  body := response.body

theorem stringMember_of_struct {written : Struct} {text : Bytes} (h : json.struct written = .ok text) (name : Bytes) :
    stringMember json text name = match written.find name with
      | some (.stringValue value) => some value
      | _ => none := by
  obtain ⟨-, read, hparse, hfind⟩ := json.reads written text h
  rw [stringMember, hparse, Option.bind_some, hfind]

/-- No text of the name `code` stands at the top of the body of an error. -/
theorem stringMember_body (error : Error) : stringMember json (buildErrorResponse json error).body "code" = none := by
  unfold buildErrorResponse
  -- the envelope, whose only member is `error`, or the fixed body if the printer fails
  cases hwritten : json.struct (errorEnvelope error) with
  | ok text =>
    rw [stringMember_of_struct json hwritten]
    rfl
  | error e =>
    unfold stringMember
    cases hparse : json.parse kFailedToSerializeBody with
    | none => rfl
    | some read => rw [Option.bind_some, json.reads_failed read hparse]

/-- The client's error has the status of the response and no protocol code. -/
theorem buildHttpError_received (error : Error) (method endpoint : Bytes) :
    let built := buildHttpError (stringMember json) method endpoint (dispatchErrorResponse json error).received
    built.httpStatus = some (toHttpStatus error) ∧ built.protocolCode = none := by
  have hbody : stringMember json (dispatchErrorResponse json error).received.body "code" = none :=
    stringMember_body json (error.withTransport "rest")
  unfold buildHttpError
  dsimp only
  rw [hbody]
  split_ifs <;> exact ⟨rfl, rfl⟩

/-- The client has the status of an error. It has its protocol code exactly if there is none, although it has the code of
an SSE error event. -/
theorem client_recovers_code_iff (error : Error) (method endpoint : Bytes) :
    let built := buildHttpError (stringMember json) method endpoint (dispatchErrorResponse json error).received
    built.httpStatus = some (toHttpStatus error) ∧ (built.protocolCode = error.protocolCode ↔ error.protocolCode = none) ∧
      ∀ code text, error.protocolCode = some code → json.struct (sseErrorPayload error) = .ok text →
        (buildRemoteStreamEventError (stringMember json) text).protocolCode = some code := by
  obtain ⟨hstatus, hnone⟩ := buildHttpError_received json error method endpoint
  refine ⟨hstatus, ?_, fun code text hcode htext => ?_⟩
  · rw [hnone]
    exact eq_comm
  · -- an SSE error event has its code at the top, where `BuildRemoteStreamEventError` looks
    have hmembers := stringMember_of_struct json htext
    unfold buildRemoteStreamEventError
    dsimp only
    rw [hmembers, hmembers]
    unfold sseErrorPayload
    rw [hcode]
    rfl

noncomputable def StructJson.printsOnly (written : Struct) (text : Bytes) (hobject : text.head? = some 123)
    (hother : text ≠ kFailedToSerializeBody) : StructJson :=
  haveI := Classical.decEq Struct
  { streamResponse := fun _ => .error (.internal "not printed")
    value := fun _ => .error (.internal "not printed")
    struct := fun s => if s = written then .ok text else .error (.internal "not printed")
    parse := fun t => if t = text then some written else none
    reads := by
      intro s t h
      split_ifs at h with hs
      obtain rfl := Except.ok.inj h
      exact ⟨hobject, written, if_pos rfl, fun name => by rw [hs]⟩
    reads_failed := by
      intro read h
      rw [if_neg (Ne.symm hother)] at h
      exact nomatch h }

def kTaskNotFoundBody : Bytes :=
  "\x7b\"error\":\x7b\"code\":404,\"status\":\"NOT_FOUND\",\"message\":\"task not found\",\"details\":[\x7b\"@type\":" ++
  "\"type.googleapis.com/google.rpc.ErrorInfo\",\"reason\":\"TASK_NOT_FOUND\",\"domain\":\"a2a-protocol.org\"," ++
  "\"metadata\":\x7b\"transport\":\"rest\",\"protocolCode\":\"-32001\"\x7d\x7d]\x7d\x7d"

/-- A task that is not there: the response names the code `-32001`, the error of the client has none. -/
theorem task_not_found_loses_code :
    ∃ json : StructJson, (dispatchErrorResponse json (ProtocolErrors.taskNotFound)).body = kTaskNotFoundBody ∧
      (ProtocolErrors.taskNotFound).protocolCode = some "-32001" ∧
      (buildHttpError (stringMember json) "GET" "/tasks/t1"
        (dispatchErrorResponse json (ProtocolErrors.taskNotFound)).received).protocolCode = none := by
  let error := (ProtocolErrors.taskNotFound).withTransport "rest"
  let json := StructJson.printsOnly (errorEnvelope error) kTaskNotFoundBody (by decide) (by decide)
  have hprinted : json.struct (errorEnvelope error) = .ok kTaskNotFoundBody := if_pos rfl
  refine ⟨json, ?_, rfl, (buildHttpError_received json _ _ _).2⟩
  unfold dispatchErrorResponse buildErrorResponse
  rw [hprinted]

end RestTransport

end A2A.Server.Transport
