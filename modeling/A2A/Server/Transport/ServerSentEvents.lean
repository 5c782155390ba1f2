/-
# The event streams of the HTTP+JSON and JSON-RPC transports
(`rest_transport.cpp`, `json_rpc_server_transport.cpp`).
-/
import A2A.Core.Messages
import A2A.Server.Transport.HttpResponseWriter

namespace A2A.Server.Transport

open A2A.Foundation A2A.Core

/-! ## Constants -/

def kSseHeartbeat : Bytes := ": keep-alive\n\n"
def kSseDataPrefix : Bytes := "data: "
def kSseErrorEventPrefix : Bytes := "event: error\ndata: "
def kSseEventTerminator : Bytes := "\n\n"
def kJsonRpcSseSuffix : Bytes := "\x7d\n\n"
def kJsonRpcInvalidParams : Int := -32602
def kJsonRpcInternalError : Int := -32603
def kJsonRpcVersionNotSupported : Int := -32009
def kJsonRpcServerErrorMin : Int := -32099
def kJsonRpcServerErrorMax : Int := -32000

/-- `core::MessageToJson`, for the messages that are written here. -/
structure ProtoJsonWriter where
  streamResponse : StreamResponse → Result Bytes
  value : Value → Result Bytes
  struct : Struct → Result Bytes

/-! ## HTTP+JSON events -/

/-- `BuildSseEvent`. -/
def buildSseEvent (json : ProtoJsonWriter) (event : StreamResponse) : Result Bytes :=
  match json.streamResponse event with
  | .error e => .error e
  | .ok eventJson => .ok (kSseDataPrefix ++ eventJson ++ kSseEventTerminator)

def sseErrorPayload (error : Error) : Struct :=
  let payload := ({} : Struct).set "message" (.stringValue error.message)
  match error.protocolCode with
  | none => payload
  | some protocolCode => payload.set "code" (.stringValue protocolCode)

/-- `BuildSseErrorEvent`. -/
def buildSseErrorEvent (json : ProtoJsonWriter) (error : Error) : Result Bytes :=
  match json.struct (sseErrorPayload error) with
  | .error e => .error e
  | .ok payloadJson => .ok (kSseErrorEventPrefix ++ payloadJson ++ kSseEventTerminator)

/-! ## JSON-RPC events -/

/-- `BuildSuccessEnvelopeFromJson`. -/
def buildSuccessEnvelopeFromJson (json : ProtoJsonWriter) (id : Value) (resultJson : Bytes) : Result Bytes :=
  match json.value id with
  | .error e => .error e
  | .ok idJson =>
    .ok (bytes "\x7b\"jsonrpc\":\"2.0\",\"id\":" ++ idJson ++ bytes ",\"result\":" ++ resultJson ++ bytes "\x7d")

/-- `BuildSseJsonRpcPrefix`: the envelope of an empty result, without its last brace. -/
def buildSseJsonRpcPrefix (json : ProtoJsonWriter) (id : Value) : Result Bytes :=
  match buildSuccessEnvelopeFromJson json id [] with
  | .error e => .error e
  | .ok envelope => .ok (kSseDataPrefix ++ envelope.take (envelope.length - 1))

/-- `BuildSseJsonRpcEvent`. -/
def buildSseJsonRpcEvent (json : ProtoJsonWriter) (lead : Bytes) (event : StreamResponse) : Result Bytes :=
  match json.streamResponse event with
  | .error e => .error e
  | .ok eventJson => .ok (lead ++ eventJson ++ kJsonRpcSseSuffix)

open ProtocolCodes in
/-- `ErrorInfoReason`. -/
def errorInfoReason (error : Error) : Bytes :=
  let has (code : Bytes) : Bool := error.protocolCode = some code
  if has taskNotFound then "TASK_NOT_FOUND"
  else if has taskNotCancelable then "TASK_NOT_CANCELABLE"
  else if has pushNotificationNotSupported then "PUSH_NOTIFICATION_NOT_SUPPORTED"
  else if has unsupportedOperation then "UNSUPPORTED_OPERATION"
  else if has contentTypeNotSupported then "CONTENT_TYPE_NOT_SUPPORTED"
  else if has invalidAgentResponse then "INVALID_AGENT_RESPONSE"
  else if has extendedAgentCardNotConfigured then "EXTENDED_AGENT_CARD_NOT_CONFIGURED"
  else if has versionNotSupported then "VERSION_NOT_SUPPORTED"
  else if has extensionSupportRequired then "EXTENSION_SUPPORT_REQUIRED"
  else
    match error.code with
    | .validation => "INVALID_PARAMS"
    | .unsupportedVersion => "VERSION_NOT_SUPPORTED"
    | .remoteProtocol => "UNSUPPORTED_OPERATION"
    | .network | .serialization | .internal => "INVALID_AGENT_RESPONSE"

/-- `std::from_chars` of a whole text as an `int`. -/
def wholeInt (text : Bytes) : Option Int :=
  match fromChars text with
  | .ok (value, []) =>
    if Int32.minValue.toInt ≤ value.toInt ∧ value.toInt ≤ Int32.maxValue.toInt then some value.toInt else none
  | _ => none

/-- `JsonRpcCodeFromError`. -/
def jsonRpcCodeFromError (error : Error) : Int :=
  match error.code with
  | .validation => kJsonRpcInvalidParams
  | .unsupportedVersion => kJsonRpcVersionNotSupported
  | .remoteProtocol =>
    match error.protocolCode.bind wholeInt with
    | some parsedCode => if parsedCode ≤ kJsonRpcServerErrorMax then parsedCode else kJsonRpcInternalError
    | none => kJsonRpcInternalError
  | .network | .serialization | .internal => kJsonRpcInternalError

/-- The bits of an `int` as a `double`. -/
def doubleBits (value : Int) : UInt64 :=
  if value = 0 then 0
  else
    let magnitude := value.natAbs
    let exponent := magnitude.log2
    let sign := if value < 0 then 2 ^ 63 else 0
    UInt64.ofNat (sign + (exponent + 1023) * 2 ^ 52 + (magnitude * 2 ^ (52 - exponent) - 2 ^ 52))

/-- The `ErrorInfo` entry of an error envelope. -/
def errorInfo (error : Error) : Struct :=
  let info := ((({} : Struct).set "@type" (.stringValue "type.googleapis.com/google.rpc.ErrorInfo")).set "reason"
    (.stringValue (errorInfoReason error))).set "domain" (.stringValue "a2a-protocol.org")
  let metadata : Struct := match error.protocolCode with
    | none => {}
    | some protocolCode => ({} : Struct).set "protocolCode" (.stringValue protocolCode)
  let metadata := match error.transport with
    | none => metadata
    | some transport => metadata.set "transport" (.stringValue transport)
  if error.protocolCode.isSome || error.transport.isSome then info.set "metadata" (.structValue metadata.fields) else info

/-- The envelope that `BuildJsonRpcErrorEnvelope` prints. -/
def jsonRpcErrorEnvelope (jsonRpcCode : Int) (message : Bytes) (id : Value) (error : Option Error) : Struct :=
  let errorValue := (({} : Struct).set "code" (.numberValue (doubleBits jsonRpcCode))).set
    "message" (.stringValue message)
  let errorValue := match error with
    | none => errorValue
    | some error =>
      if kJsonRpcServerErrorMin ≤ jsonRpcCode ∧ jsonRpcCode ≤ kJsonRpcServerErrorMax then
        errorValue.set "data" (.listValue [.structValue (errorInfo error).fields])
      else errorValue
  ((({} : Struct).set "jsonrpc" (.stringValue "2.0")).set "id" id).set "error" (.structValue errorValue.fields)

/-- `BuildSseJsonRpcErrorEvent`. -/
def buildSseJsonRpcErrorEvent (json : ProtoJsonWriter) (id : Value) (error : Error) : Result Bytes :=
  match json.struct (jsonRpcErrorEnvelope (jsonRpcCodeFromError error) error.message id (some error)) with
  | .error e => .error e
  | .ok envelope => .ok (kSseDataPrefix ++ envelope ++ kSseEventTerminator)

/-! ## Sessions and loops -/

/-- An answer of `Next` or `NextFor`; with no event, what `IsLive` says then. -/
inductive SessionAnswer where
  | event (event : StreamResponse)
  | nothing (live : Bool)
  | failure (error : Error)

/-- A `ServerStreamSession`: the answers it is going to give. -/
abbrev ServerStreamSession := List SessionAnswer

/-- Write a text, and go on if it was written. -/
def writeThen (stalled : Error) (chunk : Result Bytes) (next : StreamWriter) : StreamWriter :=
  match chunk with
  | .error e => .done (.error e)
  | .ok chunk =>
    (WriteProgram.writeFully stalled chunk).bind fun
      | .error e => .done (.error e)
      | .ok _ => next

def finiteLoop (stalled : Error) (buildEvent : StreamResponse → Result Bytes) (buildError : Error → Result Bytes) :
    ServerStreamSession → StreamWriter
  | [] | .nothing _ :: _ => .done (.ok ())
  | .event event :: session =>
    writeThen stalled (buildEvent event) (finiteLoop stalled buildEvent buildError session)
  | .failure error :: _ => writeThen stalled (buildError error) (.done (.ok ()))

def liveLoop (stalled : Error) (buildEvent : StreamResponse → Result Bytes) : ServerStreamSession → StreamWriter
  | [] | .nothing false :: _ => .done (.ok ())
  | .nothing true :: session => writeThen stalled (.ok kSseHeartbeat) (liveLoop stalled buildEvent session)
  | .event event :: session => writeThen stalled (buildEvent event) (liveLoop stalled buildEvent session)
  | .failure error :: _ => .done (.error error)

namespace RestTransport

def stalled : Error := .internal "Transport write returned zero bytes while streaming SSE"

/-- The stream writer of `BuildStreamingResponse`. -/
def streamingWriter (json : ProtoJsonWriter) (session : ServerStreamSession) : StreamWriter :=
  finiteLoop stalled (buildSseEvent json) (buildSseErrorEvent json) session

/-- The stream writer of `BuildSubscribeResponse`. -/
def subscribeWriter (json : ProtoJsonWriter) (session : ServerStreamSession) : StreamWriter :=
  liveLoop stalled (buildSseEvent json) session

end RestTransport

namespace JsonRpcServerTransport

def stalled : Error := .internal "Transport write returned zero bytes while streaming JSON-RPC SSE"

/-- `StreamJsonRpcSseEvents`. -/
def streamJsonRpcSseEvents (json : ProtoJsonWriter) (id : Value) (session : ServerStreamSession) : StreamWriter :=
  match buildSseJsonRpcPrefix json id with
  | .error e => .done (.error e)
  | .ok lead => liveLoop stalled (buildSseJsonRpcEvent json lead) session

/-- `StreamFiniteJsonRpcSseEvents`. -/
def streamFiniteJsonRpcSseEvents (json : ProtoJsonWriter) (id : Value) (session : ServerStreamSession) : StreamWriter :=
  match buildSseJsonRpcPrefix json id with
  | .error e => .done (.error e)
  | .ok lead => finiteLoop stalled (buildSseJsonRpcEvent json lead) (buildSseJsonRpcErrorEvent json id) session

/-- The stream writer of `BuildSseResponse`; `isLive` is what the session says at first. -/
def sseWriter (json : ProtoJsonWriter) (id : Value) (isLive : Bool) (session : ServerStreamSession) : StreamWriter :=
  if isLive then streamJsonRpcSseEvents json id session else streamFiniteJsonRpcSseEvents json id session

end JsonRpcServerTransport

end A2A.Server.Transport
