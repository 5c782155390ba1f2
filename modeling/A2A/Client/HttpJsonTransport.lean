/-
# The requests of the HTTP+JSON client (`http_json_transport.cpp`,
`http_json_transport_internal.cpp`, `http_json_streaming.cpp`, `request_headers.h`).
-/
import A2A.Server.Transport.RestTransport

namespace A2A.Client

open A2A.Foundation A2A.Core
open A2A.Server.Transport (HttpHeaders kMethodGet kMethodPost kMethodDelete kContentTypeHeaderName
  kContentTypeApplicationJson kVersionHeaderName kExtensionsHeaderName kPushNotificationConfigsSegment)

/-! ## Interfaces and options -/

/-- `PreferredTransport`. -/
inductive PreferredTransport where
  | rest
  | jsonRpc
  | grpc
  deriving DecidableEq

/-- `ResolvedInterface`, as far as requests depend on it. -/
structure ResolvedInterface where
  transport : PreferredTransport := .rest
  url : Bytes

/-- `CallOptions`, as far as requests depend on it. -/
structure CallOptions where
  headers : HttpHeaders := .empty
  extensions : List Bytes := []
  authHook : Option (HttpHeaders → HttpHeaders) := none
  credentials : Option (Result (List (Bytes × Bytes))) := none
  protocolVersion : Bytes := "1.0"

/-- `HttpRequest`. -/
structure HttpRequest where
  method : Bytes
  url : Bytes
  headers : HttpHeaders
  body : Bytes

/-- `HttpOperation`. -/
structure HttpOperation where
  method : Bytes
  endpoint : Bytes

/-! ## Headers -/

def kAcceptHeaderName : Bytes := "Accept"
def kContentTypeTextEventStream : Bytes := "text/event-stream"
def kInvalidProtocolVersion : Bytes := "A2A protocol version must be Major.Minor or Major.Minor.Patch"

/-- `Extensions::Format`. -/
def formatExtensions (extensions : List Bytes) : Bytes := A2A.Server.Transport.Extensions.format extensions

/-- `ApplyProtocolVersion`. -/
def applyProtocolVersion (options : CallOptions) (headers : HttpHeaders) : Result HttpHeaders :=
  match Version.majorMinor (options.protocolVersion.map byteChar) with
  | none => .error (.validation kInvalidProtocolVersion)
  | some version =>
    let aliases := (headers.rows.map Prod.fst).filter fun name => equalsAsciiCaseInsensitive name kVersionHeaderName
    .ok ((headers.deleteAll aliases).put
      (kVersionHeaderName, if options.protocolVersion.isEmpty then [] else version.map charByte))

/-- `ApplyCredentialProvider`, where there is a provider. -/
def applyCredentials (credentials : Option (Result (List (Bytes × Bytes)))) (headers : HttpHeaders) :
    Result HttpHeaders :=
  match credentials with
  | none => .ok headers
  | some (.error e) => .error e
  | some (.ok authHeaders) => .ok (authHeaders.foldl (fun headers header => headers.put header) headers)

/-- What all requests do with their headers: extensions, the hook, credentials and the version. -/
def applyOptions (options : CallOptions) (headers : HttpHeaders) : Result HttpHeaders := do
  let headers := if options.extensions.isEmpty then headers
    else headers.put (kExtensionsHeaderName, formatExtensions options.extensions)
  let headers := (options.authHook.map fun hook => hook headers).getD headers
  let headers ← applyCredentials options.credentials headers
  applyProtocolVersion options headers

/-! ## URLs -/

namespace EndpointMap

def kTaskCollection : Bytes := "/tasks"
def kPushConfigCollection : Bytes := kPushNotificationConfigsSegment

end EndpointMap

/-- `JoinUrl`; a slash is written 47. -/
def joinUrl (interfaceBaseUrl rpcEndpoint : Bytes) : Bytes :=
  let base := interfaceBaseUrl.rdropWhile (· = 47)
  if rpcEndpoint.isEmpty then base
  else if rpcEndpoint.head? = some 47 then base ++ rpcEndpoint
  else base ++ 47 :: rpcEndpoint

/-- `BuildTaskPath`. -/
def buildTaskPath (taskId : Bytes) : Bytes := EndpointMap.kTaskCollection ++ 47 :: taskId

/-- `BuildTaskPushConfigCollectionPath`. -/
def buildTaskPushConfigCollectionPath (taskId : Bytes) : Bytes :=
  buildTaskPath taskId ++ EndpointMap.kPushConfigCollection

/-- `BuildTaskPushConfigPath`. -/
def buildTaskPushConfigPath (taskId id : Bytes) : Bytes := buildTaskPushConfigCollectionPath taskId ++ 47 :: id

def historyQuery (request : GetTaskRequest) : Bytes :=
  (request.historyLength.map fun length => bytes "?historyLength=" ++ toDecimal length.toInt).getD []

/-- The query for a page; `pageSize` is `none` unless it is positive. -/
def pageQuery (pageSize : Option Nat) (pageToken : Bytes) : Bytes :=
  match pageSize, pageToken with
  | none, [] => []
  | some size, [] => bytes "?pageSize=" ++ decimal size
  | none, token => bytes "?pageToken=" ++ token
  | some size, token => bytes "?pageSize=" ++ (decimal size ++ (bytes "&pageToken=" ++ token))

/-! ## Calls -/

def kRestInterfaceRequiredMessage : Bytes := "HttpJsonTransport requires a REST interface"
def kRestUrlRequiredMessage : Bytes := "Resolved REST interface URL is required"
def kTaskIdRequiredMessage : Bytes := "GetTaskRequest.id is required"

/-- `ListTasksRequest` of the client. -/
structure ListTasksRequest where
  pageSize : UInt64 := 0
  pageToken : Bytes := []

/-- `HttpJsonTransport`. -/
structure HttpJsonTransport where
  resolvedInterface : ResolvedInterface
  /-- `MessageToJson` for a configuration. -/
  messageToJson : TaskPushNotificationConfig → Result Bytes

namespace HttpJsonTransport

variable (transport : HttpJsonTransport) (options : CallOptions)

/-- The beginning of `SendRequest` and of `BuildStreamingRequest`, and their end. -/
def buildRequest (operation : HttpOperation) (body : Bytes) (headers : HttpHeaders) : Result HttpRequest :=
  if transport.resolvedInterface.transport ≠ .rest then .error (.validation kRestInterfaceRequiredMessage)
  else if transport.resolvedInterface.url.isEmpty then .error (.validation kRestUrlRequiredMessage)
  else
    (applyOptions options headers).map fun headers =>
      { method := operation.method
        url := joinUrl transport.resolvedInterface.url operation.endpoint
        headers
        body }

/-- `HttpJsonTransport::SendRequest`, up to the call of the requester. -/
def sendRequest (operation : HttpOperation) (body : Bytes) : Result HttpRequest :=
  transport.buildRequest options operation body <|
    (options.headers.put (kContentTypeHeaderName, kContentTypeApplicationJson)).put
      (kAcceptHeaderName, kContentTypeApplicationJson)

/-- `BuildStreamingRequest`. -/
def buildStreamingRequest (operation : HttpOperation) (body : Bytes) : Result HttpRequest :=
  let headers := if body.isEmpty then options.headers
    else options.headers.put (kContentTypeHeaderName, kContentTypeApplicationJson)
  transport.buildRequest options operation body (headers.put (kAcceptHeaderName, kContentTypeTextEventStream))

/-- `HttpJsonTransport::GetTask`. -/
def getTask (request : GetTaskRequest) : Result HttpRequest :=
  if request.id.isEmpty then .error (.validation kTaskIdRequiredMessage)
  else
    transport.sendRequest options
      { method := kMethodGet, endpoint := buildTaskPath request.id ++ historyQuery request } []

/-- `HttpJsonTransport::SubscribeTask`. -/
def subscribeTask (request : GetTaskRequest) : Result HttpRequest :=
  if request.id.isEmpty then .error (.validation kTaskIdRequiredMessage)
  else
    transport.buildStreamingRequest options
      { method := kMethodGet, endpoint := buildTaskPath request.id ++ (bytes ":subscribe" ++ historyQuery request) } []

/-- `HttpJsonTransport::ListTasks`. -/
def listTasks (request : ListTasksRequest) : Result HttpRequest :=
  let pageSize := if request.pageSize > 0 then some request.pageSize.toNat else none
  transport.sendRequest options
    { method := kMethodGet, endpoint := EndpointMap.kTaskCollection ++ pageQuery pageSize request.pageToken } []

/-- `HttpJsonTransport::CancelTask`; the body is an object without members. -/
def cancelTask (request : CancelTaskRequest) : Result HttpRequest :=
  if request.id.isEmpty then .error (.validation "CancelTaskRequest.id is required")
  else
    transport.sendRequest options
      { method := kMethodPost, endpoint := buildTaskPath request.id ++ bytes ":cancel" } "\x7b\x7d"

/-- `HttpJsonTransport::CreateTaskPushNotificationConfig`. -/
def createTaskPushNotificationConfig (request : TaskPushNotificationConfig) : Result HttpRequest :=
  if request.taskId.isEmpty then .error (.validation "TaskPushNotificationConfig.task_id is required")
  else
    match transport.messageToJson request with
    | .error e => .error e
    | .ok body =>
      transport.sendRequest options
        { method := kMethodPost, endpoint := buildTaskPushConfigCollectionPath request.taskId } body

/-- `HttpJsonTransport::GetTaskPushNotificationConfig`. -/
def getTaskPushNotificationConfig (request : GetTaskPushNotificationConfigRequest) : Result HttpRequest :=
  if request.taskId.isEmpty then .error (.validation "GetTaskPushNotificationConfigRequest.task_id is required")
  else if request.id.isEmpty then .error (.validation "GetTaskPushNotificationConfigRequest.id is required")
  else
    transport.sendRequest options
      { method := kMethodGet, endpoint := buildTaskPushConfigPath request.taskId request.id } []

/-- `HttpJsonTransport::ListTaskPushNotificationConfigs`. -/
def listTaskPushNotificationConfigs (request : ListTaskPushNotificationConfigsRequest) : Result HttpRequest :=
  if request.taskId.isEmpty then .error (.validation "ListTaskPushNotificationConfigsRequest.task_id is required")
  else
    let pageSize := if request.pageSize > 0 then some request.pageSize.toInt.toNat else none
    transport.sendRequest options
      { method := kMethodGet
        endpoint := buildTaskPushConfigCollectionPath request.taskId ++ pageQuery pageSize request.pageToken } []

/-- `HttpJsonTransport::DeleteTaskPushNotificationConfig`. -/
def deleteTaskPushNotificationConfig (request : DeleteTaskPushNotificationConfigRequest) : Result HttpRequest :=
  if request.taskId.isEmpty then .error (.validation "DeleteTaskPushNotificationConfigRequest.task_id is required")
  else if request.id.isEmpty then .error (.validation "DeleteTaskPushNotificationConfigRequest.id is required")
  else
    transport.sendRequest options
      { method := kMethodDelete, endpoint := buildTaskPushConfigPath request.taskId request.id } []

end HttpJsonTransport

inductive HttpJsonCall where
  | getTask (request : GetTaskRequest)
  | subscribeTask (request : GetTaskRequest)
  | listTasks (request : ListTasksRequest)
  | cancelTask (request : CancelTaskRequest)
  | createPushConfig (request : TaskPushNotificationConfig)
  | getPushConfig (request : GetTaskPushNotificationConfigRequest)
  | listPushConfigs (request : ListTaskPushNotificationConfigsRequest)
  | deletePushConfig (request : DeleteTaskPushNotificationConfigRequest)

def HttpJsonCall.send (transport : HttpJsonTransport) (options : CallOptions) : HttpJsonCall → Result HttpRequest
  | .getTask request => transport.getTask options request
  | .subscribeTask request => transport.subscribeTask options request
  | .listTasks request => transport.listTasks options request
  | .cancelTask request => transport.cancelTask options request
  | .createPushConfig request => transport.createTaskPushNotificationConfig options request
  | .getPushConfig request => transport.getTaskPushNotificationConfig options request
  | .listPushConfigs request => transport.listTaskPushNotificationConfigs options request
  | .deletePushConfig request => transport.deleteTaskPushNotificationConfig options request

end A2A.Client
