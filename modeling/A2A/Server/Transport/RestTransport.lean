/-
# From a REST request to the dispatcher (`rest_transport.cpp`).
-/
import A2A.Server.DispatchTypes
import A2A.Server.Transport.RequestHeaders

namespace A2A.Server.Transport

open A2A.Foundation A2A.Core A2A.Server.Dispatch A2A.Server.Tasks

/-! ## Requests -/

def kMethodGet : Bytes := "GET"
def kMethodPost : Bytes := "POST"
def kMethodDelete : Bytes := "DELETE"

namespace RestEndpointPaths

def kSendMessage : Bytes := "/message:send"
def kSendStreamingMessage : Bytes := "/message:stream"
def kTaskCollection : Bytes := "/tasks"
def kTaskResourcePrefix : Bytes := "/tasks/"
def kTaskCancelSuffix : Bytes := ":cancel"
def kTaskSubscribeSuffix : Bytes := ":subscribe"

end RestEndpointPaths

open RestEndpointPaths

def kPushNotificationConfigsSegment : Bytes := "/pushNotificationConfigs"

/-- `std::unordered_map<std::string, std::string>` of the parameters of a query. -/
abbrev QueryParams := Table fun parameter : Bytes × Bytes => parameter.1

/-- `RestRequest`. -/
structure RestRequest where
  method : Bytes
  path : Bytes
  queryParams : QueryParams
  headers : HttpHeaders
  body : Bytes

/-- `JsonToMessage` for the bodies of requests, with unknown fields ignored. -/
structure RequestBodies where
  sendMessage : Bytes → Result SendMessageRequest
  pushConfig : Bytes → Result TaskPushNotificationConfig

/-! ## Paths -/

/-- The last check of a task id from a path; 47 is a slash. -/
def checkTaskId (id : Bytes) : Option Bytes := if id.isEmpty ∨ 47 ∈ id then none else some id

/-- `ParseTaskIdFromPath`. -/
def parseTaskIdFromPath (path : Bytes) (forCancel : Bool) : Option Bytes :=
  if ¬ kTaskResourcePrefix.isPrefixOf path then none
  else
    let suffix := path.drop kTaskResourcePrefix.length
    if suffix.isEmpty then none
    else if forCancel then
      if ¬ kTaskCancelSuffix.isSuffixOf suffix then none
      else checkTaskId (suffix.take (suffix.length - kTaskCancelSuffix.length))
    else if kTaskCancelSuffix.isSuffixOf suffix ∨ kTaskSubscribeSuffix.isSuffixOf suffix then none
    else checkTaskId suffix

/-- `ParseTaskIdFromActionPath`. No suffix overlaps the lead, so the length of the id does not wrap. -/
def parseTaskIdFromActionPath (path actionSuffix : Bytes) : Option Bytes :=
  if ¬ kTaskResourcePrefix.isPrefixOf path ∨ ¬ actionSuffix.isSuffixOf path then none
  else
    let idStart := kTaskResourcePrefix.length
    checkTaskId ((path.drop idStart).take (path.length - idStart - actionSuffix.length))

/-- `PushConfigPathParts`. -/
structure PushConfigPathParts where
  taskId : Bytes
  configId : Bytes := []
  collection : Bool := false

/-- `ParsePushConfigPath`. -/
def parsePushConfigPath (path : Bytes) : Option PushConfigPathParts :=
  if ¬ kTaskResourcePrefix.isPrefixOf path then none
  else
    match breakOn kPushNotificationConfigsSegment (path.drop kTaskResourcePrefix.length) with
    | none | some ([], _) => none
    | some (taskId, remainder) =>
      if 47 ∈ taskId then none
      else
        match remainder with
        | [] => some { taskId, collection := true }
        | lead :: configId =>
          if lead ≠ 47 ∨ configId.isEmpty ∨ 47 ∈ configId then none else some { taskId, configId }

/-! ## Bodies -/

/-- `ExpectsJsonRequestBody`. -/
def expectsJsonRequestBody (request : RestRequest) : Bool :=
  if request.method ≠ kMethodPost then false
  else if request.path = kSendMessage ∨ request.path = kSendStreamingMessage then true
  else if (parseTaskIdFromPath request.path true).isSome then true
  else (parsePushConfigPath request.path).any PushConfigPathParts.collection

/-- `ValidateJsonRequestContentType`. -/
def validateJsonRequestContentType (request : RestRequest) : Option Error :=
  if ¬ expectsJsonRequestBody request then none
  else if hasJsonContent request.headers then none
  else some (ProtocolErrors.contentTypeNotSupported.withTransport "rest")

/-! ## Queries -/

/-- The loop of `ParsePageSize`; `std::size_t` wraps round. -/
def parsePageSizeLoop : Bytes → Nat → Option Nat
  | [], parsed => some parsed
  | c :: rest, parsed =>
    if ¬ isDigitByte c then none else parsePageSizeLoop rest ((parsed * 10 + (c.toNat - 48)) % sizeValues)

/-- `ParsePageSize`; the largest `int` is 2147483647. -/
def parsePageSize (rawPageSize : Bytes) : Int :=
  if rawPageSize.isEmpty then 0
  else
    match parsePageSizeLoop rawPageSize 0 with
    | none => -1
    | some parsed => if parsed > 2147483647 then -1 else parsed

/-- `LookupQuery`. -/
def lookupQuery (request : RestRequest) (key : Bytes) : Option Bytes := (request.queryParams.find key).map Prod.snd

/-- `ApplyHistoryLengthQuery`; false is `none`. -/
def applyHistoryLengthQuery (request : RestRequest) (getTaskRequest : GetTaskRequest) : Option GetTaskRequest :=
  match lookupQuery request "historyLength" with
  | none => some getTaskRequest
  | some raw =>
    if parsePageSize raw < 0 then none
    else some { getTaskRequest with historyLength := some (Int32.ofInt (parsePageSize raw)) }

/-! ## Dispatch requests -/

/-- `BuildMessageDispatchRequest`. -/
def buildMessageDispatchRequest (bodies : RequestBodies) (request : RestRequest) : Option DispatchRequest :=
  if request.method ≠ kMethodPost ∨ (request.path ≠ kSendMessage ∧ request.path ≠ kSendStreamingMessage) then none
  else
    match bodies.sendMessage request.body with
    | .error _ => none
    | .ok payload =>
      some
        { operation := if request.path = kSendStreamingMessage then .sendStreamingMessage else .sendMessage
          payload := .sendMessage payload }

/-- The page size of `BuildListTasksDispatchRequest`. -/
def listTasksPageSize (request : RestRequest) : Option Nat :=
  match lookupQuery request "pageSize" with
  | none => (normalizeListTasksPageSize none).toOption
  | some raw =>
    if parsePageSize raw < 0 then none
    else (normalizeListTasksPageSize (some (Int64.ofInt (parsePageSize raw)))).toOption

/-- The history length of a list request: `none` if refused, `some none` if not given. -/
def listTasksHistoryLength (request : RestRequest) : Option (Option Nat) :=
  match lookupQuery request "historyLength" with
  | none => some none
  | some raw => if parsePageSize raw < 0 then none else some (some (parsePageSize raw).toNat)

/-- `BuildListTasksDispatchRequest`. -/
def buildListTasksDispatchRequest (request : RestRequest) : Option DispatchRequest :=
  if request.method ≠ kMethodGet ∨ request.path ≠ kTaskCollection then none
  else
    match listTasksPageSize request with
    | none => none
    | some pageSize =>
      match listTasksHistoryLength request with
      | none => none
      | some historyLength =>
        some
          { operation := .listTasks
            payload := .listTasks
              { pageSize
                pageToken := (lookupQuery request "pageToken").getD []
                contextId := (lookupQuery request "contextId").getD []
                historyLength
                includeArtifacts := lookupQuery request "includeArtifacts" = some (bytes "true") } }

/-- `BuildGetTaskDispatchRequest`. -/
def buildGetTaskDispatchRequest (request : RestRequest) : Option DispatchRequest :=
  if request.method ≠ kMethodGet then none
  else
    match parseTaskIdFromPath request.path false with
    | none => none
    | some taskId =>
      (applyHistoryLengthQuery request { id := taskId }).map fun payload =>
        { operation := .getTask, payload := .getTask payload }

/-- `BuildCancelTaskDispatchRequest`. -/
def buildCancelTaskDispatchRequest (request : RestRequest) : Option DispatchRequest :=
  if request.method ≠ kMethodPost then none
  else
    (parseTaskIdFromPath request.path true).map fun taskId =>
      { operation := .cancelTask, payload := .cancelTask { id := taskId } }

def listPushConfigsRequest (request : RestRequest) (taskId : Bytes) : ListTaskPushNotificationConfigsRequest where
  taskId
  pageSize := ((lookupQuery request "pageSize").map fun raw => Int32.ofInt (parsePageSize raw)).getD 0
  pageToken := (lookupQuery request "pageToken").getD []

/-- `BuildPushConfigDispatchRequest`. -/
def buildPushConfigDispatchRequest (bodies : RequestBodies) (request : RestRequest) : Option DispatchRequest :=
  match parsePushConfigPath request.path with
  | none => none
  | some path =>
    if request.method = kMethodPost ∧ path.collection then
      match bodies.pushConfig request.body with
      | .error _ => none
      | .ok payload =>
        some
          { operation := .createTaskPushNotificationConfig
            payload := .createPushConfig { payload with taskId := path.taskId } }
    else if request.method = kMethodGet ∧ path.collection then
      some
        { operation := .listTaskPushNotificationConfigs
          payload := .listPushConfigs (listPushConfigsRequest request path.taskId) }
    else if request.method = kMethodGet ∧ ¬ path.collection then
      some
        { operation := .getTaskPushNotificationConfig
          payload := .getPushConfig { taskId := path.taskId, id := path.configId } }
    else if request.method = kMethodDelete ∧ ¬ path.collection then
      some
        { operation := .deleteTaskPushNotificationConfig
          payload := .deletePushConfig { taskId := path.taskId, id := path.configId } }
    else none

namespace RestTransport

/-- `RestTransport::BuildDispatchRequest`. -/
def buildDispatchRequest (bodies : RequestBodies) (request : RestRequest) : Option DispatchRequest :=
  (buildPushConfigDispatchRequest bodies request).or <|
    (buildMessageDispatchRequest bodies request).or <|
      (buildListTasksDispatchRequest request).or <|
        (buildGetTaskDispatchRequest request).or (buildCancelTaskDispatchRequest request)

/-- The answer if no route fits. -/
def noRoute : Error := (Error.validation "No matching route or request was malformed").withHttpStatus 404

/-- `RestTransport::Handle` for a path that is not the one of a subscription. -/
def dispatchByPath (bodies : RequestBodies) (request : RestRequest) : Result DispatchRequest :=
  match validateJsonRequestContentType request with
  | some e => .error e
  | none =>
    match buildDispatchRequest bodies request with
    | some dispatch => .ok dispatch
    | none =>
      if request.method = kMethodGet ∧ request.path = kTaskCollection then
        .error (.validation "ListTasks request parameters are invalid")
      else .error noRoute

/-- `RestTransport::Handle`, up to the call of the dispatcher. -/
def dispatchRequest (bodies : RequestBodies) (request : RestRequest) : Result DispatchRequest :=
  if request.method = kMethodGet ∨ request.method = kMethodPost then
    match parseTaskIdFromActionPath request.path kTaskSubscribeSuffix with
    | some taskId =>
      match applyHistoryLengthQuery request { id := taskId } with
      | some payload => .ok { operation := .subscribeTask, payload := .getTask payload }
      | none => .error noRoute
    | none => dispatchByPath bodies request
  else dispatchByPath bodies request

end RestTransport

end A2A.Server.Transport
