/-
# `Dispatcher::Dispatch` (`dispatcher.cpp`).
-/
import A2A.Server.SecurityPolicy

namespace A2A.Server.Dispatch

open A2A.Foundation A2A.Core A2A.Server.Tasks

variable {σ : Type}

/-- A result together with the context as it is left behind. -/
abbrev InContext (α : Type) := Result α × RequestContext

/-- `RestorePrincipal`. -/
def restorePrincipal (context : RequestContext) (principal : Option Bytes) : RequestContext :=
  match principal with
  | some principal => { context with principal }
  | none => context

/-! ## The executor -/

/-- `DispatchPayloadTypeMismatchError` for the message of an operation. -/
def dispatchPayloadTypeMismatchError (operation : Bytes) : Error :=
  .validation (bytes "Dispatch payload type mismatch for " ++ operation)

/-- `IsPushNotificationOperation`. -/
def isPushNotificationOperation (operation : DispatcherOperation) : Bool :=
  operation == .createTaskPushNotificationConfig || operation == .getTaskPushNotificationConfig ||
    operation == .listTaskPushNotificationConfigs || operation == .deleteTaskPushNotificationConfig

/-- `ToAgentCardRequestContext`. -/
def toAgentCardRequestContext (context : RequestContext) (tenant : Bytes) : AgentCardRequestContext :=
  { tenant := if tenant.isEmpty then none else some tenant
    remoteAddress := context.remoteAddress
    clientHeaders := context.clientHeaders
    authMetadata := context.authMetadata }

/-- Call an executor function and wrap its value; the event keeps the request. -/
def callExecutor {ρ α : Type} (method : Method σ ρ α) (argument : ρ) (request : DispatchRequest)
    (context : RequestContext) (wrap : α → DispatchPayload σ) :
    Program σ (InContext (DispatchPayload σ)) :=
  Traced.call
    (fun s => (((method argument context s).1.1.map wrap, (method argument context s).1.2),
      (method argument context s).2))
    fun answer => .executor request context answer.1

def payloadMismatch (operation : Bytes) (context : RequestContext) :
    Program σ (InContext (DispatchPayload σ)) :=
  pure (.error (dispatchPayloadTypeMismatchError operation), context)

section Executor

variable (executor : AgentExecutor σ) (request : DispatchRequest) (context : RequestContext)

/-- `DispatchPushToExecutor`. -/
def dispatchPushToExecutor : Program σ (InContext (DispatchPayload σ)) :=
  match request.operation with
  | .createTaskPushNotificationConfig =>
    match request.payload with
    | .createPushConfig payload =>
      callExecutor executor.createTaskPushNotificationConfig payload request context .pushConfig
    | _ => payloadMismatch "CreateTaskPushNotificationConfig" context
  | .getTaskPushNotificationConfig =>
    match request.payload with
    | .getPushConfig payload =>
      callExecutor executor.getTaskPushNotificationConfig payload request context .pushConfig
    | _ => payloadMismatch "GetTaskPushNotificationConfig" context
  | .listTaskPushNotificationConfigs =>
    match request.payload with
    | .listPushConfigs payload =>
      callExecutor executor.listTaskPushNotificationConfigs payload request context .pushConfigs
    | _ => payloadMismatch "ListTaskPushNotificationConfigs" context
  | .deleteTaskPushNotificationConfig =>
    match request.payload with
    | .deletePushConfig payload =>
      callExecutor executor.deleteTaskPushNotificationConfig payload request context
        fun _ => .monostate
    | _ => payloadMismatch "DeleteTaskPushNotificationConfig" context
  | _ =>
    pure (.error (.validation "Dispatch operation is not a push notification operation"), context)

/-- `DispatchSubscribeToExecutor`; its mismatch names `GetTask`. -/
def dispatchSubscribeToExecutor : Program σ (InContext (DispatchPayload σ)) :=
  match request.payload with
  | .getTask payload =>
    callExecutor executor.subscribeTask payload request context
      fun session => .stream (session.map .executor)
  | _ => payloadMismatch "GetTask" context

/-- The request, without its history length if the whole task is needed. -/
def fullSendQuery (payload : SendMessageRequest) (requireFullTask : Bool) : SendMessageRequest :=
  if requireFullTask ∧ payload.configurationOr.historyLength.isSome then
    { payload with configuration := some { payload.configurationOr with historyLength := none } }
  else payload

/-- `DispatchSendMessageToExecutor`. -/
def dispatchSendMessageToExecutor (requireFullTask : Bool) : Program σ (InContext (DispatchPayload σ)) :=
  match request.payload with
  | .sendMessage payload =>
    let query := fullSendQuery payload requireFullTask
    callExecutor executor.sendMessage query { request with payload := .sendMessage query } context
      .sendMessage
  | _ => payloadMismatch "SendMessage" context

/-- `DispatchSendStreamingMessageToExecutor`. -/
def dispatchSendStreamingMessageToExecutor : Program σ (InContext (DispatchPayload σ)) :=
  match request.payload with
  | .sendMessage payload =>
    callExecutor executor.sendStreamingMessage payload request context
      fun session => .stream (session.map .executor)
  | _ => payloadMismatch "SendStreamingMessage" context

def fullGetQuery (payload : GetTaskRequest) (requireFullTask : Bool) : GetTaskRequest :=
  if requireFullTask ∧ payload.historyLength.isSome then { payload with historyLength := none }
  else payload

/-- `DispatchGetTaskToExecutor`. -/
def dispatchGetTaskToExecutor (requireFullTask : Bool) : Program σ (InContext (DispatchPayload σ)) :=
  match request.payload with
  | .getTask payload =>
    let query := fullGetQuery payload requireFullTask
    callExecutor executor.getTask query { request with payload := .getTask query } context .task
  | _ => payloadMismatch "GetTask" context

/-- `DispatchListTasksToExecutor`. -/
def dispatchListTasksToExecutor : Program σ (InContext (DispatchPayload σ)) :=
  match request.payload with
  | .listTasks payload => callExecutor executor.listTasks payload request context .listTasks
  | _ => payloadMismatch "ListTasks" context

/-- `DispatchCancelTaskToExecutor`. -/
def dispatchCancelTaskToExecutor : Program σ (InContext (DispatchPayload σ)) :=
  match request.payload with
  | .cancelTask payload => callExecutor executor.cancelTask payload request context .task
  | _ => payloadMismatch "CancelTask" context

/-- `DispatchExtendedAgentCard`; the provider cannot change our context. -/
def dispatchExtendedAgentCard (agentCardProvider : Option (AgentCardProvider σ)) :
    Program σ (InContext (DispatchPayload σ)) :=
  match request.payload with
  | .getExtendedAgentCard payload =>
    match agentCardProvider with
    | none => pure (.error ProtocolErrors.extendedAgentCardNotConfigured, context)
    | some provider => do
      let card ← provider.callGetExtendedAgentCard
        (toAgentCardRequestContext context payload.tenant)
      pure (card.map .agentCard, context)
  | _ => payloadMismatch "GetExtendedAgentCard" context

/-- `DispatchToExecutor`. -/
def dispatchToExecutor (agentCardProvider : Option (AgentCardProvider σ)) (requireFullTask : Bool) :
    Program σ (InContext (DispatchPayload σ)) :=
  if isPushNotificationOperation request.operation then
    dispatchPushToExecutor executor request context
  else
    match request.operation with
    | .sendMessage => dispatchSendMessageToExecutor executor request context requireFullTask
    | .sendStreamingMessage => dispatchSendStreamingMessageToExecutor executor request context
    | .getTask => dispatchGetTaskToExecutor executor request context requireFullTask
    | .subscribeTask => dispatchSubscribeToExecutor executor request context
    | .listTasks => dispatchListTasksToExecutor executor request context
    | .cancelTask => dispatchCancelTaskToExecutor executor request context
    | .createTaskPushNotificationConfig | .getTaskPushNotificationConfig
    | .listTaskPushNotificationConfigs | .deleteTaskPushNotificationConfig =>
      pure (.error (.validation "Push notification dispatch was not handled by push dispatcher"),
        context)
    | .getExtendedAgentCard => dispatchExtendedAgentCard request context agentCardProvider

end Executor

/-! ## Projection -/

/-- A signed history length as a number of entries. -/
def historyLimit (length : Int32) : Nat := if length ≤ 0 then 0 else length.toInt.toNat

/-- `ProjectTaskResponse`. A pair of alternatives that the executor calls do not admit is left alone. -/
def projectTaskResponse (request : DispatchRequest) (response : DispatchPayload σ) :
    DispatchPayload σ :=
  match request.operation, request.payload, response with
  | .getTask, .getTask query, .task task =>
    .task (applyHistoryRetention task (query.historyLength.map historyLimit))
  | .sendMessage, .sendMessage query, .sendMessage (.task task) =>
    .sendMessage (.task
      (applyHistoryRetention task (query.configurationOr.historyLength.map historyLimit)))
  | _, _, response => response

/-! ## The dispatcher -/

/-- `Dispatcher`. Executor and card provider are fixed; the security object and the interceptors are guarded by
`interceptor_mutex_` and are parts of the world. -/
structure Dispatcher (σ : Type) where
  executor : Option (AgentExecutor σ)
  agentCardProvider : Option (AgentCardProvider σ)
  security : σ → Option (DispatchSecurity σ)
  interceptors : σ → List (Option (ServerInterceptor σ))

namespace Dispatcher

/-- The `BeforeDispatch` hooks; the principal is restored after each, whatever the hook did. -/
def runBeforeInterceptors (request : DispatchRequest) (principal : Option Bytes) :
    List (Option (ServerInterceptor σ)) → RequestContext → Program σ (InContext Unit)
  | [], context => pure (.ok (), context)
  | none :: interceptors, context => runBeforeInterceptors request principal interceptors context
  | some interceptor :: interceptors, context => do
    let answer ← interceptor.callBeforeDispatch request context
    let context := restorePrincipal answer.2 principal
    match answer.1 with
    | .error error => pure (.error error, context)
    | .ok () => runBeforeInterceptors request principal interceptors context

/-- The loop of `RunAfterInterceptors`, over the reversed list. -/
def runAfterLoop (request : DispatchRequest) (result : Result (DispatchPayload σ))
    (principal : Option Bytes) :
    List (Option (ServerInterceptor σ)) → RequestContext → Program σ RequestContext
  | [], context => pure context
  | none :: interceptors, context => runAfterLoop request result principal interceptors context
  | some interceptor :: interceptors, context => do
    let context ← interceptor.callAfterDispatch request context result
    runAfterLoop request result principal interceptors (restorePrincipal context principal)

variable (d : Dispatcher σ) (executor : AgentExecutor σ) (security : Option (DispatchSecurity σ))
  (interceptors : List (Option (ServerInterceptor σ))) (rounds : Nat) (request : DispatchRequest)

/-- `RunAfterInterceptors`; it takes the lock, and reads the list, again. -/
def runAfterInterceptors (context : RequestContext) (result : Result (DispatchPayload σ))
    (principal : Option Bytes) : Program σ RequestContext := do
  let interceptors ← Traced.observe d.interceptors
  runAfterLoop request result principal interceptors.reverse context

/-- `security != nullptr ? security->Authorize(request, context) : {}`. -/
def authorizeRequest (context : RequestContext) : Program σ (InContext Unit) :=
  match security with
  | some security => security.authorize request context
  | none => pure (.ok (), context)

/-- A list of a secured dispatcher is answered from the task store. -/
def perform (context : RequestContext) : Program σ (InContext (DispatchPayload σ)) :=
  match security, request.operation, request.payload with
  | some security, .listTasks, .listTasks list => do
    let result ← security.listTasks rounds list context
    pure (result, context)
  | _, _, _ => dispatchToExecutor executor request context d.agentCardProvider security.isSome

/-- The checks of a response: it is authorized, and a stream in it is protected. -/
def secureResponse (context : RequestContext) (result : Result (DispatchPayload σ)) :
    Program σ (Result (DispatchPayload σ)) :=
  match security, result with
  | some security, .ok response => do
    match ← security.authorizeResponse response context with
    | .error error => pure (.error error)
    | .ok () => pure (security.protectStream request context response)
  | _, result => pure result

/-- `Dispatch` from the point where the hooks have let the request through. -/
def respond (principal : Option Bytes) (context : RequestContext) :
    Program σ (InContext (DispatchPayload σ)) := do
  let performed ← d.perform executor security rounds request context
  let context := restorePrincipal performed.2 principal
  let secured ← secureResponse security request context performed.1
  -- Policies see the full task; callers and audit hooks see its projection.
  let result := secured.map (projectTaskResponse request)
  let context ← d.runAfterInterceptors request context result principal
  pure (result, context)

/-- A refusal, seen by the `AfterDispatch` hooks. -/
def refuse (context : RequestContext) (error : Error) (principal : Option Bytes) :
    Program σ (InContext (DispatchPayload σ)) := do
  let context ← d.runAfterInterceptors request context (.error error) principal
  pure (.error error, context)

/-- `Dispatch` from the point where the request is authorized. -/
def proceed (principal : Option Bytes) (context : RequestContext) :
    Program σ (InContext (DispatchPayload σ)) := do
  let before ← runBeforeInterceptors request principal interceptors context
  match before.1 with
  | .error error => d.refuse request before.2 error principal
  | .ok () => d.respond executor security rounds request principal before.2

/-- `Dispatch` with the security object and the interceptors read under its lock. -/
def dispatchLocked (context : RequestContext) : Program σ (InContext (DispatchPayload σ)) := do
  let authorized ← authorizeRequest security request context
  let principal := security.map fun _ => authorized.2.principal
  match authorized.1 with
  | .error error => d.refuse request authorized.2 error principal
  | .ok () => d.proceed executor security interceptors rounds request principal authorized.2

/-- `Dispatch`, with the context as it leaves it. -/
def dispatch (context : RequestContext) : Program σ (InContext (DispatchPayload σ)) :=
  match d.executor with
  | none => pure (.error (.internal "Server dispatcher executor is not configured"), context)
  | some executor => do
    -- One reader lock covers both reads, the authorization and the hooks that follow it.
    let security ← Traced.observe d.security
    let interceptors ← Traced.observe d.interceptors
    d.dispatchLocked executor security interceptors rounds request context

end Dispatcher

end A2A.Server.Dispatch
