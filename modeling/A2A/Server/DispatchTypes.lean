/-
# What a dispatcher is built from (`dispatch_types.h`, `request_context.h`,
`agent_executor.h`, `server_interceptor.h`, `security_policy.h`, `server_stream_session.h`).
-/
import A2A.Foundation.Traced
import A2A.Server.Tasks.ListTasks

namespace A2A.Server.Dispatch

open A2A.Foundation A2A.Core A2A.Server.Tasks

/-! ## Requests -/

/-- `RequestContext`. -/
structure RequestContext where
  requestId : Option Bytes := none
  remoteAddress : Option Bytes := none
  authMetadata : List (Bytes × Bytes) := []
  clientHeaders : List (Bytes × Bytes) := []
  protocolVersion : Bytes := []
  principal : Bytes := []

/-- `DispatcherOperation`. -/
inductive DispatcherOperation where
  | sendMessage
  | sendStreamingMessage
  | getTask
  | subscribeTask
  | listTasks
  | cancelTask
  | createTaskPushNotificationConfig
  | getTaskPushNotificationConfig
  | listTaskPushNotificationConfigs
  | deleteTaskPushNotificationConfig
  | getExtendedAgentCard
  deriving DecidableEq

/-- The alternatives of `DispatchRequest::payload`. -/
inductive RequestPayload where
  | sendMessage (request : SendMessageRequest)
  | getTask (request : GetTaskRequest)
  | listTasks (request : ListTasksRequest)
  | cancelTask (request : CancelTaskRequest)
  | createPushConfig (request : TaskPushNotificationConfig)
  | getPushConfig (request : GetTaskPushNotificationConfigRequest)
  | listPushConfigs (request : ListTaskPushNotificationConfigsRequest)
  | deletePushConfig (request : DeleteTaskPushNotificationConfigRequest)
  | getExtendedAgentCard (request : GetExtendedAgentCardRequest)

/-- `DispatchRequest`. Nothing ties the payload to the operation. -/
structure DispatchRequest where
  operation : DispatcherOperation := .sendMessage
  payload : RequestPayload := .listTasks {}

/-! ## Streams, policies and stores -/

/-- What a read of a stream gives: an event, the end of the stream, or an error. -/
abbrev ReadResult := Result (Option StreamResponse)

/-- `ServerStreamSession`. -/
structure ServerStreamSession (σ : Type) where
  next : σ → ReadResult × σ
  nextFor : (timeout : Int64) → σ → ReadResult × σ
  supportsTimedNext : σ → Bool
  isLive : σ → Bool
  cancel : σ → σ

/-- `SecurityPolicy`. -/
structure SecurityPolicy (σ : Type) where
  authenticate : RequestContext → σ → Result Bytes × σ
  authorizeOperation : DispatchRequest → RequestContext → σ → Bool × σ
  canAccessTask : Task → RequestContext → σ → Bool × σ
  scopeTaskList : ListTasksRequest → RequestContext → σ → Option ListTasksRequest × σ

/-- `TaskStore`, as far as the dispatcher uses it. -/
structure TaskStore (σ : Type) where
  get : Bytes → σ → Result Task × σ
  list : ListTasksRequest → σ → Result ListTasksResponse × σ

/-- `AuthorizedStream`. -/
structure AuthorizedStream (σ : Type) where
  stream : ServerStreamSession σ
  policy : SecurityPolicy σ
  store : TaskStore σ
  context : RequestContext
  taskId : Bytes

/-- The session that the executor made, or that one behind an `AuthorizedStream`. -/
inductive Session (σ : Type) where
  | executor (session : ServerStreamSession σ)
  | authorized (stream : AuthorizedStream σ)

/-- `DispatchPayload`; a null `unique_ptr` is `none`. -/
inductive DispatchPayload (σ : Type) where
  | sendMessage (response : SendMessageResponse)
  | stream (session : Option (Session σ))
  | task (task : Task)
  | listTasks (response : ListTasksResponse)
  | pushConfig (config : TaskPushNotificationConfig)
  | pushConfigs (response : ListTaskPushNotificationConfigsResponse)
  | agentCard (card : AgentCard)
  | monostate

/-! ## Executors, interceptors and card providers -/

/-- A virtual function that takes a request and a mutable context. -/
abbrev Method (σ ρ α : Type) := ρ → RequestContext → σ → (Result α × RequestContext) × σ

/-- `AgentExecutor`. -/
structure AgentExecutor (σ : Type) where
  sendMessage : Method σ SendMessageRequest SendMessageResponse
  sendStreamingMessage : Method σ SendMessageRequest (Option (ServerStreamSession σ))
  getTask : Method σ GetTaskRequest Task
  subscribeTask : Method σ GetTaskRequest (Option (ServerStreamSession σ))
  listTasks : Method σ ListTasksRequest ListTasksResponse
  cancelTask : Method σ CancelTaskRequest Task
  createTaskPushNotificationConfig : Method σ TaskPushNotificationConfig TaskPushNotificationConfig
  getTaskPushNotificationConfig :
    Method σ GetTaskPushNotificationConfigRequest TaskPushNotificationConfig
  listTaskPushNotificationConfigs :
    Method σ ListTaskPushNotificationConfigsRequest ListTaskPushNotificationConfigsResponse
  deleteTaskPushNotificationConfig : Method σ DeleteTaskPushNotificationConfigRequest Unit

/-- `ServerInterceptor`. -/
structure ServerInterceptor (σ : Type) where
  beforeDispatch : Method σ DispatchRequest Unit
  afterDispatch : DispatchRequest → RequestContext → Result (DispatchPayload σ) → σ → RequestContext × σ

/-- `core::AgentCardRequestContext`. -/
structure AgentCardRequestContext where
  tenant : Option Bytes := none
  remoteAddress : Option Bytes := none
  clientHeaders : List (Bytes × Bytes) := []
  authMetadata : List (Bytes × Bytes) := []

/-- `core::AgentCardProvider`. -/
structure AgentCardProvider (σ : Type) where
  getExtendedAgentCard : AgentCardRequestContext → σ → Result AgentCard × σ

/-! ## Calls -/

/-- A call across an interface, with the arguments it was made with and what came back. -/
inductive Event (σ : Type) where
  | authenticate (context : RequestContext) (identity : Result Bytes)
  | authorizeOperation (request : DispatchRequest) (context : RequestContext) (allowed : Bool)
  | canAccessTask (task : Task) (context : RequestContext) (allowed : Bool)
  | scopeTaskList (query : ListTasksRequest) (context : RequestContext)
      (scope : Option ListTasksRequest)
  | storeGet (id : Bytes) (task : Result Task)
  | storeList (query : ListTasksRequest) (listed : Result ListTasksResponse)
  | beforeDispatch (interceptor : ServerInterceptor σ) (context : RequestContext)
      (result : Result Unit)
  | executor (request : DispatchRequest) (context : RequestContext)
      (result : Result (DispatchPayload σ))
  | agentCard (context : AgentCardRequestContext) (card : Result AgentCard)
  | afterDispatch (interceptor : ServerInterceptor σ) (context : RequestContext)
      (result : Result (DispatchPayload σ))
  | streamRead (timeout : Option Int64) (read : ReadResult)

/-- A part of the dispatcher, over the world of what it calls. -/
abbrev Program (σ α : Type) := Traced (Event σ) σ α

variable {σ : Type}

/-- Call `Authenticate`. -/
def SecurityPolicy.callAuthenticate (policy : SecurityPolicy σ) (context : RequestContext) :
    Program σ (Result Bytes) :=
  Traced.call (policy.authenticate context) (.authenticate context)

/-- Call `AuthorizeOperation`. -/
def SecurityPolicy.callAuthorizeOperation (policy : SecurityPolicy σ) (request : DispatchRequest)
    (context : RequestContext) : Program σ Bool :=
  Traced.call (policy.authorizeOperation request context) (.authorizeOperation request context)

/-- Call `CanAccessTask`. -/
def SecurityPolicy.callCanAccessTask (policy : SecurityPolicy σ) (task : Task)
    (context : RequestContext) : Program σ Bool :=
  Traced.call (policy.canAccessTask task context) (.canAccessTask task context)

/-- Call `ScopeTaskList`. -/
def SecurityPolicy.callScopeTaskList (policy : SecurityPolicy σ) (query : ListTasksRequest)
    (context : RequestContext) : Program σ (Option ListTasksRequest) :=
  Traced.call (policy.scopeTaskList query context) (.scopeTaskList query context)

/-- Call `Get`. -/
def TaskStore.callGet (store : TaskStore σ) (id : Bytes) : Program σ (Result Task) :=
  Traced.call (store.get id) (.storeGet id)

/-- Call `List`. -/
def TaskStore.callList (store : TaskStore σ) (query : ListTasksRequest) :
    Program σ (Result ListTasksResponse) :=
  Traced.call (store.list query) (.storeList query)

/-- `timeout.has_value() ? NextFor(*timeout) : Next()`. -/
def ServerStreamSession.callNext (session : ServerStreamSession σ) (timeout : Option Int64) :
    Program σ ReadResult :=
  Traced.call
    (match timeout with
      | some timeout => session.nextFor timeout
      | none => session.next)
    (.streamRead timeout)

/-- Call `BeforeDispatch`; the context comes back as the hook left it. -/
def ServerInterceptor.callBeforeDispatch (interceptor : ServerInterceptor σ)
    (request : DispatchRequest) (context : RequestContext) :
    Program σ (Result Unit × RequestContext) :=
  Traced.call (interceptor.beforeDispatch request context)
    fun answer => .beforeDispatch interceptor context answer.1

/-- Call `AfterDispatch`; the context comes back as the hook left it. -/
def ServerInterceptor.callAfterDispatch (interceptor : ServerInterceptor σ)
    (request : DispatchRequest) (context : RequestContext) (result : Result (DispatchPayload σ)) :
    Program σ RequestContext :=
  Traced.call (interceptor.afterDispatch request context result)
    fun _ => .afterDispatch interceptor context result

/-- Call `GetExtendedAgentCard`. -/
def AgentCardProvider.callGetExtendedAgentCard (provider : AgentCardProvider σ)
    (context : AgentCardRequestContext) : Program σ (Result AgentCard) :=
  Traced.call (provider.getExtendedAgentCard context) (.agentCard context)

end A2A.Server.Dispatch
