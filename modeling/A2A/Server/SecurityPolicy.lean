/-
# `DispatchSecurity` and `AuthorizedStream` (`security_policy.cpp`).
-/
import A2A.Server.DispatchTypes

namespace A2A.Server.Dispatch

open A2A.Foundation A2A.Core A2A.Server.Tasks

def kMissingSecurityConfiguration : Bytes := "security policy and task store are required"
def kInvalidPageSize : Bytes := "page size exceeds maximum"
def kMissingTaskCursors : Bytes := "task store must provide list cursor boundaries"
def kEmptyIdentity : Bytes := "authentication returned an empty identity"

variable {σ : Type}

/-! ## One task -/

/-- The store's "not found" becomes the default one, so that its text tells nothing. -/
def hideStoreError (error : Error) : Error :=
  if error.code = .remoteProtocol ∧ error.protocolCode = some ProtocolCodes.taskNotFound then
    ProtocolErrors.taskNotFound
  else error

/-- `GetAuthorizedTask`. -/
def getAuthorizedTask (store : TaskStore σ) (policy : SecurityPolicy σ) (context : RequestContext)
    (id : Bytes) : Program σ (Result Task) := do
  match ← store.callGet id with
  | .error error => pure (.error (hideStoreError error))
  | .ok task =>
    if ← policy.callCanAccessTask task context then pure (.ok task)
    else pure (.error ProtocolErrors.taskNotFound)

/-- The check that `Authorize` and `Read` make of their task, if there is one. -/
def checkTask (store : TaskStore σ) (policy : SecurityPolicy σ) (context : RequestContext)
    (id : Bytes) : Program σ (Result Unit) :=
  if id.isEmpty then pure (.ok ())
  else do
    let task ← getAuthorizedTask store policy context id
    pure (task.map fun _ => ())

/-! ## Responses -/

/-- `ResponseAuthorizer`. -/
structure ResponseAuthorizer (σ : Type) where
  policy : SecurityPolicy σ
  store : TaskStore σ
  context : RequestContext

namespace ResponseAuthorizer

variable (authorizer : ResponseAuthorizer σ)

/-- `AuthorizeId`. -/
def authorizeId (id : Bytes) : Program σ (Result Unit) :=
  if id.isEmpty then pure (.error ProtocolErrors.taskNotFound)
  else do
    let task ← getAuthorizedTask authorizer.store authorizer.policy authorizer.context id
    pure (task.map fun _ => ())

/-- The overload for `Task`. -/
def authorizeTask (task : Task) : Program σ (Result Unit) :=
  if task.id.isEmpty then pure (.error ProtocolErrors.taskNotFound)
  else do
    let allowed ← authorizer.policy.callCanAccessTask task authorizer.context
    pure (if allowed then .ok () else .error ProtocolErrors.taskNotFound)

/-- The overload for `SendMessageResponse`. -/
def authorizeSend : SendMessageResponse → Program σ (Result Unit)
  | .task task => authorizer.authorizeTask task
  | .message message =>
    if message.taskId.isEmpty then pure (.ok ()) else authorizer.authorizeId message.taskId
  | .unset => pure (.ok ())

/-- The overload for `TaskPushNotificationConfig`. -/
def authorizeConfig (config : TaskPushNotificationConfig) : Program σ (Result Unit) :=
  authorizer.authorizeId config.taskId

/-- The loop of the overload for `ListTaskPushNotificationConfigsResponse`. -/
def authorizeConfigs (authorizer : ResponseAuthorizer σ) :
    List TaskPushNotificationConfig → Program σ (Result Unit)
  | [] => pure (.ok ())
  | config :: configs => do
    match ← authorizer.authorizeConfig config with
    | .error error => pure (.error error)
    | .ok () => authorizer.authorizeConfigs configs

/-- The authorizer: lists are authorized before projection, streams on read. -/
def visit : DispatchPayload σ → Program σ (Result Unit)
  | .task task => authorizer.authorizeTask task
  | .sendMessage response => authorizer.authorizeSend response
  | .pushConfig config => authorizer.authorizeConfig config
  | .pushConfigs response => authorizer.authorizeConfigs response.configs
  | .listTasks _ | .agentCard _ | .stream _ | .monostate => pure (.ok ())

end ResponseAuthorizer

/-! ## The task of a request, the task of an event -/

/-- `TaskId`. -/
def taskId (request : DispatchRequest) : Bytes :=
  match request.payload with
  | .sendMessage payload => payload.messageOr.taskId
  | .getTask payload => payload.id
  | .cancelTask payload => payload.id
  | .listTasks _ | .getExtendedAgentCard _ => []
  | .createPushConfig payload => payload.taskId
  | .getPushConfig payload => payload.taskId
  | .listPushConfigs payload => payload.taskId
  | .deletePushConfig payload => payload.taskId

/-- `EventTaskId`. -/
def eventTaskId : StreamResponse → Bytes
  | .task task => task.id
  | .statusUpdate update => update.taskId
  | .artifactUpdate update => update.taskId
  | .message message => message.taskId
  | .unset => []

/-! ## Streams -/

namespace AuthorizedStream

variable (stream : AuthorizedStream σ)

/-- After the wait: the task of the event is accessible, and the stream is associated with it from now on. -/
def release (id : Bytes) (item : StreamResponse) : Program σ (ReadResult × AuthorizedStream σ) := do
  match ← getAuthorizedTask stream.store stream.policy stream.context id with
  | .error error => pure (.error error, stream)
  | .ok _ => pure (.ok (some item), { stream with taskId := id })

/-- `Read`, with the stream as it is afterwards. -/
def read (timeout : Option Int64) : Program σ (ReadResult × AuthorizedStream σ) := do
  match ← checkTask stream.store stream.policy stream.context stream.taskId with
  | .error error => pure (.error error, stream)
  | .ok () =>
    match ← stream.stream.callNext timeout with
    | .error error => pure (.error error, stream)
    | .ok none => pure (.ok none, stream)
    | .ok (some item) =>
      if (eventTaskId item).isEmpty then
        if ¬ item.hasMessage then pure (.error ProtocolErrors.taskNotFound, stream)
        -- A taskless message still belongs to an already associated stream.
        else if stream.taskId.isEmpty then pure (.ok (some item), stream)
        else stream.release stream.taskId item
      else stream.release (eventTaskId item) item

/-- `Next`. -/
def next : Program σ (ReadResult × AuthorizedStream σ) :=
  stream.read none

/-- `NextFor`. -/
def nextFor (timeout : Int64) : Program σ (ReadResult × AuthorizedStream σ) :=
  stream.read (some timeout)

end AuthorizedStream

/-! ## `DispatchSecurity` -/

/-- `DispatchSecurity`; both pointers may be null. -/
structure DispatchSecurity (σ : Type) where
  policy : Option (SecurityPolicy σ)
  taskStore : Option (TaskStore σ)

/-- `DispatchSecurity::VisibleTaskPage`. -/
structure VisibleTaskPage where
  taskIds : List Bytes := []
  totalSize : Nat := 0
  nextPageToken : Bytes := []

namespace DispatchSecurity

variable (security : DispatchSecurity σ)

/-- The two pointers behind the null check that every member function starts with. -/
def configuration : Result (SecurityPolicy σ × TaskStore σ) :=
  match security.policy, security.taskStore with
  | some policy, some store => .ok (policy, store)
  | _, _ => .error (.internal kMissingSecurityConfiguration)

/-- `Authorize` from the point where the principal is known. -/
def authorizeAs (policy : SecurityPolicy σ) (store : TaskStore σ) (request : DispatchRequest)
    (context : RequestContext) : Program σ (Result Unit) := do
  match ← checkTask store policy context (taskId request) with
  | .error error => pure (.error error)
  | .ok () =>
    let allowed ← policy.callAuthorizeOperation request context
    pure (if allowed then .ok () else .error ProtocolErrors.permissionDenied)

/-- `Authorize`, with the context as it leaves it. -/
def authorize (request : DispatchRequest) (context : RequestContext) :
    Program σ (Result Unit × RequestContext) :=
  let cleared := { context with principal := [] }
  match security.configuration with
  | .error error => pure (.error error, cleared)
  | .ok (policy, store) => do
    match ← policy.callAuthenticate cleared with
    | .error error => pure (.error error, cleared)
    | .ok identity =>
      if identity.isEmpty then
        pure (.error (ProtocolErrors.unauthenticated kEmptyIdentity), cleared)
      else
        let context := { cleared with principal := identity }
        let authorized ← authorizeAs policy store request context
        pure (authorized, context)

/-- `AuthorizeResponse`. -/
def authorizeResponse (response : DispatchPayload σ) (context : RequestContext) :
    Program σ (Result Unit) :=
  match security.configuration with
  | .error error => pure (.error error)
  | .ok (policy, store) => ResponseAuthorizer.visit { policy, store, context } response

/-! ### Lists -/

/-- What the scan of `SelectTaskIds` has found so far. -/
structure Selection where
  page : VisibleTaskPage := {}
  lastSelected : ListTaskCursor := {}

/-- One visible task counts; past the cursor it is selected while there is room, and the first without makes the token.
-/
def Selection.add (selection : Selection) (cursor : Option ListTaskCursor) (pageSize : Nat)
    (task : Task) (boundary : ListTaskCursor) : Selection :=
  let page := { selection.page with totalSize := selection.page.totalSize + 1 }
  if cursor.any fun cursor => !listCursorPrecedes cursor boundary then { selection with page }
  else if page.taskIds.length < pageSize then
    { page := { page with taskIds := page.taskIds ++ [task.id] }, lastSelected := boundary }
  else if page.nextPageToken.isEmpty then
    { selection with
      page := { page with nextPageToken := encodeListPageToken selection.lastSelected } }
  else { selection with page }

/-- The inner loop of `SelectTaskIds`, over the tasks of a batch and their cursors. -/
def selectBatch (policy : SecurityPolicy σ) (context : RequestContext)
    (cursor : Option ListTaskCursor) (pageSize : Nat) :
    Selection → List (Task × ListTaskCursor) → Program σ Selection
  | selection, [] => pure selection
  | selection, (task, boundary) :: rest => do
    if ← policy.callCanAccessTask task context then
      selectBatch policy context cursor pageSize
        (selection.add cursor pageSize task boundary) rest
    else selectBatch policy context cursor pageSize selection rest

/-- The `do ... while` loop of `SelectTaskIds`. -/
def selectLoop (policy : SecurityPolicy σ) (store : TaskStore σ) (context : RequestContext)
    (cursor : Option ListTaskCursor) (pageSize : Nat) :
    (rounds : Nat) → ListTasksRequest → Selection → Program σ (Result VisibleTaskPage)
  | 0, _, _ => Traced.diverge
  | rounds + 1, query, selection => do
    match ← store.callList query with
    | .error error => pure (.error error)
    | .ok listed =>
      if listed.tasks.length ≠ listed.taskCursors.length then
        pure (.error (.internal kMissingTaskCursors))
      else
        let selection ← selectBatch policy context cursor pageSize selection
          (listed.tasks.zip listed.taskCursors)
        if listed.nextPageToken.isEmpty then pure (.ok selection.page)
        else
          selectLoop policy store context cursor pageSize rounds
            { query with pageToken := listed.nextPageToken } selection

/-- `SelectTaskIds`. -/
def selectTaskIds (policy : SecurityPolicy σ) (store : TaskStore σ) (rounds : Nat)
    (query : ListTasksRequest) (context : RequestContext) (cursor : Option ListTaskCursor)
    (pageSize : Nat) : Program σ (Result VisibleTaskPage) :=
  selectLoop policy store context cursor pageSize rounds
    { query with pageSize := kMaxListTasksPageSize, includeTotalSize := false, pageToken := [] } {}

/-- The loop of `ListTasks` that reads the selected tasks again and projects them. -/
def readSelected (policy : SecurityPolicy σ) (store : TaskStore σ) (request : ListTasksRequest)
    (context : RequestContext) : List Bytes → Program σ (Result (List Task))
  | [] => pure (.ok [])
  | id :: ids => do
    match ← getAuthorizedTask store policy context id with
    | .error error => pure (.error error)
    | .ok task =>
      let rest ← readSelected policy store request context ids
      pure (rest.map
        (projectTaskForList task request.includeArtifacts request.historyLength :: ·))

/-- The page of `ListTasks`; a scope without visible tasks selects none. -/
def selectPage (policy : SecurityPolicy σ) (store : TaskStore σ) (rounds : Nat)
    (request : ListTasksRequest) (context : RequestContext) (cursor : Option ListTaskCursor)
    (size : Nat) : Program σ (Result VisibleTaskPage) := do
  match ← policy.callScopeTaskList { request with historyLength := none, includeArtifacts := true }
      context with
  | none => pure (.ok {})
  | some query => selectTaskIds policy store rounds query context cursor size

/-- `ListTasks`. -/
def listTasks (rounds : Nat) (request : ListTasksRequest) (context : RequestContext) :
    Program σ (Result (DispatchPayload σ)) :=
  match security.configuration with
  | .error error => pure (.error error)
  | .ok (policy, store) =>
    if request.pageSize > kMaxListTasksPageSize then
      pure (.error (.validation kInvalidPageSize))
    else
      match parseListPageToken request.pageToken with
      | .error error => pure (.error error)
      | .ok cursor => do
        let size := if request.pageSize = 0 then kDefaultListTasksPageSize else request.pageSize
        match ← selectPage policy store rounds request context cursor size with
        | .error error => pure (.error error)
        | .ok selected => do
          let tasks ← readSelected policy store request context selected.taskIds
          pure (tasks.map fun tasks =>
            .listTasks
              { tasks, pageSize := size, totalSize := selected.totalSize,
                nextPageToken := selected.nextPageToken })

/-! ### Streams -/

/-- `ProtectStream`, with the response as it leaves it; a session of the executor is never one of ours. -/
def protectStream (request : DispatchRequest) (context : RequestContext)
    (response : DispatchPayload σ) : Result (DispatchPayload σ) :=
  match security.configuration with
  | .error error => .error error
  | .ok (policy, store) =>
    match response with
    | .stream (some (.executor stream)) =>
      .ok (.stream (some (.authorized { stream, policy, store, context, taskId := taskId request })))
    | response => .ok response

end DispatchSecurity

end A2A.Server.Dispatch
