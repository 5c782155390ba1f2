/-
# Tasks that wait for a credential
(`task_authorization_service.cpp`).
-/
import A2A.Server.TaskSubscriptionService
import A2A.Server.Tasks.TaskLifecycleService

namespace A2A.Server.Tasks.TaskAuthorizationService

open A2A.Foundation A2A.Core InMemoryTaskStore TaskLifecycleService

/-! ## The service -/

def kMissingTaskStore : Bytes := "authorization task store is required"
def kAuthorizationTaskMarker : Bytes := "a2a.authorization"
def kInvalidAuthorizationExplanation : Bytes := "authorization requires an agent status message"
def kAuthorizationNotPending : Bytes := "task is not awaiting authorization"
def kTaskChanged : Bytes := "task changed while updating authorization; retry the operation"
def kAuthorizationNotGranted : Bytes := "task authorization has not been granted"
def kNotAuthorizationTask : Bytes := "task does not belong to the authorization service"

/-- `CredentialValidator`: what it answers for a task and a credential. -/
abbrev CredentialValidator := Task → Bytes → Bool

/-- `IsAuthorizationTask`. -/
def isAuthorizationTask (task : Task) : Bool :=
  match task.metadataOr.find kAuthorizationTaskMarker with
  | some marker => marker.boolOr
  | none => false

/-- `Snapshot`. -/
def snapshot (store : Option InMemoryTaskStore) (taskId : Bytes) : Result TaskSnapshot :=
  match store with
  | none => .error (.internal kMissingTaskStore)
  | some store => store.getSnapshot taskId

/-- What a call does once it has read the store. -/
inductive Plan where
  | answer (task : Task)
  | persist (snapshot : TaskSnapshot)

/-- The task that `RequestAuthorizationLocked` makes when the message names none. -/
def newTask (id : Bytes) (request : SendMessageRequest) : Task :=
  { id, contextId := if request.messageOr.contextId.isEmpty then id else request.messageOr.contextId }

/-- The mutations at the end of `RequestAuthorizationLocked`. -/
def requireAuthorization (task : Task) (request : SendMessageRequest) (explanation : Message) : Task :=
  { task with
    metadata := some (task.metadataOr.set kAuthorizationTaskMarker (.boolValue true))
    status := some { task.statusOr with
      state := .authRequired
      message := some { explanation with taskId := task.id, contextId := task.contextId } }
    history := task.history ++ [request.messageOr] }

/-- `RequestAuthorizationLocked`. -/
def requestAuthorizationLocked (store : Option InMemoryTaskStore) (generateTaskId : TaskIdGenerator)
    (request : SendMessageRequest) (explanation : Message) : Result Plan :=
  if store.isNone then .error (.internal kMissingTaskStore)
  else if explanation.role ≠ .agent ∨ explanation.messageId.isEmpty ∨ explanation.parts.isEmpty then
    .error (.validation kInvalidAuthorizationExplanation)
  else
    match resolveTaskIdForSendRequest generateTaskId request with
    | .error e => .error e
    | .ok id =>
      if ¬ request.messageOr.taskId.isEmpty then
        match snapshot store id with
        | .error e => .error e
        | .ok existing =>
          match validateTaskForSendRequest request existing.task with
          | .error e => .error e
          | .ok () =>
            .ok (.persist { existing with
              task := requireAuthorization existing.task request explanation })
      else
        .ok (.persist { task := requireAuthorization (newTask id request) request explanation })

/-- `ReceiveMessageLocked`. -/
def receiveMessageLocked (store : Option InMemoryTaskStore) (serialize : Serializer)
    (request : SendMessageRequest) : Result Plan :=
  match snapshot store request.messageOr.taskId with
  | .error e => .error e
  | .ok existing =>
    match validateTaskForSendRequest request existing.task with
    | .error e => .error e
    | .ok () =>
      if ¬ isAuthorizationTask existing.task ∨ existing.task.state ≠ .authRequired then
        .error (ProtocolErrors.unsupportedOperation kAuthorizationNotPending)
      else if (findHistoryDedupeReason serialize existing.task.history request.messageOr
          .dedupByMessageId).isSome then
        .ok (.answer existing.task)
      else
        .ok (.persist { existing with task := existing.task.addHistory request.messageOr })

/-- `Transition`. -/
def transition (existing : TaskSnapshot) (state : TaskState) : Result Plan :=
  if ¬ isAuthorizationTask existing.task then
    .error (ProtocolErrors.unsupportedOperation kNotAuthorizationTask)
  else if isTerminalTaskState existing.task.state then
    if state = .canceled then .error ProtocolErrors.taskNotCancelable
    else .error ProtocolErrors.unsupportedOperation
  else
    .ok (.persist { existing with
      task := { existing.task with status := some { existing.task.statusOr with state, message := none } } })

structure Validation where
  task : Task
  credential : Bytes
  verdict : Bool

/-- `Authorize`, with the call of the validator that it makes. -/
def authorize (store : Option InMemoryTaskStore) (validator : Option CredentialValidator)
    (taskId credential : Bytes) : Option Validation × Result Plan :=
  match snapshot store taskId with
  | .error e => (none, .error e)
  | .ok existing =>
    if ¬ isAuthorizationTask existing.task ∨ existing.task.state ≠ .authRequired then
      (none, .error (ProtocolErrors.unsupportedOperation kAuthorizationNotPending))
    else
      match validator with
      | none => (none, .error ProtocolErrors.permissionDenied)
      | some validator =>
        (some ⟨existing.task, credential, validator existing.task credential⟩,
          if validator existing.task credential then transition existing .working
          else .error ProtocolErrors.permissionDenied)

/-- `Complete`. -/
def complete (store : Option InMemoryTaskStore) (taskId : Bytes) : Result Plan :=
  match snapshot store taskId with
  | .error e => .error e
  | .ok existing =>
    if ¬ isAuthorizationTask existing.task ∨ existing.task.state ≠ .working then
      .error (ProtocolErrors.unsupportedOperation kAuthorizationNotGranted)
    else transition existing .completed

/-- `Cancel`. -/
def cancel (store : Option InMemoryTaskStore) (taskId : Bytes) : Result Plan :=
  match snapshot store taskId with
  | .error e => .error e
  | .ok existing => transition existing .canceled

/-- `Subscribe` up to the call of the subscription service. -/
def subscribe (store : Option InMemoryTaskStore) (taskId : Bytes) : Result Plan :=
  match store with
  | none => .error (.internal kMissingTaskStore)
  | some store => (store.get taskId).map .answer

/-- `SendStreamingMessage` up to the call of the subscription service. -/
def sendStreamingMessage (store : Option InMemoryTaskStore) (generateTaskId : TaskIdGenerator)
    (serialize : Serializer) (request : SendMessageRequest) (explanation : Message) : Result Plan :=
  if request.messageOr.taskId.isEmpty then
    requestAuthorizationLocked store generateTaskId request explanation
  else receiveMessageLocked store serialize request

/-! ## Calls -/

/-- A call: its arguments, and what the collaborators answer during it. -/
inductive Request where
  | requestAuthorization (generateTaskId : TaskIdGenerator) (request : SendMessageRequest)
      (explanation : Message)
  | receiveMessage (serialize : Serializer) (request : SendMessageRequest)
  | authorize (validator : Option CredentialValidator) (taskId credential : Bytes)
  | complete (taskId : Bytes)
  | cancel (taskId : Bytes)
  | subscribe (taskId : Bytes)
  | sendStreamingMessage (generateTaskId : TaskIdGenerator) (serialize : Serializer)
      (request : SendMessageRequest) (explanation : Message)

namespace Request

/-- The part of a call before `Persist` and before the subscription service is called. -/
def plan (store : Option InMemoryTaskStore) : Request → Option Validation × Result Plan
  | .requestAuthorization generateTaskId request explanation =>
    (none, requestAuthorizationLocked store generateTaskId request explanation)
  | .receiveMessage serialize request => (none, receiveMessageLocked store serialize request)
  | .authorize validator taskId credential => TaskAuthorizationService.authorize store validator taskId credential
  | .complete taskId => (none, TaskAuthorizationService.complete store taskId)
  | .cancel taskId => (none, TaskAuthorizationService.cancel store taskId)
  | .subscribe taskId => (none, TaskAuthorizationService.subscribe store taskId)
  | .sendStreamingMessage generateTaskId serialize request explanation =>
    (none, TaskAuthorizationService.sendStreamingMessage store generateTaskId serialize request explanation)

/-- The call ends with `subscriptions_.Subscribe`. -/
def streams : Request → Bool
  | .subscribe _ | .sendStreamingMessage _ _ _ _ => true
  | _ => false

/-- The call asks for authorization, that is, it runs `RequestAuthorizationLocked`. -/
def asksForAuthorization : Request → Bool
  | .requestAuthorization _ _ _ => true
  | .sendStreamingMessage _ _ request _ => request.messageOr.taskId.isEmpty
  | _ => false

end Request

/-- A successful call returns a task, or a session (its subscriber's number). -/
inductive Answer where
  | task (task : Task)
  | session (s : Nat)

/-- Where a call is; each stage names the section it enters next. -/
inductive Stage where
  | read
  | persist (snapshot : TaskSnapshot)
  | publish (task : Task)
  | publishing (task : Task)
  | subscribe (task : Task)
  | returning (result : Result Answer)

/-- A call inside the service; the last fields record where the log and the publications stood when it began and read.
-/
structure Call where
  request : Request
  stage : Stage := .read
  begunAt : Nat
  publishedAt : Nat
  seenAt : Nat := 0

/-- The stage of a call whose task has been read or persisted. -/
def Call.goOn (c : Call) (task : Task) : Stage :=
  if c.request.streams then .subscribe task else .returning (.ok (.task task))

/-! ## What is observed -/

/-- A write of the store, by a call of the service or (`none`) by somebody else. -/
structure Write where
  request : Option Request
  task : Task
  revision : UInt64
  /-- Where the log stood when the writer read the store. -/
  seenAt : Nat

/-- A returned call, with its writes and the updates published meanwhile. -/
structure Outcome where
  request : Request
  result : Result Answer
  writes : List Write
  published : List Task

inductive Event where
  | validated (validation : Validation)
  | wrote (write : Write)
  | returned (outcome : Outcome)

def Event.ownWrite : Event → Option Write
  | .wrote write => if write.request.isSome then some write else none
  | _ => none

def ownWrites (log : List Event) : List Write := log.filterMap Event.ownWrite

/-- The log entry of a write, read off the store it left. -/
def writeEvent (store : InMemoryTaskStore) (request : Option Request) (id : Bytes) (seenAt : Nat) :
    List Event :=
  ((store.entryOf id).map fun e => .wrote ⟨request, e.task, e.revision, seenAt⟩).toList

/-! ## The machine -/

/-- The store, the subscription service, the call that holds `mutex_`, and the log. -/
structure World where
  store : ConsistentStore
  subscriptions : TaskSubscriptionService.World := {}
  call : Option Call := none
  log : List Event := []

/-- A section of the call that holds `mutex_`, a step of the subscription service, or a call of another writer. -/
inductive Action where
  | begin (request : Request)
  | read
  | persist (now : Int64)
  | publish
  | published
  | subscribe
  | unlock
  | session (a : TaskSubscriptionService.Action)
  | external (c : StoreCall) (now : Int64)

/-- The name of the thread that holds `mutex_` inside the subscription service. -/
def serviceThread : Nat := 0

/-- Steps of the subscription service that are not calls of this one: its other callers, its readers and calls begun.
Nobody else can subscribe or publish. -/
def ofOthers : TaskSubscriptionService.Action → Bool
  | .subscribe _ | .publishTaskUpdated _ _ => false
  | .shutdown t | .cancel t _ => t != serviceThread
  | _ => true

namespace World

variable (w : World) (c : Call)

/-- The call reads the store and decides. -/
def read : World :=
  let (validation, plan) := c.request.plan (some w.store.raw)
  { w with
    call := some { c with
      stage :=
        match plan with
        | .error e => .returning (.error e)
        | .ok (.answer task) => c.goOn task
        | .ok (.persist snapshot) => .persist snapshot
      seenAt := w.log.length }
    log := w.log ++ (validation.map Event.validated).toList }

/-- The store call of `Persist`. -/
def persist (snapshot : TaskSnapshot) (now : Int64) : World :=
  let stored := (w.store.raw.createOrUpdateIfRevision snapshot.task snapshot.revision now).1
  let store := (w.store.call (.createOrUpdateIfRevision snapshot.task snapshot.revision) now).2
  match stored with
  | .error e => { w with store, call := some { c with stage := .returning (.error e) } }
  | .ok .conflict =>
    { w with
      store
      call := some { c with
        stage := .returning (.error (ProtocolErrors.unsupportedOperation kTaskChanged)) } }
  | .ok .updated =>
    { w with
      store
      call := some { c with stage := .publish snapshot.task }
      log := w.log ++ writeEvent store.raw (some c.request) snapshot.task.id c.seenAt }

/-- The call of `subscriptions_.Subscribe`. -/
def subscribe (task : Task) : World :=
  { w with
    subscriptions := (w.subscriptions.subscribe task).2
    call := some { c with stage := .returning ((w.subscriptions.subscribe task).1.map .session) } }

/-- The return of a call, which unlocks `mutex_`. -/
def unlock (result : Result Answer) : World :=
  { w with
    call := none
    log := w.log ++ [.returned
      { request := c.request
        result
        writes := ownWrites (w.log.drop c.begunAt)
        published := w.subscriptions.published.drop c.publishedAt }] }

end World

/-- One section of the call that holds `mutex_`. -/
def World.runCall (w : World) (c : Call) : Action → Option World
  | .read =>
    match c.stage with
    | .read => some (w.read c)
    | _ => none
  | .persist now =>
    match c.stage with
    | .persist snapshot => some (w.persist c snapshot now)
    | _ => none
  | .publish =>
    match c.stage with
    | .publish task =>
      (TaskSubscriptionService.step w.subscriptions (.publishTaskUpdated serviceThread task)).map
        fun subscriptions => { w with subscriptions, call := some { c with stage := .publishing task } }
    | _ => none
  | .published =>
    match c.stage, w.subscriptions.threads serviceThread with
    | .publishing task, .idle => some { w with call := some { c with stage := c.goOn task } }
    | _, _ => none
  | .subscribe =>
    match c.stage with
    | .subscribe task => some (w.subscribe c task)
    | _ => none
  | .unlock =>
    match c.stage with
    | .returning result => some (w.unlock c result)
    | _ => none
  | _ => none

def step (w : World) : Action → Option World
  | .begin request =>
    match w.call with
    | some _ => none
    | none =>
      some { w with
        call := some
          { request
            begunAt := w.log.length
            publishedAt := w.subscriptions.published.length } }
  | .session a =>
    if ofOthers a then
      (TaskSubscriptionService.step w.subscriptions a).map fun subscriptions => { w with subscriptions }
    else none
  | .external c now =>
    let outcome := w.store.call c now
    some { w with
      store := outcome.2
      log := w.log ++
        if outcome.1.wrote then writeEvent outcome.2.raw none c.taskId w.log.length else [] }
  | a => w.call.bind fun c => w.runCall c a

/-- The service over a store, with its callers and the other writers of the store. -/
def service (store : ConsistentStore) : Machine World Action where
  start := { store }
  step := step

end A2A.Server.Tasks.TaskAuthorizationService
