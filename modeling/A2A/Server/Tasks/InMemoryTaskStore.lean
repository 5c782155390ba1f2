/-
# The in-memory task store (`in_memory_task_store.cpp`).
-/
import A2A.Foundation.OrderedSet
import A2A.Server.Tasks.ListTasks
import Mathlib.Data.List.AList

namespace A2A.Server.Tasks

open A2A.Foundation A2A.Core

def kInitialTaskRevision : UInt64 := 1
def kUpdateTimeExhaustedMessage : Bytes := "Task storage update timestamp cannot advance"

/-- `TaskStore::TaskSnapshot`. -/
structure TaskSnapshot where
  task : Task := {}
  revision : UInt64 := 0

/-- `TaskStore::ConditionalWriteResult`. -/
inductive ConditionalWriteResult where
  | updated
  | conflict
  deriving DecidableEq

/-- The data members of `InMemoryTaskStore`. -/
structure InMemoryTaskStore where
  updatedAt : List Int64 := []
  updateOrder : OrderedSet ListTaskCursor CursorOrder := .empty
  telemetrySnapshot : HistoryTelemetrySnapshot := {}
  orderedTasks : List Task := []
  revisions : List UInt64 := []
  taskIndices : AList (fun _ : Bytes => Nat) := ∅

namespace InMemoryTaskStore

variable (store : InMemoryTaskStore)

/-! ## Writes -/

/-- `TouchTask`: give the task at `index` a later update time and move its cursor. -/
def touchTask (index : Nat) (now : Int64) : Result Unit × InMemoryTaskStore :=
  let id := (store.orderedTasks.getD index {}).id
  if index = store.updatedAt.length then
    let time := max 0 now
    (.ok (), { store with
      updateOrder := store.updateOrder.insert ⟨time, id⟩
      updatedAt := store.updatedAt ++ [time] })
  else
    let current := store.updatedAt.getD index 0
    if current = Int64.maxValue then (.error (.internal kUpdateTimeExhaustedMessage), store)
    else
      let nextTime := max (current + 1) now
      let extracted := store.updateOrder.extract ⟨current, id⟩
      let updateOrder :=
        match extracted.2 with
        | some node => extracted.1.insert { node with updatedAt := nextTime }
        -- The source dereferences the node unconditionally; a consistent store always has one.
        | none => extracted.1
      (.ok (), { store with updateOrder, updatedAt := store.updatedAt.set index nextTime })

/-- The assignment `ordered_tasks_[index] = task; ++revisions_[index];`. -/
def putTask (index : Nat) (task : Task) : InMemoryTaskStore :=
  { store with
    orderedTasks := store.orderedTasks.set index task
    revisions := store.revisions.modify index (· + 1) }

/-- The destructor of an uncommitted `TaskAppendRollback`. -/
def rollbackAppend : InMemoryTaskStore :=
  { store with
    orderedTasks := store.orderedTasks.dropLast
    revisions := store.revisions.dropLast }

/-- The insertion that `CreateOrUpdate` and `CreateOrUpdateIfRevision` share. -/
def appendTask (task : Task) (now : Int64) : Result Unit × InMemoryTaskStore :=
  let grown : InMemoryTaskStore :=
    { store with
      orderedTasks := store.orderedTasks ++ [task]
      revisions := store.revisions ++ [kInitialTaskRevision] }
  if (grown.taskIndices.lookup task.id).isSome then
    (.error (.internal "Task index insertion failed"), grown.rollbackAppend)
  else
    let index := grown.orderedTasks.length - 1
    let indexed : InMemoryTaskStore :=
      { grown with taskIndices := grown.taskIndices.insert task.id index }
    match indexed.touchTask index now with
    | (.error e, touched) =>
      (.error e,
        { touched with taskIndices := touched.taskIndices.erase task.id }.rollbackAppend)
    | (.ok (), touched) => (.ok (), touched)

/-- `CreateOrUpdate`. -/
def createOrUpdate (task : Task) (now : Int64) : Result Unit × InMemoryTaskStore :=
  if task.id.isEmpty then (.error (.validation "Task.id is required"), store)
  else
    match store.taskIndices.lookup task.id with
    | some index =>
      match store.touchTask index now with
      | (.error e, touched) => (.error e, touched)
      | (.ok (), touched) => (.ok (), touched.putTask index task)
    | none => store.appendTask task now

/-- `CreateOrUpdateIfRevision`. -/
def createOrUpdateIfRevision (task : Task) (expectedRevision : UInt64) (now : Int64) :
    Result ConditionalWriteResult × InMemoryTaskStore :=
  if task.id.isEmpty then (.error (.validation "Task.id is required"), store)
  else
    match store.taskIndices.lookup task.id with
    | none =>
      if expectedRevision ≠ 0 then (.ok .conflict, store)
      else
        match store.appendTask task now with
        | (.error e, appended) => (.error e, appended)
        | (.ok (), appended) => (.ok .updated, appended)
    | some index =>
      if store.revisions.getD index 0 ≠ expectedRevision then (.ok .conflict, store)
      else
        match store.touchTask index now with
        | (.error e, touched) => (.error e, touched)
        | (.ok (), touched) => (.ok .updated, touched.putTask index task)

/-- `Cancel`. -/
def cancel (id : Bytes) (now : Int64) : Result Task × InMemoryTaskStore :=
  if id.isEmpty then (.error (.validation "Task id is required"), store)
  else
    match store.taskIndices.lookup id with
    | none => (.error (ProtocolErrors.taskNotFound "Task not found"), store)
    | some index =>
      let task := store.orderedTasks.getD index {}
      if isTerminalTaskState task.state then (.error ProtocolErrors.taskNotCancelable, store)
      else
        match store.touchTask index now with
        | (.error e, touched) => (.error e, touched)
        | (.ok (), touched) =>
          let canceled := task.setState .canceled
          (.ok canceled, touched.putTask index canceled)

/-- `AppendTaskHistory`, with the event its telemetry sink is given. -/
def appendTaskHistory (taskId : Bytes) (message : Message) (policy : HistoryAppendPolicy)
    (serialize : Serializer) (now : Int64) :
    Result Task × Option HistoryDedupeEvent × InMemoryTaskStore :=
  if taskId.isEmpty then (.error (.validation "Task id is required"), none, store)
  else
    match store.taskIndices.lookup taskId with
    | none => (.error (ProtocolErrors.taskNotFound "Task not found"), none, store)
    | some index =>
      let task := store.orderedTasks.getD index {}
      match findHistoryDedupeReason serialize task.history message policy with
      | some reason =>
        (.ok task, some ⟨taskId, message.messageId, policy, reason⟩,
          { store with
            telemetrySnapshot := updateDedupeSnapshot store.telemetrySnapshot reason })
      | none =>
        match store.touchTask index now with
        | (.error e, touched) => (.error e, none, touched)
        | (.ok (), touched) =>
          let appended := task.addHistory message
          (.ok appended, none, touched.putTask index appended)

/-! ## Reads -/

/-- `GetSnapshot`. -/
def getSnapshot (id : Bytes) : Result TaskSnapshot :=
  if id.isEmpty then .error (.validation "Task id is required")
  else
    match store.taskIndices.lookup id with
    | none => .error (ProtocolErrors.taskNotFound "Task not found")
    | some index => .ok ⟨store.orderedTasks.getD index {}, store.revisions.getD index 0⟩

/-- `Get`. -/
def get (id : Bytes) : Result Task :=
  if id.isEmpty then .error (.validation "Task id is required")
  else
    match store.taskIndices.lookup id with
    | none => .error (ProtocolErrors.taskNotFound "Task not found")
    | some index => .ok (store.orderedTasks.getD index {})

/-- `ordered_tasks_[task_indices_.at(id)]`; a consistent store has every id it walks. -/
def taskAt (id : Bytes) : Task :=
  ((store.taskIndices.lookup id).bind fun index => store.orderedTasks[index]?).getD {}

/-- The loop of `List` over the cursors from the boundary on. -/
def listFrom (request : ListTasksRequest) :
    List ListTaskCursor → ListTasksResponse → ListTasksResponse
  | [], response => response
  | cursor :: rest, response =>
    let task := store.taskAt cursor.taskId
    if ¬ matchesListFilters task request then listFrom request rest response
    else if request.pageSize ≠ 0 ∧ response.tasks.length = request.pageSize then
      { response with
        nextPageToken := encodeListPageToken (response.taskCursors.getLast?.getD {}) }
    else
      listFrom request rest
        { response with
          tasks := response.tasks ++
            [projectTaskForList task request.includeArtifacts request.historyLength]
          taskCursors := response.taskCursors ++ [cursor] }

/-- The iterator range of `List`: from `begin()` or the token's `upper_bound`. -/
def rangeAfter (boundary : Option ListTaskCursor) : List ListTaskCursor :=
  match boundary with
  | some cursor => store.updateOrder.upperBound cursor
  | none => store.updateOrder.toList

/-- `List`. -/
def list (request : ListTasksRequest) : Result ListTasksResponse :=
  match parseListPageToken request.pageToken with
  | .error e => .error e
  | .ok boundary =>
    let filtered := ¬ request.contextId.isEmpty ∨ request.statusFilter.isSome ∨
      request.statusTimestampAfter.isSome
    let totalSize :=
      if filtered ∧ request.includeTotalSize then
        store.orderedTasks.countP (matchesListFilters · request)
      else if request.includeTotalSize then store.orderedTasks.length
      else 0
    let response := store.listFrom request (store.rangeAfter boundary) { totalSize }
    .ok { response with pageSize := response.tasks.length }

/-! ## Runs -/

inductive StoreCall where
  | createOrUpdate (task : Task)
  | createOrUpdateIfRevision (task : Task) (expectedRevision : UInt64)
  | cancel (id : Bytes)
  | appendTaskHistory (taskId : Bytes) (message : Message) (policy : HistoryAppendPolicy)
      (serialize : Serializer)

inductive StoreReply where
  | createOrUpdate (result : Result Unit)
  | createOrUpdateIfRevision (result : Result ConditionalWriteResult)
  | cancel (result : Result Task)
  | appendTaskHistory (result : Result Task) (deduplicated : Option HistoryDedupeEvent)

def StoreCall.taskId : StoreCall → Bytes
  | .createOrUpdate task | .createOrUpdateIfRevision task _ => task.id
  | .cancel id | .appendTaskHistory id _ _ _ => id

/-- The call wrote its task: no error, no conflict, no deduplicated append. -/
def StoreReply.wrote : StoreReply → Bool
  | .createOrUpdate (.ok ()) => true
  | .createOrUpdateIfRevision (.ok .updated) => true
  | .cancel (.ok _) => true
  | .appendTaskHistory (.ok _) none => true
  | _ => false

def call (c : StoreCall) (now : Int64) : StoreReply × InMemoryTaskStore :=
  match c with
  | .createOrUpdate task =>
    let (result, store') := store.createOrUpdate task now
    (.createOrUpdate result, store')
  | .createOrUpdateIfRevision task expectedRevision =>
    let (result, store') := store.createOrUpdateIfRevision task expectedRevision now
    (.createOrUpdateIfRevision result, store')
  | .cancel id =>
    let (result, store') := store.cancel id now
    (.cancel result, store')
  | .appendTaskHistory taskId message policy serialize =>
    let (result, event, store') := store.appendTaskHistory taskId message policy serialize now
    (.appendTaskHistory result event, store')

def run : InMemoryTaskStore → List (StoreCall × Int64) → InMemoryTaskStore
  | store, [] => store
  | store, (c, now) :: calls => run (store.call c now).2 calls

end InMemoryTaskStore

end A2A.Server.Tasks
