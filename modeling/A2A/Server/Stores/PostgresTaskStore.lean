/-
# The PostgreSQL task store (`postgres_task_store.cpp`).
-/
import A2A.Foundation.Table
import A2A.Server.Tasks.InMemoryTaskStore
import Mathlib.Data.List.Sort

namespace A2A.Server.Stores

open A2A.Foundation A2A.Core A2A.Server.Tasks

/-! ## The server and the wire format -/

/-- The errors with which the server answers the statements below. -/
inductive SqlError where
  | invalidText
  | bigintOutOfRange
  | timestampOutOfRange
  | sequenceExhausted
  deriving DecidableEq

/-- What the database server decides. -/
structure Postgres where
  /-- The byte strings that are text in the encoding of the database. -/
  validText : Bytes → Bool
  validText_nil : validText [] = true
  errorMessage : SqlError → Bytes

/-- The serialization of `Task` to payloads of type `P`. -/
structure TaskCodec (P : Type) where
  serialize : Task → P
  parse : P → Option Task
  exact : ∀ task read, parse (serialize task) = some read → read = task

/-- A server that takes any text. -/
def Postgres.permissive : Postgres := ⟨fun _ => true, rfl, fun _ => "ERROR"⟩

/-- The codec whose payloads are the messages themselves. -/
def TaskCodec.identity : TaskCodec Task := ⟨id, some, fun _ _ h => (Option.some.inj h).symm⟩

/-- The largest `BIGINT`. -/
def bigintMax : Nat := 2 ^ 63 - 1

/-- The values of a `BIGINT` column that counts. -/
abbrev Bigint := { n : Nat // n ≤ bigintMax }

/-- The decimal text of the column, read as `std::uint64_t`. -/
def Bigint.toUInt64 (n : Bigint) : UInt64 := UInt64.ofNat n.val

theorem Bigint.toNat_toUInt64 (n : Bigint) : n.toUInt64.toNat = n.val := by
  have hlt : n.val < 2 ^ 64 := lt_of_le_of_lt n.property (by decide)
  exact UInt64.toNat_ofNat_of_lt' hlt

/-- The last microsecond of `TIMESTAMPTZ`, counted from 1970. -/
def timestampMax : Int := 9224318015999999999

/-- `std::numeric_limits<int>::max()`. -/
def intMax : Nat := 2 ^ 31 - 1

/-- What libpq reads of a text parameter that is passed as `c_str()`. -/
def cString (text : Bytes) : Bytes := text.takeWhile (· ≠ 0)

/-! ## The table -/

/-- One row of the task table; `state` is kept as the enumeration value. -/
structure TaskRow (P : Type) where
  id : Bytes
  contextId : Bytes
  state : TaskState
  hasStatusTimestamp : Bool
  statusSeconds : Int64
  statusNanos : Int32
  revision : Bigint
  createdSequence : Bigint
  taskProto : P
  updatedAt : Int

/-- The task table and the sequence that numbers its rows. -/
structure Database (P : Type) where
  tasks : Table (TaskRow.id (P := P)) := Table.empty
  taskCreatedSequence : Nat := 1

/-- The parameters `$1` to `$7` that are computed from a task. -/
structure TaskParameters (P : Type) where
  id : Bytes
  contextId : Bytes
  state : TaskState
  hasStatusTimestamp : Bool
  statusSeconds : Int64
  statusNanos : Int32
  payload : P

variable {P : Type}

/-- The parameter array, with the texts as libpq reads them. -/
def taskParameters (codec : TaskCodec P) (task : Task) : TaskParameters P :=
  let timestamp := task.statusOr.timestamp
  { id := cString task.id
    contextId := cString task.contextId
    state := task.state
    hasStatusTimestamp := timestamp.isSome
    statusSeconds := (timestamp.map Timestamp.seconds).getD 0
    statusNanos := (timestamp.map Timestamp.nanos).getD 0
    payload := codec.serialize task }

namespace TaskParameters

/-- The server takes the texts of a task. -/
def accepted (pg : Postgres) (parameters : TaskParameters P) : Bool :=
  pg.validText parameters.id && pg.validText parameters.contextId

/-- The row that `INSERT` makes, with revision one and the next sequence number. -/
def newRow (parameters : TaskParameters P) (createdSequence : Bigint) (now : Int) : TaskRow P :=
  { id := parameters.id
    contextId := parameters.contextId
    state := parameters.state
    hasStatusTimestamp := parameters.hasStatusTimestamp
    statusSeconds := parameters.statusSeconds
    statusNanos := parameters.statusNanos
    revision := ⟨1, by decide⟩
    createdSequence
    taskProto := parameters.payload
    updatedAt := now }

/-- `SET context_id = ..., ..., task_proto = ...`: all but the key and the counters. -/
def assign (parameters : TaskParameters P) (row : TaskRow P) : TaskRow P :=
  { row with
    contextId := parameters.contextId
    state := parameters.state
    hasStatusTimestamp := parameters.hasStatusTimestamp
    statusSeconds := parameters.statusSeconds
    statusNanos := parameters.statusNanos
    taskProto := parameters.payload }

end TaskParameters

/-- `revision = revision + 1, updated_at = GREATEST(clock_timestamp(), updated_at + interval
'1 microsecond')`. -/
def TaskRow.advance (row : TaskRow P) (now : Int) : Except SqlError (TaskRow P) :=
  if hrevision : row.revision.val + 1 ≤ bigintMax then
    if timestampMax ≤ row.updatedAt then .error .timestampOutOfRange
    else
      .ok { row with
        revision := ⟨row.revision.val + 1, hrevision⟩
        updatedAt := max now (row.updatedAt + 1) }
  else .error .bigintOutOfRange

/-! ## Statements -/

/-- A statement answers and leaves a database; a failed one leaves the rows. -/
abbrev Statement (P α : Type) := Database P → Except SqlError α × Database P

namespace Database

/-- `UPDATE` of the row `row` by `change` and the advance of its counters. -/
def updateRow (row : TaskRow P) (change : TaskRow P → TaskRow P) (now : Int) : Statement P Unit :=
  fun db =>
    match row.advance now with
    | .error e => (.error e, db)
    | .ok advanced => (.ok (), { db with tasks := db.tasks.put (change advanced) })

/-- `INSERT ... ON CONFLICT (id)`. The sequence moves on before the conflict is noticed. -/
def insertTask {α : Type} (pg : Postgres) (parameters : TaskParameters P) (now : Int) (inserted : α)
    (onConflict : TaskRow P → Statement P α) : Statement P α :=
  fun db =>
    if ¬ parameters.accepted pg then (.error .invalidText, db)
    else if hsequence : db.taskCreatedSequence ≤ bigintMax then
      let numbered := { db with taskCreatedSequence := db.taskCreatedSequence + 1 }
      match db.tasks.find parameters.id with
      | none =>
        (.ok inserted, { numbered with
          tasks := db.tasks.put (parameters.newRow ⟨db.taskCreatedSequence, hsequence⟩ now) })
      | some row => onConflict row numbered
    else (.error .sequenceExhausted, db)

/-- `UpsertTask`. -/
def upsertTask (pg : Postgres) (parameters : TaskParameters P) (now : Int) : Statement P Unit :=
  insertTask pg parameters now () fun row => updateRow row parameters.assign now

/-- `BuildConditionalTaskCreateSql`; the answer is the number of rows returned. -/
def conditionalCreate (pg : Postgres) (parameters : TaskParameters P) (now : Int) : Statement P Nat :=
  insertTask pg parameters now 1 fun _ db => (.ok 0, db)

/-- `BuildConditionalTaskUpdateSql`; the answer is the number of rows returned. -/
def conditionalUpdate (pg : Postgres) (parameters : TaskParameters P) (expectedRevision : UInt64)
    (now : Int) : Statement P Nat :=
  fun db =>
    if ¬ parameters.accepted pg then (.error .invalidText, db)
    else if bigintMax < expectedRevision.toNat then (.error .bigintOutOfRange, db)
    else
      match db.tasks.find parameters.id with
      | none => (.ok 0, db)
      | some row =>
        if row.revision.val = expectedRevision.toNat then
          let (result, db') := db.updateRow row parameters.assign now
          (result.map fun _ => 1, db')
        else (.ok 0, db)

/-- `UpdateTaskHistory`: only the payload changes; the answer says whether a row was affected. -/
def updateTaskHistory (pg : Postgres) (id : Bytes) (payload : P)
    (expectedRevision expectedCreatedSequence : UInt64) (now : Int) : Statement P Bool :=
  fun db =>
    if ¬ pg.validText (cString id) then (.error .invalidText, db)
    else if bigintMax < expectedRevision.toNat ∨ bigintMax < expectedCreatedSequence.toNat then
      (.error .bigintOutOfRange, db)
    else
      match db.tasks.find (cString id) with
      | none => (.ok false, db)
      | some row =>
        if row.revision.val = expectedRevision.toNat ∧
            row.createdSequence.val = expectedCreatedSequence.toNat then
          let (result, db') := db.updateRow row (fun row => { row with taskProto := payload }) now
          (result.map fun _ => true, db')
        else (.ok false, db)

/-- `SELECT ... WHERE id = $1`, with or without `FOR UPDATE`. -/
def selectTask (pg : Postgres) (db : Database P) (id : Bytes) : Except SqlError (Option (TaskRow P)) :=
  if ¬ pg.validText (cString id) then .error .invalidText
  else .ok (db.tasks.find (cString id))

end Database

/-! ## The list statements -/

/-- The predicates of `BuildTaskListSqlFilter`, joined by `AND`. -/
def taskListFilter (request : ListTasksRequest) (row : TaskRow P) : Bool :=
  (request.contextId.isEmpty || row.contextId == cString request.contextId) &&
  request.statusFilter.all (row.state = ·) &&
  request.statusTimestampAfter.all fun cutoff =>
    row.hasStatusTimestamp && (decide (row.statusSeconds > cutoff.seconds) ||
      (row.statusSeconds == cutoff.seconds && decide (row.statusNanos ≥ cutoff.nanos)))

/-- The server takes the texts of a filter. -/
def filterAccepted (pg : Postgres) (request : ListTasksRequest) : Bool :=
  request.contextId.isEmpty || pg.validText (cString request.contextId)

/-- The row comparison of `AppendTaskListBoundary`. -/
def beyondBoundary (boundary : Option ListTaskCursor) (row : TaskRow P) : Bool :=
  boundary.all fun cursor =>
    decide (row.updatedAt < cursor.updatedAt.toInt) ||
      (decide (row.updatedAt = cursor.updatedAt.toInt) && decide (row.id < cString cursor.taskId))

/-- The server takes the texts of a boundary. -/
def boundaryAccepted (pg : Postgres) (boundary : Option ListTaskCursor) : Bool :=
  boundary.all fun cursor => pg.validText (cString cursor.taskId)

/-- `ORDER BY updated_at DESC, id COLLATE "C" DESC`. -/
def TaskRow.ListedBefore (lhs rhs : TaskRow P) : Prop :=
  rhs.updatedAt < lhs.updatedAt ∨ (lhs.updatedAt = rhs.updatedAt ∧ rhs.id ≤ lhs.id)

instance : DecidableRel (TaskRow.ListedBefore (P := P)) := fun _ _ => instDecidableOr

namespace Database

/-- `CountTaskList`. -/
def countTaskList (pg : Postgres) (db : Database P) (request : ListTasksRequest) : Except SqlError Nat :=
  if ¬ filterAccepted pg request then .error .invalidText
  else .ok (db.tasks.rows.countP (taskListFilter request))

/-- The rows of `ORDER BY ... LIMIT`; a page size of zero sets no limit. -/
def listedRows (db : Database P) (request : ListTasksRequest) (boundary : Option ListTaskCursor) :
    List (TaskRow P) :=
  let sorted := (db.tasks.rows.filter fun row => taskListFilter request row && beyondBoundary boundary row)
    |>.insertionSort TaskRow.ListedBefore
  if request.pageSize ≠ 0 then sorted.take (min request.pageSize intMax + 1) else sorted

/-- The page statement of `List`: payloads with their update times as `BIGINT`. -/
def selectTaskList (pg : Postgres) (db : Database P) (request : ListTasksRequest)
    (boundary : Option ListTaskCursor) : Except SqlError (List (P × Int64)) :=
  if ¬ (filterAccepted pg request && boundaryAccepted pg boundary) then .error .invalidText
  else
    let rows := db.listedRows request boundary
    if rows.any fun row => decide ((bigintMax : Int) < row.updatedAt) then .error .bigintOutOfRange
    else .ok (rows.map fun row => (row.taskProto, Int64.ofInt row.updatedAt))

end Database

/-! ## The store -/

def kTaskHistoryRevisionRetryLimit : Nat := 8
def kTaskHistoryRevisionRetryLimitExceededMessage : Bytes :=
  "task history append exceeded revision conflict retry limit"
def kTaskNotFoundMessage : Bytes := "Task not found"
def kTaskIdRequiredMessage : Bytes := "Task id is required"
def kTaskIdFieldRequiredMessage : Bytes := "Task.id is required"

/-- `DatabaseResultError`. -/
def databaseResultError (pg : Postgres) (operation : Bytes) (e : SqlError) : Error :=
  .internal (operation ++ (": " : Bytes) ++ pg.errorMessage e)

/-- `CheckCommand` and `CheckTuples`: the answer of a statement, or its error for the operation. -/
def checked {α : Type} (pg : Postgres) (operation : Bytes) : Except SqlError α → Result α
  | .ok a => .ok a
  | .error e => .error (databaseResultError pg operation e)

/-- `ParseTaskRow`. -/
def parseTaskRow (codec : TaskCodec P) (payload : P) : Result Task :=
  match codec.parse payload with
  | some task => .ok task
  | none => .error (.serialization "failed to parse stored Task protobuf")

/-- `TaskHistorySnapshot`. -/
structure TaskHistorySnapshot where
  task : Task
  revision : UInt64
  createdSequence : UInt64

/-- The database as the store sees it, with the store's own telemetry. -/
structure PostgresTaskStore (P : Type) where
  database : Database P := {}
  telemetrySnapshot : HistoryTelemetrySnapshot := {}

/-- The loop of `ReadTaskListPage` over the rows of the page statement. -/
def readTaskListRows (codec : TaskCodec P) (request : ListTasksRequest) :
    List (P × Int64) → ListTasksResponse → Result ListTasksResponse
  | [], response => .ok response
  | (payload, updatedAt) :: rest, response =>
    if request.pageSize ≠ 0 ∧ response.tasks.length = request.pageSize then
      .ok { response with
        nextPageToken := encodeListPageToken (response.taskCursors.getLast?.getD {}) }
    else
      match parseTaskRow codec payload with
      | .error e => .error e
      | .ok task =>
        readTaskListRows codec request rest
          { response with
            tasks := response.tasks ++
              [projectTaskForList task request.includeArtifacts request.historyLength]
            taskCursors := response.taskCursors ++ [⟨updatedAt, task.id⟩] }

/-- `ReadTaskListPage`. -/
def readTaskListPage (codec : TaskCodec P) (request : ListTasksRequest) (rows : List (P × Int64))
    (totalSize : Nat) : Result ListTasksResponse :=
  (readTaskListRows codec request rows { totalSize }).map fun response =>
    { response with pageSize := response.tasks.length }

namespace PostgresTaskStore

variable (pg : Postgres) (codec : TaskCodec P) (store : PostgresTaskStore P)

/-- The reads of one task select its row, report a missing one, and go on. -/
def selectRow {α : Type} (operation : Bytes) (id : Bytes) (found : TaskRow P → Result α) : Result α :=
  match checked pg operation (store.database.selectTask pg id) with
  | .error e => .error e
  | .ok none => .error (ProtocolErrors.taskNotFound kTaskNotFoundMessage)
  | .ok (some row) => found row

/-- A statement whose failure is reported for the operation. -/
def execute {α : Type} (operation : Bytes) (statement : Statement P α) : Result α × PostgresTaskStore P :=
  let (result, database) := statement store.database
  (checked pg operation result, { store with database })

/-! ### Writes -/

/-- `CreateOrUpdate`. -/
def createOrUpdate (task : Task) (now : Int) : Result Unit × PostgresTaskStore P :=
  if task.id.isEmpty then (.error (.validation kTaskIdFieldRequiredMessage), store)
  else store.execute pg "upsert postgres task" (Database.upsertTask pg (taskParameters codec task) now)

/-- `CreateOrUpdateIfRevision`. -/
def createOrUpdateIfRevision (task : Task) (expectedRevision : UInt64) (now : Int) :
    Result ConditionalWriteResult × PostgresTaskStore P :=
  if task.id.isEmpty then (.error (.validation kTaskIdFieldRequiredMessage), store)
  else
    let parameters := taskParameters codec task
    let statement :=
      if expectedRevision = 0 then Database.conditionalCreate pg parameters now
      else Database.conditionalUpdate pg parameters expectedRevision now
    let (result, store') := store.execute pg "conditionally persist postgres task" statement
    (result.map fun rows => if rows = 0 then .conflict else .updated, store')

/-- `SelectTaskForUpdate`. -/
def selectTaskForUpdate (id : Bytes) : Result Task :=
  store.selectRow pg "select postgres task for update" id fun row => parseTaskRow codec row.taskProto

/-- `Cancel`: one transaction, whose row lock keeps other writers out. -/
def cancel (id : Bytes) (now : Int) : Result Task × PostgresTaskStore P :=
  if id.isEmpty then (.error (.validation kTaskIdRequiredMessage), store)
  else
    match store.selectTaskForUpdate pg codec id with
    | .error e => (.error e, store)
    | .ok task =>
      if isTerminalTaskState task.state then (.error ProtocolErrors.taskNotCancelable, store)
      else
        let canceled := task.setState .canceled
        let (result, store') := store.execute pg "upsert postgres task"
          (Database.upsertTask pg (taskParameters codec canceled) now)
        (result.map fun _ => canceled, store')

/-- `SelectTaskHistorySnapshot`. -/
def selectTaskHistorySnapshot (id : Bytes) : Result TaskHistorySnapshot :=
  store.selectRow pg "select postgres task history snapshot" id fun row =>
    (parseTaskRow codec row.taskProto).map fun task =>
      ⟨task, row.revision.toUInt64, row.createdSequence.toUInt64⟩

/-- `UpdateTaskHistory`. -/
def updateTaskHistory (task : Task) (expectedRevision expectedCreatedSequence : UInt64) (now : Int) :
    Result Bool × PostgresTaskStore P :=
  store.execute pg "update postgres task history"
    (Database.updateTaskHistory pg task.id (codec.serialize task) expectedRevision
      expectedCreatedSequence now)

/-- The loop of `AppendTaskHistory`, with the attempts that are left. -/
def appendTaskHistoryLoop (taskId : Bytes) (message : Message) (policy : HistoryAppendPolicy)
    (serialize : Serializer) (now : Int) :
    Nat → PostgresTaskStore P → Result Task × PostgresTaskStore P
  | 0, store => (.error (.internal kTaskHistoryRevisionRetryLimitExceededMessage), store)
  | attempts + 1, store =>
    match store.selectTaskHistorySnapshot pg codec taskId with
    | .error e => (.error e, store)
    | .ok snapshot =>
      match findHistoryDedupeReason serialize snapshot.task.history message policy with
      | some reason =>
        (.ok snapshot.task,
          { store with
            telemetrySnapshot := updateDedupeSnapshot store.telemetrySnapshot reason })
      | none =>
        let appended := snapshot.task.addHistory message
        match store.updateTaskHistory pg codec appended snapshot.revision
            snapshot.createdSequence now with
        | (.error e, store') => (.error e, store')
        | (.ok true, store') => (.ok appended, store')
        | (.ok false, store') =>
          appendTaskHistoryLoop taskId message policy serialize now attempts store'

/-- `AppendTaskHistory`. -/
def appendTaskHistory (taskId : Bytes) (message : Message) (policy : HistoryAppendPolicy)
    (serialize : Serializer) (now : Int) : Result Task × PostgresTaskStore P :=
  if taskId.isEmpty then (.error (.validation kTaskIdRequiredMessage), store)
  else
    appendTaskHistoryLoop pg codec taskId message policy serialize now kTaskHistoryRevisionRetryLimit
      store

/-! ### Reads -/

/-- `GetSnapshot`. -/
def getSnapshot (id : Bytes) : Result TaskSnapshot :=
  if id.isEmpty then .error (.validation kTaskIdRequiredMessage)
  else
    store.selectRow pg "get postgres task snapshot" id fun row =>
      (parseTaskRow codec row.taskProto).map fun task => ⟨task, row.revision.toUInt64⟩

/-- `Get`. -/
def get (id : Bytes) : Result Task :=
  if id.isEmpty then .error (.validation kTaskIdRequiredMessage)
  else store.selectRow pg "get postgres task" id fun row => parseTaskRow codec row.taskProto

/-- `List`: both statements run in one read-only transaction on one snapshot. -/
def list (request : ListTasksRequest) : Result ListTasksResponse :=
  match parseListPageToken request.pageToken with
  | .error e => .error e
  | .ok boundary =>
    let counted :=
      if request.includeTotalSize then
        checked pg "count postgres tasks" (store.database.countTaskList pg request)
      else .ok 0
    match counted with
    | .error e => .error e
    | .ok totalSize =>
      match checked pg "list postgres tasks" (store.database.selectTaskList pg request boundary) with
      | .error e => .error e
      | .ok rows => readTaskListPage codec request rows totalSize

end PostgresTaskStore

/-! ## Calls -/

/-- One call of the `TaskStore` interface; what protobuf serializes is part of an append. -/
inductive TaskStoreCall where
  | createOrUpdate (task : Task)
  | getSnapshot (id : Bytes)
  | createOrUpdateIfRevision (task : Task) (expectedRevision : UInt64)
  | get (id : Bytes)
  | list (request : ListTasksRequest)
  | cancel (id : Bytes)
  | appendTaskHistory (taskId : Bytes) (message : Message) (policy : HistoryAppendPolicy)
      (serialize : Serializer)

inductive TaskStoreReply where
  | createOrUpdate (result : Result Unit)
  | getSnapshot (result : Result TaskSnapshot)
  | createOrUpdateIfRevision (result : Result ConditionalWriteResult)
  | get (result : Result Task)
  | list (result : Result ListTasksResponse)
  | cancel (result : Result Task)
  | appendTaskHistory (result : Result Task)

def TaskStoreCall.taskId : TaskStoreCall → Option Bytes
  | .createOrUpdate task | .createOrUpdateIfRevision task _ => some task.id
  | .getSnapshot id | .get id | .cancel id | .appendTaskHistory id _ _ _ => some id
  | .list _ => none

namespace PostgresTaskStore

def perform (pg : Postgres) (codec : TaskCodec P) (store : PostgresTaskStore P) (call : TaskStoreCall)
    (now : Int) : TaskStoreReply × PostgresTaskStore P :=
  match call with
  | .createOrUpdate task =>
    let (result, store') := store.createOrUpdate pg codec task now
    (.createOrUpdate result, store')
  | .getSnapshot id => (.getSnapshot (store.getSnapshot pg codec id), store)
  | .createOrUpdateIfRevision task expectedRevision =>
    let (result, store') := store.createOrUpdateIfRevision pg codec task expectedRevision now
    (.createOrUpdateIfRevision result, store')
  | .get id => (.get (store.get pg codec id), store)
  | .list request => (.list (store.list pg codec request), store)
  | .cancel id =>
    let (result, store') := store.cancel pg codec id now
    (.cancel result, store')
  | .appendTaskHistory taskId message policy serialize =>
    let (result, store') := store.appendTaskHistory pg codec taskId message policy serialize now
    (.appendTaskHistory result, store')

/-- A sequence of calls with their clock readings. -/
def run (pg : Postgres) (codec : TaskCodec P) :
    PostgresTaskStore P → List (TaskStoreCall × Int) → List TaskStoreReply × PostgresTaskStore P
  | store, [] => ([], store)
  | store, (call, now) :: calls =>
    let (reply, store') := store.perform pg codec call now
    let (replies, final) := run pg codec store' calls
    (reply :: replies, final)

end PostgresTaskStore

end A2A.Server.Stores
