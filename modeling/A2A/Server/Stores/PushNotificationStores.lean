/-
# The two stores of push configurations
(`push_notification_store.cpp`, `postgres_notification_store.cpp`).
-/
import A2A.Core.StringUtils
import A2A.Server.Stores.PostgresTaskStore

namespace A2A.Server.Stores

open A2A.Foundation A2A.Core

def kPushTaskIdRequiredMessage : Bytes := "push notification task_id is required"
def kConfigIdRequiredMessage : Bytes := "push notification id is required"
def kConfigUrlRequiredMessage : Bytes := "push notification url is required"
def kTaskConfigNotFoundMessage : Bytes := "push notification task config not found"
def kConfigNotFoundMessage : Bytes := "push notification config not found"
def kPageSizeInvalidMessage : Bytes := "ListTaskPushNotificationConfigsRequest.page_size must be non-negative"
def kPageTokenInvalidMessage : Bytes := "ListTaskPushNotificationConfigsRequest.page_token must be a non-negative integer"
def kPageTokenOutOfRangeMessage : Bytes :=
  "ListTaskPushNotificationConfigsRequest.page_token exceeds available config count"

/-- `ValidateLookup` and `ValidatePushLookup`. -/
def validateLookup (taskId configId : Bytes) : Result Unit :=
  if taskId = [] then .error (.validation kPushTaskIdRequiredMessage)
  else if configId = [] then .error (.validation kConfigIdRequiredMessage)
  else .ok ()

/-- `ValidateConfig` and `ValidatePushConfig`. -/
def validateConfig (config : TaskPushNotificationConfig) : Result Unit := do
  validateLookup config.taskId config.id
  if config.url = [] then .error (.validation kConfigUrlRequiredMessage)

/-- `ValidateListRequest`, and the same checks in `ListInternal`. -/
def validateListRequest (taskId : Bytes) (pageSize : Int32) : Result Unit :=
  if taskId = [] then .error (.validation kPushTaskIdRequiredMessage)
  else if pageSize < 0 then .error (.validation kPageSizeInvalidMessage)
  else .ok ()

/-- The calls of a `PushNotificationStore`. -/
inductive PushStoreCall where
  | createOrUpdate (config : TaskPushNotificationConfig)
  | get (taskId configId : Bytes)
  | listForExistingTask (taskId : Bytes) (pageSize : Int32) (pageToken : Bytes)
  | delete (taskId configId : Bytes)

inductive PushStoreReply where
  | config (config : TaskPushNotificationConfig)
  | page (configs : List TaskPushNotificationConfig) (nextPageToken : Bytes)
  | done

/-! ## The store in memory -/

/-- `InMemoryPushNotificationStore::TaskConfigs`, under the task's id. -/
structure TaskConfigs where
  taskId : Bytes
  configs : List TaskPushNotificationConfig := []
  configIndices : Table (Prod.fst : Bytes × Nat → Bytes) := .empty

/-- `SwapElements(index, index + 1)`. -/
def swapElements {α : Type} (xs : List α) (index : Nat) : List α :=
  match xs.drop index with
  | x :: y :: rest => xs.take index ++ y :: x :: rest
  | _ => xs

namespace TaskConfigs

def indexOf (task : TaskConfigs) (configId : Bytes) : Option Nat := (task.configIndices.find configId).map Prod.snd

/-- The loop of `Delete`, for the given number of rounds. -/
def moveBack (task : TaskConfigs) (index : Nat) : Nat → TaskConfigs
  | 0 => task
  | rounds + 1 =>
    let configs := swapElements task.configs index
    let moved := match configs[index]? with
      | none => task.configIndices
      | some config => task.configIndices.put (config.id, index)
    moveBack { task with configs, configIndices := moved } (index + 1) rounds

end TaskConfigs

/-- `InMemoryPushNotificationStore`. -/
abbrev InMemoryPushStore := Table TaskConfigs.taskId

namespace InMemoryPushStore

variable (store : InMemoryPushStore)

/-- `ParsePageToken`. -/
def parsePageToken (pageToken : Bytes) : Result Nat :=
  if pageToken = [] then .ok 0
  else
    match fromCharsUnsigned (2 ^ 64) pageToken with
    | .ok (parsed, []) => .ok parsed
    | _ => .error (.validation kPageTokenInvalidMessage)

def createOrUpdate (config : TaskPushNotificationConfig) : Result PushStoreReply × InMemoryPushStore :=
  match validateConfig config with
  | .error e => (.error e, store)
  | .ok _ =>
    let task := (store.find config.taskId).getD { taskId := config.taskId }
    let task := match task.indexOf config.id with
      | some index => { task with configs := task.configs.set index config }
      | none => { task with
          configs := task.configs ++ [config]
          configIndices := task.configIndices.put (config.id, task.configs.length) }
    (.ok (.config config), store.put task)

def get (taskId configId : Bytes) : Result PushStoreReply := do
  validateLookup taskId configId
  match store.find taskId with
  | none => .error (ProtocolErrors.taskNotFound kTaskConfigNotFoundMessage)
  | some task =>
    match (task.indexOf configId).bind (task.configs[·]?) with
    | none => .error (.validation kConfigNotFoundMessage)
    | some config => .ok (.config config)

def list (taskId : Bytes) (pageSize : Int32) (pageToken : Bytes) : Result PushStoreReply := do
  validateListRequest taskId pageSize
  let start ← parsePageToken pageToken
  match store.find taskId with
  | none => .ok (.page [] [])
  | some task =>
    let count := task.configs.length
    if start > count then .error (.validation kPageTokenOutOfRangeMessage)
    else
      let remaining := count - start
      let effectivePageSize := if pageSize = 0 then remaining else pageSize.toInt.toNat
      let resultSize := min effectivePageSize remaining
      .ok (.page ((task.configs.drop start).take resultSize)
        (if resultSize < remaining then decimal (start + resultSize) else []))

def delete (taskId configId : Bytes) : Result PushStoreReply × InMemoryPushStore :=
  match validateLookup taskId configId with
  | .error e => (.error e, store)
  | .ok _ =>
    match store.find taskId with
    | none => (.ok .done, store)
    | some task =>
      match task.indexOf configId with
      | none => (.ok .done, store)
      | some index =>
        let moved := task.moveBack index (task.configs.length - 1 - index)
        let task := { moved with
          configs := moved.configs.dropLast
          configIndices := moved.configIndices.delete configId }
        (.ok .done, if task.configIndices.rows.isEmpty then Table.delete store taskId else store.put task)

def perform (call : PushStoreCall) : Result PushStoreReply × InMemoryPushStore :=
  match call with
  | .createOrUpdate config => createOrUpdate store config
  | .get taskId configId => (get store taskId configId, store)
  | .listForExistingTask taskId pageSize pageToken => (list store taskId pageSize pageToken, store)
  | .delete taskId configId => delete store taskId configId

end InMemoryPushStore

/-! ## The PostgreSQL store -/

/-- The serialization of a configuration to payloads of type `P`. -/
structure PushConfigCodec (P : Type) where
  serialize : TaskPushNotificationConfig → P
  parse : P → Option TaskPushNotificationConfig

structure PushConfigRow (P : Type) where
  taskId : Bytes
  configId : Bytes
  configProto : P
  createdSequence : Nat

def PushConfigRow.key {P : Type} (row : PushConfigRow P) : Bytes × Bytes := (row.taskId, row.configId)

structure PushDatabase (P : Type) where
  configs : Table (PushConfigRow.key (P := P)) := .empty
  createdSequence : Nat := 1

namespace PushDatabase

variable {P : Type} (pg : Postgres) (codec : PushConfigCodec P) (db : PushDatabase P)

/-- `BuildPushUpsertSql`. A conflict takes a number of the sequence, too. -/
def upsert (taskId configId url : Bytes) (payload : P) : Except SqlError Unit × PushDatabase P :=
  if ¬ (pg.validText taskId ∧ pg.validText configId ∧ pg.validText url) then (.error .invalidText, db)
  else if db.createdSequence > bigintMax then (.error .sequenceExhausted, db)
  else
    let row := match db.configs.find (taskId, configId) with
      | some stored => { stored with configProto := payload }
      | none => { taskId, configId, configProto := payload, createdSequence := db.createdSequence }
    (.ok (), { configs := db.configs.put row, createdSequence := db.createdSequence + 1 })

def rowsOf (taskId : Bytes) : List (PushConfigRow P) := db.configs.rows.filter (·.taskId = taskId)

/-- `BuildPushListSql` without the task: the rows with the count of all, or one row with NULL. -/
def selectPage (taskId : Bytes) (limit : Option Nat) (offset : Nat) : Except SqlError (List (Option P × Nat)) :=
  if ¬ pg.validText taskId then .error .invalidText
  else
    let ordered := (db.rowsOf taskId).mergeSort (·.createdSequence ≤ ·.createdSequence)
    let total := (db.rowsOf taskId).length
    let page := if offset ≤ total then (ordered.drop offset).take (limit.getD total) else []
    .ok (if page = [] then [(none, total)] else page.map fun row => (some row.configProto, total))

end PushDatabase

namespace PostgresPushStore

variable {P : Type} (pg : Postgres) (codec : PushConfigCodec P) (db : PushDatabase P)

/-- `ParsePushListPageToken`. -/
def parsePushListPageToken (pageToken : Bytes) : Result Nat :=
  if pageToken = [] then .ok 0
  else
    match fromCharsUnsigned (2 ^ 64) pageToken with
    | .error .resultOutOfRange => .error (.validation kPageTokenOutOfRangeMessage)
    | .ok (parsed, []) =>
      if parsed > bigintMax then .error (.validation kPageTokenOutOfRangeMessage) else .ok parsed
    | _ => .error (.validation kPageTokenInvalidMessage)

def parseProto (payload : P) : Result TaskPushNotificationConfig :=
  match codec.parse payload with
  | none => .error (.serialization "failed to parse stored TaskPushNotificationConfig protobuf")
  | some config => .ok config

/-- `CreateOrUpdate`, on the external path of `UpsertOnConnection`. -/
def createOrUpdate (config : TaskPushNotificationConfig) : Result PushStoreReply × PushDatabase P :=
  match validateConfig config with
  | .error e => (.error e, db)
  | .ok _ =>
    let answer := db.upsert pg (cString config.taskId) (cString config.id) (cString config.url) (codec.serialize config)
    ((checked pg "upsert postgres push notification config" answer.1).map fun _ => .config config, answer.2)

/-- `ListInternal`, for a task whose existence is not checked. -/
def listForExistingTask (taskId : Bytes) (pageSize : Int32) (pageToken : Bytes) : Result PushStoreReply := do
  validateListRequest taskId pageSize
  let offset ← parsePushListPageToken pageToken
  let limit := if pageSize = 0 then none else some pageSize.toInt.toNat
  match ← checked pg "list postgres push notification configs" (db.selectPage pg (cString taskId) limit offset) with
  | [] => .error (.internal "list postgres push notification configs: query returned no count row")
  | (first, count) :: rest =>
    if offset > count then .error (.validation kPageTokenOutOfRangeMessage)
    else
      let rows := if first.isNone then [] else first.toList ++ rest.filterMap Prod.fst
      let configs ← rows.mapM (parseProto codec)
      .ok (.page configs (if rows.length < count - offset then decimal (offset + rows.length) else []))

end PostgresPushStore

end A2A.Server.Stores
