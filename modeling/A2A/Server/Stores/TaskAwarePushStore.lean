/-
# Push configurations of tasks that may not exist
(`postgres_notification_store.cpp`).
-/
import A2A.Server.Stores.PushNotificationStores

namespace A2A.Server.Stores

open A2A.Foundation A2A.Core

/-- `PostgresStorageAuthority`; a task store that is not PostgreSQL's is external. -/
inductive PostgresStorageAuthority where
  | localStorage
  | external
  | uncertain
  deriving DecidableEq

/-- How the push store stands to the task store. -/
structure TaskAwareSetting where
  authority : PostgresStorageAuthority
  /-- `SharesConnectionPool` and `UsesStorage`. -/
  sharesStorage : Bool
  taskAwareSchemaAvailable : Bool
  /-- `HasTaskLockExecutePrivilege`. -/
  taskLockExecuteAvailable : Bool
  denied : Option SqlError := none
  hasTask : Bytes → Bool

def kPostgresTaskAwarePushSchemaRequiredMessage : Bytes :=
  bytes "PostgreSQL task-aware push configuration requires task-aware-push-config-v4; apply the migration in " ++
    bytes "docs/storage.md before pairing this push store with a local PostgreSQL task store"
def kPostgresPushTaskLockExecuteRequiredMessage : Bytes :=
  bytes "PostgreSQL push store role requires EXECUTE on a2a_lock_task_for_push_config(TEXT) for task-aware " ++
    bytes "creation; grant helper EXECUTE to the effective push-store role"
def kPostgresTaskAuthorityUncertainMessage : Bytes :=
  "PostgreSQL task authority cannot be proven local or external from the configured storage identity"

/-- The calls of `TaskAwarePushNotificationStore`. -/
inductive TaskAwareCall where
  | createOrUpdateForTask (config : TaskPushNotificationConfig)
  | listForTask (taskId : Bytes) (pageSize : Int32) (pageToken : Bytes)

def TaskAwareCall.taskId : TaskAwareCall → Bytes
  | .createOrUpdateForTask config => config.taskId
  | .listForTask taskId _ _ => taskId

namespace PostgresPushStore

variable {P : Type} (pg : Postgres) (codec : PushConfigCodec P) (db : PushDatabase P) (setting : TaskAwareSetting)
  (taskStoreGet : Bytes → Result Task)

/-- The answer, if the task store has the task. -/
def afterTask {α : Type} (taskId : Bytes) (next : Result α) : Result α :=
  match taskStoreGet taskId with
  | .error e => .error e
  | .ok _ => next

/-- `BuildPushUpsertSql` on the path `kLocalAtomic`: the number of rows returned. -/
def localUpsert (config : TaskPushNotificationConfig) : Except SqlError Nat × PushDatabase P :=
  match setting.denied with
  | some e => (.error e, db)
  | none =>
    if ¬ (pg.validText (cString config.taskId) ∧ pg.validText (cString config.id) ∧
        pg.validText (cString config.url)) then
      (.error .invalidText, db)
    else if ¬ setting.hasTask (cString config.taskId) then (.ok 0, db)
    else
      let answer := db.upsert pg (cString config.taskId) (cString config.id) (cString config.url) (codec.serialize config)
      (answer.1.map fun _ => 1, answer.2)

/-- `CreateOrUpdateForTask`, as far as its answer goes. -/
def createOrUpdateForTask (config : TaskPushNotificationConfig) : Result PushStoreReply :=
  match validateConfig config with
  | .error e => afterTask taskStoreGet config.taskId (.error e)
  | .ok _ =>
    match setting.authority with
    | .localStorage =>
      if ¬ setting.taskAwareSchemaAvailable then
        afterTask taskStoreGet config.taskId (.error (.internal kPostgresTaskAwarePushSchemaRequiredMessage))
      else if ¬ setting.taskLockExecuteAvailable then .error (.internal kPostgresPushTaskLockExecuteRequiredMessage)
      else
        match checked pg "upsert postgres push notification config" (localUpsert pg codec db setting config).1 with
        | .error e => .error e
        | .ok 0 => .error (ProtocolErrors.taskNotFound kTaskConfigNotFoundMessage)
        | .ok _ => .ok (.config config)
    | .uncertain => afterTask taskStoreGet config.taskId (.error (.internal kPostgresTaskAuthorityUncertainMessage))
    | .external => afterTask taskStoreGet config.taskId (createOrUpdate pg codec db config).1

/-- `ValidatePushListRequest`. -/
def validatePushListRequest (taskId : Bytes) (pageSize : Int32) (pageToken : Bytes) : Result Nat := do
  validateListRequest taskId pageSize
  parsePushListPageToken pageToken

/-- `ListInternal` with the check of the task: a task that is not there gives no row. -/
def listChecked (taskId : Bytes) (pageSize : Int32) (pageToken : Bytes) : Result PushStoreReply :=
  match setting.denied with
  | some e => checked pg "list postgres push notification configs" (.error e)
  | none =>
    if pg.validText (cString taskId) ∧ ¬ setting.hasTask (cString taskId) then
      .error (ProtocolErrors.taskNotFound kTaskConfigNotFoundMessage)
    else listForExistingTask pg codec db taskId pageSize pageToken

/-- `ListForTask`. -/
def listForTask (taskId : Bytes) (pageSize : Int32) (pageToken : Bytes) : Result PushStoreReply :=
  match validatePushListRequest taskId pageSize pageToken with
  | .error e => afterTask taskStoreGet taskId (.error e)
  | .ok _ =>
    if setting.sharesStorage then listChecked pg codec db setting taskId pageSize pageToken
    else afterTask taskStoreGet taskId (listForExistingTask pg codec db taskId pageSize pageToken)

def answerTaskAware : TaskAwareCall → Result PushStoreReply
  | .createOrUpdateForTask config => createOrUpdateForTask pg codec db setting taskStoreGet config
  | .listForTask taskId pageSize pageToken => listForTask pg codec db setting taskStoreGet taskId pageSize pageToken

/-- One statement looks for the task and does the work. -/
def InOneStatement : TaskAwareCall → Prop
  | .createOrUpdateForTask config => validateConfig config = .ok () ∧ setting.authority = .localStorage ∧
      setting.taskAwareSchemaAvailable = true
  | .listForTask taskId pageSize pageToken =>
      (∃ offset, validatePushListRequest taskId pageSize pageToken = .ok offset) ∧ setting.sharesStorage = true

/-- Nothing stands in the way of the statement. -/
def Unhindered : TaskAwareCall → Prop
  | .createOrUpdateForTask config => setting.taskLockExecuteAvailable = true ∧ setting.denied = none ∧
      pg.validText (cString config.taskId) = true ∧ pg.validText (cString config.id) = true ∧
      pg.validText (cString config.url) = true
  | .listForTask taskId _ _ => setting.denied = none ∧ pg.validText (cString taskId) = true

variable {pg codec db setting taskStoreGet}

theorem taskNotFound_ne_internal (message text : Bytes) : Error.internal text ≠ ProtocolErrors.taskNotFound message :=
  fun h => nomatch congrArg Error.code h

theorem listForExistingTask_of_invalidText {taskId pageToken : Bytes} {pageSize : Int32} {offset : Nat}
    (hvalid : validatePushListRequest taskId pageSize pageToken = .ok offset)
    (htext : ¬ pg.validText (cString taskId)) :
    ∃ text, listForExistingTask pg codec db taskId pageSize pageToken = .error (.internal text) := by
  have hpage : ∀ limit offset, db.selectPage pg (cString taskId) limit offset = .error .invalidText :=
    fun _ _ => if_pos htext
  rw [validatePushListRequest] at hvalid
  cases hrequest : validateListRequest taskId pageSize with
  | error e => nomatch (hrequest ▸ hvalid)
  | ok _ =>
    rw [hrequest] at hvalid
    have hoffset : parsePushListPageToken pageToken = .ok offset := hvalid
    rw [listForExistingTask, hrequest, hoffset]
    dsimp only [bind, Except.bind]
    rw [hpage]
    exact ⟨_, rfl⟩

/-- In one statement a missing task is found out exactly if nothing stands in the way. -/
theorem answer_inOneStatement {call : TaskAwareCall} (hpath : InOneStatement setting call)
    (hrow : setting.hasTask (cString call.taskId) = false) :
    (Unhindered pg setting call ∧ answerTaskAware pg codec db setting taskStoreGet call =
      .error (ProtocolErrors.taskNotFound kTaskConfigNotFoundMessage)) ∨
    ¬ Unhindered pg setting call ∧
      ∃ text, answerTaskAware pg codec db setting taskStoreGet call = .error (.internal text) := by
  cases call with
  | createOrUpdateForTask config =>
    obtain ⟨hvalid, hauthority, hschema⟩ := hpath
    rw [answerTaskAware, createOrUpdateForTask, hvalid, hauthority, localUpsert]
    dsimp only
    rw [hschema, if_neg (by simp)]
    by_cases hlock : setting.taskLockExecuteAvailable
    · rw [if_neg (by simp [hlock])]
      cases hdenied : setting.denied with
      | some e => exact .inr ⟨fun h => (nomatch hdenied.symm.trans h.2.1), _, rfl⟩
      | none =>
        by_cases htexts : pg.validText (cString config.taskId) ∧ pg.validText (cString config.id) ∧
            pg.validText (cString config.url)
        · have hnone : setting.hasTask (cString config.taskId) = false := hrow
          dsimp only
          rw [if_neg (not_not.mpr htexts), hnone]
          exact .inl ⟨⟨hlock, hdenied, htexts⟩, rfl⟩
        · dsimp only
          rw [if_pos htexts]
          exact .inr ⟨fun h => htexts h.2.2, _, rfl⟩
    · rw [if_pos hlock]
      exact .inr ⟨fun h => hlock h.1, _, rfl⟩
  | listForTask taskId pageSize pageToken =>
    obtain ⟨⟨offset, hvalid⟩, hshares⟩ := hpath
    rw [answerTaskAware, listForTask, hvalid, listChecked]
    dsimp only
    rw [if_pos hshares]
    cases hdenied : setting.denied with
    | some e => exact .inr ⟨fun h => (nomatch hdenied.symm.trans h.1), _, rfl⟩
    | none =>
      have hnone : setting.hasTask (cString taskId) = false := hrow
      by_cases htext : pg.validText (cString taskId)
      · dsimp only
        rw [if_pos ⟨htext, by simp [hnone]⟩]
        exact .inl ⟨⟨hdenied, htext⟩, rfl⟩
      · dsimp only
        rw [if_neg fun h => htext h.1]
        exact .inr ⟨fun h => htext h.2, listForExistingTask_of_invalidText hvalid htext⟩

/-- Otherwise the error of the task store is returned as it is. -/
theorem answer_of_not_inOneStatement {call : TaskAwareCall} {e : Error} (hmissing : taskStoreGet call.taskId = .error e)
    (hpath : ¬ InOneStatement setting call) : answerTaskAware pg codec db setting taskStoreGet call = .error e := by
  have hafter : ∀ next : Result PushStoreReply, afterTask taskStoreGet call.taskId next = .error e := fun next => by
    rw [afterTask, hmissing]
  cases call with
  | createOrUpdateForTask config =>
    rw [answerTaskAware, createOrUpdateForTask]
    cases hvalid : validateConfig config with
    | error _ => exact hafter _
    | ok _ =>
      cases hauthority : setting.authority with
      | external | uncertain => exact hafter _
      | localStorage =>
        dsimp only
        rw [if_pos fun hschema => hpath ⟨hvalid, hauthority, hschema⟩]
        exact hafter _
  | listForTask taskId pageSize pageToken =>
    rw [answerTaskAware, listForTask]
    cases hvalid : validatePushListRequest taskId pageSize pageToken with
    | error _ => exact hafter _
    | ok offset =>
      dsimp only
      rw [if_neg fun hshares => hpath ⟨⟨offset, hvalid⟩, hshares⟩]
      exact hafter _

/-- A task that its store does not have is reported as this store reports it exactly if the call asks the store; in one
statement it is reported as missing, under another text, exactly if nothing stands in the way. -/
theorem missing_task_is_reported_iff {call : TaskAwareCall} {message : Bytes}
    (hmissing : taskStoreGet call.taskId = .error (ProtocolErrors.taskNotFound message))
    (hlocal : InOneStatement setting call →
      setting.hasTask (cString call.taskId) = false ∧ message = kTaskNotFoundMessage) :
    (answerTaskAware pg codec db setting taskStoreGet call = .error (ProtocolErrors.taskNotFound message) ↔
      ¬ InOneStatement setting call) ∧
    ((∃ text, answerTaskAware pg codec db setting taskStoreGet call = .error (ProtocolErrors.taskNotFound text)) ↔
      (InOneStatement setting call → Unhindered pg setting call)) := by
  have hinternal : ∀ text text', Except.error (Error.internal text) ≠
      (.error (ProtocolErrors.taskNotFound text') : Result PushStoreReply) :=
    fun text text' h => taskNotFound_ne_internal text' text (Except.error.inj h)
  by_cases hpath : InOneStatement setting call
  · obtain ⟨hrow, rfl⟩ := hlocal hpath
    rcases answer_inOneStatement hpath hrow with ⟨hfree, hanswer⟩ | ⟨hfree, text, hanswer⟩ <;> rw [hanswer]
    · refine ⟨iff_of_false (fun h => ?_) (not_not.mpr hpath), iff_of_true ⟨_, rfl⟩ fun _ => hfree⟩
      exact absurd (congrArg Error.message (Except.error.inj h)) (by decide +kernel)
    · exact ⟨iff_of_false (hinternal _ _) (not_not.mpr hpath),
        iff_of_false (fun ⟨_, h⟩ => hinternal _ _ h) fun h => hfree (h hpath)⟩
  · rw [answer_of_not_inOneStatement hmissing hpath]
    exact ⟨iff_of_true rfl hpath, iff_of_true ⟨_, rfl⟩ fun h => absurd h hpath⟩

/-- Tasks that are kept elsewhere: their store is asked first, here about a configuration without a URL. -/
theorem external_missing_task_is_reported :
    answerTaskAware Postgres.permissive ⟨fun _ => (), fun _ => none⟩ {}
      ⟨.external, false, true, true, none, fun _ => true⟩
      (fun _ => .error (ProtocolErrors.taskNotFound kTaskNotFoundMessage))
      (.createOrUpdateForTask { id := "c", taskId := "t" }) =
      .error (ProtocolErrors.taskNotFound kTaskNotFoundMessage) := by
  have hpath : ¬ InOneStatement ⟨.external, false, true, true, none, fun _ => true⟩
      (.createOrUpdateForTask { id := "c", taskId := "t" }) := fun h => nomatch h.2.1
  exact (missing_task_is_reported_iff rfl fun h => absurd h hpath).1.mpr hpath

/-- Without the privilege to lock a task, creation for a task that is not there reports the privilege. -/
theorem missing_privilege_hides_missing_task :
    answerTaskAware Postgres.permissive ⟨fun _ => (), fun _ => none⟩ {}
      ⟨.localStorage, true, true, false, none, fun _ => false⟩
      (fun _ => .error (ProtocolErrors.taskNotFound kTaskNotFoundMessage))
      (.createOrUpdateForTask { id := "c", taskId := "t", url := "https://host/hook" }) =
      .error (.internal kPostgresPushTaskLockExecuteRequiredMessage) :=
  rfl

end PostgresPushStore

end A2A.Server.Stores
