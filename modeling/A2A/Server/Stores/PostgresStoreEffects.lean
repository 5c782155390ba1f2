/-
# What a statement and a call of the store do to the task table.
-/
import A2A.Server.Stores.PostgresTaskStore

namespace A2A.Server.Stores

open A2A.Foundation A2A.Core A2A.Server.Tasks

variable {P : Type}

/-! ## Rows -/

theorem advance_eq_ok_iff {row advanced : TaskRow P} {now : Int} :
    row.advance now = .ok advanced ↔
      ∃ hrevision : row.revision.val + 1 ≤ bigintMax, row.updatedAt < timestampMax ∧
        advanced = { row with
          revision := ⟨row.revision.val + 1, hrevision⟩
          updatedAt := max now (row.updatedAt + 1) } := by
  unfold TaskRow.advance
  split_ifs with hrevision htime
  · constructor
    · nofun
    · rintro ⟨-, hlt, -⟩
      exact absurd hlt (not_lt.mpr htime)
  · constructor
    · intro h
      exact ⟨hrevision, not_le.mp htime, (Except.ok.inj h).symm⟩
    · rintro ⟨-, -, rfl⟩
      rfl
  · constructor
    · nofun
    · rintro ⟨h, -⟩
      exact absurd h hrevision

/-- A row that was advanced is the next version of the same row. -/
theorem advance_counters {row advanced : TaskRow P} {now : Int} (h : row.advance now = .ok advanced) :
    advanced.id = row.id ∧ advanced.revision.val = row.revision.val + 1 ∧
      advanced.createdSequence = row.createdSequence := by
  obtain ⟨_, _, rfl⟩ := advance_eq_ok_iff.mp h
  exact ⟨rfl, rfl, rfl⟩

/-- How a row continues the one that was stored under its key. -/
inductive Follows (sequence : Nat) : Option (TaskRow P) → TaskRow P → Prop where
  | created {row : TaskRow P} (revision : row.revision.val = 1)
      (createdSequence : row.createdSequence.val = sequence) : Follows sequence none row
  | updated {old row : TaskRow P} (revision : row.revision.val = old.revision.val + 1)
      (createdSequence : row.createdSequence = old.createdSequence) : Follows sequence (some old) row

namespace Database

/-- The statement put the row, and numbered it if it is a new one. -/
structure Wrote (db db' : Database P) (row : TaskRow P) : Prop where
  tasks : db'.tasks = db.tasks.put row
  follows : Follows db.taskCreatedSequence (db.tasks.find row.id) row
  sequence_le : db.taskCreatedSequence ≤ db'.taskCreatedSequence
  numbered : db.tasks.find row.id = none → db.taskCreatedSequence < db'.taskCreatedSequence

/-- The statement left every row; it may have drawn a sequence number. -/
structure Untouched (db db' : Database P) : Prop where
  tasks : db'.tasks = db.tasks
  sequence_le : db.taskCreatedSequence ≤ db'.taskCreatedSequence

variable {pg : Postgres} {parameters : TaskParameters P} {row advanced : TaskRow P} {now : Int} {db : Database P}

theorem Untouched.refl (db : Database P) : Untouched db db := ⟨rfl, le_refl _⟩

/-! ## Statements -/

/-- Assignments that leave the key and the counters alone. -/
def KeepsCounters (change : TaskRow P → TaskRow P) : Prop :=
  ∀ row, (change row).id = row.id ∧ (change row).revision = row.revision ∧
    (change row).createdSequence = row.createdSequence ∧ (change row).updatedAt = row.updatedAt

theorem keepsCounters_assign (parameters : TaskParameters P) : KeepsCounters parameters.assign :=
  fun _ => ⟨rfl, rfl, rfl, rfl⟩

theorem keepsCounters_payload (payload : P) : KeepsCounters fun row : TaskRow P => { row with taskProto := payload } :=
  fun _ => ⟨rfl, rfl, rfl, rfl⟩

theorem updateRow_cases (db : Database P) (row : TaskRow P) (change : TaskRow P → TaskRow P) (now : Int) :
    (∃ e, db.updateRow row change now = (.error e, db)) ∨
    ∃ advanced, row.advance now = .ok advanced ∧
      db.updateRow row change now = (.ok (), { db with tasks := db.tasks.put (change advanced) }) := by
  unfold updateRow
  cases row.advance now with
  | error e => exact .inl ⟨e, rfl⟩
  | ok advanced => exact .inr ⟨advanced, rfl, rfl⟩

theorem wrote_update {change : TaskRow P → TaskRow P} (hkeeps : KeepsCounters change)
    (hfound : db.tasks.find row.id = some row) (hadvanced : row.advance now = .ok advanced) {sequence : Nat}
    (hsequence : db.taskCreatedSequence ≤ sequence) :
    Wrote db { tasks := db.tasks.put (change advanced), taskCreatedSequence := sequence }
      (change advanced) := by
  obtain ⟨hid, hrevision, hcreated⟩ := advance_counters hadvanced
  obtain ⟨hid', hrevision', hcreated', -⟩ := hkeeps advanced
  have hkey : db.tasks.find (change advanced).id = some row := by rw [hid', hid, hfound]
  refine ⟨rfl, ?_, hsequence, by simp [hkey]⟩
  rw [hkey]
  exact .updated (by rw [hrevision', hrevision]) (hcreated'.trans hcreated)

/-- An insert fails, or draws a number and puts a new row or meets a conflict. -/
theorem insertTask_cases {α : Type} (pg : Postgres) (parameters : TaskParameters P) (now : Int)
    (inserted : α) (onConflict : TaskRow P → Statement P α) (db : Database P) :
    (∃ e, db.insertTask pg parameters now inserted onConflict = (.error e, db)) ∨
    (parameters.accepted pg ∧ ∃ hsequence : db.taskCreatedSequence ≤ bigintMax,
      (db.tasks.find parameters.id = none ∧
        db.insertTask pg parameters now inserted onConflict =
          (.ok inserted, {
            tasks := db.tasks.put (parameters.newRow ⟨db.taskCreatedSequence, hsequence⟩ now)
            taskCreatedSequence := db.taskCreatedSequence + 1 })) ∨
      ∃ row, db.tasks.find parameters.id = some row ∧
        db.insertTask pg parameters now inserted onConflict =
          onConflict row { db with taskCreatedSequence := db.taskCreatedSequence + 1 }) := by
  unfold insertTask
  by_cases haccepted : parameters.accepted pg
  · rw [if_neg (not_not.mpr haccepted)]
    by_cases hsequence : db.taskCreatedSequence ≤ bigintMax
    · rw [dif_pos hsequence]
      refine .inr ⟨haccepted, hsequence, ?_⟩
      cases hfind : db.tasks.find parameters.id with
      | none => exact .inl ⟨rfl, rfl⟩
      | some row => exact .inr ⟨row, rfl, rfl⟩
    · rw [dif_neg hsequence]
      exact .inl ⟨_, rfl⟩
  · rw [if_pos haccepted]
    exact .inl ⟨_, rfl⟩

theorem wrote_new (hfree : db.tasks.find parameters.id = none)
    (hsequence : db.taskCreatedSequence ≤ bigintMax) (now : Int) :
    Wrote db
      { tasks := db.tasks.put (parameters.newRow ⟨db.taskCreatedSequence, hsequence⟩ now)
        taskCreatedSequence := db.taskCreatedSequence + 1 }
      (parameters.newRow ⟨db.taskCreatedSequence, hsequence⟩ now) := by
  refine ⟨rfl, ?_, Nat.le_succ _, fun _ => Nat.lt_succ_self _⟩
  have hfree' : db.tasks.find (parameters.newRow ⟨db.taskCreatedSequence, hsequence⟩ now).id = none := hfree
  rw [hfree']
  exact .created rfl rfl

/-- A row with the key, the payload and the columns of a task that the database accepts. -/
structure CarriesTask (pg : Postgres) (parameters : TaskParameters P) (row : TaskRow P) : Prop where
  accepted : parameters.accepted pg = true
  id : row.id = parameters.id
  assigned : parameters.assign row = row

theorem CarriesTask.payload (h : CarriesTask pg parameters row) : row.taskProto = parameters.payload := by
  rw [← h.assigned]
  rfl

theorem CarriesTask.valid (h : CarriesTask pg parameters row) : pg.validText row.id := by
  rw [h.id]
  exact (Bool.and_eq_true_iff.mp h.accepted).1

theorem carriesTask_new (haccepted : parameters.accepted pg) (sequence : Bigint) (now : Int) :
    CarriesTask pg parameters (parameters.newRow sequence now) := ⟨haccepted, rfl, rfl⟩

theorem carriesTask_assign (haccepted : parameters.accepted pg) (hadvanced : row.advance now = .ok advanced)
    (hid : row.id = parameters.id) : CarriesTask pg parameters (parameters.assign advanced) :=
  ⟨haccepted, (advance_counters hadvanced).1.trans hid, rfl⟩

section Cases

variable (pg parameters now db)

/-- An upsert fails, or puts a row with the task. -/
theorem upsertTask_cases :
    (∃ e db', db.upsertTask pg parameters now = (.error e, db') ∧ Untouched db db') ∨
    ∃ row db', db.upsertTask pg parameters now = (.ok (), db') ∧ Wrote db db' row ∧
      CarriesTask pg parameters row := by
  unfold upsertTask
  rcases insertTask_cases pg parameters now ()
      (fun row => updateRow row parameters.assign now) db with
    ⟨e, he⟩ | ⟨haccepted, hsequence, ⟨hfree, hnew⟩ | ⟨row, hfound, hconflict⟩⟩
  · exact .inl ⟨e, db, he, .refl db⟩
  · exact .inr ⟨_, _, hnew, wrote_new hfree hsequence now, carriesTask_new haccepted _ now⟩
  · have hid : row.id = parameters.id := Table.find_key hfound
    rw [hconflict]
    rcases updateRow_cases { db with taskCreatedSequence := db.taskCreatedSequence + 1 } row
        parameters.assign now with ⟨e, he⟩ | ⟨advanced, hadvanced, hupdate⟩
    · exact .inl ⟨e, _, he, rfl, Nat.le_succ _⟩
    · refine .inr ⟨_, _, hupdate, ?_, carriesTask_assign haccepted hadvanced hid⟩
      exact wrote_update (keepsCounters_assign parameters) (hid ▸ hfound) hadvanced (Nat.le_succ _)

/-- A conditional insert fails, meets a row, or puts a new one. -/
theorem conditionalCreate_cases :
    (∃ e, db.conditionalCreate pg parameters now = (.error e, db)) ∨
    (∃ db', db.conditionalCreate pg parameters now = (.ok 0, db') ∧ Untouched db db') ∨
    ∃ row db', db.conditionalCreate pg parameters now = (.ok 1, db') ∧ Wrote db db' row ∧
      CarriesTask pg parameters row ∧ db.tasks.find row.id = none := by
  unfold conditionalCreate
  rcases insertTask_cases pg parameters now 1 (fun _ db => (.ok 0, db)) db with
    he | ⟨haccepted, hsequence, ⟨hfree, hnew⟩ | ⟨row, -, hconflict⟩⟩
  · exact .inl he
  · exact .inr (.inr ⟨_, _, hnew, wrote_new hfree hsequence now, carriesTask_new haccepted _ now, hfree⟩)
  · exact .inr (.inl ⟨_, hconflict, rfl, Nat.le_succ _⟩)

/-- A conditional update fails, affects no row, or replaces a row with the expected revision. -/
theorem conditionalUpdate_cases (expectedRevision : UInt64) :
    (∃ e, db.conditionalUpdate pg parameters expectedRevision now = (.error e, db)) ∨
    db.conditionalUpdate pg parameters expectedRevision now = (.ok 0, db) ∨
    ∃ old row db', db.conditionalUpdate pg parameters expectedRevision now = (.ok 1, db') ∧
      db.tasks.find parameters.id = some old ∧ old.revision.val = expectedRevision.toNat ∧
      Wrote db db' row ∧ CarriesTask pg parameters row := by
  unfold conditionalUpdate
  by_cases haccepted : parameters.accepted pg
  · rw [if_neg (not_not.mpr haccepted)]
    by_cases hbig : bigintMax < expectedRevision.toNat
    · rw [if_pos hbig]
      exact .inl ⟨_, rfl⟩
    · rw [if_neg hbig]
      cases hfind : db.tasks.find parameters.id with
      | none => exact .inr (.inl rfl)
      | some old =>
        have hid : old.id = parameters.id := Table.find_key hfind
        by_cases hrevision : old.revision.val = expectedRevision.toNat
        · simp only [if_pos hrevision]
          rcases updateRow_cases db old parameters.assign now with ⟨e, he⟩ | ⟨advanced, hadvanced, hupdate⟩
          · exact .inl ⟨e, by rw [he]; rfl⟩
          · refine .inr (.inr ⟨old, _, _, by rw [hupdate]; rfl, rfl, hrevision, ?_,
              carriesTask_assign haccepted hadvanced hid⟩)
            exact wrote_update (keepsCounters_assign parameters) (hid ▸ hfind) hadvanced (le_refl _)
        · exact .inr (.inl (if_neg hrevision))
  · rw [if_pos haccepted]
    exact .inl ⟨_, rfl⟩

/-- A history update fails, affects no row, or changes payload and counters of a row with the expected revision AND
sequence number. -/
theorem updateTaskHistory_cases (id : Bytes) (payload : P) (expectedRevision expectedCreatedSequence : UInt64) :
    (∃ e, db.updateTaskHistory pg id payload expectedRevision expectedCreatedSequence now = (.error e, db)) ∨
    db.updateTaskHistory pg id payload expectedRevision expectedCreatedSequence now = (.ok false, db) ∨
    ∃ old advanced db',
      db.updateTaskHistory pg id payload expectedRevision expectedCreatedSequence now = (.ok true, db') ∧
      pg.validText (cString id) ∧ db.tasks.find (cString id) = some old ∧
      old.revision.val = expectedRevision.toNat ∧
      old.createdSequence.val = expectedCreatedSequence.toNat ∧
      old.advance now = .ok advanced ∧ Wrote db db' { advanced with taskProto := payload } := by
  unfold updateTaskHistory
  by_cases hvalid : pg.validText (cString id)
  · rw [if_neg (not_not.mpr hvalid)]
    by_cases hbig : bigintMax < expectedRevision.toNat ∨ bigintMax < expectedCreatedSequence.toNat
    · rw [if_pos hbig]
      exact .inl ⟨_, rfl⟩
    · rw [if_neg hbig]
      cases hfind : db.tasks.find (cString id) with
      | none => exact .inr (.inl rfl)
      | some old =>
        have hid : old.id = cString id := Table.find_key hfind
        by_cases hexpected : old.revision.val = expectedRevision.toNat ∧
            old.createdSequence.val = expectedCreatedSequence.toNat
        · simp only [if_pos hexpected]
          rcases updateRow_cases db old (fun row => { row with taskProto := payload }) now with
            ⟨e, he⟩ | ⟨advanced, hadvanced, hupdate⟩
          · exact .inl ⟨e, by rw [he]; rfl⟩
          · refine .inr (.inr ⟨old, advanced, _, by rw [hupdate]; rfl, hvalid, rfl, hexpected.1,
              hexpected.2, hadvanced, ?_⟩)
            exact wrote_update (keepsCounters_payload payload) (hid ▸ hfind) hadvanced (le_refl _)
        · exact .inr (.inl (if_neg hexpected))
  · rw [if_pos hvalid]
    exact .inl ⟨_, rfl⟩

end Cases

end Database

/-! ## Reading one row -/

namespace PostgresTaskStore

variable {pg : Postgres} {codec : TaskCodec P}

variable {α : Type} {store : PostgresTaskStore P} {id : Bytes} {a : α} {payload : P} {task : Task}

/-- A read of one task depends on one row only, the one under the C string of the id. -/
theorem selectRow_eq (store : PostgresTaskStore P) (operation id : Bytes) (found : TaskRow P → Result α) :
    store.selectRow pg operation id found =
      if pg.validText (cString id) then
        match store.database.tasks.find (cString id) with
        | none => .error (ProtocolErrors.taskNotFound kTaskNotFoundMessage)
        | some row => found row
      else .error (databaseResultError pg operation .invalidText) := by
  unfold selectRow Database.selectTask
  by_cases hvalid : pg.validText (cString id)
  · rw [if_neg (not_not.mpr hvalid), if_pos hvalid]
    cases store.database.tasks.find (cString id) <;> rfl
  · rw [if_pos hvalid, if_neg hvalid]
    rfl

theorem selectRow_eq_ok {operation : Bytes} {found : TaskRow P → Result α}
    (h : store.selectRow pg operation id found = .ok a) :
    pg.validText (cString id) ∧
      ∃ row, store.database.tasks.find (cString id) = some row ∧ found row = .ok a := by
  rw [selectRow_eq] at h
  split_ifs at h with hvalid
  refine ⟨hvalid, ?_⟩
  cases hfind : store.database.tasks.find (cString id) with
  | none =>
    rw [hfind] at h
    cases h
  | some row =>
    rw [hfind] at h
    exact ⟨row, rfl, h⟩

theorem parseTaskRow_eq_ok :
    parseTaskRow codec payload = .ok task ↔ codec.parse payload = some task := by
  unfold parseTaskRow
  cases codec.parse payload <;> simp

theorem parsed_of_map {f : Task → α} (h : (parseTaskRow codec payload).map f = .ok a) :
    ∃ task, codec.parse payload = some task ∧ f task = a := by
  obtain ⟨task, hparse, h⟩ := ok_of_map h
  exact ⟨task, parseTaskRow_eq_ok.mp hparse, h⟩

theorem toOption_map {ε β : Type} (result : Except ε α) (f : α → β) :
    (result.map f).toOption = result.toOption.map f := by
  cases result <;> rfl

theorem get_congr {store' : PostgresTaskStore P}
    (h : store'.database.tasks.find (cString id) = store.database.tasks.find (cString id)) :
    store'.get pg codec id = store.get pg codec id := by
  unfold get
  rw [selectRow_eq, selectRow_eq, h]

/-! ## Writing calls -/

/-- The task a call leaves: the one passed, or the one read, canceled or with the message appended. -/
inductive Writes (codec : TaskCodec P) (db : Database P) : TaskStoreCall → Task → Prop where
  | createOrUpdate {task : Task} (hid : task.id ≠ []) : Writes codec db (.createOrUpdate task) task
  | createOrUpdateIfRevision {task : Task} {expectedRevision : UInt64} (hid : task.id ≠ []) :
      Writes codec db (.createOrUpdateIfRevision task expectedRevision) task
  | cancel {id : Bytes} {old : TaskRow P} {read : Task} (stored : db.tasks.find (cString id) = some old)
      (parsed : codec.parse old.taskProto = some read) :
      Writes codec db (.cancel id) (read.setState .canceled)
  | appendTaskHistory {id : Bytes} {message : Message} {policy : HistoryAppendPolicy}
      {serialize : Serializer} {old : TaskRow P} {read : Task}
      (stored : db.tasks.find (cString id) = some old) (parsed : codec.parse old.taskProto = some read) :
      Writes codec db (.appendTaskHistory id message policy serialize) (read.addHistory message)

/-- A call writes no task, or puts the row of the one task it writes. -/
inductive Effect (pg : Postgres) (codec : TaskCodec P) (store : PostgresTaskStore P) (call : TaskStoreCall) :
    Option Task → PostgresTaskStore P → Prop where
  | silent {store' : PostgresTaskStore P} (untouched : store.database.Untouched store'.database) :
      Effect pg codec store call none store'
  | wrote {store' : PostgresTaskStore P} {task : Task} {row : TaskRow P}
      (writes : Writes codec store.database call task)
      (write : store.database.Wrote store'.database row) (id : row.id = cString task.id)
      (payload : row.taskProto = codec.serialize task) (valid : pg.validText row.id = true) :
      Effect pg codec store call (some task) store'

variable {now : Int}

/-- A call that upserts a task has written it if it succeeds. -/
theorem effect_upsert {call : TaskStoreCall} (hwrites : Writes codec store.database call task) (operation : Bytes) :
    let upserted := store.execute pg operation (Database.upsertTask pg (taskParameters codec task) now)
    Effect pg codec store call (upserted.1.toOption.map fun _ => task) upserted.2 := by
  unfold execute
  rcases Database.upsertTask_cases pg (taskParameters codec task) now store.database with
    ⟨e, db', hresult, huntouched⟩ | ⟨row, db', hresult, hwrote, hcarries⟩
  · rw [hresult]
    exact .silent huntouched
  · rw [hresult]
    exact .wrote hwrites hwrote hcarries.id hcarries.payload hcarries.valid

theorem effect_createOrUpdate :
    Effect pg codec store (.createOrUpdate task)
      ((store.createOrUpdate pg codec task now).1.toOption.map fun _ => task)
      (store.createOrUpdate pg codec task now).2 := by
  unfold createOrUpdate
  split_ifs with hid
  · exact .silent (.refl _)
  · exact effect_upsert (.createOrUpdate (by simpa using hid)) _

theorem effect_createOrUpdateIfRevision {expectedRevision : UInt64} :
    Effect pg codec store (.createOrUpdateIfRevision task expectedRevision)
      (if (store.createOrUpdateIfRevision pg codec task expectedRevision now).1 = .ok .updated then some task
        else none)
      (store.createOrUpdateIfRevision pg codec task expectedRevision now).2 := by
  by_cases hid : task.id.isEmpty
  · simp only [createOrUpdateIfRevision, if_pos hid]
    exact .silent (.refl _)
  have hid' : task.id ≠ [] := by simpa using hid
  by_cases hzero : expectedRevision = 0
  · simp only [createOrUpdateIfRevision, execute, if_neg hid, if_pos hzero]
    rcases Database.conditionalCreate_cases pg (taskParameters codec task) now store.database with
      ⟨e, hresult⟩ | ⟨db', hresult, huntouched⟩ | ⟨row, db', hresult, hwrote, hcarries, -⟩
    · rw [hresult]
      exact .silent (.refl _)
    · rw [hresult]
      exact .silent huntouched
    · rw [hresult]
      exact .wrote (.createOrUpdateIfRevision hid') hwrote hcarries.id hcarries.payload hcarries.valid
  · simp only [createOrUpdateIfRevision, execute, if_neg hid, if_neg hzero]
    rcases Database.conditionalUpdate_cases pg (taskParameters codec task) now store.database expectedRevision with
      ⟨e, hresult⟩ | hresult | ⟨old, row, db', hresult, -, -, hwrote, hcarries⟩
    · rw [hresult]
      exact .silent (.refl _)
    · rw [hresult]
      exact .silent (.refl _)
    · rw [hresult]
      exact .wrote (.createOrUpdateIfRevision hid') hwrote hcarries.id hcarries.payload hcarries.valid

theorem effect_cancel :
    Effect pg codec store (.cancel id) (store.cancel pg codec id now).1.toOption
      (store.cancel pg codec id now).2 := by
  unfold cancel
  split_ifs
  · exact .silent (.refl _)
  · cases hread : store.selectTaskForUpdate pg codec id with
    | error e => exact .silent (.refl _)
    | ok task =>
      obtain ⟨-, row, hfind, hparse⟩ := selectRow_eq_ok hread
      dsimp only
      split_ifs
      · exact .silent (.refl _)
      · rw [toOption_map]
        exact effect_upsert (.cancel hfind (parseTaskRow_eq_ok.mp hparse)) "upsert postgres task"

/-- One attempt ends the loop, or finds that the row has moved on and leaves the database. -/
theorem effect_appendTaskHistoryLoop {taskId : Bytes} {message : Message} {policy : HistoryAppendPolicy}
    {serialize : Serializer} {attempts : Nat} :
    ∃ written, Effect pg codec store (.appendTaskHistory taskId message policy serialize) written
      (appendTaskHistoryLoop pg codec taskId message policy serialize now attempts store).2 := by
  induction attempts with
  | zero => exact ⟨none, .silent (.refl _)⟩
  | succ attempts ih =>
    unfold appendTaskHistoryLoop
    cases hread : store.selectTaskHistorySnapshot pg codec taskId with
    | error e => exact ⟨none, .silent (.refl _)⟩
    | ok snapshot =>
      obtain ⟨-, row, hfind, hsnapshot⟩ := selectRow_eq_ok hread
      obtain ⟨read, hparse, rfl⟩ := parsed_of_map hsnapshot
      dsimp only
      cases findHistoryDedupeReason serialize read.history message policy with
      | some reason => exact ⟨none, .silent (.refl _)⟩
      | none =>
        simp only [updateTaskHistory, execute]
        rcases Database.updateTaskHistory_cases pg now store.database (read.addHistory message).id
            (codec.serialize (read.addHistory message)) row.revision.toUInt64 row.createdSequence.toUInt64 with
          ⟨e, hresult⟩ | hresult | ⟨old, advanced, db', hresult, hvalid, hold, -, -, hadvanced, hwrote⟩
        · rw [hresult]
          exact ⟨none, .silent (.refl _)⟩
        · rw [hresult]
          exact ih
        · rw [hresult]
          have hkey : advanced.id = cString (read.addHistory message).id :=
            (advance_counters hadvanced).1.trans (Table.find_key hold)
          exact ⟨some _, .wrote (.appendTaskHistory hfind hparse) hwrote hkey rfl (hkey ▸ hvalid)⟩

/-- Every call is silent or writes one task. -/
theorem effect_perform (pg : Postgres) (codec : TaskCodec P) (store : PostgresTaskStore P) (call : TaskStoreCall)
    (now : Int) : ∃ written, Effect pg codec store call written (store.perform pg codec call now).2 := by
  cases call with
  | createOrUpdate task => exact ⟨_, effect_createOrUpdate⟩
  | getSnapshot | get | list => exact ⟨none, .silent (.refl _)⟩
  | createOrUpdateIfRevision task expectedRevision => exact ⟨_, effect_createOrUpdateIfRevision⟩
  | cancel id => exact ⟨_, effect_cancel⟩
  | appendTaskHistory taskId message policy serialize =>
    simp only [perform, appendTaskHistory]
    split_ifs
    · exact ⟨none, .silent (.refl _)⟩
    · exact effect_appendTaskHistoryLoop

/-! ## Runs -/

/-- What every allowed call keeps is kept by a run. -/
theorem run_invariant {I : PostgresTaskStore P → Prop} {allowed : TaskStoreCall → Prop}
    (hstep : ∀ store call now, I store → allowed call → I (store.perform pg codec call now).2) (h : I store)
    (calls : List (TaskStoreCall × Int)) (hcalls : ∀ timed ∈ calls, allowed timed.1) :
    I (store.run pg codec calls).2 := by
  induction calls generalizing store with
  | nil => exact h
  | cons timed calls ih =>
    obtain ⟨call, now⟩ := timed
    show I ((store.perform pg codec call now).2.run pg codec calls).2
    apply ih
    · exact hstep store call now h (hcalls _ List.mem_cons_self)
    · intro timed htimed
      exact hcalls timed (List.mem_cons_of_mem _ htimed)

end PostgresTaskStore

end A2A.Server.Stores
