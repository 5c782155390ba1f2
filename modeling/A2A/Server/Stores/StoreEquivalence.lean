/-
# The PostgreSQL store answers as the in-memory store does.
-/
import A2A.Server.Stores.PostgresListing

namespace A2A.Server.Tasks.InMemoryTaskStore

open A2A.Foundation A2A.Core A2A.Server.Stores

/-! ## The in-memory store -/

/-- One call and its reply. -/
def perform (store : InMemoryTaskStore) (call : TaskStoreCall) (now : Int64) :
    TaskStoreReply × InMemoryTaskStore :=
  match call with
  | .createOrUpdate task =>
    let (result, store') := store.createOrUpdate task now
    (.createOrUpdate result, store')
  | .getSnapshot id => (.getSnapshot (store.getSnapshot id), store)
  | .createOrUpdateIfRevision task expectedRevision =>
    let (result, store') := store.createOrUpdateIfRevision task expectedRevision now
    (.createOrUpdateIfRevision result, store')
  | .get id => (.get (store.get id), store)
  | .list request => (.list (store.list request), store)
  | .cancel id =>
    let (result, store') := store.cancel id now
    (.cancel result, store')
  | .appendTaskHistory taskId message policy serialize =>
    let (result, _, store') := store.appendTaskHistory taskId message policy serialize now
    (.appendTaskHistory result, store')

/-- A sequence of calls with their clock readings. -/
def performAll : InMemoryTaskStore → List (TaskStoreCall × Int64) → List TaskStoreReply × InMemoryTaskStore
  | store, [] => ([], store)
  | store, (call, now) :: calls =>
    let (reply, store') := store.perform call now
    let (replies, final) := performAll store' calls
    (reply :: replies, final)

end A2A.Server.Tasks.InMemoryTaskStore

namespace A2A.Server.Stores

open A2A.Foundation A2A.Core A2A.Server.Tasks InMemoryTaskStore

variable {P : Type}

/-! ## What is asked of the calls -/

/-- The messages that protobuf reads back: those whose strings are valid UTF-8. -/
structure WireFormat (codec : TaskCodec P) where
  task : Task → Prop
  message : Message → Prop
  parses : ∀ t, task t → (codec.parse (codec.serialize t)).isSome = true
  setState : ∀ t state, task t → task (t.setState state)
  addHistory : ∀ t m, task t → message m → task (t.addHistory m)

variable {codec : TaskCodec P} {task : Task} {pg : Postgres} {wire : WireFormat codec}

/-- A readable task is read back. -/
theorem WireFormat.parse_serialize (wire : WireFormat codec) (h : wire.task task) :
    codec.parse (codec.serialize task) = some task := by
  obtain ⟨read, hread⟩ := Option.isSome_iff_exists.mp (wire.parses task h)
  rw [hread, codec.exact task read hread]

/-- The task's id and context id are text, and protobuf reads it back. -/
structure TaskOk (pg : Postgres) {codec : TaskCodec P} (wire : WireFormat codec) (task : Task) : Prop where
  id : IsText pg task.id
  contextId : IsText pg task.contextId
  encodable : wire.task task

theorem TaskOk.setState (h : TaskOk pg wire task) (state : TaskState) : TaskOk pg wire (task.setState state) :=
  ⟨h.id, h.contextId, wire.setState task state h.encodable⟩

theorem TaskOk.addHistory {message : Message} (h : TaskOk pg wire task) (hmessage : wire.message message) :
    TaskOk pg wire (task.addHistory message) :=
  ⟨h.id, h.contextId, wire.addHistory task message h.encodable hmessage⟩

/-- Ids and context ids are text, expected revisions are below `2 ^ 63`, tokens name ids that are text, messages are
readable, and no page larger than the server can count is asked of a store that could fill it, in a run of `total`
calls. -/
def TaskStoreCall.Admissible (pg : Postgres) {codec : TaskCodec P} (wire : WireFormat codec) (total : Nat) :
    TaskStoreCall → Prop
  | .createOrUpdate task => TaskOk pg wire task
  | .getSnapshot id | .get id | .cancel id => IsText pg id
  | .createOrUpdateIfRevision task expectedRevision => TaskOk pg wire task ∧ expectedRevision.toNat < 2 ^ 63
  | .list request => IsText pg request.contextId ∧ TokenOk pg request.pageToken ∧
      (request.pageSize ≤ intMax ∨ total ≤ intMax)
  | .appendTaskHistory taskId message _ _ => IsText pg taskId ∧ wire.message message

/-- A clock reading not before 1970 that leaves room for every later call of the run. -/
def ClockOk (total : Nat) (now : Int64) : Prop := 0 ≤ now.toInt ∧ now.toInt + total ≤ 2 ^ 63

/-! ## The relation -/

/-- Protobuf reads the task back, and its counters have room for the calls that are left. -/
structure EntryFits {codec : TaskCodec P} (wire : WireFormat codec) (total left : Nat) (e : Entry) : Prop where
  encodable : wire.task e.task
  time : e.updatedAt.toInt + left < 2 ^ 63
  revision : e.revision.toNat + left ≤ total

/-- The stores hold the same tasks, and there is room for the calls that are left. -/
structure Agree (pg : Postgres) {codec : TaskCodec P} (wire : WireFormat codec) (total left : Nat)
    (memory : InMemoryTaskStore) (db : Database P) : Prop extends SameTasks pg codec memory db where
  fits : ∀ id e, memory.entryOf id = some e → EntryFits wire total left e
  sequence : db.taskCreatedSequence + left ≤ total + 1
  size : db.tasks.rows.length + left ≤ total
  countable : total < 2 ^ 63

theorem int64_toInt_max (a b : Int64) : (max a b).toInt = max a.toInt b.toInt := by
  rcases le_total a b with h | h
  · rw [max_eq_right h, max_eq_right (Int64.le_iff_toInt_le.mp h)]
  · rw [max_eq_left h, max_eq_left (Int64.le_iff_toInt_le.mp h)]

open Database

section Steps

variable {pg : Postgres} {codec : TaskCodec P} {wire : WireFormat codec} {total left : Nat}
  {memory : InMemoryTaskStore} {db : Database P}

variable {telemetrySnapshot : HistoryTelemetrySnapshot} {policy : HistoryAppendPolicy} {serialize : Serializer}
  {id : Bytes} {e : Entry} {memory' : InMemoryTaskStore} {db' : Database P} {task : Task}
    {now : Int64} {row : TaskRow P} {α : Type} {message : Message} {store : PostgresTaskStore P}
    {call : TaskStoreCall}

theorem Agree.taskOk (h : Agree pg wire total left memory db) (he : memory.entryOf id = some e) :
    TaskOk pg wire e.task :=
  ⟨(h.entries id e he).id, (h.entries id e he).contextId, (h.fits id e he).encodable⟩

/-- One call less. -/
theorem EntryFits.of_succ (h : EntryFits wire total (left + 1) e) : EntryFits wire total left e := by
  obtain ⟨hencodable, htime, hrevision⟩ := h
  exact ⟨hencodable, by omega, by omega⟩

section

variable (h : Agree pg wire total (left + 1) memory db)

include h

/-- A call that writes nothing leaves the relation, with one call less to come. -/
theorem Agree.silent (hmemory : SameContents memory memory')
    (htasks : db'.tasks = db.tasks) (hsequence : db'.taskCreatedSequence ≤ db.taskCreatedSequence + 1) :
    Agree pg wire total left memory' db' where
  wellFormed := hmemory.wellFormed h.wellFormed
  rows := by
    intro id
    rw [hmemory.entryOf, htasks]
    exact h.rows id
  entries := by
    intro id e he
    rw [hmemory.entryOf] at he
    exact h.entries id e he
  fits := by
    intro id e he
    rw [hmemory.entryOf] at he
    exact (h.fits id e he).of_succ
  sequence := by
    have hroom := h.sequence
    omega
  size := by
    have hroom := h.size
    rw [htasks]
    omega
  countable := h.countable

theorem Agree.idle : Agree pg wire total left memory db := h.silent (.refl _) rfl (Nat.le_succ _)

theorem Agree.not_exhausted (he : memory.entryOf id = some e) : e.updatedAt ≠ Int64.maxValue := by
  intro hmax
  have htime := (h.fits id e he).time
  rw [hmax, Int64.toInt_maxValue] at htime
  omega

/-- The time of the next entry still has room for the calls that come after this one. -/
theorem Agree.nextEntry_time (hnow : ClockOk total now) :
    (nextEntry (memory.entryOf task.id) task now).updatedAt.toInt + left < 2 ^ 63 := by
  obtain ⟨hnonneg, hlate⟩ := hnow
  have hsize := h.size
  cases he : memory.entryOf task.id with
  | none =>
    show (max 0 now : Int64).toInt + left < _
    rw [int64_toInt_max]
    have hzero : (0 : Int64).toInt = 0 := rfl
    omega
  | some e =>
    show (max (e.updatedAt + 1) now).toInt + left < _
    have htime := (h.fits _ _ he).time
    rw [int64_toInt_max, int64_toInt_succ (h.not_exhausted he)]
    omega

theorem Agree.revision_succ (he : memory.entryOf id = some e) : (e.revision + 1).toNat = e.revision.toNat + 1 := by
  have hrevision := (h.fits id e he).revision
  have hcountable := h.countable
  apply uint64_toNat_succ
  omega

theorem Agree.nextEntry_revision (task : Task) (now : Int64) :
    (nextEntry (memory.entryOf task.id) task now).revision.toNat + left ≤ total := by
  cases he : memory.entryOf task.id with
  | none =>
    have hsize := h.size
    show 1 + left ≤ total
    omega
  | some e =>
    have hrevision := (h.fits _ _ he).revision
    show (e.revision + 1).toNat + left ≤ total
    rw [h.revision_succ he]
    omega

/-- `CreateOrUpdate` in memory, for any database that puts the row of the entry. -/
theorem Agree.createOrUpdate (htask : TaskOk pg wire task) (hid : task.id ≠ []) (hnow : ClockOk total now) :
    ∃ memory', memory.createOrUpdate task now = (.ok (), memory') ∧ ∀ (db' : Database P) row,
      db'.tasks = db.tasks.put row → RowMatches codec (nextEntry (memory.entryOf task.id) task now) row →
      db'.taskCreatedSequence ≤ db.taskCreatedSequence + 1 → Agree pg wire total left memory' db' := by
  have hroom : ¬ memory.Exhausted task.id := fun ⟨_, he, hmax⟩ => h.not_exhausted he hmax
  obtain ⟨memory', index, hcreate, hw⟩ := createOrUpdate_written h.wellFormed.toConsistent hid hroom now
  have hmemory := hw.entryOf
  rw [nextEntry_task] at hmemory
  refine ⟨memory', hcreate, fun db' row htasks hmatches hsequence => ?_⟩
  -- an entry afterwards is the new one, or was there before
  have hentry {id : Bytes} {e : Entry} (he : memory'.entryOf id = some e) :
      e = nextEntry (memory.entryOf task.id) task now ∨ memory.entryOf id = some e := by
    rw [hmemory] at he
    split_ifs at he
    · exact .inl (Option.some.inj he).symm
    · exact .inr he
  refine ⟨⟨(hw.wrote h.wellFormed hid hroom).1, ?_, ?_⟩, ?_, ?_, ?_, h.countable⟩
  · intro id
    have hkey : row.id = task.id := by rw [hmatches.id, nextEntry_task]
    have hfound : (db.tasks.put row).find task.id = some row := by
      rw [← hkey]
      exact Table.find_put_self row
    rw [htasks, hmemory]
    split_ifs with hid
    · rw [hid, hfound]
      exact .some hmatches
    · rw [Table.find_put_of_ne (by rw [hkey]; exact hid)]
      exact h.rows id
  · intro id e he
    rcases hentry he with rfl | he
    · refine ⟨?_, ?_, ?_⟩ <;> rw [nextEntry_task]
      · exact htask.id
      · exact htask.contextId
      · exact wire.parse_serialize htask.encodable
    · exact h.entries id e he
  · intro id e he
    rcases hentry he with rfl | he
    · refine ⟨?_, h.nextEntry_time hnow, h.nextEntry_revision task now⟩
      rw [nextEntry_task]
      exact htask.encodable
    · exact (h.fits id e he).of_succ
  · have hroom := h.sequence
    omega
  · have hroom := h.size
    have hlength : (db.tasks.put row).rows.length ≤ db.tasks.rows.length + 1 := Table.length_put_le row
    rw [htasks]
    omega

end

/-! ## Statements that succeed -/

theorem Agree.accepted (htask : TaskOk pg wire task) : (taskParameters codec task).accepted pg :=
  Bool.and_eq_true_iff.mpr ⟨htask.id.valid_cString, htask.contextId.valid_cString⟩

theorem TaskOk.parameters_id (htask : TaskOk pg wire task) :
    (taskParameters codec task).id = task.id := htask.id.cString_eq

section

variable (h : Agree pg wire total (left + 1) memory db)

include h

/-- Neither counter of a stored row is at its end. -/
theorem Agree.advance (he : memory.entryOf id = some e) (hmatches : RowMatches codec e row) (now : Int64) :
    ∃ revision updatedAt, row.advance now.toInt = .ok { row with revision, updatedAt } ∧
      revision.val = (e.revision + 1).toNat ∧ updatedAt = (max (e.updatedAt + 1) now).toInt := by
  have htime := (h.fits id e he).time
  have hrevision : row.revision.val + 1 ≤ bigintMax := by
    have hroom := (h.fits id e he).revision
    have hcountable := h.countable
    show row.revision.val + 1 ≤ 2 ^ 63 - 1
    rw [hmatches.revision]
    omega
  have hlate : row.updatedAt < timestampMax := by
    rw [hmatches.updatedAt]
    show e.updatedAt.toInt < 9224318015999999999
    omega
  refine ⟨_, _, advance_eq_ok_iff.mpr ⟨hrevision, hlate, rfl⟩, ?_, ?_⟩
  · show row.revision.val + 1 = _
    rw [h.revision_succ he, hmatches.revision]
  · show max now.toInt (row.updatedAt + 1) = _
    rw [int64_toInt_max, int64_toInt_succ (h.not_exhausted he), hmatches.updatedAt, max_comm]

theorem Agree.sequence_le : db.taskCreatedSequence ≤ bigintMax := by
  have hroom := h.sequence
  have hcountable := h.countable
  show db.taskCreatedSequence ≤ 2 ^ 63 - 1
  omega

/-- The row of a new task matches its entry. -/
theorem Agree.insert (htask : TaskOk pg wire task) (hnow : ClockOk total now) (hnone : memory.entryOf task.id = none)
    (inserted : α) (onConflict : TaskRow P → Statement P α) :
    ∃ row db', db.insertTask pg (taskParameters codec task) now.toInt inserted onConflict = (.ok inserted, db') ∧
      db'.tasks = db.tasks.put row ∧ db'.taskCreatedSequence ≤ db.taskCreatedSequence + 1 ∧
      RowMatches codec (nextEntry (memory.entryOf task.id) task now) row := by
  have hsequence := h.sequence_le
  have hfree : db.tasks.find (taskParameters codec task).id = none := by
    rw [htask.parameters_id]
    exact h.find_none hnone
  let row := (taskParameters codec task).newRow ⟨db.taskCreatedSequence, hsequence⟩ now.toInt
  refine ⟨row, { tasks := db.tasks.put row, taskCreatedSequence := db.taskCreatedSequence + 1 }, ?_, rfl,
    Nat.le_refl _, ?_⟩
  · rw [insertTask, if_neg (not_not.mpr (Agree.accepted htask)), dif_pos hsequence]
    simp only [hfree]
    rfl
  · rw [hnone]
    refine ⟨htask.parameters_id, rfl, rfl, ?_⟩
    show now.toInt = (max 0 now : Int64).toInt
    have hzero : (0 : Int64).toInt = 0 := rfl
    rw [int64_toInt_max, hzero, max_eq_right hnow.1]

/-- An insert that finds a row draws a sequence number and goes on with the conflict. -/
theorem Agree.insert_conflict (htask : TaskOk pg wire task)
    (hfind : db.tasks.find task.id = some row) {now : Int} {inserted : α} {onConflict : TaskRow P → Statement P α} :
    db.insertTask pg (taskParameters codec task) now inserted onConflict =
      onConflict row { db with taskCreatedSequence := db.taskCreatedSequence + 1 } := by
  rw [insertTask, if_neg (not_not.mpr (Agree.accepted htask)), dif_pos h.sequence_le, htask.parameters_id]
  simp only [hfind]

/-- The row of a stored task after an update that assigns all its columns. -/
theorem Agree.update (he : memory.entryOf task.id = some e)
    (hmatches : RowMatches codec e row) (now : Int64) (db' : Database P) :
    ∃ new, db'.updateRow row (taskParameters codec task).assign now.toInt =
        (.ok (), { db' with tasks := db'.tasks.put new }) ∧
      RowMatches codec (nextEntry (memory.entryOf task.id) task now) new := by
  obtain ⟨revision, updatedAt, hadvanced, hrevision, htime⟩ := h.advance he hmatches now
  refine ⟨(taskParameters codec task).assign { row with revision, updatedAt }, ?_, ?_⟩
  · rw [updateRow, hadvanced]
  · rw [he]
    exact ⟨hmatches.id.trans (h.wellFormed.entryOf_id he), rfl, hrevision, htime⟩

/-- The row of a stored task after an update of its payload: no column repeats the history. -/
theorem Agree.updateHistory (he : memory.entryOf id = some e)
    (hmatches : RowMatches codec e row) (message : Message) (now : Int64) :
    ∃ new, db.updateRow row (fun row => { row with taskProto := codec.serialize (e.task.addHistory message) })
        now.toInt = (.ok (), { db with tasks := db.tasks.put new }) ∧
      RowMatches codec (nextEntry (memory.entryOf id) (e.task.addHistory message) now) new := by
  obtain ⟨revision, updatedAt, hadvanced, hrevision, htime⟩ := h.advance he hmatches now
  refine ⟨{ row with
    revision, updatedAt, taskProto := codec.serialize (e.task.addHistory message) }, ?_, ?_⟩
  · rw [updateRow, hadvanced]
  · obtain ⟨hcontext, hstate, htimestamp, hseconds, hnanos, -⟩ := assign_eq_self_iff.mp hmatches.assigned
    rw [he]
    refine ⟨hmatches.id, ?_, hrevision, htime⟩
    exact assign_eq_self_iff.mpr ⟨hcontext, hstate, htimestamp, hseconds, hnanos, rfl⟩

/-- An upsert has room in both stores and leaves them in agreement. -/
theorem Agree.upsert (htask : TaskOk pg wire task) (hid : task.id ≠ []) (hnow : ClockOk total now) :
    ∃ memory' db', memory.createOrUpdate task now = (.ok (), memory') ∧
      db.upsertTask pg (taskParameters codec task) now.toInt = (.ok (), db') ∧
      Agree pg wire total left memory' db' := by
  obtain ⟨memory', hcreate, hwrite⟩ := h.createOrUpdate htask hid hnow
  cases he : memory.entryOf task.id with
  | none =>
    obtain ⟨row, db', hinsert, htasks, hsequence, hmatches⟩ := h.insert htask hnow he ()
      (fun row => updateRow row (taskParameters codec task).assign now.toInt)
    exact ⟨memory', db', hcreate, hinsert, hwrite db' row htasks hmatches hsequence⟩
  | some e =>
    obtain ⟨row, hfind, hmatches⟩ := h.find_some he
    let numbered : Database P := { db with taskCreatedSequence := db.taskCreatedSequence + 1 }
    obtain ⟨new, hupdate, hnewMatches⟩ := h.update he hmatches now numbered
    refine ⟨memory', { numbered with tasks := numbered.tasks.put new }, hcreate, ?_,
      hwrite _ new rfl hnewMatches (Nat.le_refl _)⟩
    rw [upsertTask, h.insert_conflict htask hfind, hupdate]

/-! ## One call -/

/-- `CreateOrUpdate` of the two stores. -/
theorem createOrUpdate_agrees (htask : TaskOk pg wire task) (hnow : ClockOk total now) :
    let postgres := PostgresTaskStore.createOrUpdate pg codec ⟨db, telemetrySnapshot⟩ task now.toInt
    postgres.1 = (memory.createOrUpdate task now).1 ∧
      Agree pg wire total left (memory.createOrUpdate task now).2 postgres.2.database := by
  by_cases hempty : task.id.isEmpty
  · simp only [PostgresTaskStore.createOrUpdate, createOrUpdate, if_pos hempty]
    exact ⟨rfl, h.idle⟩
  · obtain ⟨memory', db', hmemory, hdb, hagree⟩ := h.upsert htask (by simpa using hempty) hnow
    simp only [PostgresTaskStore.createOrUpdate, if_neg hempty, PostgresTaskStore.execute, hdb, hmemory]
    exact ⟨rfl, hagree⟩

end

theorem revisionOf_eq (he : memory.entryOf id = some e) : memory.revisionOf id = e.revision := by
  rw [revisionOf, he]
  rfl

/-- `CreateOrUpdateIfRevision` of the two stores. -/
theorem createOrUpdateIfRevision_agrees (h : Agree pg wire total (left + 1) memory db)
    (htask : TaskOk pg wire task) {expectedRevision : UInt64} (hexpected : expectedRevision.toNat < 2 ^ 63)
    (hnow : ClockOk total now) :
    let postgres := PostgresTaskStore.createOrUpdateIfRevision pg codec ⟨db, telemetrySnapshot⟩ task
      expectedRevision now.toInt
    postgres.1 = (memory.createOrUpdateIfRevision task expectedRevision now).1 ∧
      Agree pg wire total left (memory.createOrUpdateIfRevision task expectedRevision now).2
        postgres.2.database := by
  by_cases hempty : task.id.isEmpty
  · simp only [PostgresTaskStore.createOrUpdateIfRevision, createOrUpdateIfRevision, if_pos hempty]
    exact ⟨rfl, h.idle⟩
  have hid : task.id ≠ [] := by simpa using hempty
  obtain ⟨memory', hcreate, hwrite⟩ := h.createOrUpdate htask hid hnow
  rw [createOrUpdateIfRevision_eq h.wellFormed hid]
  simp only [PostgresTaskStore.createOrUpdateIfRevision, if_neg hempty, PostgresTaskStore.execute, hcreate]
  by_cases hzero : expectedRevision = 0
  · simp only [if_pos hzero]
    cases he : memory.entryOf task.id with
    | none =>
      obtain ⟨row, db', hinsert, htasks, hsequence, hmatches⟩ := h.insert htask hnow he 1 (fun _ db => (.ok 0, db))
      have hrevision : memory.revisionOf task.id = expectedRevision := by
        rw [revisionOf, he, hzero]
        rfl
      simp only [conditionalCreate, hinsert, if_neg (not_not.mpr hrevision)]
      exact ⟨rfl, hwrite db' row htasks hmatches hsequence⟩
    | some e =>
      obtain ⟨row, hfind, -⟩ := h.find_some he
      have hrevision : memory.revisionOf task.id ≠ expectedRevision := by
        have hpos := (h.wellFormed.entryOf_ok he).revision_pos
        rw [revisionOf_eq he, hzero]
        intro hEq
        rw [hEq] at hpos
        exact absurd hpos (by decide)
      simp only [conditionalCreate, h.insert_conflict htask hfind, if_pos hrevision]
      exact ⟨rfl, h.silent (.refl _) rfl (Nat.le_refl _)⟩
  · have hsmall : ¬ bigintMax < expectedRevision.toNat := by
      show ¬ 2 ^ 63 - 1 < expectedRevision.toNat
      omega
    have haccepted := not_not.mpr (Agree.accepted htask)
    simp only [if_neg hzero, conditionalUpdate, if_neg haccepted, if_neg hsmall, htask.parameters_id]
    cases he : memory.entryOf task.id with
    | none =>
      have hrevision : memory.revisionOf task.id ≠ expectedRevision := by
        rw [revisionOf, he]
        exact fun hEq => hzero hEq.symm
      simp only [h.find_none he, if_pos hrevision]
      exact ⟨rfl, h.idle⟩
    | some e =>
      obtain ⟨row, hfind, hmatches⟩ := h.find_some he
      by_cases hrevision : e.revision = expectedRevision
      · have hrow : row.revision.val = expectedRevision.toNat := by rw [hmatches.revision, hrevision]
        have hmemory : memory.revisionOf task.id = expectedRevision := (revisionOf_eq he).trans hrevision
        obtain ⟨new, hupdate, hnewMatches⟩ := h.update he hmatches now db
        simp only [hfind, if_pos hrow, hupdate, if_neg (not_not.mpr hmemory)]
        exact ⟨rfl, hwrite _ new rfl hnewMatches (Nat.le_succ _)⟩
      · have hrow : ¬ row.revision.val = expectedRevision.toNat := by
          rw [hmatches.revision]
          exact fun hEq => hrevision (UInt64.toNat_inj.mp hEq)
        have hmemory : memory.revisionOf task.id ≠ expectedRevision := by
          rw [revisionOf_eq he]
          exact hrevision
        simp only [hfind, if_neg hrow, if_pos hmemory]
        exact ⟨rfl, h.idle⟩

section

variable (h : SameTasks pg codec memory db) (hid : IsText pg id)

include h hid

variable (telemetrySnapshot) in
/-- A lookup finds no row and no entry, or a row that matches the entry. -/
theorem selectRow_agrees (operation : Bytes) (found : TaskRow P → Result α) :
    (memory.entryOf id = none ∧ PostgresTaskStore.selectRow pg ⟨db, telemetrySnapshot⟩ operation id found =
      .error (ProtocolErrors.taskNotFound kTaskNotFoundMessage)) ∨
    ∃ e row, memory.entryOf id = some e ∧ RowMatches codec e row ∧ db.tasks.find id = some row ∧
      parseTaskRow codec row.taskProto = .ok e.task ∧
      PostgresTaskStore.selectRow pg ⟨db, telemetrySnapshot⟩ operation id found = found row := by
  rw [PostgresTaskStore.selectRow_eq, if_pos hid.valid_cString, hid.cString_eq]
  cases he : memory.entryOf id with
  | none => exact .inl ⟨rfl, by rw [h.find_none he]⟩
  | some e =>
    obtain ⟨row, hfind, hmatches⟩ := h.find_some he
    refine .inr ⟨e, row, rfl, hmatches, hfind, ?_, by rw [hfind]⟩
    exact PostgresTaskStore.parseTaskRow_eq_ok.mpr (hmatches.parse (h.entries id e he))

theorem get_agrees : PostgresTaskStore.get pg codec ⟨db, telemetrySnapshot⟩ id = memory.get id := by
  by_cases hempty : id.isEmpty
  · rw [PostgresTaskStore.get, InMemoryTaskStore.get, if_pos hempty, if_pos hempty]
    rfl
  · rw [PostgresTaskStore.get, if_neg hempty, get_eq h.wellFormed (by simpa using hempty)]
    rcases selectRow_agrees telemetrySnapshot h hid "get postgres task"
        (fun row => parseTaskRow codec row.taskProto) with
      ⟨he, hselect⟩ | ⟨e, row, he, -, -, hparse, hselect⟩
    · rw [hselect, he]
      rfl
    · rw [hselect, he, hparse]

theorem getSnapshot_agrees :
    PostgresTaskStore.getSnapshot pg codec ⟨db, telemetrySnapshot⟩ id = memory.getSnapshot id := by
  by_cases hempty : id.isEmpty
  · rw [PostgresTaskStore.getSnapshot, getSnapshot, if_pos hempty, if_pos hempty]
    rfl
  · rw [PostgresTaskStore.getSnapshot, if_neg hempty, getSnapshot_eq h.wellFormed (by simpa using hempty)]
    rcases selectRow_agrees telemetrySnapshot h hid "get postgres task snapshot"
        (fun row => (parseTaskRow codec row.taskProto).map fun task =>
          (⟨task, row.revision.toUInt64⟩ : TaskSnapshot)) with
      ⟨he, hselect⟩ | ⟨e, row, he, hmatches, -, hparse, hselect⟩
    · rw [hselect, he]
      rfl
    · rw [hselect, he, hparse, hmatches.toUInt64_revision]
      rfl

end

section

variable (h : Agree pg wire total (left + 1) memory db)

include h

/-- `Cancel` of the two stores. -/
theorem cancel_agrees (hid : IsText pg id) (hnow : ClockOk total now) :
    let postgres := PostgresTaskStore.cancel pg codec ⟨db, telemetrySnapshot⟩ id now.toInt
    postgres.1 = (memory.cancel id now).1 ∧
      Agree pg wire total left (memory.cancel id now).2 postgres.2.database := by
  by_cases hempty : id.isEmpty
  · simp only [PostgresTaskStore.cancel, cancel, if_pos hempty]
    exact ⟨rfl, h.idle⟩
  simp only [PostgresTaskStore.cancel, if_neg hempty, cancel_eq h.wellFormed (by simpa using hempty),
    PostgresTaskStore.selectTaskForUpdate]
  rcases selectRow_agrees telemetrySnapshot h.toSameTasks hid "select postgres task for update"
      (fun row => parseTaskRow codec row.taskProto) with
    ⟨he, hselect⟩ | ⟨e, row, he, -, -, hparse, hselect⟩
  · simp only [hselect, he]
    exact ⟨rfl, h.idle⟩
  · simp only [hselect, he, hparse]
    split_ifs
    · exact ⟨rfl, h.idle⟩
    · have hcanceled : (e.task.setState .canceled).id ≠ [] := (h.wellFormed.entryOf_ok he).id_ne
      obtain ⟨memory', db', hmemory, hdb, hagree⟩ :=
        h.upsert ((h.taskOk he).setState .canceled) hcanceled hnow
      simp only [PostgresTaskStore.execute, hdb, hmemory]
      exact ⟨rfl, hagree⟩

/-- The longer history is written in both stores. -/
theorem Agree.appendHistory (he : memory.entryOf e.task.id = some e) (hfind : db.tasks.find e.task.id = some row)
    (hmatches : RowMatches codec e row) (hmessage : wire.message message) (hnow : ClockOk total now) :
    ∃ memory' db', memory.createOrUpdate (e.task.addHistory message) now = (.ok (), memory') ∧
      db.updateTaskHistory pg (e.task.addHistory message).id (codec.serialize (e.task.addHistory message))
        row.revision.toUInt64 row.createdSequence.toUInt64 now.toInt = (.ok true, db') ∧
      Agree pg wire total left memory' db' := by
  have hid : (e.task.addHistory message).id ≠ [] := (h.wellFormed.entryOf_ok he).id_ne
  have htask := (h.taskOk he).addHistory hmessage
  obtain ⟨memory', hcreate, hwrite⟩ := h.createOrUpdate htask hid hnow
  obtain ⟨new, hupdate, hnewMatches⟩ := h.updateHistory he hmatches message now
  refine ⟨memory', { db with tasks := db.tasks.put new }, hcreate, ?_, hwrite _ new rfl hnewMatches (Nat.le_succ _)⟩
  have hkey : cString (e.task.addHistory message).id = e.task.id := htask.id.cString_eq
  have hvalid : pg.validText e.task.id := htask.id.valid
  have hsmall : ¬ (bigintMax < row.revision.toUInt64.toNat ∨ bigintMax < row.createdSequence.toUInt64.toNat) := by
    rw [Bigint.toNat_toUInt64, Bigint.toNat_toUInt64, not_or, not_lt, not_lt]
    exact ⟨row.revision.property, row.createdSequence.property⟩
  have hexpected : row.revision.val = row.revision.toUInt64.toNat ∧
      row.createdSequence.val = row.createdSequence.toUInt64.toNat :=
    ⟨(Bigint.toNat_toUInt64 _).symm, (Bigint.toNat_toUInt64 _).symm⟩
  simp only [updateTaskHistory, if_neg (not_not.mpr hvalid), if_neg hsmall, hkey,
    hfind, if_pos hexpected, hupdate]
  rfl

/-- Nobody moves the row in between, so the first attempt is the last. -/
theorem appendTaskHistoryLoop_agrees (hne : id ≠ []) (hid : IsText pg id) (hmessage : wire.message message)
    (hnow : ClockOk total now) {attempts : Nat} :
    let postgres := PostgresTaskStore.appendTaskHistoryLoop pg codec id message policy serialize now.toInt
      (attempts + 1) ⟨db, telemetrySnapshot⟩
    let inMemory := memory.appendTaskHistory id message policy serialize now
    postgres.1 = inMemory.1 ∧ Agree pg wire total left inMemory.2.2 postgres.2.database := by
  rw [PostgresTaskStore.appendTaskHistoryLoop, appendTaskHistory_eq h.wellFormed hne,
    PostgresTaskStore.selectTaskHistorySnapshot]
  rcases selectRow_agrees telemetrySnapshot h.toSameTasks hid "select postgres task history snapshot"
      (fun row => (parseTaskRow codec row.taskProto).map fun task =>
        (⟨task, row.revision.toUInt64, row.createdSequence.toUInt64⟩ : TaskHistorySnapshot)) with
    ⟨he, hselect⟩ | ⟨e, row, he, hmatches, hfind, hparse, hselect⟩
  · rw [hselect, he]
    exact ⟨rfl, h.idle⟩
  · obtain rfl : e.task.id = id := h.wellFormed.entryOf_id he
    rw [hselect, he, hparse]
    simp only [Except.map]
    cases findHistoryDedupeReason serialize e.task.history message policy with
    | some reason =>
      have hsame : SameContents memory { memory with
          telemetrySnapshot := updateDedupeSnapshot memory.telemetrySnapshot reason } :=
        ⟨rfl, rfl, rfl, rfl, rfl⟩
      exact ⟨rfl, h.silent hsame rfl (Nat.le_succ _)⟩
    | none =>
      obtain ⟨memory', db', hmemory, hdb, hagree⟩ := h.appendHistory he hfind hmatches hmessage hnow
      simp only [PostgresTaskStore.updateTaskHistory, PostgresTaskStore.execute, hdb, hmemory]
      exact ⟨rfl, hagree⟩

/-- `AppendTaskHistory` of the two stores. -/
theorem appendTaskHistory_agrees (hid : IsText pg id) (hmessage : wire.message message) (hnow : ClockOk total now) :
    let postgres := PostgresTaskStore.appendTaskHistory pg codec ⟨db, telemetrySnapshot⟩ id message policy
      serialize now.toInt
    let inMemory := memory.appendTaskHistory id message policy serialize now
    postgres.1 = inMemory.1 ∧ Agree pg wire total left inMemory.2.2 postgres.2.database := by
  by_cases hempty : id.isEmpty
  · simp only [PostgresTaskStore.appendTaskHistory, appendTaskHistory, if_pos hempty]
    exact ⟨rfl, h.idle⟩
  · rw [PostgresTaskStore.appendTaskHistory, if_neg hempty]
    exact appendTaskHistoryLoop_agrees h (by simpa using hempty) hid hmessage hnow

end

/-- One call gets the same reply from both stores, and keeps them in agreement. -/
theorem perform_agrees (h : Agree pg wire total (left + 1) memory store.database)
    (hcall : call.Admissible pg wire total) (hnow : ClockOk total now) :
    (store.perform pg codec call now.toInt).1 = (memory.perform call now).1 ∧
      Agree pg wire total left (memory.perform call now).2 (store.perform pg codec call now.toInt).2.database := by
  obtain ⟨db, telemetrySnapshot⟩ := store
  have hsilent : Agree pg wire total left memory db := h.idle
  cases call with
  | createOrUpdate task =>
    exact (createOrUpdate_agrees h hcall hnow).imp_left (congrArg _)
  | getSnapshot id =>
    exact ⟨congrArg TaskStoreReply.getSnapshot (getSnapshot_agrees h.toSameTasks hcall), hsilent⟩
  | createOrUpdateIfRevision task expectedRevision =>
    exact (createOrUpdateIfRevision_agrees h hcall.1 hcall.2 hnow).imp_left (congrArg _)
  | get id => exact ⟨congrArg TaskStoreReply.get (get_agrees h.toSameTasks hcall), hsilent⟩
  | list request =>
    obtain ⟨hcontext, htoken, hpage⟩ := hcall
    have hsize : db.tasks.rows.length + (left + 1) ≤ total := h.size
    have hfits : request.pageSize ≤ intMax ∨ db.tasks.rows.length ≤ intMax := by omega
    exact ⟨congrArg TaskStoreReply.list (list_eq h.toSameTasks hcontext htoken hfits), hsilent⟩
  | cancel id =>
    exact (cancel_agrees h hcall hnow).imp_left (congrArg _)
  | appendTaskHistory taskId message policy serialize =>
    exact (appendTaskHistory_agrees h hcall.1 hcall.2 hnow).imp_left (congrArg _)

theorem perform_token (h : SameTasks pg codec memory db) {page : ListTasksResponse}
    (hreply : (memory.perform call now).1 = .list (.ok page)) : TokenOk pg page.nextPageToken := by
  cases call with
  | list request => exact tokenOk_of_list h (TaskStoreReply.list.inj hreply)
  | createOrUpdate | getSnapshot | createOrUpdateIfRevision | get | cancel | appendTaskHistory => nomatch hreply

/-! ## A run -/

/-- A run gets the same replies from both, and its tokens may be handed back. -/
theorem run_agrees {calls : List (TaskStoreCall × Int64)} {memory : InMemoryTaskStore}
    (h : Agree pg wire total calls.length memory store.database)
    (hcalls : ∀ timed ∈ calls, timed.1.Admissible pg wire total ∧ ClockOk total timed.2) :
    let postgres := store.run pg codec (calls.map fun timed => (timed.1, timed.2.toInt))
    postgres.1 = (memory.performAll calls).1 ∧
      (∀ page, .list (.ok page) ∈ (memory.performAll calls).1 → TokenOk pg page.nextPageToken) ∧
      SameTasks pg codec (memory.performAll calls).2 postgres.2.database := by
  induction calls generalizing memory store with
  | nil => exact ⟨rfl, nofun, h.toSameTasks⟩
  | cons timed calls ih =>
    obtain ⟨call, now⟩ := timed
    obtain ⟨hcall, hnow⟩ := hcalls _ List.mem_cons_self
    obtain ⟨hreply, hagree⟩ := perform_agrees h hcall hnow
    obtain ⟨hreplies, htokens, hfinal⟩ :=
      ih hagree fun timed htimed => hcalls timed (List.mem_cons_of_mem _ htimed)
    refine ⟨congrArg₂ List.cons hreply hreplies, ?_, hfinal⟩
    intro page hpage
    rcases List.mem_cons.mp hpage with hfirst | hrest
    · exact perform_token h.toSameTasks hfirst.symm
    · exact htokens page hrest

/-- Two empty stores agree, if the counters have a number for every call. -/
theorem agree_empty (hcountable : total < 2 ^ 63) : Agree pg wire total total {} ({} : Database P) where
  wellFormed := wellFormed_empty
  rows := fun _ => .none
  entries := fun _ _ he => nomatch he
  fits := fun _ _ he => nomatch he
  sequence := by
    show 1 + total ≤ total + 1
    omega
  size := by
    show 0 + total ≤ total
    omega
  countable := hcountable

end Steps

/-- Every column that repeats a field of the task has the field's value. -/
structure Repeats (row : TaskRow P) (task : Task) : Prop where
  id : row.id = task.id
  contextId : row.contextId = task.contextId
  state : row.state = task.state
  hasStatusTimestamp : row.hasStatusTimestamp = task.statusOr.timestamp.isSome
  statusSeconds : row.statusSeconds = (task.statusOr.timestamp.map Timestamp.seconds).getD 0
  statusNanos : row.statusNanos = (task.statusOr.timestamp.map Timestamp.nanos).getD 0

/-- The list statements select of a row what the in-memory store selects. -/
structure SelectedAlike (pg : Postgres) (row : TaskRow P) (task : Task) : Prop where
  filter : ∀ request : ListTasksRequest, IsText pg request.contextId →
    taskListFilter request row = matchesListFilters task request
  boundary : ∀ cursor : ListTaskCursor, IsText pg cursor.taskId →
    beyondBoundary (some cursor) row = listCursorPrecedes cursor ⟨Int64.ofInt row.updatedAt, task.id⟩

theorem selectedAlike_of_matches {pg : Postgres} {codec : TaskCodec P} {e : Entry} {row : TaskRow P}
    (hmatches : RowMatches codec e row) (hok : EntryOk pg codec e) : SelectedAlike pg row e.task where
  filter := fun _ hcontext => hmatches.taskListFilter hok hcontext
  boundary := by
    intro cursor hcursor
    rw [Bool.eq_iff_iff, hmatches.beyondBoundary fun _ hmem => Option.mem_some_iff.mp hmem ▸ hcursor,
      hmatches.ofInt_updatedAt]
    show (∀ b ∈ some cursor, CursorOrder b e.cursor) ↔ CursorOrder cursor e.cursor
    simp

/-- Both stores return the same replies in every run, and the columns repeat the tasks. -/
theorem postgres_refines_inMemory {P : Type} (pg : Postgres) (codec : TaskCodec P) (wire : WireFormat codec)
    (calls : List (TaskStoreCall × Int64)) (hcountable : calls.length < 2 ^ 63)
    (hcalls : ∀ timed ∈ calls, timed.1.Admissible pg wire calls.length ∧ ClockOk calls.length timed.2) :
    let postgres := PostgresTaskStore.run pg codec {} (calls.map fun timed => (timed.1, timed.2.toInt))
    let inMemory := InMemoryTaskStore.performAll {} calls
    postgres.1 = inMemory.1 ∧ (∀ page, .list (.ok page) ∈ postgres.1 → TokenOk pg page.nextPageToken) ∧
      ∀ row ∈ postgres.2.database.tasks.rows, ∃ task, codec.parse row.taskProto = some task ∧
        Repeats row task ∧ SelectedAlike pg row task := by
  let empty : PostgresTaskStore P := {}
  have hagree : Agree pg wire calls.length calls.length {} empty.database := agree_empty hcountable
  obtain ⟨hreplies, htokens, hfinal⟩ := run_agrees hagree hcalls
  refine ⟨hreplies, fun page hpage => htokens page (hreplies ▸ hpage), ?_⟩
  intro row hrow
  obtain ⟨e, -, hmatches, hok⟩ := hfinal.entry_of_mem hrow
  refine ⟨e.task, hmatches.parse hok, ?_, selectedAlike_of_matches hmatches hok⟩
  exact ⟨hmatches.id, hmatches.contextId hok, hmatches.state, hmatches.hasStatusTimestamp,
    hmatches.statusSeconds, hmatches.statusNanos⟩

/-- With the codec whose payloads are the messages, every message is readable. -/
def WireFormat.identity : WireFormat TaskCodec.identity where
  task := fun _ => True
  message := fun _ => True
  parses := fun _ _ => rfl
  setState := fun _ _ _ => trivial
  addHistory := fun _ _ _ _ => trivial

theorem isText_permissive {text : Bytes} (h : 0 ∉ text) : IsText .permissive text := ⟨h, rfl⟩

/-- Two tasks in one microsecond, a conditional write, an append, and a list with one task a page. -/
def sampleCalls : List (TaskStoreCall × Int64) :=
  [(.createOrUpdate { id := [97], contextId := [99] }, 5),
    (.createOrUpdate { id := [98], contextId := [99] }, 5),
    (.createOrUpdateIfRevision { id := [97] } 1, 5),
    (.appendTaskHistory [97] {} .noDedup fun _ _ => [], 4),
    (.list { pageSize := 1, contextId := [99] }, 4),
    (.cancel [98], 4),
    (.getSnapshot [98], 4)]

/-- Calls of every kind against both stores. -/
theorem sampleCalls_get_same_replies :
    (∀ timed ∈ sampleCalls, timed.1.Admissible .permissive WireFormat.identity sampleCalls.length ∧
      ClockOk sampleCalls.length timed.2) ∧
    (PostgresTaskStore.run .permissive .identity {} (sampleCalls.map fun timed => (timed.1, timed.2.toInt))).1 =
      (InMemoryTaskStore.performAll {} sampleCalls).1 := by
  have htask : ∀ {task : Task}, 0 ∉ task.id → 0 ∉ task.contextId → TaskOk .permissive WireFormat.identity task :=
    fun hid hcontext => ⟨isText_permissive hid, isText_permissive hcontext, trivial⟩
  have hclock : ∀ timed ∈ sampleCalls, ClockOk sampleCalls.length timed.2 := by
    unfold ClockOk
    decide
  have hcalls : ∀ timed ∈ sampleCalls, timed.1.Admissible .permissive WireFormat.identity sampleCalls.length := by
    intro timed htimed
    simp only [sampleCalls, List.mem_cons, List.not_mem_nil, or_false] at htimed
    rcases htimed with rfl | rfl | rfl | rfl | rfl | rfl | rfl
    · exact htask (by decide) (by decide)
    · exact htask (by decide) (by decide)
    · exact ⟨htask (by decide) (by decide), by decide⟩
    · exact ⟨isText_permissive (by decide), trivial⟩
    · exact ⟨isText_permissive (by decide), nofun, .inl (by decide)⟩
    · exact isText_permissive (by decide)
    · exact isText_permissive (by decide)
  have hboth := fun timed htimed => And.intro (hcalls timed htimed) (hclock timed htimed)
  exact ⟨hboth, (postgres_refines_inMemory .permissive .identity WireFormat.identity sampleCalls (by decide) hboth).1⟩

/-- A clock at the end of its range divides the stores: the second write of a task is refused in memory and
succeeds in the database. -/
theorem exhausted_clock_divides_stores :
    let calls : List (TaskStoreCall × Int64) :=
      [(.createOrUpdate { id := [97] }, Int64.maxValue), (.createOrUpdate { id := [97] }, Int64.maxValue)]
    (InMemoryTaskStore.performAll {} calls).1 = [.createOrUpdate (.ok ()),
        .createOrUpdate (.error (.internal kUpdateTimeExhaustedMessage))] ∧
      (PostgresTaskStore.run .permissive .identity {} (calls.map fun timed => (timed.1, timed.2.toInt))).1 =
        [.createOrUpdate (.ok ()), .createOrUpdate (.ok ())] := by
  refine ⟨?_, ?_⟩ <;> rfl

end A2A.Server.Stores
