/-
# Push configurations and the deletion of their tasks.
-/
import A2A.Foundation.Bytes
import A2A.Foundation.Machine
import A2A.Foundation.Table
import Mathlib.Data.List.Basic

namespace A2A.Server.Stores.PushConfigCleanup

open A2A.Foundation Table List Option

/-! ## The machine -/

/-- The isolation levels of PostgreSQL. -/
inductive Isolation where
  | readUncommitted
  | readCommitted
  | repeatableRead
  | serializable
  deriving DecidableEq

/-- The levels with one snapshot for the whole transaction. -/
def Isolation.keepsSnapshot : Isolation → Bool
  | .repeatableRead | .serializable => true
  | .readUncommitted | .readCommitted => false

/-- A task row; a write makes a new version of it. -/
structure TaskVersion where
  id : Bytes
  version : Nat
  deriving DecidableEq

/-- A row of the push-configuration table; `localPostgresTask` marks those of local tasks. -/
structure PushConfigVersion where
  taskId : Bytes
  configId : Bytes
  localPostgresTask : Bool
  version : Nat
  deriving DecidableEq

/-- The primary key. -/
def PushConfigVersion.key (row : PushConfigVersion) : Bytes × Bytes := (row.taskId, row.configId)

/-- Both tables, as committed at some time. -/
structure Snapshot where
  tasks : Table TaskVersion.id := .empty
  pushConfigs : Table PushConfigVersion.key := .empty

/-- A local upsert with its shared lock; `taskExists` is the helper's answer. -/
structure Upsert where
  session : Nat
  taskId : Bytes
  configId : Bytes
  taskExists : Bool := false

/-- A deleting transaction: the task rows it has deleted and holds, those whose AFTER trigger has run, and the
configurations it has deleted. -/
structure Transaction where
  session : Nat
  isolation : Isolation
  snapshot : Option Snapshot := none
  deleted : List Bytes := []
  cleaned : List Bytes := []
  removed : List (Bytes × Bytes) := []
  truncated : Bool := false

/-- What is committed, and who is at work. -/
structure World where
  committed : Snapshot := {}
  nextVersion : Nat := 0
  upserts : Table Upsert.session := .empty
  transactions : Table Transaction.session := .empty

/-- One statement, trigger or end of a session. -/
inductive Action where
  | writeTask (id : Bytes)
  | upsertExternal (taskId configId : Bytes)
  | deleteConfig (taskId configId : Bytes)
  | lockTaskForPushConfig (session : Nat) (isolation : Isolation) (taskId configId : Bytes)
  | findTask (session : Nat)
  | commitUpsert (session : Nat)
  | abortUpsert (session : Nat)
  | begin (session : Nat) (isolation : Isolation)
  | statement (session : Nat)
  | deleteTask (session : Nat) (id : Bytes)
  | deleteTaskPushConfigs (session : Nat) (id : Bytes)
  | truncateTasks (session : Nat)
  | commit (session : Nat)
  | abort (session : Nat)

namespace Transaction

/-- The first statement takes the snapshot. -/
def takeSnapshot (tx : Transaction) (committed : Snapshot) : Transaction :=
  { tx with snapshot := some (tx.snapshot.getD committed) }

/-- What a statement of the transaction sees of others. -/
def view (tx : Transaction) (committed : Snapshot) : Snapshot :=
  if tx.isolation.keepsSnapshot then tx.snapshot.getD committed else committed

/-- The tables without what the transaction has deleted. -/
def applyTo (tx : Transaction) (committed : Snapshot) : Snapshot where
  tasks := if tx.truncated then .empty else committed.tasks.deleteAll tx.deleted
  pushConfigs := committed.pushConfigs.deleteAll tx.removed

variable {tx : Transaction} {committed : Snapshot} {id : Bytes}

theorem find_applyTo_of_notMem (hdeleted : id ∉ tx.deleted) (htruncated : tx.truncated = false) :
    (tx.applyTo committed).tasks.find id = committed.tasks.find id := by
  rw [applyTo, htruncated]
  exact find_deleteAll_of_notMem hdeleted

theorem find_applyTo_of_mem (hdeleted : id ∈ tx.deleted) : (tx.applyTo committed).tasks.find id = none := by
  unfold applyTo
  split_ifs
  · rfl
  · exact find_deleteAll_of_mem hdeleted

end Transaction

namespace World

/-- No transaction holds the task's row. -/
def TaskFree (w : World) (id : Bytes) : Prop :=
  ∀ tx ∈ w.transactions.rows, tx.truncated = false ∧ id ∉ tx.deleted

/-- No transaction holds the configuration's row. -/
def ConfigFree (w : World) (key : Bytes × Bytes) : Prop :=
  ∀ tx ∈ w.transactions.rows, key ∉ tx.removed

instance (w : World) (id : Bytes) : Decidable (w.TaskFree id) :=
  inferInstanceAs (Decidable (∀ tx ∈ w.transactions.rows, tx.truncated = false ∧ id ∉ tx.deleted))

instance (w : World) (key : Bytes × Bytes) : Decidable (w.ConfigFree key) :=
  inferInstanceAs (Decidable (∀ tx ∈ w.transactions.rows, key ∉ tx.removed))

/-- Commit a new version of a configuration. -/
def putConfig (w : World) (taskId configId : Bytes) (localPostgresTask : Bool) : World :=
  { w with
    committed :=
      { w.committed with
        pushConfigs := w.committed.pushConfigs.put ⟨taskId, configId, localPostgresTask, w.nextVersion⟩ }
    nextVersion := w.nextVersion + 1 }

/-- A transaction begins, or goes on. -/
def putTransaction (w : World) (tx : Transaction) : World :=
  { w with transactions := w.transactions.put tx }

end World

section Steps

-- the key of a task's advisory lock: `hashtextextended` of the id, seeded with the hash of the table name
variable (lockKey : Bytes → Int)

/-- BEFORE DELETE and the deletion: the row is visible, unchanged since, and nobody holds its lock. -/
def deleteTask (w : World) (tx : Transaction) (id : Bytes) : Option World :=
  let found := (tx.view w.committed).tasks.find id
  if found.isSome ∧ w.committed.tasks.find id = found ∧ w.TaskFree id ∧
      (∀ upsert ∈ w.upserts.rows, lockKey upsert.taskId ≠ lockKey id) ∧
      (∀ other ∈ w.transactions.rows, other.session = tx.session ∨ ∀ held ∈ other.deleted, lockKey held ≠ lockKey id)
    then some (w.putTransaction { tx.takeSnapshot w.committed with deleted := id :: tx.deleted })
  else none

/-- `a2a_delete_task_push_configs` AFTER DELETE: every visible local row of the task, unchanged since. -/
def deleteTaskPushConfigs (w : World) (tx : Transaction) (id : Bytes) : Option World :=
  let doomed := (tx.view w.committed).pushConfigs.rows.filter fun row => row.taskId = id ∧ row.localPostgresTask
  if id ∈ tx.deleted ∧ ∀ row ∈ doomed, row ∈ w.committed.pushConfigs.rows then
    some (w.putTransaction
      { tx with cleaned := id :: tx.cleaned, removed := doomed.map PushConfigVersion.key ++ tx.removed })
  else none

/-- TRUNCATE and its trigger: a transaction snapshot is refused. The table lock waits for all who touched a task row. -/
def truncateTasks (w : World) (tx : Transaction) : Option World :=
  if tx.isolation.keepsSnapshot then some { w with transactions := w.transactions.delete tx.session }
  else if (∀ upsert ∈ w.upserts.rows, upsert.taskExists = false) ∧
      ∀ other ∈ w.transactions.rows, other.session = tx.session ∨ (other.deleted = [] ∧ other.truncated = false)
    then
      let doomed := w.committed.pushConfigs.rows.filter fun row => row.localPostgresTask
      some (w.putTransaction
        { tx with truncated := true, removed := doomed.map PushConfigVersion.key ++ tx.removed })
  else none

/-- The end of a deleting transaction, after all its AFTER triggers. -/
def commit (w : World) (tx : Transaction) : Option World :=
  if ∀ id ∈ tx.deleted, id ∈ tx.cleaned then
    some { w with
      committed := tx.applyTo w.committed
      transactions := w.transactions.delete tx.session }
  else none

/-- `a2a_lock_task_for_push_config` up to its lock. -/
def lockTaskForPushConfig (w : World) (session : Nat) (isolation : Isolation) (taskId configId : Bytes) :
    Option World :=
  if isolation.keepsSnapshot then some w
  else if (w.upserts.find session).isNone ∧
      ∀ tx ∈ w.transactions.rows, ∀ held ∈ tx.deleted, lockKey held ≠ lockKey taskId
    then some { w with upserts := w.upserts.put { session, taskId, configId } }
  else none

/-- The helper looks for the task with a fresh snapshot, and the upsert goes on or inserts nothing. -/
def findTask (w : World) (upsert : Upsert) : Option World :=
  if ∀ tx ∈ w.transactions.rows, tx.truncated = false then
    if (w.committed.tasks.find upsert.taskId).isSome then
      some { w with upserts := w.upserts.put { upsert with taskExists := true } }
    else some { w with upserts := w.upserts.delete upsert.session }
  else none

/-- The insertion, or the update of the row that is there, and the commit. -/
def commitUpsert (w : World) (upsert : Upsert) : Option World :=
  if upsert.taskExists ∧ w.ConfigFree (upsert.taskId, upsert.configId) then
    some { w.putConfig upsert.taskId upsert.configId true with upserts := w.upserts.delete upsert.session }
  else none

/-- One step of one session. -/
def step (w : World) : Action → Option World
  | .writeTask id =>
    if w.TaskFree id then
      some { w with
        committed := { w.committed with tasks := w.committed.tasks.put ⟨id, w.nextVersion⟩ }
        nextVersion := w.nextVersion + 1 }
    else none
  | .upsertExternal taskId configId =>
    if w.ConfigFree (taskId, configId) then some (w.putConfig taskId configId false) else none
  | .deleteConfig taskId configId =>
    if w.ConfigFree (taskId, configId) then
      some { w with
        committed :=
          { w.committed with pushConfigs := w.committed.pushConfigs.delete (taskId, configId) } }
    else none
  | .lockTaskForPushConfig session isolation taskId configId =>
    lockTaskForPushConfig lockKey w session isolation taskId configId
  | .findTask session => (w.upserts.find session).bind (findTask w)
  | .commitUpsert session => (w.upserts.find session).bind (commitUpsert w)
  | .abortUpsert session => some { w with upserts := w.upserts.delete session }
  | .begin session isolation =>
    if (w.transactions.find session).isNone then some (w.putTransaction { session, isolation }) else none
  | .statement session =>
    (w.transactions.find session).map fun tx => w.putTransaction (tx.takeSnapshot w.committed)
  | .deleteTask session id => (w.transactions.find session).bind fun tx => deleteTask lockKey w tx id
  | .deleteTaskPushConfigs session id =>
    (w.transactions.find session).bind fun tx => deleteTaskPushConfigs w tx id
  | .truncateTasks session => (w.transactions.find session).bind (truncateTasks w)
  | .commit session => (w.transactions.find session).bind (commit w)
  | .abort session => some { w with transactions := w.transactions.delete session }

/-- Any number of upserts and deleting transactions over empty tables. -/
def sessions : Machine World Action where
  start := {}
  step := step lockKey

end Steps

/-! ## The invariant -/

/-- Every local push-configuration row has its task. -/
def NoOrphans (committed : Snapshot) : Prop :=
  ∀ row ∈ committed.pushConfigs.rows, row.localPostgresTask = true →
    (committed.tasks.find row.taskId).isSome = true

/-- The transaction sees the committed row, on what is committed or in its snapshot. -/
def Transaction.Sees (tx : Transaction) (row : PushConfigVersion) : Prop :=
  tx.isolation.keepsSnapshot = true → ∀ snapshot, tx.snapshot = some snapshot → row ∈ snapshot.pushConfigs.rows

/-- What a transaction has deleted, against the committed rows. -/
structure TransactionOk (pushConfigs : Table PushConfigVersion.key) (tx : Transaction) : Prop where
  deleted : ∀ id ∈ tx.cleaned, id ∈ tx.deleted
  cleaned : ∀ row ∈ pushConfigs.rows, row.localPostgresTask = true → row.taskId ∈ tx.cleaned → tx.Sees row →
    row.key ∈ tx.removed
  truncated : tx.truncated = true → ∀ row ∈ pushConfigs.rows, row.localPostgresTask = true → row.key ∈ tx.removed
  removed : ∀ row ∈ pushConfigs.rows, row.key ∈ tx.removed → tx.Sees row

/-- The invariant: locks keep an upsert that has found its task apart from whoever deletes it. -/
structure Inv (lockKey : Bytes → Int) (w : World) : Prop where
  locked : ∀ upsert ∈ w.upserts.rows, ∀ tx ∈ w.transactions.rows, ∀ id ∈ tx.deleted,
    lockKey id ≠ lockKey upsert.taskId
  found : ∀ upsert ∈ w.upserts.rows, upsert.taskExists = true →
    (w.committed.tasks.find upsert.taskId).isSome = true
  apart : ∀ tx ∈ w.transactions.rows, tx.truncated = true → ∀ upsert ∈ w.upserts.rows,
    upsert.taskExists = false
  transactions : ∀ tx ∈ w.transactions.rows, TransactionOk w.committed.pushConfigs tx

variable {lockKey : Bytes → Int}

variable {pushConfigs : Table PushConfigVersion.key} {tx : Transaction} {taskId configId id : Bytes}
    {w w' : World} {localPostgresTask : Bool} {session : Nat} {isolation : Isolation} {upsert : Upsert}
    {committed : Snapshot} {row : PushConfigVersion} {action : Action}

theorem inv_start : Inv lockKey (sessions lockKey).start where
  locked := nofun
  found := nofun
  apart := nofun
  transactions := nofun

theorem noOrphans_start : NoOrphans (sessions lockKey).start.committed :=
  nofun

theorem TransactionOk.mono {fewer : Table PushConfigVersion.key} (h : TransactionOk pushConfigs tx)
    (hsubset : ∀ row ∈ fewer.rows, row ∈ pushConfigs.rows) :
    TransactionOk fewer tx where
  deleted := h.deleted
  cleaned := fun row hrow => h.cleaned row (hsubset row hrow)
  truncated := fun htruncated row hrow => h.truncated htruncated row (hsubset row hrow)
  removed := fun row hrow => h.removed row (hsubset row hrow)

/-- A new row that the transaction does not hold, local only if the transaction leaves its task. -/
theorem TransactionOk.put (h : TransactionOk pushConfigs tx) {new : PushConfigVersion} (hfree : new.key ∉ tx.removed)
    (hlocal : new.localPostgresTask → new.taskId ∉ tx.deleted ∧ tx.truncated = false) :
    TransactionOk (pushConfigs.put new) tx where
  deleted := h.deleted
  cleaned := forall_mem_put (fun hmark hcleaned => absurd (h.deleted _ hcleaned) (hlocal hmark).1) h.cleaned
  truncated := fun htruncated => forall_mem_put
    (fun hmark => absurd htruncated (Bool.not_eq_true _ ▸ (hlocal hmark).2)) (h.truncated htruncated)
  removed := forall_mem_put (absurd · hfree) h.removed

/-! ## Steps of the upserts -/

/-- A guarded step that was taken: its guard held. -/
theorem of_guarded {guard : Prop} [Decidable guard] {next : World} (h : (if guard then some next else none) = some w') :
    guard ∧ next = w' := by
  obtain ⟨hguard, hnext⟩ := ite_none_right_eq_some.mp h
  exact ⟨hguard, Option.some.inj hnext⟩

theorem isSome_find_put {tasks : Table TaskVersion.id} (id : Bytes) (version : Nat)
    (h : (tasks.find taskId).isSome) : ((tasks.put ⟨id, version⟩).find taskId).isSome := by
  by_cases hid : taskId = id
  · rw [hid]
    exact congrArg Option.isSome (find_put_self (⟨id, version⟩ : TaskVersion))
  · rw [find_put_of_ne hid]
    exact h

section

variable (h : Inv lockKey w)

include h

/-- A committed write of a push-configuration row that no transaction holds. -/
theorem Inv.putConfig (hfree : w.ConfigFree (taskId, configId))
    (hlocal : localPostgresTask → ∀ tx ∈ w.transactions.rows, taskId ∉ tx.deleted ∧ tx.truncated = false) :
    Inv lockKey (w.putConfig taskId configId localPostgresTask) :=
  { h with
    transactions := fun tx htx => (h.transactions tx htx).put (hfree tx htx) fun hmark => hlocal hmark tx htx }

theorem Inv.deleteUpsert (session : Nat) :
    Inv lockKey { w with upserts := w.upserts.delete session } where
  locked := fun upsert hupsert => h.locked upsert (mem_delete.mp hupsert).1
  found := fun upsert hupsert => h.found upsert (mem_delete.mp hupsert).1
  apart := fun tx htx htruncated upsert hupsert => h.apart tx htx htruncated upsert (mem_delete.mp hupsert).1
  transactions := h.transactions

theorem Inv.putUpsert {new : Upsert}
    (hlocked : ∀ tx ∈ w.transactions.rows, ∀ id ∈ tx.deleted, lockKey id ≠ lockKey new.taskId)
    (hfound : new.taskExists →
      (w.committed.tasks.find new.taskId).isSome ∧ ∀ tx ∈ w.transactions.rows, tx.truncated = false) :
    Inv lockKey { w with upserts := w.upserts.put new } where
  locked := forall_mem_put hlocked h.locked
  found := forall_mem_put (fun hexists => (hfound hexists).1) h.found
  apart := by
    intro tx htx htruncated
    refine forall_mem_put ?_ (h.apart tx htx htruncated)
    by_contra hexists
    rw [(hfound (Bool.of_not_eq_false hexists)).2 tx htx] at htruncated
    exact Bool.false_ne_true htruncated
  transactions := h.transactions

theorem Inv.lockTaskForPushConfig
    (hstep : lockTaskForPushConfig lockKey w session isolation taskId configId = some w') : Inv lockKey w' := by
  unfold PushConfigCleanup.lockTaskForPushConfig at hstep
  split_ifs at hstep with hisolation hfree
  · cases hstep
    exact h
  · cases hstep
    exact h.putUpsert hfree.2 nofun

theorem Inv.findTask (hmem : upsert ∈ w.upserts.rows) (hstep : findTask w upsert = some w') : Inv lockKey w' := by
  unfold PushConfigCleanup.findTask at hstep
  split_ifs at hstep with hfree hexists
  · cases hstep
    exact h.putUpsert (h.locked upsert hmem) fun _ => ⟨hexists, hfree⟩
  · cases hstep
    exact h.deleteUpsert upsert.session

/-- An upsert that has found its task holds the lock that its deletion needs. -/
theorem Inv.taskFree (hmem : upsert ∈ w.upserts.rows) (hexists : upsert.taskExists) :
    ∀ tx ∈ w.transactions.rows, upsert.taskId ∉ tx.deleted ∧ tx.truncated = false := by
  intro tx htx
  constructor
  · intro hdeleted
    exact h.locked upsert hmem tx htx upsert.taskId hdeleted rfl
  · apply Bool.of_not_eq_true
    intro htruncated
    rw [h.apart tx htx htruncated upsert hmem] at hexists
    exact Bool.false_ne_true hexists

theorem Inv.commitUpsert (hmem : upsert ∈ w.upserts.rows)
    (hstep : commitUpsert w upsert = some w') : Inv lockKey w' := by
  obtain ⟨hready, rfl⟩ := of_guarded hstep
  exact (h.putConfig hready.2 fun _ => h.taskFree hmem hready.1).deleteUpsert upsert.session

/-! ## Steps of the deleting transactions -/

theorem Inv.putTransaction {new : Transaction}
    (hlocked : ∀ upsert ∈ w.upserts.rows, ∀ id ∈ new.deleted, lockKey id ≠ lockKey upsert.taskId)
    (hapart : new.truncated → ∀ upsert ∈ w.upserts.rows, upsert.taskExists = false)
    (hok : TransactionOk w.committed.pushConfigs new) : Inv lockKey (w.putTransaction new) where
  locked := fun upsert hupsert => forall_mem_put (hlocked upsert hupsert) (h.locked upsert hupsert)
  found := h.found
  apart := forall_mem_put hapart h.apart
  transactions := forall_mem_put hok h.transactions

theorem Inv.deleteTransaction (session : Nat) :
    Inv lockKey { w with transactions := w.transactions.delete session } where
  locked := fun upsert hupsert tx htx => h.locked upsert hupsert tx (mem_delete.mp htx).1
  found := h.found
  apart := fun tx htx => h.apart tx (mem_delete.mp htx).1
  transactions := fun tx htx => h.transactions tx (mem_delete.mp htx).1

end

open Transaction

theorem sees_takeSnapshot (hrow : row ∈ committed.pushConfigs.rows) :
    (tx.takeSnapshot committed).Sees row ↔ tx.Sees row := by
  unfold Transaction.Sees takeSnapshot
  cases tx.snapshot with
  | none => simp [hrow]
  | some snapshot => simp

theorem TransactionOk.takeSnapshot (h : TransactionOk committed.pushConfigs tx) :
    TransactionOk committed.pushConfigs (tx.takeSnapshot committed) where
  deleted := h.deleted
  cleaned := fun row hrow hmark hcleaned hsees =>
    h.cleaned row hrow hmark hcleaned ((sees_takeSnapshot hrow).mp hsees)
  truncated := h.truncated
  removed := fun row hrow hremoved => (sees_takeSnapshot hrow).mpr (h.removed row hrow hremoved)

theorem Inv.statement (h : Inv lockKey w) (hmem : tx ∈ w.transactions.rows) :
    Inv lockKey (w.putTransaction (tx.takeSnapshot w.committed)) :=
  h.putTransaction (fun upsert hupsert => h.locked upsert hupsert tx hmem) (h.apart tx hmem)
    (h.transactions tx hmem).takeSnapshot

theorem Inv.deleteTask (h : Inv lockKey w) (hmem : tx ∈ w.transactions.rows)
    (hstep : deleteTask lockKey w tx id = some w') : Inv lockKey w' := by
  obtain ⟨⟨-, -, -, hshared, -⟩, rfl⟩ := of_guarded hstep
  have hok := (h.transactions tx hmem).takeSnapshot
  refine h.putTransaction ?_ (h.apart tx hmem)
    { hok with deleted := fun id' hid => mem_cons_of_mem _ (hok.deleted id' hid) }
  intro upsert hupsert id' hid
  rcases mem_cons.mp hid with rfl | hold
  · exact (hshared upsert hupsert).symm
  · exact h.locked upsert hupsert tx hmem id' hold

theorem mem_view_of_sees (hrow : row ∈ committed.pushConfigs.rows) (hsees : tx.Sees row) :
    row ∈ (tx.view committed).pushConfigs.rows := by
  unfold view
  split_ifs with hkeeps
  · cases hsnapshot : tx.snapshot with
    | none => exact hrow
    | some snapshot => exact hsees hkeeps snapshot hsnapshot
  · exact hrow

theorem sees_of_mem_view (hview : row ∈ (tx.view committed).pushConfigs.rows) : tx.Sees row := by
  intro hkeeps snapshot hsnapshot
  rw [view, if_pos hkeeps, hsnapshot] at hview
  exact hview

/-- The AFTER trigger deletes every row it sees, and nothing else. -/
theorem TransactionOk.deleteTaskPushConfigs (h : TransactionOk committed.pushConfigs tx)
    (hdeleted : id ∈ tx.deleted) {doomed : List PushConfigVersion}
    (hdoomed : ∀ row, row ∈ doomed ↔
      row ∈ (tx.view committed).pushConfigs.rows ∧ row.taskId = id ∧ row.localPostgresTask)
    (hsame : ∀ row ∈ doomed, row ∈ committed.pushConfigs.rows) :
    TransactionOk committed.pushConfigs
      { tx with cleaned := id :: tx.cleaned, removed := doomed.map PushConfigVersion.key ++ tx.removed } where
  deleted := forall_mem_cons.mpr ⟨hdeleted, h.deleted⟩
  cleaned := by
    intro row hrow hmark hcleaned hsees
    rcases mem_cons.mp hcleaned with hid | hcleaned
    · have hmem := (hdoomed row).mpr ⟨mem_view_of_sees hrow hsees, hid, hmark⟩
      exact mem_append_left _ (mem_map_of_mem hmem)
    · exact mem_append_right _ (h.cleaned row hrow hmark hcleaned hsees)
  truncated := fun htruncated row hrow hmark => mem_append_right _ (h.truncated htruncated row hrow hmark)
  removed := by
    intro row hrow hremoved
    rcases mem_append.mp hremoved with hremoved | hremoved
    · -- the row was not changed since the view, so the key determines it
      obtain ⟨seen, hseen, hkey⟩ := mem_map.mp hremoved
      have hfind := find_eq_some_iff.mpr ⟨hsame seen hseen, hkey⟩
      obtain rfl := Option.some.inj (hfind.symm.trans (find_eq_some_iff.mpr ⟨hrow, rfl⟩))
      exact sees_of_mem_view ((hdoomed seen).mp hseen).1
    · exact h.removed row hrow hremoved

section

variable (h : Inv lockKey w) (hmem : tx ∈ w.transactions.rows)

include h hmem

theorem Inv.deleteTaskPushConfigs (hstep : deleteTaskPushConfigs w tx id = some w') : Inv lockKey w' := by
  obtain ⟨hready, rfl⟩ := of_guarded hstep
  refine h.putTransaction (fun upsert hupsert => h.locked upsert hupsert tx hmem) (h.apart tx hmem) ?_
  refine (h.transactions tx hmem).deleteTaskPushConfigs hready.1 ?_ hready.2
  intro row
  simp only [mem_filter, decide_eq_true_eq]

theorem Inv.truncateTasks (hstep : truncateTasks w tx = some w') : Inv lockKey w' := by
  unfold PushConfigCleanup.truncateTasks at hstep
  split_ifs at hstep with hkeeps hfree
  · cases hstep
    exact h.deleteTransaction tx.session
  · cases hstep
    have hok := h.transactions tx hmem
    refine h.putTransaction (fun upsert hupsert => h.locked upsert hupsert tx hmem) (fun _ => hfree.1) { hok with
        cleaned := fun row hrow hmark hcleaned hsees =>
          mem_append_right _ (hok.cleaned row hrow hmark hcleaned hsees)
        truncated := ?_
        removed := fun _ _ _ hkeeps' => absurd hkeeps' hkeeps }
    intro _ row hrow hmark
    exact mem_append_left _ (mem_map_of_mem (mem_filter.mpr ⟨hrow, hmark⟩))

theorem Inv.commit (hstep : commit w tx = some w') : Inv lockKey w' := by
  obtain ⟨-, rfl⟩ := of_guarded hstep
  refine { h.deleteTransaction tx.session with found := ?_, transactions := ?_ }
  · intro upsert hupsert hexists
    obtain ⟨hdeleted, htruncated⟩ := h.taskFree hupsert hexists tx hmem
    show ((tx.applyTo w.committed).tasks.find upsert.taskId).isSome
    rw [find_applyTo_of_notMem hdeleted htruncated]
    exact h.found upsert hupsert hexists
  · intro other hother
    exact (h.transactions other (mem_delete.mp hother).1).mono fun row hrow =>
      (mem_deleteAll.mp hrow).1

end

/-- The invariant is kept by every session. -/
theorem inv_step (h : Inv lockKey w) (hstep : (sessions lockKey).step w action = some w') : Inv lockKey w' := by
  cases action with
  | writeTask id =>
    obtain ⟨-, rfl⟩ := of_guarded hstep
    exact { h with found := fun upsert hupsert hexists => isSome_find_put id _ (h.found upsert hupsert hexists) }
  | upsertExternal taskId configId =>
    obtain ⟨hfree, rfl⟩ := of_guarded hstep
    exact h.putConfig hfree nofun
  | deleteConfig taskId configId =>
    obtain ⟨-, rfl⟩ := of_guarded hstep
    exact { h with
      transactions := fun tx htx => (h.transactions tx htx).mono fun row hrow => (mem_delete.mp hrow).1 }
  | lockTaskForPushConfig session isolation taskId configId => exact h.lockTaskForPushConfig hstep
  | findTask session =>
    obtain ⟨upsert, hfind, hstep⟩ := bind_eq_some_iff.mp hstep
    exact h.findTask (find_eq_some_iff.mp hfind).1 hstep
  | commitUpsert session =>
    obtain ⟨upsert, hfind, hstep⟩ := bind_eq_some_iff.mp hstep
    exact h.commitUpsert (find_eq_some_iff.mp hfind).1 hstep
  | abortUpsert session =>
    cases hstep
    exact h.deleteUpsert session
  | begin session isolation =>
    obtain ⟨-, rfl⟩ := of_guarded hstep
    refine h.putTransaction nofun nofun ?_
    exact ⟨nofun, nofun, nofun, nofun⟩
  | statement session =>
    obtain ⟨tx, hfind, rfl⟩ := map_eq_some_iff.mp hstep
    exact h.statement (find_eq_some_iff.mp hfind).1
  | deleteTask session id =>
    obtain ⟨tx, hfind, hstep⟩ := bind_eq_some_iff.mp hstep
    exact h.deleteTask (find_eq_some_iff.mp hfind).1 hstep
  | deleteTaskPushConfigs session id =>
    obtain ⟨tx, hfind, hstep⟩ := bind_eq_some_iff.mp hstep
    exact h.deleteTaskPushConfigs (find_eq_some_iff.mp hfind).1 hstep
  | truncateTasks session =>
    obtain ⟨tx, hfind, hstep⟩ := bind_eq_some_iff.mp hstep
    exact h.truncateTasks (find_eq_some_iff.mp hfind).1 hstep
  | commit session =>
    obtain ⟨tx, hfind, hstep⟩ := bind_eq_some_iff.mp hstep
    exact h.commit (find_eq_some_iff.mp hfind).1 hstep
  | abort session =>
    cases hstep
    exact h.deleteTransaction session

/-! ## Orphans -/

/-- A deleting transaction that commits sees every local row of its tasks. -/
def CleanupSees (w : World) : Action → Prop
  | .commit session => ∀ tx, w.transactions.find session = some tx →
      ∀ row ∈ w.committed.pushConfigs.rows, row.localPostgresTask = true → row.taskId ∈ tx.deleted → tx.Sees row
  | _ => True

/-- A commit leaves no orphan exactly if the transaction sees all rows of its tasks. -/
theorem noOrphans_commit_iff (h : Inv lockKey w) (hnone : NoOrphans w.committed)
    (hmem : tx ∈ w.transactions.rows) (hready : ∀ id ∈ tx.deleted, id ∈ tx.cleaned) :
    NoOrphans (tx.applyTo w.committed) ↔
      ∀ row ∈ w.committed.pushConfigs.rows, row.localPostgresTask → row.taskId ∈ tx.deleted → tx.Sees row := by
  have hok := h.transactions tx hmem
  constructor
  · intro hafter row hrow hmark hdeleted
    by_contra hunseen
    have hkept : row.key ∉ tx.removed := fun hremoved => hunseen (hok.removed row hrow hremoved)
    have hfound := hafter row (mem_deleteAll.mpr ⟨hrow, hkept⟩) hmark
    rw [find_applyTo_of_mem hdeleted] at hfound
    exact Bool.false_ne_true hfound
  · intro hsees row hrow hmark
    obtain ⟨hold, hkept⟩ := mem_deleteAll.mp hrow
    have hdeleted : row.taskId ∉ tx.deleted := fun hdeleted =>
      hkept (hok.cleaned row hold hmark (hready _ hdeleted) (hsees row hold hmark hdeleted))
    have htruncated : tx.truncated = false := by
      apply Bool.of_not_eq_true
      intro htruncated
      exact hkept (hok.truncated htruncated row hold hmark)
    rw [find_applyTo_of_notMem hdeleted htruncated]
    exact hnone row hold hmark

theorem committed_lockTaskForPushConfig
    (hstep : lockTaskForPushConfig lockKey w session isolation taskId configId = some w') :
    w'.committed = w.committed := by
  unfold lockTaskForPushConfig at hstep
  split_ifs at hstep
  · cases hstep
    rfl
  · cases hstep
    rfl

theorem committed_findTask (hstep : findTask w upsert = some w') : w'.committed = w.committed := by
  unfold findTask at hstep
  split_ifs at hstep
  · cases hstep
    rfl
  · cases hstep
    rfl

theorem committed_truncateTasks (hstep : truncateTasks w tx = some w') : w'.committed = w.committed := by
  unfold truncateTasks at hstep
  split_ifs at hstep
  · cases hstep
    rfl
  · cases hstep
    rfl

theorem NoOrphans.putConfig (h : NoOrphans w.committed)
    (hlocal : localPostgresTask → (w.committed.tasks.find taskId).isSome) :
    NoOrphans (w.putConfig taskId configId localPostgresTask).committed :=
  forall_mem_put hlocal h

/-- Every other step keeps the local rows with their tasks. -/
theorem noOrphans_step_iff (h : Inv lockKey w) (hnone : NoOrphans w.committed)
    (hstep : (sessions lockKey).step w action = some w') : NoOrphans w'.committed ↔ CleanupSees w action := by
  cases action with
  | writeTask id =>
    obtain ⟨-, rfl⟩ := of_guarded hstep
    refine iff_of_true ?_ trivial
    intro row hrow hmark
    exact isSome_find_put id _ (hnone row hrow hmark)
  | upsertExternal taskId configId =>
    obtain ⟨-, rfl⟩ := of_guarded hstep
    exact iff_of_true (hnone.putConfig nofun) trivial
  | deleteConfig taskId configId =>
    obtain ⟨-, rfl⟩ := of_guarded hstep
    refine iff_of_true ?_ trivial
    intro row hrow hmark
    exact hnone row (mem_delete.mp hrow).1 hmark
  | lockTaskForPushConfig session isolation taskId configId =>
    rw [committed_lockTaskForPushConfig hstep]
    exact iff_of_true hnone trivial
  | findTask session =>
    obtain ⟨upsert, -, hstep⟩ := bind_eq_some_iff.mp hstep
    rw [committed_findTask hstep]
    exact iff_of_true hnone trivial
  | commitUpsert session =>
    obtain ⟨upsert, hfind, hstep⟩ := bind_eq_some_iff.mp hstep
    obtain ⟨hready, rfl⟩ := of_guarded hstep
    refine iff_of_true (hnone.putConfig fun _ => ?_) trivial
    exact h.found upsert (find_eq_some_iff.mp hfind).1 hready.1
  | deleteTask | deleteTaskPushConfigs =>
    obtain ⟨tx, -, hstep⟩ := bind_eq_some_iff.mp hstep
    obtain ⟨-, rfl⟩ := of_guarded hstep
    exact iff_of_true hnone trivial
  | truncateTasks session =>
    obtain ⟨tx, -, hstep⟩ := bind_eq_some_iff.mp hstep
    rw [committed_truncateTasks hstep]
    exact iff_of_true hnone trivial
  | commit session =>
    obtain ⟨tx, hfind, hstep⟩ := bind_eq_some_iff.mp hstep
    obtain ⟨hready, rfl⟩ := of_guarded hstep
    have hiff := noOrphans_commit_iff h hnone (find_eq_some_iff.mp hfind).1 hready
    constructor
    · intro hafter tx' hfind'
      cases hfind.symm.trans hfind'
      exact hiff.mp hafter
    · intro hsees
      exact hiff.mpr (hsees tx hfind)
  | begin session isolation =>
    obtain ⟨-, rfl⟩ := of_guarded hstep
    exact iff_of_true hnone trivial
  | statement session =>
    obtain ⟨tx, -, rfl⟩ := map_eq_some_iff.mp hstep
    exact iff_of_true hnone trivial
  | abortUpsert | abort =>
    cases hstep
    exact iff_of_true hnone trivial

/-- No committed state of a run has an orphan, exactly if every deleting transaction that commits in the run sees
the local rows of the tasks that it deletes. -/
theorem noOrphans_iff_cleanups_see {actions : List Action} {w : World}
    (h : (sessions lockKey).exec (sessions lockKey).start actions = some w) :
    (∀ front, front <+: actions → ∀ reached,
      (sessions lockKey).exec (sessions lockKey).start front = some reached → NoOrphans reached.committed) ↔
    (sessions lockKey).Meets CleanupSees (sessions lockKey).start actions :=
  Machine.forall_prefix_iff_meets (fun _ _ _ => inv_step) (fun _ _ _ => noOrphans_step_iff) inv_start
    noOrphans_start h

/-- A transaction that commits has no snapshot of its own. -/
def commitsWithoutSnapshot (w : World) : Action → Bool
  | .commit session => (w.transactions.find session).all fun tx => !tx.isolation.keepsSnapshot
  | _ => true

theorem cleanupSees_of_commitsWithoutSnapshot (h : commitsWithoutSnapshot w action) : CleanupSees w action := by
  cases action with
  | commit session =>
    intro tx hfind row _ _ _ hkeeps
    rw [commitsWithoutSnapshot, hfind, all_some, hkeeps] at h
    cases h
  | _ => trivial

/-- A READ COMMITTED deletion that begins before an upsert commits. -/
def readCommittedDelete : List Action :=
  [.writeTask [116], .begin 0 .readCommitted, .statement 0, .lockTaskForPushConfig 1 .readCommitted [116] [99],
    .findTask 1, .commitUpsert 1, .deleteTask 0 [116], .deleteTaskPushConfigs 0 [116], .commit 0]

theorem readCommitted_delete_leaves_no_orphan :
    ∃ w, (sessions fun _ => 0).exec (sessions fun _ => 0).start readCommittedDelete = some w ∧
      ∀ front, front <+: readCommittedDelete → ∀ reached,
        (sessions fun _ => 0).exec (sessions fun _ => 0).start front = some reached →
        NoOrphans reached.committed := by
  have hrun : ((sessions fun _ => 0).execIf commitsWithoutSnapshot (sessions fun _ => 0).start
      readCommittedDelete).isSome = true := by decide +kernel
  obtain ⟨w, hw⟩ := Option.isSome_iff_exists.mp hrun
  obtain ⟨hexec, hmeets⟩ := Machine.execIf_spec hw
  refine ⟨w, hexec, (noOrphans_iff_cleanups_see hexec).mpr ?_⟩
  exact hmeets.mono fun _ _ => cleanupSees_of_commitsWithoutSnapshot

/-- A REPEATABLE READ transaction takes its snapshot, an upsert commits, and the transaction deletes the task: the
cleanup does not see the new row, and the row stays. -/
theorem repeatableRead_delete_leaves_orphan :
    ∃ w, (sessions fun _ => 0).Reachable w ∧ ∃ row ∈ w.committed.pushConfigs.rows, row.localPostgresTask = true ∧
        w.committed.tasks.find row.taskId = none := by
  obtain ⟨w, hreachable, horphan⟩ := Machine.reachable_of_exec (M := sessions fun _ => 0)
    (p := fun w => decide (∃ row ∈ w.committed.pushConfigs.rows, row.localPostgresTask = true ∧
      w.committed.tasks.find row.taskId = none))
    [.writeTask [116], .begin 0 .repeatableRead, .statement 0, .lockTaskForPushConfig 1 .readCommitted [116] [99],
      .findTask 1, .commitUpsert 1, .deleteTask 0 [116], .deleteTaskPushConfigs 0 [116], .commit 0]
    (by decide +kernel)
  exact ⟨w, hreachable, of_decide_eq_true horphan⟩

end A2A.Server.Stores.PushConfigCleanup
