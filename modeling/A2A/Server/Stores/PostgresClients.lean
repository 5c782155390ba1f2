/-
# Concurrent users of one task table.
-/
import A2A.Foundation.Machine
import A2A.Server.Stores.PostgresStoreEffects

namespace A2A.Server.Stores.PostgresClients

open A2A.Foundation A2A.Core A2A.Server.Tasks PostgresTaskStore Function List

variable {P : Type}

/-! ## The machine -/

/-- Where an `AppendTaskHistory` call stands; `attempts` are those that are left. -/
inductive Phase where
  | reading (attempts : Nat)
  | writing (attempts : Nat) (snapshot : TaskHistorySnapshot)
  | returned (result : Result Task) (deduplicated : Bool)

/-- One `AppendTaskHistory` call. -/
structure AppendCall where
  taskId : Bytes
  message : Message
  policy : HistoryAppendPolicy
  phase : Phase

/-- What a client holds of its last `GetSnapshot`: the id, the answer, and the row, which it does not see. -/
structure Held (P : Type) where
  id : Bytes
  snapshot : TaskSnapshot
  row : TaskRow P

/-- One incarnation of a task: the number of its row, and its present content. -/
structure Incarnation where
  number : Nat
  task : Task

/-- What the log records; a key is the C string of an id. -/
inductive Event where
  | read (call : Nat) (key : Bytes) (seen : Incarnation)
  | appended (call : Nat) (key : Bytes) (message : Message) (result : Incarnation)
  | stored (key : Bytes) (written : Incarnation)
  | deleted (key : Bytes)

/-- The database, the calls in progress, what the clients hold, and the log. -/
structure World (P : Type) where
  db : Database P := {}
  calls : Nat → Option AppendCall := fun _ => none
  held : Nat → Option (Held P) := fun _ => none
  log : List Event := []

/-- One statement, or one transaction of `Cancel`. -/
inductive Action where
  | beginAppend (call : Nat) (taskId : Bytes) (message : Message) (policy : HistoryAppendPolicy)
  | readHistory (call : Nat) (serialize : Serializer)
  | writeHistory (call : Nat) (now : Int)
  | getSnapshot (client : Nat) (id : Bytes)
  | createOrUpdate (task : Task) (now : Int)
  | createOrUpdateIfRevision (task : Task) (expectedRevision : UInt64) (now : Int)
  | cancel (id : Bytes) (now : Int)
  | deleteRow (key : Bytes)

namespace World

def store (w : World P) : PostgresTaskStore P := { database := w.db }

def setPhase (w : World P) (call : Nat) (c : AppendCall) (phase : Phase) : World P :=
  { w with calls := Function.update w.calls call (some { c with phase }) }

/-- The incarnation that the row of the key holds after a write of the task. -/
def incarnationOf (db : Database P) (task : Task) : Incarnation :=
  ⟨((db.tasks.find (cString task.id)).map fun row => row.createdSequence.val).getD 0, task⟩

/-- A write has left the database and reported which task it wrote, if any. -/
def wrote (w : World P) (db : Database P) (task : Option Task) : World P :=
  { w with
    db
    log := w.log ++ (task.map fun task => .stored (cString task.id) (incarnationOf db task)).toList }

end World

/-- After a conflict: the next attempt, or the end of the loop. -/
def afterConflict : Nat → Phase
  | 0 => .returned (.error (.internal kTaskHistoryRevisionRetryLimitExceededMessage)) false
  | attempts + 1 => .reading (attempts + 1)

/-- The first statement of an attempt, and what the loop does with its answer. -/
def readHistory (pg : Postgres) (codec : TaskCodec P) (w : World P) (call : Nat) (c : AppendCall)
    (attempts : Nat) (serialize : Serializer) : World P :=
  match w.store.selectTaskHistorySnapshot pg codec c.taskId with
  | .error e => w.setPhase call c (.returned (.error e) false)
  | .ok snapshot =>
    let seen := Event.read call (cString c.taskId) ⟨snapshot.createdSequence.toNat, snapshot.task⟩
    match findHistoryDedupeReason serialize snapshot.task.history c.message c.policy with
    | some _ => { w.setPhase call c (.returned (.ok snapshot.task) true) with log := w.log ++ [seen] }
    | none => { w.setPhase call c (.writing attempts snapshot) with log := w.log ++ [seen] }

/-- The second statement of an attempt, and what the loop does with its answer. -/
def writeHistory (pg : Postgres) (codec : TaskCodec P) (w : World P) (call : Nat) (c : AppendCall)
    (attempts : Nat) (snapshot : TaskHistorySnapshot) (now : Int) : World P :=
  let appended := snapshot.task.addHistory c.message
  match w.store.updateTaskHistory pg codec appended snapshot.revision snapshot.createdSequence now with
  | (.error e, store') => { w.setPhase call c (.returned (.error e) false) with db := store'.database }
  | (.ok true, store') =>
    { w.setPhase call c (.returned (.ok appended) false) with
      db := store'.database
      log := w.log ++ [.appended call (cString c.taskId) c.message
        ⟨snapshot.createdSequence.toNat, appended⟩] }
  | (.ok false, store') => { w.setPhase call c (afterConflict attempts) with db := store'.database }

def step (pg : Postgres) (codec : TaskCodec P) (w : World P) : Action → Option (World P)
  | .beginAppend call taskId message policy =>
    match w.calls call with
    | some _ => none
    | none =>
      let phase :=
        if taskId.isEmpty then
          .returned (.error (.validation kTaskIdRequiredMessage)) false
        else .reading kTaskHistoryRevisionRetryLimit
      some { w with calls := Function.update w.calls call (some { taskId, message, policy, phase }) }
  | .readHistory call serialize =>
    match w.calls call with
    | none => none
    | some c =>
      match c.phase with
      | .reading (attempts + 1) => some (readHistory pg codec w call c attempts serialize)
      | _ => none
  | .writeHistory call now =>
    match w.calls call with
    | none => none
    | some c =>
      match c.phase with
      | .writing attempts snapshot => some (writeHistory pg codec w call c attempts snapshot now)
      | _ => none
  | .getSnapshot client id =>
    match w.store.getSnapshot pg codec id, w.db.tasks.find (cString id) with
    | .ok snapshot, some row => some { w with held := Function.update w.held client (some ⟨id, snapshot, row⟩) }
    | _, _ => some w
  | .createOrUpdate task now =>
    let (result, store') := w.store.createOrUpdate pg codec task now
    some (w.wrote store'.database (result.toOption.map fun _ => task))
  | .createOrUpdateIfRevision task expectedRevision now =>
    let (result, store') := w.store.createOrUpdateIfRevision pg codec task expectedRevision now
    some (w.wrote store'.database (if result = .ok .updated then some task else none))
  | .cancel id now =>
    let (result, store') := w.store.cancel pg codec id now
    some (w.wrote store'.database result.toOption)
  | .deleteRow key =>
    some { w with
      db := { w.db with tasks := w.db.tasks.delete key }
      log := w.log ++ [.deleted key] }

/-- Any number of calls and clients over an empty table. -/
def clients (pg : Postgres) (codec : TaskCodec P) : Machine (World P) Action where
  start := {}
  step := step pg codec

variable {pg : Postgres} {codec : TaskCodec P} {w w' : World P} {call : Nat} {db db' : Database P}

theorem step_readHistory_iff {serialize : Serializer} :
    step pg codec w (.readHistory call serialize) = some w' ↔
      ∃ c attempts, w.calls call = some c ∧ c.phase = .reading (attempts + 1) ∧
        readHistory pg codec w call c attempts serialize = w' := by
  simp only [step]
  constructor
  · intro hstep
    split at hstep
    · cases hstep
    · next c hcall =>
        split at hstep
        · next attempts hphase => exact ⟨c, attempts, hcall, hphase, Option.some.inj hstep⟩
        · cases hstep
  · rintro ⟨c, attempts, hcall, hphase, rfl⟩
    simp only [hcall, hphase]

theorem step_writeHistory_iff {now : Int} :
    step pg codec w (.writeHistory call now) = some w' ↔
      ∃ c attempts snapshot, w.calls call = some c ∧ c.phase = .writing attempts snapshot ∧
        writeHistory pg codec w call c attempts snapshot now = w' := by
  simp only [step]
  constructor
  · intro hstep
    split at hstep
    · cases hstep
    · next c hcall =>
        split at hstep
        · next attempts snapshot hphase =>
            exact ⟨c, attempts, snapshot, hcall, hphase, Option.some.inj hstep⟩
        · cases hstep
  · rintro ⟨c, attempts, snapshot, hcall, hphase, rfl⟩
    simp only [hcall, hphase]

/-! ## Rows that were seen -/

/-- No row has a number that is still to be drawn. -/
def Numbered (db : Database P) : Prop :=
  ∀ key row, db.tasks.find key = some row → row.createdSequence.val < db.taskCreatedSequence

/-- The row was in the table: a row with its number has been written since, or is the row itself. -/
structure Observed (db : Database P) (seen : TaskRow P) : Prop where
  numbered : seen.createdSequence.val < db.taskCreatedSequence
  current : ∀ row, db.tasks.find seen.id = some row → row.createdSequence = seen.createdSequence →
    seen.revision.val ≤ row.revision.val ∧ (row.revision = seen.revision → row = seen)

theorem observed_of_find (h : Numbered db) {key : Bytes} {row : TaskRow P}
    (hfind : db.tasks.find key = some row) : Observed db row where
  numbered := h key row hfind
  current := by
    intro row' hfind' _
    rw [Table.find_key hfind, hfind] at hfind'
    cases hfind'
    exact ⟨le_refl _, fun _ => rfl⟩

/-- What the steps of the machine do to the table. -/
inductive TableStep (db : Database P) : Database P → Prop where
  | untouched {db' : Database P} (h : db.Untouched db') : TableStep db db'
  | wrote {db' : Database P} {row : TaskRow P} (h : db.Wrote db' row) : TableStep db db'
  | deleted (key : Bytes) : TableStep db { db with tasks := db.tasks.delete key }

/-- Numbers are drawn before they are used. -/
theorem TableStep.numbered (hstep : TableStep db db') (h : Numbered db) : Numbered db' := by
  intro key row hfind
  cases hstep with
  | untouched hsame =>
    rw [hsame.tasks] at hfind
    exact lt_of_lt_of_le (h key row hfind) hsame.sequence_le
  | wrote hwrote =>
    rename_i new
    rw [hwrote.tasks] at hfind
    by_cases hkey : key = new.id
    · rw [hkey, Table.find_put_self] at hfind
      obtain rfl := Option.some.inj hfind
      have hfollows := hwrote.follows
      cases hold : db.tasks.find new.id with
      | none =>
        rw [hold] at hfollows
        cases hfollows with
        | created _ hsequence =>
          rw [hsequence]
          exact hwrote.numbered hold
      | some old =>
        rw [hold] at hfollows
        cases hfollows with
        | updated _ hsequence =>
          rw [hsequence]
          exact lt_of_lt_of_le (h _ old hold) hwrote.sequence_le
    · rw [Table.find_put_of_ne hkey] at hfind
      exact lt_of_lt_of_le (h key row hfind) hwrote.sequence_le
  | deleted gone =>
    by_cases hkey : key = gone
    · rw [hkey, Table.find_delete_self] at hfind
      cases hfind
    · rw [Table.find_delete_of_ne hkey] at hfind
      exact h key row hfind

/-- A new row with the key of a seen one has a higher revision or another number. -/
theorem TableStep.observed (hstep : TableStep db db') {seen : TaskRow P} (h : Observed db seen) :
    Observed db' seen := by
  cases hstep with
  | untouched hsame =>
    refine ⟨lt_of_lt_of_le h.numbered hsame.sequence_le, ?_⟩
    intro row hfind
    rw [hsame.tasks] at hfind
    exact h.current row hfind
  | wrote hwrote =>
    rename_i new
    refine ⟨lt_of_lt_of_le h.numbered hwrote.sequence_le, ?_⟩
    intro row hfind hsequence
    rw [hwrote.tasks] at hfind
    by_cases hkey : seen.id = new.id
    · rw [hkey, Table.find_put_self] at hfind
      cases hfind
      have hfollows := hwrote.follows
      rw [← hkey] at hfollows
      cases hold : db.tasks.find seen.id with
      | none =>
        rw [hold] at hfollows
        cases hfollows with
        | created _ hnew =>
          have hnumbered := h.numbered
          rw [← hsequence, hnew] at hnumbered
          exact absurd hnumbered (lt_irrefl _)
      | some old =>
        rw [hold] at hfollows
        cases hfollows with
        | updated hrevision hsame =>
          obtain ⟨hle, -⟩ := h.current old hold (hsame.symm.trans hsequence)
          refine ⟨by omega, ?_⟩
          intro hequal
          rw [hequal] at hrevision
          omega
    · rw [Table.find_put_of_ne hkey] at hfind
      exact h.current row hfind hsequence
  | deleted gone =>
    refine ⟨h.numbered, ?_⟩
    intro row hfind
    by_cases hkey : seen.id = gone
    · rw [hkey, Table.find_delete_self] at hfind
      cases hfind
    · rw [Table.find_delete_of_ne hkey] at hfind
      exact h.current row hfind

/-! ## A call that is left alone -/

variable {codec : TaskCodec P}

/-- Steps of the call alone take the world to one where it has returned the outcome. -/
def RunsTo (pg : Postgres) (codec : TaskCodec P) (call : Nat) (serialize : Serializer) (now : Int) (w : World P)
    (c : AppendCall) (outcome : Result Task × PostgresTaskStore P) : Prop :=
  ∃ ls w' deduplicated, (clients pg codec).exec w ls = some w' ∧
    (∀ l ∈ ls, l = .readHistory call serialize ∨ l = .writeHistory call now) ∧
    w'.db = outcome.2.database ∧
    w'.calls call = some { c with phase := .returned outcome.1 deduplicated }

variable {w : World P} {c : AppendCall} {pg : Postgres}

/-- From its second statement on, an undisturbed call does the rest of the loop body. -/
theorem exec_update (pg : Postgres) (codec : TaskCodec P) (call : Nat) (serialize : Serializer) (now : Int)
    (attempts : Nat) {snapshot : TaskHistorySnapshot} (hcall : w.calls call = some c)
    (hphase : c.phase = .writing attempts snapshot)
    (hrest : ∀ {w : World P} {c : AppendCall}, w.calls call = some c → c.phase = afterConflict attempts →
      RunsTo pg codec call serialize now w c (PostgresTaskStore.appendTaskHistoryLoop pg codec c.taskId c.message c.policy
        serialize now attempts w.store)) :
    RunsTo pg codec call serialize now w c
      (match w.store.updateTaskHistory pg codec (snapshot.task.addHistory c.message) snapshot.revision
          snapshot.createdSequence now with
      | (.error e, store') => (.error e, store')
      | (.ok true, store') => (.ok (snapshot.task.addHistory c.message), store')
      | (.ok false, store') => PostgresTaskStore.appendTaskHistoryLoop pg codec c.taskId c.message c.policy
          serialize now attempts store') := by
  have hwrite : (clients pg codec).step w (.writeHistory call now) =
      some (writeHistory pg codec w call c attempts snapshot now) :=
    step_writeHistory_iff.mpr ⟨c, attempts, snapshot, hcall, hphase, rfl⟩
  have hone : ∀ l ∈ [Action.writeHistory call now], l = .readHistory call serialize ∨ l = .writeHistory call now :=
    fun l hl => .inr (mem_singleton.mp hl)
  unfold writeHistory updateTaskHistory execute at hwrite
  unfold updateTaskHistory execute
  dsimp only at hwrite ⊢
  generalize Database.updateTaskHistory pg (snapshot.task.addHistory c.message).id
    (codec.serialize (snapshot.task.addHistory c.message)) snapshot.revision snapshot.createdSequence now
    w.store.database = updated at hwrite ⊢
  obtain ⟨e | _ | _, db⟩ := updated
  · exact ⟨[_], _, false, Machine.exec_cons.mpr ⟨_, hwrite, rfl⟩, hone, rfl, update_self _ _ _⟩
  · have hcall' : ({ w.setPhase call c (afterConflict attempts) with db } : World P).calls call =
        some { c with phase := afterConflict attempts } := update_self _ _ _
    obtain ⟨ls, w', deduplicated, hexec, hsteps, hdb, hreturned⟩ := hrest hcall' rfl
    refine ⟨_ :: ls, w', deduplicated, Machine.exec_cons.mpr ⟨_, hwrite, hexec⟩, ?_, hdb, hreturned⟩
    exact forall_mem_cons.mpr ⟨.inr rfl, hsteps⟩
  · exact ⟨[_], _, false, Machine.exec_cons.mpr ⟨_, hwrite, rfl⟩, hone, rfl, update_self _ _ _⟩

/-- The steps of a call that nobody disturbs are the loop of `AppendTaskHistory`. -/
theorem exec_loop (call : Nat) (serialize : Serializer) (now : Int) (attempts : Nat)
    (hcall : w.calls call = some c) (hphase : c.phase = afterConflict attempts) :
    RunsTo pg codec call serialize now w c (PostgresTaskStore.appendTaskHistoryLoop pg codec c.taskId
      c.message c.policy serialize now attempts w.store) := by
  induction attempts generalizing w c with
  | zero =>
    refine ⟨[], w, false, rfl, fun _ hl => absurd hl not_mem_nil, rfl, ?_⟩
    rw [hcall]
    congr 1
    exact congrArg (fun phase => { c with phase }) hphase
  | succ attempts ih =>
    have hread : (clients pg codec).step w (.readHistory call serialize) =
        some (readHistory pg codec w call c attempts serialize) :=
      step_readHistory_iff.mpr ⟨c, attempts, hcall, hphase, rfl⟩
    have hone : ∀ l ∈ [Action.readHistory call serialize],
        l = .readHistory call serialize ∨ l = .writeHistory call now :=
      fun l hl => .inl (mem_singleton.mp hl)
    rw [appendTaskHistoryLoop]
    unfold readHistory at hread
    cases hsnapshot : w.store.selectTaskHistorySnapshot pg codec c.taskId with
    | error e =>
      rw [hsnapshot] at hread
      exact ⟨[_], _, false, Machine.exec_cons.mpr ⟨_, hread, rfl⟩, hone, rfl, update_self _ _ _⟩
    | ok snapshot =>
      rw [hsnapshot] at hread
      dsimp only at hread ⊢
      cases hreason : findHistoryDedupeReason serialize snapshot.task.history c.message c.policy with
      | some reason =>
        rw [hreason] at hread
        exact ⟨[_], _, true, Machine.exec_cons.mpr ⟨_, hread, rfl⟩, hone, rfl, update_self _ _ _⟩
      | none =>
        rw [hreason] at hread
        have hcall' : (w.setPhase call c (.writing attempts snapshot)).calls call =
            some { c with phase := .writing attempts snapshot } := update_self _ _ _
        obtain ⟨ls, w', deduplicated, hexec, hsteps, hdb, hreturned⟩ :=
          exec_update pg codec call serialize now attempts (w := { w.setPhase call c (.writing attempts snapshot) with
              log := w.log ++ [.read call (cString c.taskId)
                ⟨snapshot.createdSequence.toNat, snapshot.task⟩] }) hcall' rfl ih
        refine ⟨_ :: ls, w', deduplicated, Machine.exec_cons.mpr ⟨_, hread, hexec⟩, ?_, hdb, hreturned⟩
        exact forall_mem_cons.mpr ⟨.inl rfl, hsteps⟩

/-- `AppendTaskHistory` is what the steps of a call that nobody disturbs do. -/
theorem exec_appendTaskHistory {call : Nat} (hidle : w.calls call = none) (taskId : Bytes)
    (message : Message) (policy : HistoryAppendPolicy) (serialize : Serializer) (now : Int) :
    ∃ w' c, (clients pg codec).step w (.beginAppend call taskId message policy) = some w' ∧
      w'.calls call = some c ∧ w'.db = w.db ∧
      RunsTo pg codec call serialize now w' c
        (w.store.appendTaskHistory pg codec taskId message policy serialize now) := by
  have hbegin : ∀ phase, phase = (if taskId.isEmpty then
        .returned (.error (.validation kTaskIdRequiredMessage)) false
        else .reading kTaskHistoryRevisionRetryLimit) →
      (clients pg codec).step w (.beginAppend call taskId message policy) =
        some { w with calls := update w.calls call (some ⟨taskId, message, policy, phase⟩) } := by
    rintro phase rfl
    simp only [clients, step, hidle]
  refine ⟨_, _, hbegin _ rfl, update_self _ _ _, rfl, ?_⟩
  unfold appendTaskHistory
  split_ifs
  · exact ⟨[], _, false, rfl, fun _ hl => absurd hl not_mem_nil, rfl, update_self _ _ _⟩
  · exact exec_loop call serialize now kTaskHistoryRevisionRetryLimit (update_self _ _ _) rfl

theorem exec_append_to_stored :
    ∃ w, (clients .permissive .identity).step {} (.createOrUpdate { id := [116] } 0) = some w ∧
    ∃ w' c, (clients .permissive .identity).step w (.beginAppend 0 [116] { messageId := [109] } .noDedup) = some w' ∧
      w'.calls 0 = some c ∧ w'.db = w.db ∧ RunsTo .permissive .identity 0 (fun _ _ => []) 1 w' c
        (w.store.appendTaskHistory .permissive .identity [116] { messageId := [109] } .noDedup (fun _ _ => []) 1) :=
  ⟨_, rfl, exec_appendTaskHistory rfl _ _ _ _ _⟩

end A2A.Server.Stores.PostgresClients
