/-
# When different task ids are different rows.
-/
import A2A.Server.Stores.PostgresStoreEffects

namespace A2A.Server.Stores

open A2A.Foundation A2A.Core A2A.Server.Tasks

def TaskStoreReply.succeeded : TaskStoreReply → Bool
  | .createOrUpdate result => result.isOk
  | .getSnapshot result => result.isOk
  | .createOrUpdateIfRevision result => result.isOk
  | .get result => result.isOk
  | .list result => result.isOk
  | .cancel result => result.isOk
  | .appendTaskHistory result => result.isOk

/-- The call names no id outside the set. -/
def TaskStoreCall.AddressedIn (ids : Set Bytes) (call : TaskStoreCall) : Prop :=
  ∀ id, call.taskId = some id → id ∈ ids

namespace PostgresTaskStore

variable {P : Type} (pg : Postgres) (codec : TaskCodec P)

/-- No two ids that are text agree in the bytes before their first NUL byte. -/
def Separated (ids : Set Bytes) : Prop :=
  ∀ a ∈ ids, ∀ b ∈ ids, a ≠ [] → b ≠ [] → pg.validText (cString a) = true → cString a = cString b → a = b

/-- A successful call for one of these ids does not change what `Get` answers for another, and `Get` answers with a task
of its id. -/
def Isolated (ids : Set Bytes) : Prop :=
  ∀ calls : List (TaskStoreCall × Int), (∀ timed ∈ calls, timed.1.AddressedIn ids) →
    let store := (run pg codec {} calls).2
    (∀ a ∈ ids, ∀ b ∈ ids, a ≠ [] → b ≠ [] → a ≠ b → ∀ call now, call.taskId = some a →
      (store.perform pg codec call now).1.succeeded = true →
      (store.perform pg codec call now).2.get pg codec b = store.get pg codec b) ∧
    ∀ a ∈ ids, a ≠ [] → ∀ task, store.get pg codec a = .ok task → task.id = a

/-! ## Every row is the row of a task with one of the ids -/

/-- The row holds a task with one of the ids, whose C string is the row's key. -/
def Holds (ids : Set Bytes) (row : TaskRow P) : Prop :=
  pg.validText row.id = true ∧ ∃ task : Task, task.id ∈ ids ∧ task.id ≠ [] ∧ row.id = cString task.id ∧
    row.taskProto = codec.serialize task

/-- Every row of the store does. -/
def HoldsIds (ids : Set Bytes) (store : PostgresTaskStore P) : Prop :=
  ∀ key row, store.database.tasks.find key = some row → Holds pg codec ids row

variable {pg codec} {ids : Set Bytes} {store : PostgresTaskStore P}

variable {id a : Bytes} {call : TaskStoreCall} {task : Task}

theorem find_empty (key : Bytes) : ({} : PostgresTaskStore P).database.tasks.find key = none := rfl

theorem HoldsIds.read (h : HoldsIds pg codec ids store) {row : TaskRow P} {read : Task}
    (hfind : store.database.tasks.find (cString id) = some row) (hparse : codec.parse row.taskProto = some read) :
    read.id ∈ ids ∧ read.id ≠ [] ∧ cString read.id = cString id ∧ pg.validText (cString id) := by
  obtain ⟨hvalid, task, hmem, hne, hkey, hpayload⟩ := h _ _ hfind
  have hrow : row.id = cString id := Table.find_key hfind
  rw [hpayload] at hparse
  obtain rfl := codec.exact task read hparse
  rw [hrow] at hvalid hkey
  exact ⟨hmem, hne, hkey.symm, hvalid⟩

/-- The task that a call writes has one of the ids, and goes to the row of the id that the call names. -/
theorem HoldsIds.writes (h : HoldsIds pg codec ids store) (hid : call.taskId = some id) (hmem : id ∈ ids)
    (hwrites : Writes codec store.database call task) :
    task.id ∈ ids ∧ task.id ≠ [] ∧ cString task.id = cString id := by
  cases hwrites with
  | createOrUpdate hne | createOrUpdateIfRevision hne =>
    cases hid
    exact ⟨hmem, hne, rfl⟩
  | cancel stored parsed | appendTaskHistory stored parsed =>
    cases hid
    obtain ⟨hread, hne, hkey, -⟩ := h.read stored parsed
    exact ⟨hread, hne, hkey⟩

theorem taskId_of_writes {db : Database P} (hwrites : Writes codec db call task) : ∃ id, call.taskId = some id := by
  cases hwrites <;> exact ⟨_, rfl⟩

theorem holdsIds_perform (h : HoldsIds pg codec ids store) (now : Int) (hcall : call.AddressedIn ids) :
    HoldsIds pg codec ids (store.perform pg codec call now).2 := by
  generalize hstore : (store.perform pg codec call now).2 = store'
  obtain ⟨written, heffect⟩ := effect_perform pg codec store call now
  rw [hstore] at heffect
  intro key row hfind
  cases heffect with
  | silent untouched =>
    rw [untouched.tasks] at hfind
    exact h key row hfind
  | wrote writes write hkey payload valid =>
    rename_i task new
    rw [write.tasks] at hfind
    by_cases hsame : key = new.id
    · rw [hsame, Table.find_put_self] at hfind
      cases hfind
      obtain ⟨id, hid⟩ := taskId_of_writes writes
      obtain ⟨hmem, hne, -⟩ := h.writes hid (hcall id hid) writes
      exact ⟨valid, task, hmem, hne, hkey, payload⟩
    · rw [Table.find_put_of_ne hsame] at hfind
      exact h key row hfind

theorem holdsIds_run (pg : Postgres) (codec : TaskCodec P) (calls : List (TaskStoreCall × Int))
    (hcalls : ∀ timed ∈ calls, timed.1.AddressedIn ids) : HoldsIds pg codec ids (run pg codec {} calls).2 := by
  refine run_invariant (I := HoldsIds pg codec ids) ?_ ?_ calls hcalls
  · intro store call now h hcall
    exact holdsIds_perform h now hcall
  · intro key row hfind
    rw [find_empty] at hfind
    cases hfind

/-! ## Separated ids -/

theorem find_perform_of_ne (h : HoldsIds pg codec ids store) (now : Int) {b : Bytes} (hcall : call.taskId = some a)
    (ha : a ∈ ids) (hne : pg.validText (cString a) → cString b ≠ cString a) :
    (store.perform pg codec call now).2.database.tasks.find (cString b) = store.database.tasks.find (cString b) := by
  generalize hstore : (store.perform pg codec call now).2 = store'
  obtain ⟨written, heffect⟩ := effect_perform pg codec store call now
  rw [hstore] at heffect
  cases heffect with
  | silent untouched => rw [untouched.tasks]
  | wrote writes write hkey _ valid =>
    obtain ⟨-, -, hrow⟩ := h.writes hcall ha writes
    rw [hkey, hrow] at valid
    rw [write.tasks]
    apply Table.find_put_of_ne
    rw [hkey, hrow]
    exact hne valid

theorem parseTaskRow_ne_notFound (payload : P) :
    parseTaskRow codec payload ≠ .error (ProtocolErrors.taskNotFound kTaskNotFoundMessage) := by
  unfold parseTaskRow
  cases codec.parse payload with
  | some task => nofun
  | none =>
    intro h
    have hcode : ErrorCode.serialization = ErrorCode.remoteProtocol :=
      congrArg Error.code (Except.error.inj h)
    cases hcode

/-- The first write of a task with the id succeeds on an empty store. -/
theorem createOrUpdate_empty (codec : TaskCodec P) (ha : a ≠ []) (hvalid : pg.validText (cString a)) :
    ∃ store' : PostgresTaskStore P, createOrUpdate pg codec {} { id := a } 0 = (.ok (), store') ∧
      ∃ row, store'.database.tasks.find (cString a) = some row := by
  have ha' : ¬ a.isEmpty := by simpa using ha
  have haccepted : (taskParameters codec { id := a }).accepted pg :=
    Bool.and_eq_true_iff.mpr ⟨hvalid, pg.validText_nil⟩
  let row := (taskParameters codec { id := a }).newRow ⟨1, by decide⟩ 0
  have hupsert : Database.upsertTask pg (taskParameters codec { id := a }) 0 {} =
      (.ok (), { tasks := Table.empty.put row, taskCreatedSequence := 2 }) := by
    rw [Database.upsertTask, Database.insertTask, if_neg (not_not.mpr haccepted)]
    rfl
  refine ⟨{ database := { tasks := Table.empty.put row, taskCreatedSequence := 2 } }, ?_, row, ?_⟩
  · rw [createOrUpdate, if_neg ha', execute, hupsert]
    rfl
  · exact Table.find_put_self row

/-- Ids get in each other's way exactly if two of them are one C string. -/
theorem isolated_iff_separated {P : Type} (pg : Postgres) (codec : TaskCodec P) (ids : Set Bytes) :
    Isolated pg codec ids ↔ Separated pg ids := by
  constructor
  · intro hisolated a ha b hb hane hbne hvalid hsame
    by_contra hne
    obtain ⟨store', hcreate, row, hrow⟩ := createOrUpdate_empty codec hane hvalid
    -- The create changes what `Get` answers for the other id from "not found" to the new row's task.
    have hget := (hisolated [] (fun _ h => nomatch h)).1 a ha b hb hane hbne hne (.createOrUpdate { id := a }) 0 rfl
    simp only [run, perform, hcreate] at hget
    have hbne' : ¬ b.isEmpty = true := by simpa using hbne
    have hbefore : get pg codec {} b = .error (ProtocolErrors.taskNotFound kTaskNotFoundMessage) := by
      rw [get, if_neg hbne', selectRow_eq, ← hsame, if_pos hvalid, find_empty]
    have hafter : get pg codec store' b = parseTaskRow codec row.taskProto := by
      rw [get, if_neg hbne', selectRow_eq, ← hsame, if_pos hvalid, hrow]
    exact parseTaskRow_ne_notFound row.taskProto (hafter.symm.trans ((hget rfl).trans hbefore))
  · intro hseparated calls hcalls
    have hholds := holdsIds_run pg codec calls hcalls
    refine ⟨?_, ?_⟩
    · intro a ha b hb hane hbne hne call now hcall _
      apply get_congr
      apply find_perform_of_ne hholds now hcall ha
      intro hvalid hsame
      exact hne (hseparated a ha b hb hane hbne hvalid hsame.symm)
    · intro a ha hane task hget
      have hane' : ¬ a.isEmpty = true := by simpa using hane
      rw [get, if_neg hane'] at hget
      obtain ⟨-, row, hfind, hparse⟩ := selectRow_eq_ok hget
      obtain ⟨hmem, hne, hkey, hvalid⟩ := hholds.read hfind (parseTaskRow_eq_ok.mp hparse)
      exact (hseparated a ha task.id hmem hane hne hvalid hkey.symm).symm

/-- A task with the id `x NUL y` is written over the task with the id `x`: the write succeeds, and `Get` of the
one id then answers with a task of the other. -/
theorem nul_id_overwrites_other_task :
    let stored := (createOrUpdate .permissive .identity {} { id := [120] } 0).2
    let written := stored.perform .permissive .identity (.createOrUpdate { id := [120, 0, 121] }) 1
    (stored.get .permissive .identity [120]).map Task.id = .ok [120] ∧ written.1.succeeded = true ∧
      (written.2.get .permissive .identity [120]).map Task.id = .ok [120, 0, 121] ∧
      (written.2.get .permissive .identity [120, 0, 121]).map Task.id = .ok [120, 0, 121] := by
  decide +kernel

end PostgresTaskStore

end A2A.Server.Stores
