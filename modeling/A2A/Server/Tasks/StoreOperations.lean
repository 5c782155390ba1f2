/-
# What each store operation does, read on the map of entries.
-/
import A2A.Foundation.VersionedMap
import A2A.Server.Tasks.StoreConsistency

namespace A2A.Server.Tasks.InMemoryTaskStore

open A2A.Foundation A2A.Core List Option

/-! ## One specification per operation -/

variable {store store' : InMemoryTaskStore} {task : Task} {id : Bytes} {c : StoreCall} {e : Entry}

/-- `CreateOrUpdate` writes the next entry of a task that is new, or whose time can advance. -/
theorem createOrUpdate_written (h : store.Consistent) (hid : task.id ≠ []) (hroom : ¬ store.Exhausted task.id)
    (now : Int64) : ∃ store' index, store.createOrUpdate task now = (.ok (), store') ∧
      RowWritten store store' index (nextEntry (store.entryOf task.id) task now) := by
  have hid' : ¬ task.id.isEmpty := by simpa using hid
  cases hindex : store.taskIndices.lookup task.id with
  | none =>
    rw [createOrUpdate, if_neg hid', hindex, (h.entryOf_eq_none_iff _).mpr hindex]
    exact ⟨_, _, appendTask_eq h hindex now, rowWritten_appended h hindex now⟩
  | some index =>
    obtain ⟨e, hrow, heid⟩ := (h.index_iff_row _ _).mp hindex
    have hentry : store.entryOf task.id = some e := by
      rw [entryOf, hindex, bind_some, hrow]
    obtain ⟨touched, htouch, hput⟩ :=
      touchTask_putTask h hrow (fun hmax => hroom ⟨e, hentry, hmax⟩) task now
    refine ⟨_, index, ?_, hentry ▸ rowWritten_rewritten h hrow heid.symm now⟩
    rw [createOrUpdate, if_neg hid', hindex]
    simp only [htouch, hput]

/-- `CreateOrUpdate` refuses an empty id and an exhausted task, and otherwise writes. -/
theorem createOrUpdate_spec (h : store.WellFormed) (task : Task) (now : Int64) :
    (task.id = [] ∧ store.createOrUpdate task now = (.error (.validation "Task.id is required"), store)) ∨
    (task.id ≠ [] ∧ store.Exhausted task.id ∧ store.createOrUpdate task now =
        (.error (.internal kUpdateTimeExhaustedMessage), store)) ∨
    (task.id ≠ [] ∧ ¬ store.Exhausted task.id ∧ ∃ store',
      store.createOrUpdate task now = (.ok (), store') ∧ store'.WellFormed ∧ Wrote store store' task) := by
  by_cases hid : task.id = []
  · refine .inl ⟨hid, ?_⟩
    simp [createOrUpdate, hid]
  refine .inr ?_
  by_cases hroom : store.Exhausted task.id
  · refine .inl ⟨hid, hroom, ?_⟩
    obtain ⟨e, hentry, hmax⟩ := hroom
    obtain ⟨index, hindex, hrow⟩ := bind_eq_some_iff.mp hentry
    rw [createOrUpdate, if_neg (by simpa using hid), hindex]
    simp only [touchTask_exhausted hrow hmax now]
  · obtain ⟨store', index, hcall, hw⟩ := createOrUpdate_written h.toConsistent hid hroom now
    exact .inr ⟨hid, hroom, store', hcall, hw.wrote h hid hroom⟩

/-- The revision of a task, zero if there is none. -/
def revisionOf (store : InMemoryTaskStore) (id : Bytes) : UInt64 :=
  ((store.entryOf id).map Entry.revision).getD 0

section

variable (h : store.WellFormed)

include h

/-- `CreateOrUpdateIfRevision` is the revision check followed by `CreateOrUpdate`. -/
theorem createOrUpdateIfRevision_eq (hid : task.id ≠ []) (expectedRevision : UInt64) (now : Int64) :
    store.createOrUpdateIfRevision task expectedRevision now =
      if store.revisionOf task.id ≠ expectedRevision then (.ok .conflict, store)
      else
        ((store.createOrUpdate task now).1.map fun _ => .updated, (store.createOrUpdate task now).2) := by
  have hid' : ¬ task.id.isEmpty := by simpa using hid
  rw [createOrUpdateIfRevision, createOrUpdate, if_neg hid', if_neg hid', revisionOf, entryOf]
  cases hindex : store.taskIndices.lookup task.id with
  | none =>
    by_cases hrev : expectedRevision = 0
    · simp only [hrev, ne_eq, not_true_eq_false, if_false, bind_none, map_none, getD_none]
      rcases store.appendTask task now with ⟨_ | _, _⟩ <;> rfl
    · simp [hrev, Ne.symm hrev]
  | some index =>
    obtain ⟨e, hrow, _⟩ := (h.index_iff_row _ _).mp hindex
    simp only [getD_revision_of_row hrow, bind_some, hrow, map_some, getD_some]
    by_cases hrev : e.revision = expectedRevision
    · simp only [hrev, ne_eq, not_true_eq_false, if_false]
      rcases store.touchTask index now with ⟨_ | _, _⟩ <;> rfl
    · simp only [ne_eq, hrev, not_false_eq_true, if_true]

/-- A conditional write conflicts, finds the update time exhausted, or writes. -/
theorem createOrUpdateIfRevision_spec (hid : task.id ≠ []) (expectedRevision : UInt64) (now : Int64) :
    (store.revisionOf task.id ≠ expectedRevision ∧
      store.createOrUpdateIfRevision task expectedRevision now = (.ok .conflict, store)) ∨
    (store.revisionOf task.id = expectedRevision ∧ store.Exhausted task.id ∧
      store.createOrUpdateIfRevision task expectedRevision now =
        (.error (.internal kUpdateTimeExhaustedMessage), store)) ∨
    (store.revisionOf task.id = expectedRevision ∧ ¬ store.Exhausted task.id ∧ ∃ store',
      store.createOrUpdateIfRevision task expectedRevision now = (.ok .updated, store') ∧
        store'.WellFormed ∧ Wrote store store' task) := by
  rw [createOrUpdateIfRevision_eq h hid]
  by_cases hrev : store.revisionOf task.id = expectedRevision
  · rw [if_neg (by simpa using hrev)]
    rcases createOrUpdate_spec h task now with
      ⟨hempty, _⟩ | ⟨_, hmax, hcall⟩ | ⟨_, hmax, store', hcall, hwf, hw⟩
    · exact absurd hempty hid
    · exact .inr (.inl ⟨hrev, hmax, by rw [hcall]; rfl⟩)
    · exact .inr (.inr ⟨hrev, hmax, store', by rw [hcall]; rfl, hwf, hw⟩)
  · exact .inl ⟨hrev, by rw [if_pos hrev]⟩

/-- `Cancel` is `CreateOrUpdate` of the canceled task, if it is not terminal. -/
theorem cancel_eq (hid : id ≠ []) (now : Int64) :
    store.cancel id now =
      match store.entryOf id with
      | none => (.error (ProtocolErrors.taskNotFound "Task not found"), store)
      | some e =>
        if isTerminalTaskState e.task.state then (.error ProtocolErrors.taskNotCancelable, store)
        else
          ((store.createOrUpdate (e.task.setState .canceled) now).1.map fun _ =>
              e.task.setState .canceled,
            (store.createOrUpdate (e.task.setState .canceled) now).2) := by
  have hid' : ¬ id.isEmpty := by simpa using hid
  rw [cancel, if_neg hid', entryOf]
  cases hindex : store.taskIndices.lookup id with
  | none => rfl
  | some index =>
    obtain ⟨e, hrow, rfl⟩ := (h.index_iff_row _ _).mp hindex
    simp only [getD_task_of_row hrow, bind_some, hrow]
    simp only [createOrUpdate, Task.setState_id, if_neg hid', hindex]
    rcases store.touchTask index now with ⟨_ | _, _⟩ <;> rfl

/-- `AppendTaskHistory` is `CreateOrUpdate` of the extended task, unless the history holds the message. -/
theorem appendTaskHistory_eq (hid : id ≠ []) (message : Message)
    (policy : HistoryAppendPolicy) (serialize : Serializer) (now : Int64) :
    store.appendTaskHistory id message policy serialize now =
      match store.entryOf id with
      | none => (.error (ProtocolErrors.taskNotFound "Task not found"), none, store)
      | some e =>
        match findHistoryDedupeReason serialize e.task.history message policy with
        | some reason =>
          (.ok e.task, some ⟨id, message.messageId, policy, reason⟩, { store with
              telemetrySnapshot := updateDedupeSnapshot store.telemetrySnapshot reason })
        | none =>
          ((store.createOrUpdate (e.task.addHistory message) now).1.map fun _ =>
              e.task.addHistory message,
            none, (store.createOrUpdate (e.task.addHistory message) now).2) := by
  have hid' : ¬ id.isEmpty := by simpa using hid
  rw [appendTaskHistory, if_neg hid', entryOf]
  cases hindex : store.taskIndices.lookup id with
  | none => rfl
  | some index =>
    obtain ⟨e, hrow, rfl⟩ := (h.index_iff_row _ _).mp hindex
    simp only [getD_task_of_row hrow, bind_some, hrow]
    cases findHistoryDedupeReason serialize e.task.history message policy with
    | some reason => rfl
    | none =>
      simp only [createOrUpdate, Task.addHistory_id, if_neg hid', hindex]
      rcases store.touchTask index now with ⟨_ | _, _⟩ <;> rfl

theorem getSnapshot_eq (hid : id ≠ []) :
    store.getSnapshot id =
      match store.entryOf id with
      | none => .error (ProtocolErrors.taskNotFound "Task not found")
      | some e => .ok ⟨e.task, e.revision⟩ := by
  have hid' : ¬ id.isEmpty := by simpa using hid
  rw [getSnapshot, if_neg hid', entryOf]
  cases hindex : store.taskIndices.lookup id with
  | none => rfl
  | some index =>
    obtain ⟨e, hrow, _⟩ := (h.index_iff_row _ _).mp hindex
    simp only [getD_task_of_row hrow, getD_revision_of_row hrow, bind_some, hrow]

theorem get_eq (hid : id ≠ []) :
    store.get id =
      match store.entryOf id with
      | none => .error (ProtocolErrors.taskNotFound "Task not found")
      | some e => .ok e.task := by
  have hmap : store.get id = (store.getSnapshot id).map fun snapshot => snapshot.task := by
    unfold get getSnapshot
    split_ifs
    · rfl
    · cases store.taskIndices.lookup id <;> rfl
  rw [hmap, getSnapshot_eq h hid]
  cases store.entryOf id <;> rfl

end

/-! ## Calls and runs -/

/-- Everything but the telemetry counters is as before. -/
structure SameContents (store store' : InMemoryTaskStore) : Prop where
  orderedTasks : store'.orderedTasks = store.orderedTasks
  revisions : store'.revisions = store.revisions
  updatedAt : store'.updatedAt = store.updatedAt
  updateOrder : store'.updateOrder = store.updateOrder
  taskIndices : store'.taskIndices = store.taskIndices

theorem SameContents.refl (store : InMemoryTaskStore) : SameContents store store :=
  ⟨rfl, rfl, rfl, rfl, rfl⟩

theorem SameContents.eq_with (h : SameContents store store') :
    store' = { store with telemetrySnapshot := store'.telemetrySnapshot } := by
  cases store'
  obtain ⟨rfl, rfl, rfl, rfl, rfl⟩ := h
  rfl

theorem SameContents.entryOf (h : SameContents store store') (id : Bytes) : store'.entryOf id = store.entryOf id := by
  rw [h.eq_with]
  rfl

theorem SameContents.wellFormed (h : SameContents store store') (hstore : store.WellFormed) : store'.WellFormed := by
  rw [h.eq_with]
  exact { hstore with }

/-- The task that a successful call writes, given the entry it finds. -/
def StoreCall.Writes : StoreCall → Option Entry → Task → Prop
  | .createOrUpdate new, _, task => task = new
  | .createOrUpdateIfRevision new expectedRevision, old, task =>
    task = new ∧ (old.map Entry.revision).getD 0 = expectedRevision
  | .cancel _, old, task =>
    ∃ e, old = some e ∧ isTerminalTaskState e.task.state = false ∧
      task = e.task.setState .canceled
  | .appendTaskHistory _ message _ _, old, task =>
    ∃ e, old = some e ∧ task = e.task.addHistory message

/-- A call is silent, or one task is written under the id it names. -/
inductive CallEffect (store : InMemoryTaskStore) (c : StoreCall) :
    StoreReply × InMemoryTaskStore → Prop where
  | silent {reply : StoreReply} {store' : InMemoryTaskStore} (hreply : reply.wrote = false)
      (same : SameContents store store') : CallEffect store c (reply, store')
  | wrote {reply : StoreReply} {store' : InMemoryTaskStore} {task : Task}
      (hreply : reply.wrote = true) (hid : task.id = c.taskId)
      (writes : c.Writes (store.entryOf c.taskId) task) (wellFormed : store'.WellFormed)
      (write : Wrote store store' task) : CallEffect store c (reply, store')

/-- A reply that reports the outcome of a `CreateOrUpdate` reports its effect. -/
theorem callEffect_createOrUpdate (h : store.WellFormed) (hid : task.id = c.taskId)
    (hwrites : c.Writes (store.entryOf c.taskId) task) (now : Int64) {f : Result Unit → StoreReply}
    (herror : ∀ e, (f (.error e)).wrote = false) (hok : (f (.ok ())).wrote) :
    CallEffect store c (f (store.createOrUpdate task now).1, (store.createOrUpdate task now).2) := by
  rcases createOrUpdate_spec h task now with ⟨_, hcall⟩ | ⟨_, _, hcall⟩ | ⟨_, _, s, hcall, hs, hw⟩
  · rw [hcall]
    exact .silent (herror _) (.refl store)
  · rw [hcall]
    exact .silent (herror _) (.refl store)
  · rw [hcall]
    exact .wrote hok hid hwrites hs hw

/-- Inversion of a call, for every operation at once. -/
theorem call_effect (h : store.WellFormed) (c : StoreCall) (now : Int64) : CallEffect store c (store.call c now) := by
  cases c with
  | createOrUpdate task =>
    exact callEffect_createOrUpdate h (c := .createOrUpdate task) rfl rfl now
      (f := .createOrUpdate) (fun _ => rfl) rfl
  | createOrUpdateIfRevision task expectedRevision =>
    by_cases hid : task.id = []
    · simp only [call, createOrUpdateIfRevision, hid, isEmpty_nil, if_true]
      exact .silent rfl (.refl store)
    · simp only [call, createOrUpdateIfRevision_eq h hid]
      split_ifs with hrev
      · exact .silent rfl (.refl store)
      · have hwrites : StoreCall.Writes (.createOrUpdateIfRevision task expectedRevision)
            (store.entryOf task.id) task := ⟨rfl, not_not.mp hrev⟩
        exact callEffect_createOrUpdate h rfl hwrites now
          (f := fun r => .createOrUpdateIfRevision (r.map fun _ => .updated)) (fun _ => rfl) rfl
  | cancel id =>
    by_cases hid : id = []
    · simp only [call, cancel, hid, isEmpty_nil, if_true]
      exact .silent rfl (.refl store)
    · simp only [call, cancel_eq h hid]
      cases hentry : store.entryOf id with
      | none => exact .silent rfl (.refl store)
      | some e =>
        dsimp only
        split_ifs with hterminal
        · exact .silent rfl (.refl store)
        · have hsame : (e.task.setState .canceled).id = id := h.entryOf_id hentry
          have hwrites : StoreCall.Writes (.cancel id) (store.entryOf id)
              (e.task.setState .canceled) := ⟨e, hentry, by simpa using hterminal, rfl⟩
          exact callEffect_createOrUpdate h (c := .cancel id) hsame hwrites now
            (f := fun r => .cancel (r.map fun _ => e.task.setState .canceled)) (fun _ => rfl) rfl
  | appendTaskHistory id message policy serialize =>
    by_cases hid : id = []
    · simp only [call, appendTaskHistory, hid, isEmpty_nil, if_true]
      exact .silent rfl (.refl store)
    · simp only [call, appendTaskHistory_eq h hid]
      cases hentry : store.entryOf id with
      | none => exact .silent rfl (.refl store)
      | some e =>
        dsimp only
        cases findHistoryDedupeReason serialize e.task.history message policy with
        | some reason => exact .silent rfl ⟨rfl, rfl, rfl, rfl, rfl⟩
        | none =>
          have hsame : (e.task.addHistory message).id = id := h.entryOf_id hentry
          have hwrites : StoreCall.Writes (.appendTaskHistory id message policy serialize)
              (store.entryOf id) (e.task.addHistory message) := ⟨e, hentry, rfl⟩
          exact callEffect_createOrUpdate h (c := .appendTaskHistory id message policy serialize) hsame hwrites now
            (f := fun r => .appendTaskHistory (r.map fun _ => e.task.addHistory message) none)
            (fun _ => rfl) rfl

theorem CallEffect.wellFormed {outcome : StoreReply × InMemoryTaskStore} (h : store.WellFormed)
    (heffect : CallEffect store c outcome) : outcome.2.WellFormed := by
  cases heffect with
  | silent _ same => exact same.wellFormed h
  | wrote _ _ _ wellFormed _ => exact wellFormed

theorem run_wellFormed (h : store.WellFormed) (calls : List (StoreCall × Int64)) : (store.run calls).WellFormed := by
  induction calls generalizing store with
  | nil => exact h
  | cons timedCall calls ih =>
    obtain ⟨c, now⟩ := timedCall
    show ((store.call c now).2.run calls).WellFormed
    exact ih ((call_effect h c now).wellFormed h)

theorem Wrote.mem_updateOrder_iff (hw : Wrote store store' task) (h : store.Consistent)
    (h' : store'.Consistent) {cursor : ListTaskCursor} (hne : cursor.taskId ≠ task.id) :
    cursor ∈ store'.updateOrder ↔ cursor ∈ store.updateOrder := by
  rw [h.mem_updateOrder_iff, h'.mem_updateOrder_iff, hw.frame _ hne]

/-- After any sequence of calls the containers agree, and one further call is either silent or
advances exactly the task it names. -/
theorem run_consistent_and_call_frame (calls : List (StoreCall × Int64)) (c : StoreCall) (now : Int64) :
    let before := run {} calls
    let reply := (before.call c now).1
    let after := (before.call c now).2
    before.Consistent ∧ after.Consistent ∧ (reply.wrote = false → SameContents before after) ∧ (reply.wrote = true →
        (∃ new, after.entryOf c.taskId = some new ∧ Advances (before.entryOf c.taskId) new) ∧
        (∀ id, id ≠ c.taskId → after.entryOf id = before.entryOf id) ∧
        (∀ id index, before.taskIndices.lookup id = some index → after.taskIndices.lookup id = some index) ∧
        (∀ cursor : ListTaskCursor, cursor.taskId ≠ c.taskId →
          (cursor ∈ after.updateOrder ↔ cursor ∈ before.updateOrder))) := by
  intro before reply after
  have hbefore : before.WellFormed := run_wellFormed wellFormed_empty calls
  have heffect : CallEffect before c (reply, after) := call_effect hbefore c now
  have hafter : after.WellFormed := heffect.wellFormed hbefore
  refine ⟨hbefore.toConsistent, hafter.toConsistent, ?_, ?_⟩
  · intro hreply
    cases heffect with
    | silent _ same => exact same
    | wrote hwrote _ _ _ _ => exact absurd hwrote (by simp [hreply])
  · intro hreply
    cases heffect with
    | silent hsilent _ => exact absurd hsilent (by simp [hreply])
    | wrote _ hid _ _ write =>
      rw [← hid]
      obtain ⟨new, hnew, _, hadvances⟩ := write.written
      refine ⟨⟨new, hnew, hadvances⟩, write.frame, write.positions, ?_⟩
      intro cursor hne
      exact write.mem_updateOrder_iff hbefore.toConsistent hafter.toConsistent hne

/-! ## The abstract map -/

/-- The store as a versioned map: contents with their write counts. -/
def view (store : InMemoryTaskStore) : VersionedMap Bytes Task := fun id =>
  (store.entryOf id).map fun e => ⟨e.task, e.revision.toNat⟩

theorem view_revisionOf (store : InMemoryTaskStore) (id : Bytes) :
    store.view.revisionOf id = (store.revisionOf id).toNat := by
  unfold VersionedMap.revisionOf view revisionOf
  cases store.entryOf id <;> rfl

theorem SameContents.view_eq (h : SameContents store store') : store'.view = store.view := by
  funext id
  rw [view, view, h.entryOf]

theorem Wrote.view_eq (hw : Wrote store store' task) : store'.view = store.view.write task.id task := by
  funext id
  by_cases hid : id = task.id
  · subst hid
    obtain ⟨new, hnew, htask, hadvances⟩ := hw.written
    rw [VersionedMap.write_self, view_revisionOf, view, hnew, map_some, htask, revisionOf]
    cases hold : store.entryOf task.id with
    | none =>
      rw [hold] at hadvances
      have hfirst : new.revision = kInitialTaskRevision := hadvances
      rw [hfirst]
      rfl
    | some old =>
      rw [hold] at hadvances
      have hnext : new.revision.toNat = old.revision.toNat + 1 := hadvances.1
      rw [hnext]
      rfl
  · rw [VersionedMap.write_of_ne _ hid, view, view, hw.frame id hid]

/-! ## Runs -/

/-- The ids that a sequence of calls really wrote, in order. -/
def writtenIds : InMemoryTaskStore → List (StoreCall × Int64) → List Bytes
  | _, [] => []
  | store, (c, now) :: calls =>
    if (store.call c now).1.wrote then c.taskId :: writtenIds (store.call c now).2 calls
    else writtenIds (store.call c now).2 calls

theorem run_append (store : InMemoryTaskStore) (calls calls' : List (StoreCall × Int64)) :
    store.run (calls ++ calls') = (store.run calls).run calls' := by
  induction calls generalizing store with
  | nil => rfl
  | cons timedCall calls ih =>
    obtain ⟨c, now⟩ := timedCall
    show (store.call c now).2.run (calls ++ calls') = ((store.call c now).2.run calls).run calls'
    exact ih _

theorem writtenIds_append (store : InMemoryTaskStore) (calls calls' : List (StoreCall × Int64)) :
    store.writtenIds (calls ++ calls') = store.writtenIds calls ++ (store.run calls).writtenIds calls' := by
  induction calls generalizing store with
  | nil => rfl
  | cons timedCall calls ih =>
    obtain ⟨c, now⟩ := timedCall
    simp only [cons_append, writtenIds, ih]
    split_ifs <;> rfl

/-- The writes of a run: one for each call that reports a write, of the task that the call writes. -/
inductive RunWrites : InMemoryTaskStore → List (StoreCall × Int64) → List (Bytes × Task) → Prop where
  | nil {store : InMemoryTaskStore} : RunWrites store [] []
  | silent {store : InMemoryTaskStore} {c : StoreCall} {now : Int64} {calls : List (StoreCall × Int64)}
      {ws : List (Bytes × Task)} (hreply : (store.call c now).1.wrote = false)
      (rest : RunWrites (store.call c now).2 calls ws) : RunWrites store ((c, now) :: calls) ws
  | wrote {store : InMemoryTaskStore} {c : StoreCall} {now : Int64} {calls : List (StoreCall × Int64)}
      {ws : List (Bytes × Task)} {task : Task} (hreply : (store.call c now).1.wrote = true)
      (writes : c.Writes (store.entryOf c.taskId) task)
      (rest : RunWrites (store.call c now).2 calls ws) :
      RunWrites store ((c, now) :: calls) ((c.taskId, task) :: ws)

theorem RunWrites.ids {calls : List (StoreCall × Int64)} {ws : List (Bytes × Task)}
    (h : RunWrites store calls ws) : ws.map Prod.fst = store.writtenIds calls := by
  induction h with
  | nil => rfl
  | silent hreply _ ih => rw [writtenIds, hreply, ih]; rfl
  | wrote hreply _ _ ih => rw [writtenIds, hreply, map_cons, ih]; rfl

/-- A run of the store is a run of the abstract map, write for write. -/
theorem view_run (h : store.WellFormed) (calls : List (StoreCall × Int64)) :
    ∃ ws, store.RunWrites calls ws ∧ (store.run calls).view = store.view.writes ws ∧
      ws.map Prod.fst = store.writtenIds calls := by
  suffices hrun : ∃ ws, store.RunWrites calls ws ∧ (store.run calls).view = store.view.writes ws by
    obtain ⟨ws, hws, hview⟩ := hrun
    exact ⟨ws, hws, hview, hws.ids⟩
  induction calls generalizing store with
  | nil => exact ⟨[], .nil, rfl⟩
  | cons timedCall calls ih =>
    obtain ⟨c, now⟩ := timedCall
    have heffect := call_effect h c now
    obtain ⟨ws, hws, hview⟩ := ih (heffect.wellFormed h)
    show ∃ ws, _ ∧ ((store.call c now).2.run calls).view = _
    rw [hview]
    generalize hcall : store.call c now = outcome at heffect
    cases heffect with
    | silent hreply same =>
      refine ⟨ws, .silent ?_ hws, ?_⟩
      · rw [hcall, hreply]
      · rw [same.view_eq]
    | @wrote _ _ task hreply hid writes _ write =>
      refine ⟨(c.taskId, task) :: ws, .wrote ?_ writes hws, ?_⟩
      · rw [hcall, hreply]
      · rw [write.view_eq, hid]
        rfl

theorem view_create_and_cancel :
    let calls : List (StoreCall × Int64) := [(.createOrUpdate { id := [97] }, 5), (.cancel [97], 3)]
    ∃ ws, RunWrites {} calls ws ∧ (run {} calls).view = (view {}).writes ws ∧
      ws.map Prod.fst = writtenIds {} calls :=
  view_run wellFormed_empty _

theorem Wrote.entryOf_mono (hw : Wrote store store' task) (he : store.entryOf id = some e) :
    ∃ e', store'.entryOf id = some e' ∧ e.updatedAt ≤ e'.updatedAt := by
  by_cases hid : id = task.id
  · subst hid
    obtain ⟨new, hnew, _, hadvances⟩ := hw.written
    rw [he] at hadvances
    exact ⟨new, hnew, le_of_lt hadvances.2⟩
  · exact ⟨e, by rw [hw.frame id hid, he], le_refl _⟩

theorem run_entryOf_mono (h : store.WellFormed) (calls : List (StoreCall × Int64)) (he : store.entryOf id = some e) :
    ∃ e', (store.run calls).entryOf id = some e' ∧ e.updatedAt ≤ e'.updatedAt := by
  induction calls generalizing store e with
  | nil => exact ⟨e, he, le_refl _⟩
  | cons timedCall calls ih =>
    obtain ⟨c, now⟩ := timedCall
    have heffect := call_effect h c now
    have hnext : ∃ e', (store.call c now).2.entryOf id = some e' ∧ e.updatedAt ≤ e'.updatedAt := by
      generalize store.call c now = outcome at heffect ⊢
      cases heffect with
      | silent _ same => exact ⟨e, by rw [same.entryOf, he], le_refl _⟩
      | wrote _ _ _ _ write => exact write.entryOf_mono he
    obtain ⟨e', he', hle⟩ := hnext
    obtain ⟨e'', he'', hle'⟩ := ih (heffect.wellFormed h) he'
    exact ⟨e'', he'', hle.trans hle'⟩

theorem run_entryOf_of_not_written (h : store.WellFormed) {calls : List (StoreCall × Int64)}
    (hid : id ∉ store.writtenIds calls) : (store.run calls).entryOf id = store.entryOf id := by
  induction calls generalizing store with
  | nil => rfl
  | cons timedCall calls ih =>
    obtain ⟨c, now⟩ := timedCall
    have heffect := call_effect h c now
    have hwf := heffect.wellFormed h
    rw [writtenIds] at hid
    show ((store.call c now).2.run calls).entryOf id = store.entryOf id
    generalize store.call c now = outcome at heffect hwf hid ⊢
    cases heffect with
    | silent hreply same =>
      rw [if_neg (by simp [hreply])] at hid
      rw [ih hwf hid, same.entryOf]
    | wrote hreply hcid _ _ write =>
      rw [if_pos hreply, mem_cons, not_or] at hid
      rw [ih hwf hid.2, write.frame id (by rw [hcid]; exact hid.1)]

/-! ## Stores that carry their invariant -/

end A2A.Server.Tasks.InMemoryTaskStore

namespace A2A.Server.Tasks

open A2A.Foundation A2A.Core

/-- A store together with the proof that its containers agree. -/
structure ConsistentStore where
  raw : InMemoryTaskStore
  wellFormed : raw.WellFormed

namespace ConsistentStore

open InMemoryTaskStore

def empty : ConsistentStore := ⟨{}, wellFormed_empty⟩

def call (store : ConsistentStore) (c : StoreCall) (now : Int64) : StoreReply × ConsistentStore :=
  ((store.raw.call c now).1,
    ⟨(store.raw.call c now).2, (call_effect store.wellFormed c now).wellFormed store.wellFormed⟩)

theorem call_effect (store : ConsistentStore) (c : StoreCall) (now : Int64) :
    CallEffect store.raw c ((store.call c now).1, (store.call c now).2.raw) :=
  InMemoryTaskStore.call_effect store.wellFormed c now

def run (store : ConsistentStore) (calls : List (StoreCall × Int64)) : ConsistentStore :=
  ⟨store.raw.run calls, run_wellFormed store.wellFormed calls⟩

end ConsistentStore

end A2A.Server.Tasks
