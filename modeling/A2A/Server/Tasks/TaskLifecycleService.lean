/-
# Status transitions over a task store
(`task_lifecycle_service.cpp`).
-/
import A2A.Foundation.Machine
import A2A.Server.Tasks.StoreOperations

namespace A2A.Server.Tasks.TaskLifecycleService

open A2A.Foundation A2A.Core InMemoryTaskStore

/-! ## The service -/

def kTaskSnapshotIdMismatchMessage : Bytes := "task snapshot does not match message.taskId"

/-- What a `TaskIdGenerator` of the application answers for a request. -/
abbrev TaskIdGenerator := SendMessageRequest → Result Bytes

/-- The answer of a service that was constructed without a store. -/
def storeNotConfigured : Error := .internal "TaskLifecycleService store is not configured"

/-- `ResolveTaskIdForSendRequest`. -/
def resolveTaskIdForSendRequest (generateTaskId : TaskIdGenerator) (request : SendMessageRequest) :
    Result Bytes :=
  match request.message with
  | none => .error (.validation "message is required")
  | some message =>
    if ¬ message.taskId.isEmpty then .ok message.taskId
    else if message.messageId.isEmpty then
      .error (.validation "message.messageId is required when message.taskId is absent")
    else generateTaskId request

/-- `ValidateTaskForSendRequest`. -/
def validateTaskForSendRequest (request : SendMessageRequest) (task : Task) : Result Unit :=
  match request.message with
  | none => .error (.validation "message is required")
  | some message =>
    if ¬ message.taskId.isEmpty ∧ task.id ≠ message.taskId then
      .error (.validation kTaskSnapshotIdMismatchMessage)
    else if ¬ message.contextId.isEmpty ∧ ¬ task.contextId.isEmpty ∧
        message.contextId ≠ task.contextId then
      .error (ProtocolErrors.unsupportedOperation "contextId does not match task")
    else if isTerminalTaskState task.state then
      .error (ProtocolErrors.unsupportedOperation "task is already terminal")
    else .ok ()

/-- `TransitionTaskStatus` between its store calls. -/
def guardTransition (current : Result Task) (nextState : TaskState) : Result Task :=
  match current with
  | .error e => .error e
  | .ok task =>
    if isTerminalTaskState task.state then
      if nextState = .canceled then .error ProtocolErrors.taskNotCancelable
      else .error (ProtocolErrors.unsupportedOperation "task is already terminal")
    else .ok (task.setState nextState)

/-- `TransitionTaskStatus`, when nobody else calls the store in between. -/
def transitionTaskStatus (store : Option InMemoryTaskStore) (taskId : Bytes)
    (nextState : TaskState) (now : Int64) : Result Task × Option InMemoryTaskStore :=
  match store with
  | none => (.error storeNotConfigured, none)
  | some store =>
    match guardTransition (store.get taskId) nextState with
    | .error e => (.error e, some store)
    | .ok updated =>
      match store.createOrUpdate updated now with
      | (.error e, store') => (.error e, some store')
      | (.ok (), store') => (.ok updated, some store')

/-- `AppendHistory`. -/
def appendHistory (store : Option InMemoryTaskStore) (taskId : Bytes) (message : Message)
    (policy : HistoryAppendPolicy) (serialize : Serializer) (now : Int64) :
    Result Task × Option HistoryDedupeEvent × Option InMemoryTaskStore :=
  match store with
  | none => (.error storeNotConfigured, none, none)
  | some store =>
    let (result, event, store') := store.appendTaskHistory taskId message policy serialize now
    (result, event, some store')

/-! ## The interleaving machine -/

/-- The shared store, the write each thread in `TransitionTaskStatus` is about to make, and the appended messages. -/
structure World where
  store : ConsistentStore
  pending : Nat → Option Task
  appended : List (Bytes × Message)

inductive Action where
  | transitionGet (thread : Nat) (taskId : Bytes) (nextState : TaskState)
  | transitionCreateOrUpdate (thread : Nat) (now : Int64)
  | appendHistory (taskId : Bytes) (message : Message) (policy : HistoryAppendPolicy)
      (serialize : Serializer) (now : Int64)
  | cancel (taskId : Bytes) (now : Int64)

/-- One step. A thread is in at most one transition at a time. -/
def step (w : World) : Action → Option World
  | .transitionGet thread taskId nextState =>
    match w.pending thread with
    | some _ => none
    | none =>
      match guardTransition (w.store.raw.get taskId) nextState with
      | .error _ => some w
      | .ok updated => some { w with pending := Function.update w.pending thread (some updated) }
  | .transitionCreateOrUpdate thread now =>
    match w.pending thread with
    | none => none
    | some updated =>
      some { w with
        store := (w.store.call (.createOrUpdate updated) now).2
        pending := Function.update w.pending thread none }
  | .appendHistory taskId message policy serialize now =>
    let outcome := w.store.call (.appendTaskHistory taskId message policy serialize) now
    some { w with
      store := outcome.2
      appended := if outcome.1.wrote then w.appended ++ [(taskId, message)] else w.appended }
  | .cancel taskId now => some { w with store := (w.store.call (.cancel taskId) now).2 }

/-- Threads that call the service and the store, from any store. -/
def lifecycle (store : ConsistentStore) : Machine World Action where
  start := ⟨store, fun _ => none, []⟩
  step := step

/-! ## What should hold -/

/-- A task that is terminal in `w` is in the same state in `w'`. -/
def TerminalKept (w w' : World) : Prop :=
  ∀ id e, w.store.raw.entryOf id = some e → isTerminalTaskState e.task.state = true →
    ∃ e', w'.store.raw.entryOf id = some e' ∧ e'.task.state = e.task.state

/-- Every message that was appended is in the stored history. -/
def MessagesKept (w : World) : Prop :=
  ∀ id message, (id, message) ∈ w.appended →
    ∃ e, w.store.raw.entryOf id = some e ∧ message ∈ e.task.history

/-- A transition writes only while the stored task is not terminal and has the history that was read. -/
def UpToDate (w : World) : Action → Prop
  | .transitionCreateOrUpdate thread _ =>
    ∀ updated, w.pending thread = some updated →
      ∀ e, w.store.raw.entryOf updated.id = some e →
        isTerminalTaskState e.task.state = false ∧ e.task.history = updated.history
  | _ => True

/-! ## The machine runs the service -/

variable {w : World} {store store' : InMemoryTaskStore}

/-- Without a step in between, the two calls of a transition are `TransitionTaskStatus`. -/
theorem transition_uninterrupted (store : ConsistentStore) {thread : Nat} (hidle : w.pending thread = none)
    (taskId : Bytes) (nextState : TaskState) (now : Int64) {updated : Task}
    (hguard : guardTransition (w.store.raw.get taskId) nextState = .ok updated) :
    ∃ w', (lifecycle store).exec w
        [.transitionGet thread taskId nextState, .transitionCreateOrUpdate thread now] = some w' ∧
      w'.pending thread = none ∧
      (transitionTaskStatus (some w.store.raw) taskId nextState now).2 = some w'.store.raw := by
  refine ⟨{ w with
    store := (w.store.call (.createOrUpdate updated) now).2
    pending := Function.update (Function.update w.pending thread (some updated)) thread none },
    ?_, Function.update_self .., ?_⟩
  · simp [Machine.exec, lifecycle, step, hidle, hguard]
  · show _ = some (w.store.raw.call (.createOrUpdate updated) now).2
    simp only [transitionTaskStatus, hguard, InMemoryTaskStore.call]
    rcases w.store.raw.createOrUpdate updated now with ⟨_ | _, _⟩ <;> rfl

/-! ## What one store call preserves -/

/-- Terminal states and stored messages of `store` are those of `store'` as well. -/
structure Preserves (store store' : InMemoryTaskStore) : Prop where
  state : ∀ id e, store.entryOf id = some e → isTerminalTaskState e.task.state = true →
    ∃ e', store'.entryOf id = some e' ∧ e'.task.state = e.task.state
  history : ∀ id e, store.entryOf id = some e →
    ∃ e', store'.entryOf id = some e' ∧ ∀ message ∈ e.task.history, message ∈ e'.task.history

theorem Preserves.ofSame (h : SameContents store store') :
    Preserves store store' where
  state := fun id e he _ => ⟨e, by rw [h.entryOf, he], rfl⟩
  history := fun id e he => ⟨e, by rw [h.entryOf, he], fun _ hm => hm⟩

/-- A write preserves both as soon as it does so for the task it replaces. -/
theorem Preserves.ofWrote {task : Task} (hw : Wrote store store' task)
    (hold : ∀ e, store.entryOf task.id = some e →
      (isTerminalTaskState e.task.state = true → task.state = e.task.state) ∧
        ∀ message ∈ e.task.history, message ∈ task.history) :
    Preserves store store' := by
  obtain ⟨new, hnew, htask, _⟩ := hw.written
  refine ⟨?_, ?_⟩
  · intro id e he hterminal
    by_cases hid : id = task.id
    · subst hid
      exact ⟨new, hnew, by rw [htask, (hold e he).1 hterminal]⟩
    · exact ⟨e, by rw [hw.frame id hid, he], rfl⟩
  · intro id e he
    by_cases hid : id = task.id
    · subst hid
      exact ⟨new, hnew, by rw [htask]; exact (hold e he).2⟩
    · exact ⟨e, by rw [hw.frame id hid, he], fun _ hm => hm⟩

theorem cancel_preserves (store : ConsistentStore) (taskId : Bytes) (now : Int64) :
    Preserves store.raw (store.call (.cancel taskId) now).2.raw := by
  have heffect := call_effect store.wellFormed (.cancel taskId) now
  show Preserves store.raw (store.raw.call (.cancel taskId) now).2
  generalize store.raw.call (.cancel taskId) now = outcome at heffect ⊢
  cases heffect with
  | silent _ same => exact .ofSame same
  | wrote _ hid writes _ write =>
    obtain ⟨old, hold, hlive, rfl⟩ := writes
    refine .ofWrote write ?_
    intro e he
    rw [hid, hold] at he
    cases he
    refine ⟨?_, fun _ hm => hm⟩
    intro hterminal
    exact absurd hterminal (by simp [hlive])

/-- `AppendHistory` keeps the state, and adds its message to what is there. -/
theorem appendHistory_preserves (store : ConsistentStore) (taskId : Bytes) (message : Message)
    (policy : HistoryAppendPolicy) (serialize : Serializer) (now : Int64) :
    let outcome := store.call (.appendTaskHistory taskId message policy serialize) now
    Preserves store.raw outcome.2.raw ∧ (outcome.1.wrote = true →
        ∃ e, outcome.2.raw.entryOf taskId = some e ∧ message ∈ e.task.history) := by
  have heffect :=
    call_effect store.wellFormed (.appendTaskHistory taskId message policy serialize) now
  show Preserves store.raw (store.raw.call (.appendTaskHistory taskId message policy serialize) now).2 ∧
    ((store.raw.call (.appendTaskHistory taskId message policy serialize) now).1.wrote = true →
      ∃ e, (store.raw.call (.appendTaskHistory taskId message policy serialize) now).2.entryOf
        taskId = some e ∧ message ∈ e.task.history)
  generalize store.raw.call (.appendTaskHistory taskId message policy serialize) now = outcome at heffect ⊢
  cases heffect with
  | silent hreply same =>
    refine ⟨.ofSame same, ?_⟩
    intro hwrote
    exact absurd hwrote (by simp [hreply])
  | wrote _ hid writes _ write =>
    obtain ⟨old, hold, rfl⟩ := writes
    refine ⟨.ofWrote write ?_, ?_⟩
    · intro e he
      rw [hid, hold] at he
      cases he
      exact ⟨fun _ => rfl, fun m hm => List.mem_append_left _ hm⟩
    · intro _
      obtain ⟨new, hnew, htask, _⟩ := write.written
      rw [hid] at hnew
      refine ⟨new, hnew, ?_⟩
      rw [htask]
      exact List.mem_append_right _ (List.mem_singleton_self message)

/-- The second half of a transition preserves both when it is up to date. -/
theorem createOrUpdate_preserves (store : ConsistentStore) (updated : Task) (now : Int64)
    (hcurrent : ∀ e, store.raw.entryOf updated.id = some e →
      isTerminalTaskState e.task.state = false ∧ e.task.history = updated.history) :
    Preserves store.raw (store.call (.createOrUpdate updated) now).2.raw := by
  have heffect := call_effect store.wellFormed (.createOrUpdate updated) now
  show Preserves store.raw (store.raw.call (.createOrUpdate updated) now).2
  generalize store.raw.call (.createOrUpdate updated) now = outcome at heffect ⊢
  cases heffect with
  | silent _ same => exact .ofSame same
  | wrote _ _ writes _ write =>
    obtain rfl := writes
    refine .ofWrote write ?_
    intro e he
    obtain ⟨hlive, hhistory⟩ := hcurrent e he
    refine ⟨?_, ?_⟩
    · intro hterminal
      exact absurd hterminal (by simp [hlive])
    · rw [hhistory]
      exact fun _ hm => hm

/-! ## Whole runs -/

/-- The store is preserved, and the log of appended messages grows by a stored message. -/
theorem step_preserves {store : ConsistentStore} {w' : World} {a : Action} (hC : UpToDate w a)
    (hstep : (lifecycle store).step w a = some w') :
    Preserves w.store.raw w'.store.raw ∧ ∀ id message, (id, message) ∈ w'.appended → (id, message) ∈ w.appended ∨
        ∃ e, w'.store.raw.entryOf id = some e ∧ message ∈ e.task.history := by
  have hself : Preserves w.store.raw w.store.raw := .ofSame (.refl _)
  cases a with
  | transitionGet thread taskId nextState =>
    simp only [lifecycle, step] at hstep
    split at hstep
    · cases hstep
    · split at hstep
      · cases hstep
        exact ⟨hself, fun _ _ hm => .inl hm⟩
      · cases hstep
        exact ⟨hself, fun _ _ hm => .inl hm⟩
  | transitionCreateOrUpdate thread now =>
    simp only [lifecycle, step] at hstep
    split at hstep
    · cases hstep
    · rename_i updated hpending
      cases hstep
      exact ⟨createOrUpdate_preserves w.store updated now (hC updated hpending), fun _ _ hm => .inl hm⟩
  | appendHistory taskId message policy serialize now =>
    obtain ⟨hkeep, hadd⟩ :=
      appendHistory_preserves w.store taskId message policy serialize now
    cases hstep
    refine ⟨hkeep, ?_⟩
    intro id m hm
    dsimp only at hm
    split_ifs at hm with hwrote
    · rcases List.mem_append.mp hm with hm | hm
      · exact .inl hm
      · obtain ⟨rfl, rfl⟩ := Prod.mk.inj (List.mem_singleton.mp hm)
        exact .inr (hadd hwrote)
    · exact .inl hm
  | cancel taskId now =>
    cases hstep
    exact ⟨cancel_preserves w.store taskId now, fun _ _ hm => .inl hm⟩

theorem TerminalKept.refl (w : World) : TerminalKept w w := fun _ e he _ => ⟨e, he, rfl⟩

theorem TerminalKept.trans {w₁ w₂ w₃ : World} (h : TerminalKept w₁ w₂) (h' : TerminalKept w₂ w₃) :
    TerminalKept w₁ w₃ := by
  intro id e he hterminal
  obtain ⟨e', he', hstate⟩ := h id e he hterminal
  obtain ⟨e'', he'', hstate'⟩ := h' id e' he' (by rw [hstate]; exact hterminal)
  exact ⟨e'', he'', hstate'.trans hstate⟩

theorem messagesKept_step {store : ConsistentStore} (w : World) (a : Action) (w' : World) (h : MessagesKept w)
    (hC : UpToDate w a) (hstep : (lifecycle store).step w a = some w') : MessagesKept w' := by
  obtain ⟨hkeep, hlog⟩ := step_preserves hC hstep
  intro id message hm
  rcases hlog id message hm with hold | hnew
  · obtain ⟨e, he, hmem⟩ := h id message hold
    obtain ⟨e', he', hall⟩ := hkeep.history id e he
    exact ⟨e', he', hall message hmem⟩
  · exact hnew

/-- In every interleaving whose transition writes are all up to date, a terminal state is final and
an appended message stays in the stored history. -/
theorem lifecycle_keeps_terminal_states_and_messages (store : ConsistentStore) {w w' : World}
    {first second : List Action} (hfirst : (lifecycle store).exec (lifecycle store).start first = some w)
    (hsecond : (lifecycle store).exec w second = some w')
    (hC : (lifecycle store).Meets UpToDate (lifecycle store).start (first ++ second)) :
    TerminalKept w w' ∧ MessagesKept w' := by
  obtain ⟨hC₁, hC₂⟩ := (Machine.meets_append hfirst).mp hC
  have hstart : MessagesKept (lifecycle store).start := by
    intro id message hm
    exact absurd hm (by simp [lifecycle])
  have hw : MessagesKept w := Machine.exec_invariant messagesKept_step hstart hC₁ hfirst
  refine ⟨?_, Machine.exec_invariant messagesKept_step hw hC₂ hsecond⟩
  exact Machine.exec_rel (I := fun _ => True) TerminalKept.refl TerminalKept.trans (fun _ _ _ _ _ _ => trivial)
    (fun _ _ _ _ hCstep hstep => (step_preserves hCstep hstep).1.state) trivial hC₂ hsecond

def oneWorkingTask : ConsistentStore :=
  ConsistentStore.empty.run [(.createOrUpdate { id := "t", status := some { state := .working } }, 1)]

/-- An uninterrupted transition followed by a rejected cancel meets the condition. -/
theorem completed_task_stays_completed :
    ∃ w w', (lifecycle oneWorkingTask).exec (lifecycle oneWorkingTask).start
        [.transitionGet 0 "t" .completed, .transitionCreateOrUpdate 0 2] = some w ∧
      (lifecycle oneWorkingTask).exec w [.cancel "t" 3] = some w' ∧
      TerminalKept w w' ∧ MessagesKept w' := by
  refine ⟨_, _, rfl, rfl, ?_⟩
  refine lifecycle_keeps_terminal_states_and_messages oneWorkingTask (rfl : (lifecycle oneWorkingTask).exec _
      [.transitionGet 0 "t" .completed, .transitionCreateOrUpdate 0 2] = some _)
    (rfl : (lifecycle oneWorkingTask).exec _ [.cancel "t" 3] = some _) ?_
  refine ⟨trivial, fun w₁ h₁ => ?_⟩
  cases h₁
  refine ⟨?_, fun w₂ h₂ => ⟨trivial, fun _ _ => trivial⟩⟩
  intro updated hupdated e he
  cases hupdated
  cases he
  exact ⟨by decide, rfl⟩

/-- A transition reads the working task; a message is appended and the task is canceled; then the
transition writes what it read. The canceled task is completed, and the message is gone. -/
theorem terminal_state_and_message_overwritten :
    ∃ w w', (lifecycle oneWorkingTask).exec (lifecycle oneWorkingTask).start [.transitionGet 0 "t" .completed,
          .appendHistory "t" { messageId := "m" } .noDedup (fun _ _ => []) 2,
          .cancel "t" 3] = some w ∧
      (lifecycle oneWorkingTask).exec w [.transitionCreateOrUpdate 0 4] = some w' ∧
      ¬ TerminalKept w w' ∧ ¬ MessagesKept w' := by
  refine ⟨_, _, rfl, rfl, ?_, ?_⟩
  · intro hkept
    obtain ⟨e', he', hstate⟩ := hkept "t" _ rfl (by decide)
    cases he'
    exact absurd hstate (by decide)
  · intro hkept
    obtain ⟨e, he, hm⟩ := hkept "t" { messageId := "m" } (List.mem_singleton_self _)
    cases he
    cases hm

end A2A.Server.Tasks.TaskLifecycleService
