/-
# Clients that write only what they have seen.
-/
import A2A.Foundation.EventLog
import A2A.Foundation.Machine
import A2A.Server.Tasks.StoreOperations

namespace A2A.Server.Tasks.OptimisticClients

open A2A.Foundation A2A.Core InMemoryTaskStore List

/-! ## The machine -/

/-- What a client remembers of its last snapshot; an id that was not found has revision zero. -/
structure Held where
  id : Bytes
  revision : UInt64

/-- A conditional write: what was asked and answered, and what the store held. -/
structure Attempt where
  client : Nat
  task : Task
  expected : UInt64
  result : Result ConditionalWriteResult
  /-- The content stored under the id when the write was decided. -/
  found : Option Task
  exhausted : Bool

/-- What has happened, in the order of the lock. -/
inductive Event where
  | snapshot (client : Nat) (held : Held) (seen : Option Task)
  | attempt (attempt : Attempt)
  | write (id : Bytes) (task : Task)

/-- The task that an event wrote, if it wrote one. -/
def Event.written : Event → Option (Bytes × Task)
  | .snapshot _ _ _ => none
  | .attempt a => if a.result = .ok .updated then some (a.task.id, a.task) else none
  | .write id task => some (id, task)

/-- The snapshot that an event took for a client, if it took one. -/
def Event.snapshotBy (client : Nat) : Event → Option Held
  | .snapshot c held _ => if c = client then some held else none
  | _ => none

/-- The store, the snapshots that clients hold, and the log. -/
structure World where
  store : ConsistentStore
  held : Nat → Option Held
  log : List Event

/-- One store call, by a client or by another writer. -/
inductive Action where
  | getSnapshot (client : Nat) (id : Bytes)
  | createOrUpdateIfRevision (client : Nat) (task : Task) (now : Int64)
  | other (c : StoreCall) (now : Int64)

def contentOf (store : InMemoryTaskStore) (id : Bytes) : Option Task :=
  (store.entryOf id).map Entry.task

/-- The update time cannot advance. -/
def timeExhausted (store : InMemoryTaskStore) (id : Bytes) : Bool :=
  (store.entryOf id).any fun e => e.updatedAt == Int64.maxValue

def World.remember (w : World) (client : Nat) (held : Held) (seen : Option Task) : World :=
  { w with
    held := Function.update w.held client (some held)
    log := w.log ++ [.snapshot client held seen] }

/-- One step. A client writes only the id it holds a snapshot of, with the revision of that snapshot. -/
def step (w : World) : Action → Option World
  | .getSnapshot client id =>
    match w.store.raw.getSnapshot id with
    | .ok snapshot => some (w.remember client ⟨id, snapshot.revision⟩ (some snapshot.task))
    | .error e =>
      if e = ProtocolErrors.taskNotFound "Task not found" then
        some (w.remember client ⟨id, 0⟩ none)
      else some w
  | .createOrUpdateIfRevision client task now =>
    match w.held client with
    | none => none
    | some held =>
      if task.id ≠ held.id then none
      else
        some { w with
          store := (w.store.call (.createOrUpdateIfRevision task held.revision) now).2
          log := w.log ++ [.attempt
            { client, task
              expected := held.revision
              result := (w.store.raw.createOrUpdateIfRevision task held.revision now).1
              found := contentOf w.store.raw task.id
              exhausted := timeExhausted w.store.raw task.id }] }
  | .other c now =>
    let outcome := w.store.call c now
    some { w with
      store := outcome.2
      log := w.log ++
        if outcome.1.wrote then
          ((contentOf outcome.2.raw c.taskId).map (Event.write c.taskId)).toList
        else [] }

/-- Clients and writers over an empty store. -/
def clients : Machine World Action where
  start := ⟨.empty, fun _ => none, []⟩
  step := step

/-! ## The log determines the store -/

/-- The contents that the writes of a log add up to. -/
def replay (log : List Event) : VersionedMap Bytes Task :=
  VersionedMap.writes (fun _ => none) (log.filterMap Event.written)

/-- What holds of an event after the log before it. -/
def EventOk (log : List Event) : Event → Prop
  | .snapshot _ held seen =>
    held.revision.toNat = (replay log).revisionOf held.id ∧
      seen = (replay log held.id).map Version.value
  | .attempt a =>
    (∃ held, lastOf (Event.snapshotBy a.client) log = some held ∧ held.id = a.task.id ∧
      held.revision = a.expected) ∧
    a.found = (replay log a.task.id).map Version.value ∧
    (a.result = .ok .updated → a.expected.toNat = (replay log).revisionOf a.task.id) ∧
    (a.exhausted = false → a.expected.toNat = (replay log).revisionOf a.task.id →
      a.result = .ok .updated)
  | .write _ _ => True

/-- The store and the held snapshots follow from the log. -/
structure Inv (w : World) : Prop where
  view : w.store.raw.view = replay w.log
  held : ∀ client, w.held client = lastOf (Event.snapshotBy client) w.log
  events : EachEvent EventOk w.log
  ids : ∀ client held, w.held client = some held → held.id ≠ []

variable {w : World} {held : Held}

theorem replay_append (log later : List Event) :
    replay (log ++ later) = (replay log).writes (later.filterMap Event.written) := by
  unfold replay
  rw [filterMap_append, VersionedMap.writes_append]

theorem view_value (store : InMemoryTaskStore) (id : Bytes) :
    (store.view id).map Version.value = contentOf store id := by
  unfold InMemoryTaskStore.view contentOf
  rw [Option.map_map]
  rfl

theorem inv_start : Inv clients.start where
  view := by
    funext id
    rfl
  held := fun _ => rfl
  events := eachEvent_nil _
  ids := by
    intro client held h
    exact absurd h (by simp [clients])

/-! ## One step -/

open Event

/-- A client that reads holds the current revision. -/
theorem inv_remember (h : Inv w) (client : Nat) {seen : Option Task} (hid : held.id ≠ [])
    (hrevision : held.revision.toNat = w.store.raw.view.revisionOf held.id)
    (hseen : seen = contentOf w.store.raw held.id) : Inv (w.remember client held seen) where
  view := by
    show w.store.raw.view = replay (w.log ++ [.snapshot client held seen])
    rw [replay_append, h.view]
    rfl
  held := by
    intro other
    show Function.update w.held client (some held) other =
      lastOf (snapshotBy other) (w.log ++ [.snapshot client held seen])
    rw [lastOf_append_singleton]
    by_cases hother : other = client
    · subst hother
      simp [snapshotBy]
    · rw [Function.update_of_ne hother, h.held]
      simp [snapshotBy, Ne.symm hother]
  events := by
    refine eachEvent_append_singleton.mpr ⟨h.events, ?_, ?_⟩
    · rw [hrevision, h.view]
    · rw [hseen, ← view_value, h.view]
  ids := by
    intro other held' hheld
    by_cases hother : other = client
    · subst hother
      have hEq : held = held' := by simpa [World.remember] using hheld
      exact hEq ▸ hid
    · have hold : w.held other = some held' := by
        simpa [World.remember, Function.update_of_ne hother] using hheld
      exact h.ids other held' hold

theorem timeExhausted_iff (store : InMemoryTaskStore) (id : Bytes) :
    timeExhausted store id = true ↔ store.Exhausted id := by
  unfold timeExhausted Exhausted
  cases store.entryOf id <;> simp

theorem inv_append (h : Inv w) {store : ConsistentStore} {event : Event}
    (hview : store.raw.view = w.store.raw.view.writes event.written.toList)
    (hsnapshot : ∀ client, event.snapshotBy client = none) (hevent : EventOk w.log event) :
    Inv { w with store, log := w.log ++ [event] } where
  view := by
    show store.raw.view = replay (w.log ++ [event])
    rw [replay_append, hview, h.view]
    cases hwritten : event.written <;> simp [hwritten]
  held := by
    intro client
    show w.held client = lastOf (snapshotBy client) (w.log ++ [event])
    rw [lastOf_append_singleton, hsnapshot client, h.held]
    rfl
  events := eachEvent_append_singleton.mpr ⟨h.events, hevent⟩
  ids := h.ids

theorem toNat_eq_revisionOf_iff (h : Inv w) (id : Bytes) (expected : UInt64) :
    expected.toNat = (replay w.log).revisionOf id ↔ w.store.raw.revisionOf id = expected := by
  rw [← h.view, view_revisionOf, UInt64.toNat_inj]
  exact eq_comm

/-- A conditional write is logged as what it did. -/
theorem inv_attempt (h : Inv w) {client : Nat} {task : Task} {now : Int64}
    (hheld : w.held client = some held) (hid : task.id = held.id) :
    Inv { w with
      store := (w.store.call (.createOrUpdateIfRevision task held.revision) now).2
      log := w.log ++ [.attempt
        { client, task
          expected := held.revision
          result := (w.store.raw.createOrUpdateIfRevision task held.revision now).1
          found := contentOf w.store.raw task.id
          exhausted := timeExhausted w.store.raw task.id }] } := by
  have hne : task.id ≠ [] := by
    rw [hid]
    exact h.ids client held hheld
  have hlast : ∃ held', lastOf (snapshotBy client) w.log = some held' ∧
      held'.id = task.id ∧ held'.revision = held.revision :=
    ⟨held, by rw [← h.held, hheld], hid.symm, rfl⟩
  have hfound : contentOf w.store.raw task.id = (replay w.log task.id).map Version.value := by
    rw [← h.view, view_value]
  have hcall : ((w.store.call (.createOrUpdateIfRevision task held.revision) now).2).raw =
      (w.store.raw.createOrUpdateIfRevision task held.revision now).2 := rfl
  rcases createOrUpdateIfRevision_spec w.store.wellFormed hne held.revision now with
    ⟨hrev, hout⟩ | ⟨hrev, hmax, hout⟩ | ⟨hrev, _, store', hout, _, hw⟩
  · refine inv_append h ?_ (fun _ => rfl) ⟨hlast, hfound, ?_, ?_⟩
    · rw [hcall, hout]
      rfl
    · intro hok
      rw [hout] at hok
      cases hok
    · intro _ hEq
      exact absurd ((toNat_eq_revisionOf_iff h _ _).mp hEq) hrev
  · refine inv_append h ?_ (fun _ => rfl) ⟨hlast, hfound, ?_, ?_⟩
    · rw [hcall, hout]
      rfl
    · intro hok
      rw [hout] at hok
      cases hok
    · intro hfresh _
      have htime := (timeExhausted_iff w.store.raw task.id).mpr hmax
      exact absurd htime (by simpa using hfresh)
  · refine inv_append h ?_ (fun _ => rfl) ⟨hlast, hfound, ?_, ?_⟩
    · rw [hcall, hout, hw.view_eq]
      rfl
    · intro _
      exact (toNat_eq_revisionOf_iff h _ _).mpr hrev
    · intro _ _
      exact congrArg Prod.fst hout

theorem inv_other (h : Inv w) (c : StoreCall) (now : Int64) :
    Inv { w with
      store := (w.store.call c now).2
      log := w.log ++
        if (w.store.call c now).1.wrote then
          ((contentOf (w.store.call c now).2.raw c.taskId).map (Event.write c.taskId)).toList
        else [] } := by
  have heffect := w.store.call_effect c now
  generalize w.store.call c now = outcome at heffect ⊢
  cases heffect with
  | silent hreply same =>
    rw [if_neg (by simp [hreply]), append_nil]
    exact ⟨same.view_eq.trans h.view, h.held, h.events, h.ids⟩
  | @wrote _ _ task hreply hid _ _ write =>
    obtain ⟨new, hnew, htask, _⟩ := write.written
    have hcontent : contentOf outcome.2.raw c.taskId = some task := by
      rw [contentOf, ← hid, hnew, Option.map_some, htask]
    rw [if_pos hreply, hcontent]
    have hview : outcome.2.raw.view =
        w.store.raw.view.writes (Event.write c.taskId task).written.toList := by
      rw [write.view_eq, hid]
      rfl
    exact inv_append h hview (fun _ => rfl) trivial

theorem inv_step (w : World) (a : Action) (w' : World) (h : Inv w) (hstep : clients.step w a = some w') : Inv w' := by
  cases a with
  | getSnapshot client id =>
    simp only [clients, step] at hstep
    by_cases hid : id = []
    · have hsnapshot : w.store.raw.getSnapshot id =
          .error (.validation "Task id is required") := by
        simp [InMemoryTaskStore.getSnapshot, hid]
      rw [hsnapshot] at hstep
      dsimp only at hstep
      rw [if_neg (by decide)] at hstep
      exact Option.some.inj hstep ▸ h
    · rw [getSnapshot_eq w.store.wellFormed hid] at hstep
      cases hentry : w.store.raw.entryOf id with
      | none =>
        rw [hentry] at hstep
        dsimp only at hstep
        rw [if_pos rfl] at hstep
        cases hstep
        refine inv_remember h client hid ?_ ?_
        · rw [view_revisionOf, revisionOf, hentry]
          rfl
        · rw [contentOf, hentry]
          rfl
      | some e =>
        rw [hentry] at hstep
        cases hstep
        refine inv_remember h client hid ?_ ?_
        · rw [view_revisionOf, revisionOf, hentry]
          rfl
        · rw [contentOf, hentry]
          rfl
  | createOrUpdateIfRevision client task now =>
    simp only [clients, step] at hstep
    cases hheld : w.held client with
    | none =>
      rw [hheld] at hstep
      cases hstep
    | some held =>
      rw [hheld] at hstep
      dsimp only at hstep
      by_cases hid : task.id = held.id
      · rw [if_neg (by simpa using hid)] at hstep
        exact Option.some.inj hstep ▸ inv_attempt h hheld hid
      · rw [if_pos hid] at hstep
        cases hstep
  | other c now =>
    exact Option.some.inj hstep ▸ inv_other h c now

theorem inv_of_reachable (h : clients.Reachable w) : Inv w :=
  h.invariant inv_start inv_step

/-! ## Conditional writes over a whole run -/

def writesTo (id : Bytes) (log : List Event) : List (Bytes × Task) :=
  (log.filterMap Event.written).filter fun w => w.1 == id

theorem writesTo_eq_nil_iff (id : Bytes) (log : List Event) :
    writesTo id log = [] ↔ id ∉ (log.filterMap Event.written).map Prod.fst := by
  rw [writesTo, filter_eq_nil_iff, mem_map]
  constructor
  · rintro h ⟨w, hw, rfl⟩
    exact h w hw (by simp)
  · intro h w hw hid
    exact h ⟨w, hw, by simpa using hid⟩

/-- A stretch of the log keeps the count of an id exactly if it does not write it. -/
theorem revisionOf_replay_append_iff (log later : List Event) (id : Bytes) :
    (replay (log ++ later)).revisionOf id = (replay log).revisionOf id ↔ writesTo id later = [] := by
  rw [replay_append, VersionedMap.revisionOf_writes_eq_iff, writesTo_eq_nil_iff]

theorem replay_append_of_unwritten (log : List Event) {later : List Event} {id : Bytes}
    (h : writesTo id later = []) : replay (log ++ later) id = replay log id := by
  rw [replay_append]
  exact VersionedMap.writes_of_not_mem _ ((writesTo_eq_nil_iff id later).mp h)

theorem revisionOf_replay_attempt (log : List Event) {a : Attempt} (h : a.result = .ok .updated) :
    (replay (log ++ [.attempt a])).revisionOf a.task.id =
      (replay log).revisionOf a.task.id + 1 := by
  rw [replay_append]
  simp only [filterMap_cons, filterMap_nil, written, h, if_true]
  exact VersionedMap.revisionOf_write_self _ _ _

/-- In every interleaving: an attempt carries the id and the revision of its client's last snapshot;
unless the update time is exhausted it succeeds if and only if the id was not written since; when it
succeeds it replaces exactly the content its client has seen; and of two successful attempts on one
id the later one names another revision. -/
theorem conditional_write_succeeds_iff_unwritten {w : World} (hw : clients.Reachable w) :
    (∀ before between after client held seen a,
      w.log = before ++ .snapshot client held seen :: (between ++ .attempt a :: after) →
      a.client = client → (∀ e ∈ between, e.snapshotBy client = none) →
      a.task.id = held.id ∧ a.expected = held.revision ∧
        (a.exhausted = false → (a.result = .ok .updated ↔ writesTo held.id between = [])) ∧
        (a.result = .ok .updated → writesTo held.id between = [] ∧ a.found = seen)) ∧
    (∀ before between after a a',
      w.log = before ++ .attempt a :: (between ++ .attempt a' :: after) →
      a.result = .ok .updated → a'.result = .ok .updated → a.task.id = a'.task.id →
      a.expected ≠ a'.expected) := by
  have hinv := inv_of_reachable hw
  refine ⟨?_, ?_⟩
  · intro before between after client held seen a hlog hclient hown
    subst hclient
    obtain ⟨hrevision, hseen⟩ := hinv.events before _ _ hlog
    have hlog' : w.log =
        (before ++ [.snapshot a.client held seen] ++ between) ++ .attempt a :: after := by
      rw [hlog, List.append_assoc, List.append_assoc, List.singleton_append]
    obtain ⟨⟨held', hlast, hid, hexpected⟩, hfound, hsound, hcomplete⟩ := hinv.events _ _ _ hlog'
    -- The last snapshot of this client is the one in front of `between`.
    rw [lastOf_append_of_forall_none _ hown, lastOf_append_singleton] at hlast
    obtain rfl : held = held' := by simpa [snapshotBy] using hlast
    rw [← hid] at hfound hsound hcomplete
    have hsnapshot : replay (before ++ [.snapshot a.client held seen]) = replay before := by
      rw [replay_append]
      rfl
    have hcount : a.expected.toNat =
        (replay (before ++ [.snapshot a.client held seen] ++ between)).revisionOf held.id ↔
        writesTo held.id between = [] := by
      rw [← revisionOf_replay_append_iff (before ++ [.snapshot a.client held seen]) between held.id,
        hsnapshot, ← hexpected, hrevision]
      exact eq_comm
    refine ⟨hid.symm, hexpected.symm, ?_, ?_⟩
    · intro hfresh
      constructor
      · intro hok
        exact hcount.mp (hsound hok)
      · intro hquiet
        exact hcomplete hfresh (hcount.mpr hquiet)
    · intro hok
      have hquiet := hcount.mp (hsound hok)
      refine ⟨hquiet, ?_⟩
      rw [hfound, replay_append_of_unwritten _ hquiet, hsnapshot]
      exact hseen.symm
  · intro before between after a a' hlog hok hok' hid hEq
    obtain ⟨_, _, hsound, _⟩ := hinv.events before _ _ hlog
    have hlog' : w.log = (before ++ [.attempt a] ++ between) ++ .attempt a' :: after := by
      rw [hlog, List.append_assoc, List.append_assoc, List.singleton_append]
    obtain ⟨_, _, hsound', _⟩ := hinv.events _ _ _ hlog'
    have h1 := hsound hok
    have h2 := hsound' hok'
    -- The first success has already moved the count past the revision both name.
    have hmove := revisionOf_replay_attempt before hok
    have hgrow : (replay (before ++ [.attempt a])).revisionOf a'.task.id ≤
        (replay (before ++ [.attempt a] ++ between)).revisionOf a'.task.id := by
      rw [replay_append (before ++ [attempt a]) between]
      exact VersionedMap.revisionOf_le_writes _ _ _
    rw [hid] at h1 hmove
    rw [hEq] at h1
    omega

/-- One client that reads a task and writes it back, with another writer before it. -/
theorem conditional_write_after_one_write :
    ∃ w a, clients.exec clients.start
        [.other (.createOrUpdate { id := "t" }) 1, .getSnapshot 0 "t",
          .createOrUpdateIfRevision 0 { id := "t", contextId := "c" } 2] = some w ∧
      w.log = [.write "t" { id := "t" }, .snapshot 0 ⟨"t", 1⟩ (some { id := "t" }), .attempt a] ∧
      a.exhausted = false ∧ (a.result = .ok .updated ↔ writesTo "t" [] = []) := by
  refine ⟨_, _, rfl, rfl, by decide, ?_⟩
  have hall := (conditional_write_succeeds_iff_unwritten
    (w := _) ⟨[.other (.createOrUpdate { id := "t" }) 1, .getSnapshot 0 "t",
      .createOrUpdateIfRevision 0 { id := "t", contextId := "c" } 2], rfl⟩).1
    [.write "t" { id := "t" }] [] [] 0 ⟨"t", 1⟩ (some { id := "t" }) _ rfl rfl
    (fun e he => nomatch he)
  exact hall.2.2.1 (by decide)

end A2A.Server.Tasks.OptimisticClients
