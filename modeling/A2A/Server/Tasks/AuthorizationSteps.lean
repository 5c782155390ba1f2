/-
# What one step of the authorization service can do.
-/
import A2A.Foundation.EventLog
import A2A.Server.Tasks.TaskAuthorizationService

namespace A2A.Server.Tasks.TaskAuthorizationService

open A2A.Foundation A2A.Core InMemoryTaskStore TaskLifecycleService VersionedMap List Option

/-! ## What a call plans -/

/-- A planned write that replaces the stored entry `e`, which is not terminal. -/
structure Rewrites (store : InMemoryTaskStore) (planned : TaskSnapshot) (e : Entry) : Prop where
  found : store.entryOf planned.task.id = some e
  revision : planned.revision = e.revision
  live : isTerminalTaskState e.task.state = false

/-- What a request may plan to write, with the validator call it has made. -/
inductive Planned (store : InMemoryTaskStore) : Request → Option Validation → TaskSnapshot → Prop where
  | asked {request : Request} {planned : TaskSnapshot} (hasks : request.asksForAuthorization = true)
      (hstate : planned.task.state = .authRequired)
      (hsource : planned.revision = 0 ∨ ∃ e, Rewrites store planned e) :
      Planned store request none planned
  | received {request : Request} {planned : TaskSnapshot} {e : Entry}
      (hstate : planned.task.state = .authRequired) (hsource : Rewrites store planned e) :
      Planned store request none planned
  | authorized {planned : TaskSnapshot} {e : Entry} (validator : Option CredentialValidator)
      (taskId credential : Bytes) (hstate : planned.task.state = .working)
      (hid : e.task.id = planned.task.id) (hsource : Rewrites store planned e) :
      Planned store (.authorize validator taskId credential) (some ⟨e.task, credential, true⟩) planned
  | completed {planned : TaskSnapshot} {e : Entry} (taskId : Bytes)
      (hstate : planned.task.state = .completed) (hbefore : e.task.state = .working)
      (hsource : Rewrites store planned e) : Planned store (.complete taskId) none planned
  | canceled {planned : TaskSnapshot} {e : Entry} (taskId : Bytes)
      (hstate : planned.task.state = .canceled) (hsource : Rewrites store planned e) :
      Planned store (.cancel taskId) none planned

section Plans

variable {store : ConsistentStore} {planned : TaskSnapshot}

variable {taskId : Bytes} {existing : TaskSnapshot} {request : SendMessageRequest} {v : Option Validation}

theorem snapshot_ok (h : snapshot (some store.raw) taskId = .ok existing) :
    ∃ e, store.raw.entryOf taskId = some e ∧ existing = ⟨e.task, e.revision⟩ ∧ e.task.id = taskId := by
  have h' : store.raw.getSnapshot taskId = .ok existing := h
  by_cases hid : taskId = []
  · subst hid
    exact absurd h' (by simp [getSnapshot])
  · rw [getSnapshot_eq store.wellFormed hid] at h'
    cases hentry : store.raw.entryOf taskId with
    | none =>
      rw [hentry] at h'
      cases h'
    | some e =>
      rw [hentry] at h'
      exact ⟨e, rfl, (Except.ok.inj h').symm, store.wellFormed.entryOf_id hentry⟩

theorem validate_ok {task : Task} (h : validateTaskForSendRequest request task = .ok ()) :
    isTerminalTaskState task.state = false := by
  unfold validateTaskForSendRequest at h
  split at h
  · cases h
  · split_ifs at h with hmismatch hcontext hterminal
    simpa using hterminal

/-- `Transition` plans the read entry with another state, if it is not terminal. -/
theorem transition_ok {state : TaskState} (hread : snapshot (some store.raw) taskId = .ok existing)
    (h : transition existing state = .ok (.persist planned)) :
    planned.task.state = state ∧ ∃ e, Rewrites store.raw planned e ∧ e.task = existing.task ∧
      e.task.id = planned.task.id := by
  obtain ⟨e, hentry, rfl, hid⟩ := snapshot_ok hread
  unfold transition at h
  split_ifs at h with hmarker hterminal
  cases h
  exact ⟨rfl, e, ⟨by rw [← hentry, ← hid], rfl, by simpa using hterminal⟩, rfl, rfl⟩

theorem requestAuthorizationLocked_ok {generateTaskId : TaskIdGenerator} {explanation : Message}
    (h : requestAuthorizationLocked (some store.raw) generateTaskId request explanation = .ok (.persist planned)) :
    planned.task.state = .authRequired ∧ (planned.revision = 0 ∨ ∃ e, Rewrites store.raw planned e) := by
  unfold requestAuthorizationLocked at h
  split_ifs at h with hnone hexplanation hnew
  · split at h
    · cases h
    · cases h
      exact ⟨rfl, .inl rfl⟩
  · -- A follow-up: the stored task is read and checked.
    split at h
    · cases h
    · split at h
      · cases h
      · next hread =>
          obtain ⟨e, hentry, rfl, hid⟩ := snapshot_ok hread
          split at h
          · cases h
          · next hvalid =>
              cases h
              exact ⟨rfl, .inr ⟨e, by rw [← hentry, ← hid]; rfl, rfl, validate_ok hvalid⟩⟩

theorem receiveMessageLocked_ok {serialize : Serializer}
    (h : receiveMessageLocked (some store.raw) serialize request = .ok (.persist planned)) :
    planned.task.state = .authRequired ∧ ∃ e, Rewrites store.raw planned e := by
  unfold receiveMessageLocked at h
  split at h
  · cases h
  · next hread =>
      obtain ⟨e, hentry, rfl, hid⟩ := snapshot_ok hread
      split at h
      · cases h
      · next hvalid =>
          split_ifs at h with hpending hduplicate
          · cases h
          · cases h
            rw [not_or, not_not] at hpending
            refine ⟨not_not.mp hpending.2, e, ?_, rfl, validate_ok hvalid⟩
            rw [← hentry, ← hid]
            rfl

theorem authorize_ok {validator : Option CredentialValidator} {credential : Bytes}
    (h : authorize (some store.raw) validator taskId credential = (v, .ok (.persist planned))) :
    Planned store.raw (.authorize validator taskId credential) v planned := by
  unfold authorize at h
  split at h
  · cases congrArg Prod.snd h
  · next existing hread =>
      split_ifs at h with hpending
      · cases congrArg Prod.snd h
      · split at h
        · cases congrArg Prod.snd h
        · next validate =>
            injection h with hv hplan
            split_ifs at hplan with hverdict
            obtain ⟨hstate, e, hsource, hsame, hid⟩ := transition_ok hread hplan
            rw [← hv, hverdict, ← hsame]
            exact .authorized _ taskId credential hstate hid hsource

/-- Whatever a request plans, one of the rules allows. -/
theorem planned_of_plan {request : Request} (h : request.plan (some store.raw) = (v, .ok (.persist planned))) :
    Planned store.raw request v planned := by
  cases request with
  | requestAuthorization generateTaskId request explanation =>
    injection h with hv hplan
    obtain ⟨hstate, hsource⟩ := requestAuthorizationLocked_ok hplan
    exact hv ▸ .asked rfl hstate hsource
  | receiveMessage serialize request =>
    injection h with hv hplan
    obtain ⟨hstate, e, hsource⟩ := receiveMessageLocked_ok hplan
    exact hv ▸ .received hstate hsource
  | authorize validator taskId credential => exact authorize_ok h
  | complete taskId =>
    injection h with hv hplan
    unfold complete at hplan
    split at hplan
    · cases hplan
    · next existing hread =>
        split_ifs at hplan with hgranted
        obtain ⟨hstate, e, hsource, hsame, _⟩ := transition_ok hread hplan
        rw [not_or, not_not] at hgranted
        exact hv ▸ .completed taskId hstate (hsame ▸ not_not.mp hgranted.2) hsource
  | cancel taskId =>
    injection h with hv hplan
    unfold cancel at hplan
    split at hplan
    · cases hplan
    · next existing hread =>
        obtain ⟨hstate, e, hsource, _⟩ := transition_ok hread hplan
        exact hv ▸ .canceled taskId hstate hsource
  | subscribe taskId =>
    injection h with hv hplan
    have hget : (store.raw.get taskId).map Plan.answer = .ok (.persist planned) := hplan
    cases hresult : store.raw.get taskId <;> simp [hresult, Except.map] at hget
  | sendStreamingMessage generateTaskId serialize request explanation =>
    injection h with hv hplan
    unfold sendStreamingMessage at hplan
    split_ifs at hplan with hempty
    · obtain ⟨hstate, hsource⟩ := requestAuthorizationLocked_ok hplan
      exact hv ▸ .asked hempty hstate hsource
    · obtain ⟨hstate, e, hsource⟩ := receiveMessageLocked_ok hplan
      exact hv ▸ .received hstate hsource

end Plans

variable {store : InMemoryTaskStore} {request : Request} {v : Option Validation} {planned : TaskSnapshot}
    {w w' : World} {c : Call} {a : Action} {start : VersionedMap Bytes Task}

/-- A call that ends with a subscription plans a task that is not terminal. -/
theorem Planned.live_of_streams (h : Planned store request v planned) (hstreams : request.streams = true) :
    isTerminalTaskState planned.task.state = false := by
  cases h with
  | asked hasks hstate hsource | received hstate hsource =>
    rw [hstate]
    rfl
  | authorized | completed | canceled => exact absurd hstreams (by simp [Request.streams])

/-- A plan expects a revision that the store has had. -/
theorem Planned.revision_le (h : Planned store request v planned) :
    planned.revision.toNat ≤ store.view.revisionOf planned.task.id := by
  have hrewrites : ∀ e, Rewrites store planned e →
      planned.revision.toNat ≤ store.view.revisionOf planned.task.id := by
    intro e hsource
    rw [view_revisionOf, InMemoryTaskStore.revisionOf, hsource.found, hsource.revision]
    exact Nat.le_refl _
  cases h with
  | asked hasks hstate hsource =>
    rcases hsource with hzero | ⟨e, hsource⟩
    · rw [hzero]
      exact Nat.zero_le _
    · exact hrewrites e hsource
  | received hstate hsource | authorized _ _ _ hstate hid hsource
  | completed _ hstate hbefore hsource | canceled _ hstate hsource => exact hrewrites _ hsource

/-! ## One step -/

/-- What a call may do after reading: refuse, answer, or go on to `Persist`. -/
inductive Decided (store : InMemoryTaskStore) (c : Call) (v : Option Validation) : Stage → Prop where
  | refused (e : Error) : Decided store c v (.returning (.error e))
  | answered (task : Task) : Decided store c v (c.goOn task)
  | planned (planned : TaskSnapshot) (h : Planned store c.request v planned) :
      Decided store c v (.persist planned)

/-- A step, with the store calls replaced by their effects. -/
inductive Step (w : World) : Action → World → Prop where
  | begin (request : Request) (hcall : w.call = none) :
      Step w (.begin request) { w with
        call := some { request, begunAt := w.log.length, publishedAt := w.subscriptions.published.length } }
  | read (c : Call) (v : Option Validation) (stage : Stage) (hcall : w.call = some c)
      (hstage : c.stage = .read) (hdecided : Decided w.store.raw c v stage) :
      Step w .read { w with
        call := some { c with stage, seenAt := w.log.length }
        log := w.log ++ (v.map Event.validated).toList }
  | refused (now : Int64) (c : Call) (planned : TaskSnapshot) (e : Error) (hcall : w.call = some c)
      (hstage : c.stage = .persist planned) :
      Step w (.persist now) { w with call := some { c with stage := .returning (.error e) } }
  | persisted (now : Int64) (c : Call) (planned : TaskSnapshot) (store : ConsistentStore)
      (revision : UInt64) (hcall : w.call = some c) (hstage : c.stage = .persist planned)
      (hexpected : w.store.raw.revisionOf planned.task.id = planned.revision)
      (hwrote : Wrote w.store.raw store.raw planned.task)
      (hrevision : revision.toNat = w.store.raw.view.revisionOf planned.task.id + 1) :
      Step w (.persist now) { w with
        store
        call := some { c with stage := .publish planned.task }
        log := w.log ++ [.wrote ⟨some c.request, planned.task, revision, c.seenAt⟩] }
  | publish (c : Call) (task : Task) (hcall : w.call = some c) (hstage : c.stage = .publish task)
      (hidle : w.subscriptions.threads serviceThread = .idle) :
      Step w .publish { w with
        subscriptions := w.subscriptions.setThread serviceThread (.lockPublication task)
        call := some { c with stage := .publishing task } }
  | published (c : Call) (task : Task) (hcall : w.call = some c) (hstage : c.stage = .publishing task)
      (hidle : w.subscriptions.threads serviceThread = .idle) :
      Step w .published { w with call := some { c with stage := c.goOn task } }
  | subscribe (c : Call) (task : Task) (hcall : w.call = some c) (hstage : c.stage = .subscribe task) :
      Step w .subscribe (w.subscribe c task)
  | unlock (c : Call) (result : Result Answer) (hcall : w.call = some c)
      (hstage : c.stage = .returning result) : Step w .unlock (w.unlock c result)
  | session (a : TaskSubscriptionService.Action) (subscriptions : TaskSubscriptionService.World)
      (ha : ofOthers a = true) (hstep : TaskSubscriptionService.step w.subscriptions a = some subscriptions) :
      Step w (.session a) { w with subscriptions }
  | externalSilent (c : StoreCall) (now : Int64) (store : ConsistentStore)
      (hsame : SameContents w.store.raw store.raw) : Step w (.external c now) { w with store }
  | externalWrote (c : StoreCall) (now : Int64) (store : ConsistentStore) (task : Task)
      (revision : UInt64) (hid : task.id = c.taskId) (hwrote : Wrote w.store.raw store.raw task)
      (hrevision : revision.toNat = w.store.raw.view.revisionOf task.id + 1) :
      Step w (.external c now) { w with
        store
        log := w.log ++ [.wrote ⟨none, task, revision, w.log.length⟩] }

/-- The log entry of a write: the written task, with the next revision. -/
theorem writeEvent_of_wrote {before after : InMemoryTaskStore} {task : Task}
    (h : Wrote before after task) (request : Option Request) (seenAt : Nat) :
    ∃ revision : UInt64, writeEvent after request task.id seenAt = [.wrote ⟨request, task, revision, seenAt⟩] ∧
      revision.toNat = before.view.revisionOf task.id + 1 := by
  obtain ⟨new, hnew, rfl, _⟩ := h.written
  refine ⟨new.revision, by rw [writeEvent, hnew]; rfl, ?_⟩
  have hview : after.view new.task.id = some ⟨new.task, before.view.revisionOf new.task.id + 1⟩ := by
    rw [h.view_eq, write_self]
  rw [InMemoryTaskStore.view, hnew] at hview
  exact congrArg Version.revision (Option.some.inj hview)

theorem store_eq_of_raw_eq {store store' : ConsistentStore} (h : store.raw = store'.raw) : store = store' := by
  cases store
  cases store'
  cases h
  rfl

/-- `Persist` is refused, or writes what was planned. -/
theorem step_persist (now : Int64) (hcall : w.call = some c) (hstage : c.stage = .persist planned) :
    Step w (.persist now) (w.persist c planned now) := by
  have hraw : (w.store.call (.createOrUpdateIfRevision planned.task planned.revision) now).2.raw =
      (w.store.raw.createOrUpdateIfRevision planned.task planned.revision now).2 := rfl
  unfold World.persist
  by_cases hid : planned.task.id = []
  · have hcalled : w.store.raw.createOrUpdateIfRevision planned.task planned.revision now =
        (.error (.validation "Task.id is required"), w.store.raw) := by
      simp [createOrUpdateIfRevision, hid]
    rw [hcalled] at hraw ⊢
    rw [store_eq_of_raw_eq hraw]
    exact .refused now c planned _ hcall hstage
  · rcases createOrUpdateIfRevision_spec w.store.wellFormed hid planned.revision now with
      ⟨_, hcalled⟩ | ⟨_, _, hcalled⟩ | ⟨hexpected, _, store', hcalled, hwf, hwrote⟩
    · rw [hcalled] at hraw ⊢
      rw [store_eq_of_raw_eq hraw]
      exact .refused now c planned _ hcall hstage
    · rw [hcalled] at hraw ⊢
      rw [store_eq_of_raw_eq hraw]
      exact .refused now c planned _ hcall hstage
    · rw [hcalled] at hraw ⊢
      have hstore : (w.store.call (.createOrUpdateIfRevision planned.task planned.revision) now).2 =
          ⟨store', hwf⟩ := store_eq_of_raw_eq hraw
      rw [hstore]
      obtain ⟨revision, hevent, hrevision⟩ := writeEvent_of_wrote hwrote (some c.request) c.seenAt
      dsimp only
      rw [hevent]
      exact .persisted now c planned ⟨store', hwf⟩ revision hcall hstage hexpected hwrote hrevision

theorem step_read (hcall : w.call = some c) (hstage : c.stage = .read) : Step w .read (w.read c) := by
  unfold World.read
  cases hplan : c.request.plan (some w.store.raw) with
  | mk v plan =>
    dsimp only
    refine .read c v _ hcall hstage ?_
    split
    · exact .refused _
    · exact .answered _
    · exact .planned _ (planned_of_plan hplan)

theorem step_external (w : World) (c : StoreCall) (now : Int64) :
    Step w (.external c now) { w with
      store := (w.store.call c now).2
      log := w.log ++
        if (w.store.call c now).1.wrote then
          writeEvent (w.store.call c now).2.raw none c.taskId w.log.length
        else [] } := by
  have heffect := w.store.call_effect c now
  generalize w.store.call c now = outcome at heffect ⊢
  cases heffect with
  | silent hreply same =>
    rw [if_neg (by simp [hreply]), append_nil]
    exact .externalSilent c now outcome.2 same
  | @wrote _ _ task hreply hid _ _ write =>
    obtain ⟨revision, hevent, hrevision⟩ := writeEvent_of_wrote write none w.log.length
    rw [if_pos hreply, ← hid, hevent]
    exact .externalWrote c now outcome.2 task revision hid write hrevision

/-- The step of the call inside is the one for its stage. -/
theorem step_runCall (hcall : w.call = some c) (h : w.runCall c a = some w') : Step w a w' := by
  unfold World.runCall at h
  split at h
  all_goals try split at h
  · next hstage =>
      cases h
      exact step_read hcall hstage
  · cases h
  · next hstage =>
      cases h
      exact step_persist _ hcall hstage
  · cases h
  · next task hstage =>
      obtain ⟨subscriptions, hstep, rfl⟩ := map_eq_some_iff.mp h
      simp only [TaskSubscriptionService.step] at hstep
      split at hstep
      · next hidle =>
          cases hstep
          exact .publish c task hcall hstage hidle
      · cases hstep
  · cases h
  · next hstage hidle =>
      cases h
      exact .published c _ hcall hstage hidle
  · cases h
  · next hstage =>
      cases h
      exact .subscribe c _ hcall hstage
  · cases h
  · next hstage =>
      cases h
      exact .unlock c _ hcall hstage
  · cases h
  · cases h

theorem step_inv (h : step w a = some w') : Step w a w' := by
  cases a with
  | begin request =>
    simp only [step] at h
    split at h
    · cases h
    · next hcall =>
        cases h
        exact .begin request hcall
  | session a =>
    simp only [step] at h
    split_ifs at h with ha
    obtain ⟨subscriptions, hstep, rfl⟩ := map_eq_some_iff.mp h
    exact .session a subscriptions ha hstep
  | external c now =>
    cases h
    exact step_external w c now
  | _ =>
    obtain ⟨c, hcall, hrun⟩ := bind_eq_some_iff.mp h
    exact step_runCall hcall hrun

/-! ## The log and the store -/

/-- What a log entry has written, under its id. -/
def Event.written : Event → Option (Bytes × Task)
  | .wrote write => some (write.task.id, write.task)
  | _ => none

/-- The tasks and revisions that a log leads to. -/
def replay (start : VersionedMap Bytes Task) (log : List Event) : VersionedMap Bytes Task :=
  start.writes (log.filterMap Event.written)

theorem replay_append (start : VersionedMap Bytes Task) (log later : List Event) :
    replay start (log ++ later) = (replay start log).writes (later.filterMap Event.written) := by
  unfold replay
  rw [filterMap_append, writes_append]

/-- A write makes the next revision; one of the service overwrites nothing that it has not read. -/
def WriteOk (start : VersionedMap Bytes Task) (before : List Event) : Event → Prop
  | .wrote write =>
    write.revision.toNat = (replay start before).revisionOf write.task.id + 1 ∧
    (write.request.isSome = true →
      ∀ other, .wrote other ∈ before.drop write.seenAt → other.task.id ≠ write.task.id)
  | _ => True

/-- The log and the store agree, and a planned write knows what it has read. -/
structure Ordered (start : VersionedMap Bytes Task) (w : World) : Prop where
  view : w.store.raw.view = replay start w.log
  writes : EachEvent (WriteOk start) w.log
  pending : ∀ c planned, w.call = some c → c.stage = .persist planned →
    c.seenAt ≤ w.log.length ∧
      planned.revision.toNat ≤ (replay start (w.log.take c.seenAt)).revisionOf planned.task.id

/-- The planned write of `w'` was planned before, or has just been planned. -/
def PlanKept (w w' : World) : Prop :=
  ∀ c planned, w'.call = some c → c.stage = .persist planned →
    w.call = some c ∨ (c.seenAt = w.log.length ∧
      planned.revision.toNat ≤ w.store.raw.view.revisionOf planned.task.id)

/-- One more entry in the log, or none. -/
theorem Ordered.extend (h : Ordered start w) (event : Option Event) (hlog : w'.log = w.log ++ event.toList)
    (hview : w'.store.raw.view = w.store.raw.view.writes (event.bind Event.written).toList)
    (hevent : ∀ e ∈ event, WriteOk start w.log e) (hplan : PlanKept w w') : Ordered start w' where
  view := by
    rw [hlog, replay_append, hview, h.view]
    cases event with
    | none => rfl
    | some e =>
      show _ = (replay start w.log).writes ([e].filterMap Event.written)
      cases hwritten : e.written <;> simp [hwritten]
  writes := by
    rw [hlog]
    exact h.writes.append_toList hevent
  pending := by
    intro c planned hcall hstage
    rcases hplan c planned hcall hstage with hbefore | ⟨hseen, hle⟩
    · obtain ⟨hlength, hle⟩ := h.pending c planned hbefore hstage
      rw [hlog, take_append_of_le_length hlength, length_append]
      exact ⟨by omega, hle⟩
    · rw [hlog, hseen, take_left, length_append, ← h.view]
      exact ⟨by omega, hle⟩

theorem Ordered.silent (h : Ordered start w) (hlog : w'.log = w.log) (hview : w'.store.raw.view = w.store.raw.view)
    (hplan : PlanKept w w') : Ordered start w' :=
  h.extend none (by rw [hlog, toList_none, append_nil]) hview (fun e he => nomatch he) hplan

/-- The entry of an id was not written since a state with the same revision. -/
theorem not_written_since {log : List Event} {n : Nat} {id : Bytes}
    (h : (replay start log).revisionOf id ≤ (replay start (log.take n)).revisionOf id) :
    ∀ other, Event.wrote other ∈ log.drop n → other.task.id ≠ id := by
  have hsplit : replay start log = (replay start (log.take n)).writes ((log.drop n).filterMap Event.written) := by
    rw [← replay_append, take_append_drop]
  have hle := revisionOf_le_writes (replay start (log.take n)) ((log.drop n).filterMap Event.written) id
  rw [← hsplit] at hle
  have hnone : id ∉ ((log.drop n).filterMap Event.written).map Prod.fst := by
    rw [← revisionOf_writes_eq_iff (replay start (log.take n)), ← hsplit]
    omega
  intro other hmem hid
  apply hnone
  refine mem_map.mpr ⟨(other.task.id, other.task), ?_, hid⟩
  exact mem_filterMap.mpr ⟨_, hmem, rfl⟩

theorem planKept_of_not_persist (h : ∀ c, w'.call = some c → ∀ planned, c.stage ≠ .persist planned) :
    PlanKept w w' := by
  intro c planned hcall hstage
  exact absurd hstage (h c hcall planned)

@[simp] theorem goOn_ne_persist (c : Call) (task : Task) (planned : TaskSnapshot) : c.goOn task ≠ .persist planned := by
  unfold Call.goOn
  split_ifs <;> simp

/-- The order is kept by every step. -/
theorem Ordered.step (h : Ordered start w) (hstep : Step w a w') : Ordered start w' := by
  cases hstep with
  | begin request hcall =>
    refine h.silent rfl rfl (planKept_of_not_persist ?_)
    intro c hc planned
    cases hc
    simp
  | read c v stage hcall hstage hdecided =>
    refine h.extend (v.map Event.validated) rfl ?_ ?_ ?_
    · cases v <;> rfl
    · intro e he
      obtain ⟨validation, _, rfl⟩ := map_eq_some_iff.mp he
      trivial
    · intro c' planned hc' hpersist
      cases hc'
      refine .inr ⟨rfl, ?_⟩
      cases hdecided with
      | refused e => nomatch hpersist
      | answered task => exact absurd hpersist (goOn_ne_persist c task planned)
      | planned planned' hplanned =>
        obtain rfl : planned' = planned := by injection hpersist
        exact hplanned.revision_le
  | refused | publish | published | subscribe =>
    refine h.silent rfl rfl (planKept_of_not_persist ?_)
    intro c' hc' planned'
    cases hc'
    simp
  | persisted now c planned store revision hcall hstage hexpected hwrote hrevision =>
    refine h.extend (some _) rfl ?_ ?_ (planKept_of_not_persist ?_)
    · exact hwrote.view_eq
    · intro e he
      cases he
      -- The revision has not moved since the call has read it.
      have hle : (replay start w.log).revisionOf planned.task.id ≤
          (replay start (w.log.take c.seenAt)).revisionOf planned.task.id := by
        rw [← h.view, view_revisionOf, hexpected]
        exact (h.pending c planned hcall hstage).2
      exact ⟨by rw [← h.view]; exact hrevision, fun _ => not_written_since hle⟩
    · intro c' hc' planned'
      cases hc'
      simp
  | unlock c result hcall hstage =>
    refine h.extend (some _) rfl rfl ?_ (planKept_of_not_persist ?_)
    · intro e he
      cases he
      trivial
    · intro c' hc'
      exact absurd hc' (by simp [World.unlock])
  | session a subscriptions ha hsession => exact h.silent rfl rfl fun c planned hc _ => .inl hc
  | externalSilent c now store hsame =>
    exact h.silent rfl hsame.view_eq fun c planned hc _ => .inl hc
  | externalWrote c now store task revision hid hwrote hrevision =>
    refine h.extend (some _) rfl hwrote.view_eq ?_ fun c planned hc _ => .inl hc
    intro e he
    cases he
    refine ⟨by rw [← h.view]; exact hrevision, ?_⟩
    intro hown
    cases hown

/-- The order, over every run. -/
theorem ordered_of_reachable {store : ConsistentStore} (h : (service store).Reachable w) :
    Ordered store.raw.view w := by
  refine h.invariant (I := Ordered store.raw.view) ⟨rfl, eachEvent_nil _, ?_⟩ ?_
  · intro c planned hcall
    exact absurd hcall (by simp [service])
  · intro w a w' hordered hstep
    exact hordered.step (step_inv hstep)

/-- Two writes of one task, in the order of the log. -/
def RevisionsGrow (a b : Write) : Prop := a.task.id = b.task.id → a.revision < b.revision

/-- The writes of the service are in the order of the revisions they made. -/
theorem Ordered.ownWrites_pairwise (h : Ordered start w) : (ownWrites w.log).Pairwise RevisionsGrow := by
  have hall : w.log.Pairwise fun e e' => ∀ a b, e = .wrote a → e' = .wrote b → RevisionsGrow a b := by
    refine h.writes.pairwise ?_
    rintro before _ between _ ha hb a b rfl rfl hid
    rw [UInt64.lt_iff_toNat_lt, ha.1, hb.1, ← hid, replay_append]
    have hle := revisionOf_le_writes ((replay start before).write a.task.id a.task)
      (between.filterMap Event.written) a.task.id
    rw [revisionOf_write_self] at hle
    show _ < ((replay start before).write a.task.id a.task |>.writes
      (between.filterMap Event.written)).revisionOf a.task.id + 1
    omega
  refine hall.filterMap _ ?_
  have hwrote : ∀ e write, Event.ownWrite e = some write → e = .wrote write := by
    intro e write he
    unfold Event.ownWrite at he
    split at he
    · split_ifs at he
      rw [Option.some.inj he]
    · cases he
  intro e e' hR a ha b hb
  exact hR a b (hwrote e a ha) (hwrote e' b hb)

end A2A.Server.Tasks.TaskAuthorizationService
