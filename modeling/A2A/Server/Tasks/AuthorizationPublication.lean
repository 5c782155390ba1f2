/-
# What the service writes is what it publishes.
-/
import A2A.Server.SubscriptionPublisher
import A2A.Server.Tasks.AuthorizationGate

namespace A2A.Server.Tasks.TaskAuthorizationService

open A2A.Foundation A2A.Core InMemoryTaskStore TaskSubscriptionService.Program List Function

/-! ## The subscription service inside -/

variable {w : World} {s s' : TaskSubscriptionService.World} {t : Nat} {shutdown : Bool}
    {writes : List Write}

/-- A step of this service is no step of the one inside, or one of its own. -/
theorem subscriptions_step {w' : World} {a : Action} (h : Step w a w') :
    w'.subscriptions = w.subscriptions ∨
      ∃ b, TaskSubscriptionService.step w.subscriptions b = some w'.subscriptions := by
  cases h with
  | publish c task hcall hstage hidle =>
    refine .inr ⟨.publishTaskUpdated serviceThread task, ?_⟩
    simp only [TaskSubscriptionService.step, hidle]
  | subscribe c task hcall hstage => exact .inr ⟨.subscribe task, rfl⟩
  | session a subscriptions ha hstep => exact .inr ⟨a, hstep⟩
  | _ => exact .inl rfl

/-- Everything proved about the subscription service holds of the one inside. -/
theorem subscriptions_reachable {store : ConsistentStore} (h : (service store).Reachable w) :
    TaskSubscriptionService.service.Reachable w.subscriptions := by
  refine h.invariant (I := fun w => TaskSubscriptionService.service.Reachable w.subscriptions)
    ⟨[], rfl⟩ ?_
  intro w a w' hbefore hstep
  rcases subscriptions_step (step_inv hstep) with hsame | ⟨b, hb⟩
  · rw [hsame]
    exact hbefore
  · exact hbefore.step hb

/-- What a step of the other callers leaves alone. -/
structure Apart (s s' : TaskSubscriptionService.World) : Prop where
  exclusive : (∀ t, t ≠ serviceThread → (s.threads t).toPublish = []) →
    ∀ t, t ≠ serviceThread → (s'.threads t).toPublish = []
  running : s'.shutdown = false → s.shutdown = false
  conserved : (∀ t, t ≠ serviceThread → (s.threads t).toPublish = []) → s'.shutdown = false →
    s'.published ++ (s'.threads serviceThread).toPublish =
      s.published ++ (s.threads serviceThread).toPublish
  idle : s.threads serviceThread = .idle → s'.threads serviceThread = .idle

/-- What only moves a coroutine. -/
theorem Apart.ofSame (hthreads : s'.threads = s.threads) (hshutdown : s'.shutdown = s.shutdown)
    (hpublished : s'.published = s.published) : Apart s s' := by
  refine ⟨?_, ?_, ?_, ?_⟩
  · rw [hthreads]
    exact id
  · rw [hshutdown]
    exact id
  · intro _ _
    rw [hthreads, hpublished]
  · rw [hthreads]
    exact id

open TaskSubscriptionService

theorem Apart.ofRunState {x : Nat} {sub : Option TaskSubscriptionService.Subscriber}
    (h : s.runState x sub = some s') : Apart s s' := by
  obtain ⟨_, sub', _, rfl⟩ := runState_eq_some h
  exact .ofSame rfl rfl rfl

/-- A call of another thread, with nothing to publish. -/
theorem Apart.ofCall {s₀ : TaskSubscriptionService.World} {p : TaskSubscriptionService.Program} (ht : t ≠ serviceThread)
    (hp : p.toPublish = []) (hthreads : s₀.threads = s.threads) (hshutdown : s₀.shutdown = s.shutdown)
    (hpublished : s₀.published = s.published) : Apart s (s₀.setThread t p) := by
  have hown : (s₀.setThread t p).threads serviceThread = s.threads serviceThread := by
    show update s₀.threads t p serviceThread = _
    rw [update_of_ne (Ne.symm ht), hthreads]
  refine ⟨?_, ?_, ?_, ?_⟩
  · intro hexclusive u hu
    show (update s₀.threads t p u).toPublish = []
    by_cases hut : u = t
    · subst hut
      rw [update_self, hp]
    · rw [update_of_ne hut, hthreads]
      exact hexclusive u hu
  · intro hrunning
    exact hshutdown ▸ hrunning
  · intro _ _
    rw [hown]
    show s₀.published ++ _ = _
    rw [hpublished]
  · intro hidle
    rw [hown, hidle]

open TaskSubscriptionService.World

theorem Apart.ofThread {order : List Nat} (h : s.runThread t order = some s') : Apart s s' := by
  have hrecords := (threadStep_of_runThread h).records
  by_cases ht : t = serviceThread
  · subst ht
    refine ⟨?_, hrecords.running, fun _ => hrecords.conserved, ?_⟩
    · intro hexclusive u hu
      rw [hrecords.others u hu]
      exact hexclusive u hu
    · intro hidle
      exact absurd h (by simp [runThread, hidle])
  · refine ⟨?_, hrecords.running, ?_, ?_⟩
    · intro hexclusive u hu
      by_cases hut : u = t
      · subst hut
        exact (hrecords.quiet (hexclusive u hu)).2
      · rw [hrecords.others u hut]
        exact hexclusive u hu
    · intro hexclusive _
      rw [hrecords.others _ (Ne.symm ht), (hrecords.quiet (hexclusive t ht)).1]
    · intro hidle
      rw [hrecords.others _ (Ne.symm ht), hidle]

theorem apart_of_step {a : TaskSubscriptionService.Action} (ha : ofOthers a)
    (h : TaskSubscriptionService.step s a = some s') : Apart s s' := by
  cases a with
  | subscribe | publishTaskUpdated => exact absurd ha (by simp [ofOthers])
  | shutdown t =>
    have ht : t ≠ serviceThread := by simpa [ofOthers] using ha
    simp only [TaskSubscriptionService.step] at h
    split at h
    · cases h
      exact .ofCall ht rfl rfl rfl rfl
    · cases h
  | cancel t s =>
    have ht : t ≠ serviceThread := by simpa [ofOthers] using ha
    simp only [TaskSubscriptionService.step] at h
    split at h
    · split_ifs at h
      · cases h
        exact .ofSame rfl rfl rfl
      · cases h
        exact .ofCall ht rfl rfl rfl rfl
    · cases h
  | next | nextFor | isLive | coroutine | reader | timeOut => exact .ofRunState h
  | thread t order => exact .ofThread h

/-! ## The update on its way -/

/-- The update that a call has written and not yet handed to the subscription service. -/
def Stage.toPublish : Stage → List Task
  | .publish task => [task]
  | _ => []

/-- The call is inside `PublishTaskUpdated`. -/
def Stage.isPublishing : Stage → Bool
  | .publishing _ => true
  | _ => false

/-- The update that the call inside has written and not yet handed over. -/
def World.unpublished (w : World) : List Task := (w.call.map fun c => c.stage.toPublish).getD []

/-- The call inside the service, and the stage it is at. -/
structure Inside (w : World) (c : Call) (stage : Stage) : Prop where
  call : w.call = some c
  reached : c.stage = stage

theorem Inside.unpublished {c : Call} {stage : Stage} (h : Inside w c stage) : w.unpublished = stage.toPublish := by
  obtain ⟨hcall, rfl⟩ := h
  rw [World.unpublished, hcall]
  rfl

/-- The update that has been written and not yet published. -/
def World.onItsWay (w : World) : List Task :=
  (w.call.map fun c => c.stage.toPublish).getD [] ++ (w.subscriptions.threads serviceThread).toPublish

@[simp] theorem goOn_toPublish (c : Call) (task : Task) : (c.goOn task).toPublish = [] := by
  unfold Call.goOn
  split_ifs <;> rfl

theorem ownWrites_append (log later : List Event) : ownWrites (log ++ later) = ownWrites log ++ ownWrites later :=
  filterMap_append ..

/-- One write, of a task that is not terminal if the call goes on to subscribe to it. -/
structure WroteOnce (request : Request) (task : Task) (writes : List Write) : Prop where
  tasks : writes.map Write.task = [task]
  live : request.streams = true → isTerminalTaskState task.state = false

/-- What a call has written at each stage. -/
def StageOk (shutdown : Bool) (request : Request) (writes : List Write) : Stage → Prop
  | .read => writes = []
  | .persist planned =>
    writes = [] ∧ (request.streams = true → isTerminalTaskState planned.task.state = false)
  | .publish task | .publishing task => WroteOnce request task writes
  | .subscribe task => request.streams = true ∧ (writes = [] ∨ WroteOnce request task writes)
  | .returning result =>
    writes = [] ∨ (writes.length = 1 ∧ (shutdown = false → ∃ answer, result = .ok answer))

/-- What is known about the call inside the service. -/
structure CallOk (w : World) (c : Call) : Prop where
  begunAt : c.begunAt ≤ w.log.length
  publishedAt : w.subscriptions.shutdown = false →
    c.publishedAt = (ownWrites (w.log.take c.begunAt)).length
  stage : StageOk w.subscriptions.shutdown c.request (ownWrites (w.log.drop c.begunAt)) c.stage

/-- What is known about a call that has returned. -/
structure OutcomeOk (o : Outcome) : Prop where
  once : o.writes.length ≤ 1
  published : o.published = o.writes.map Write.task
  error : ∀ e, o.result = .error e → o.writes = []

/-- Writes and publications are one sequence. -/
structure Matched (w : World) : Prop where
  exclusive : ∀ t, t ≠ serviceThread → (w.subscriptions.threads t).toPublish = []
  idle : (∀ c, w.call = some c → c.stage.isPublishing = false) →
    w.subscriptions.threads serviceThread = .idle
  conserved : w.subscriptions.shutdown = false →
    w.subscriptions.published ++ w.onItsWay = (ownWrites w.log).map Write.task
  call : ∀ c, w.call = some c → CallOk w c
  returned : w.subscriptions.shutdown = false → ∀ o, .returned o ∈ w.log → OutcomeOk o

theorem StageOk.running {shutdown' : Bool} {request : Request} {stage : Stage}
    (h : StageOk shutdown request writes stage) (hrunning : shutdown' = false → shutdown = false) :
    StageOk shutdown' request writes stage := by
  cases stage with
  | returning result =>
    rcases h with hnone | ⟨hone, hok⟩
    · exact .inl hnone
    · exact .inr ⟨hone, fun hrun => hok (hrunning hrun)⟩
  | _ => exact h

/-- After a write, or after none, a call goes on to subscribe or returns its task. -/
theorem stageOk_goOn {c : Call} {task : Task} (h : writes = [] ∨ WroteOnce c.request task writes) :
    StageOk shutdown c.request writes (c.goOn task) := by
  unfold Call.goOn
  split_ifs with hstreams
  · exact ⟨hstreams, h⟩
  · rcases h with hnone | hone
    · exact .inl hnone
    · refine .inr ⟨?_, fun _ => ⟨_, rfl⟩⟩
      rw [← length_map, hone.tasks]
      rfl

open World

namespace Matched

variable {w w' : World}

variable {c c' : Call} {stage stage' : Stage} {later : List Event} {store : ConsistentStore} {task : Task}
    {result : Result Answer}

theorem start (store : ConsistentStore) : Matched (service store).start where
  exclusive := fun _ _ => rfl
  idle := fun _ => rfl
  conserved := fun _ => rfl
  call := by
    intro c hcall
    exact absurd hcall (by simp [service])
  returned := by
    intro _ o ho
    cases ho

/-- With nothing on its way, the publications are the writes. -/
theorem published_eq (h : Matched w) (hrunning : w.subscriptions.shutdown = false)
    (hidle : w.subscriptions.threads serviceThread = .idle) (hnone : w.unpublished = []) :
    w.subscriptions.published = (ownWrites w.log).map Write.task := by
  have hconserved := h.conserved hrunning
  rw [onItsWay, ← unpublished, hidle, hnone] at hconserved
  simpa [toPublish] using hconserved

theorem stageOk (h : Matched w) (hin : Inside w c stage) :
    StageOk w.subscriptions.shutdown c.request (ownWrites (w.log.drop c.begunAt)) stage := by
  obtain ⟨hcall, rfl⟩ := hin
  exact (h.call c hcall).stage

theorem idle_of_inside (h : Matched w) (hin : Inside w c stage) (hstage : stage.isPublishing = false) :
    w.subscriptions.threads serviceThread = .idle := by
  obtain ⟨hcall, rfl⟩ := hin
  refine h.idle ?_
  intro c' hc'
  cases hcall.symm.trans hc'
  exact hstage

section GoesOn

variable (h : CallOk w c) (hlog : w'.log = w.log ++ later)
  (hrunning : w'.subscriptions.shutdown = false → w.subscriptions.shutdown = false)

include h hlog hrunning

/-- A call that goes on: what it has written is what it had written, and what the log has got since. -/
theorem callOk_advance (hbegun : c'.begunAt = c.begunAt) (hpublished : c'.publishedAt = c.publishedAt)
    (hstage : StageOk w'.subscriptions.shutdown c'.request
      (ownWrites (w.log.drop c.begunAt) ++ ownWrites later) c'.stage) : CallOk w' c' where
  begunAt := by
    rw [hlog, hbegun, length_append]
    have hle := h.begunAt
    omega
  publishedAt := by
    intro hrun
    rw [hlog, hbegun, hpublished, take_append_of_le_length h.begunAt]
    exact h.publishedAt (hrunning hrun)
  stage := by
    rw [hlog, hbegun, drop_append_of_le_length h.begunAt, ownWrites_append]
    exact hstage

variable (hown : ownWrites later = [])

include hown

theorem callOk_goOn (hbegun : c'.begunAt = c.begunAt) (hpublished : c'.publishedAt = c.publishedAt)
    (hstage : StageOk w'.subscriptions.shutdown c'.request (ownWrites (w.log.drop c.begunAt)) c'.stage) :
    CallOk w' c' := by
  refine callOk_advance h hlog hrunning hbegun hpublished ?_
  rw [hown, append_nil]
  exact hstage

theorem callOk_others : CallOk w' c := callOk_goOn h hlog hrunning hown rfl rfl (h.stage.running hrunning)

end GoesOn

/-- A step of the service with nothing to publish, before it or after it. -/
theorem quiet (h : Matched w) (hthreads : w'.subscriptions.threads = w.subscriptions.threads)
    (hshutdown : w'.subscriptions.shutdown = w.subscriptions.shutdown)
    (hpublished : w'.subscriptions.published = w.subscriptions.published)
    (hidle : w.subscriptions.threads serviceThread = .idle) (hbefore : w.unpublished = [])
    (hafter : w'.unpublished = []) (hlog : w'.log = w.log ++ later)
    (hown : ownWrites later = []) (hcall : ∀ c, w'.call = some c → CallOk w' c)
    (hreturned : w.subscriptions.shutdown = false → ∀ o, .returned o ∈ later → OutcomeOk o) :
    Matched w' where
  exclusive := by
    rw [hthreads]
    exact h.exclusive
  idle := by
    intro _
    rw [hthreads, hidle]
  conserved := by
    intro hrunning
    have hconserved := h.conserved (hshutdown ▸ hrunning)
    rw [onItsWay, ← unpublished, hbefore] at hconserved
    rw [onItsWay, ← unpublished, hafter, hthreads, hpublished, hconserved, hlog, ownWrites_append, hown,
      append_nil]
  call := hcall
  returned := by
    intro hrunning o ho
    rw [hlog] at ho
    rcases mem_append.mp ho with ho | ho
    · exact h.returned (hshutdown ▸ hrunning) o ho
    · exact hreturned (hshutdown ▸ hrunning) o ho

/-- The store call of `Persist` has written: the update is with the call. -/
theorem persisted (h : Matched w) {planned : TaskSnapshot} {revision : UInt64}
    (hin : Inside w c (.persist planned)) :
    Matched { w with
      store
      call := some { c with stage := .publish planned.task }
      log := w.log ++ [.wrote ⟨some c.request, planned.task, revision, c.seenAt⟩] } := by
  have hidle := h.idle_of_inside hin rfl
  have hbefore := h.stageOk hin
  refine ⟨h.exclusive, fun _ => hidle, ?_, ?_, ?_⟩
  · intro hrunning
    have hpublished := h.published_eq hrunning hidle hin.unpublished
    simp [onItsWay, Stage.toPublish, hidle, toPublish, hpublished, ownWrites, Event.ownWrite]
  · intro c' hc'
    cases hc'
    refine callOk_advance (h.call c hin.call) rfl id rfl rfl ?_
    rw [hbefore.1]
    exact ⟨rfl, hbefore.2⟩
  · intro hrunning o ho
    rcases mem_append.mp ho with ho | ho
    · exact h.returned hrunning o ho
    · simp at ho

/-- `PublishTaskUpdated` is called: the update passes from the call to its thread. -/
theorem publish (h : Matched w) (hin : Inside w c (.publish task))
    (hidle : w.subscriptions.threads serviceThread = .idle) :
    Matched { w with
      subscriptions := w.subscriptions.setThread serviceThread (.lockPublication task)
      call := some { c with stage := .publishing task } } := by
  refine ⟨?_, ?_, ?_, ?_, h.returned⟩
  · intro t ht
    show (update w.subscriptions.threads serviceThread _ t).toPublish = []
    rw [update_of_ne ht]
    exact h.exclusive t ht
  · intro hnot
    exact absurd (hnot _ rfl) (by simp [Stage.isPublishing])
  · intro hrunning
    have hconserved := h.conserved hrunning
    rw [onItsWay, ← unpublished, hin.unpublished, hidle] at hconserved
    rw [onItsWay, ← hconserved]
    simp [Stage.toPublish, setThread, toPublish]
  · intro c' hc'
    cases hc'
    have hwrote : WroteOnce c.request task (ownWrites (w.log.drop c.begunAt)) := h.stageOk hin
    exact callOk_goOn (h.call c hin.call) (append_nil _).symm id rfl rfl rfl hwrote

/-- A step of the other callers of the subscription service. -/
theorem session (h : Matched w) {subscriptions : TaskSubscriptionService.World}
    (hapart : Apart w.subscriptions subscriptions) : Matched { w with subscriptions } where
  exclusive := hapart.exclusive h.exclusive
  idle := fun hnot => hapart.idle (h.idle hnot)
  conserved := by
    intro hrunning
    have hconserved := h.conserved (hapart.running hrunning)
    have hsame := hapart.conserved h.exclusive hrunning
    show subscriptions.published ++ (_ ++ (subscriptions.threads serviceThread).toPublish) = _
    -- The update is with the call or with its thread, never with both.
    cases hstage : (w.call.map fun c => c.stage.toPublish).getD [] with
    | nil =>
      rw [onItsWay, hstage] at hconserved
      rw [nil_append, hsame, ← hconserved, nil_append]
    | cons task rest =>
      have hidle : w.subscriptions.threads serviceThread = .idle := by
        refine h.idle ?_
        intro c hc
        rw [hc] at hstage
        cases hs : c.stage <;> simp [hs, Stage.toPublish, Stage.isPublishing] at hstage ⊢
      rw [hapart.idle hidle, hidle] at hsame
      rw [onItsWay, hstage, hidle] at hconserved
      rw [hapart.idle hidle, ← hconserved]
      simpa [toPublish] using hsame
  call := by
    intro c hc
    exact callOk_others (h.call c hc) (append_nil _).symm hapart.running rfl
  returned := fun hrunning => h.returned (hapart.running hrunning)

/-- A step of another writer of the store. -/
theorem external (h : Matched w) (hown : ownWrites later = []) (hreturned : ∀ o, .returned o ∉ later) :
    Matched { w with store, log := w.log ++ later } where
  exclusive := h.exclusive
  idle := h.idle
  conserved := by
    intro hrunning
    show _ = (ownWrites (w.log ++ later)).map Write.task
    rw [ownWrites_append, hown, append_nil]
    exact h.conserved hrunning
  call := by
    intro c hc
    exact callOk_others (h.call c hc) rfl id hown
  returned := by
    intro hrunning o ho
    rcases mem_append.mp ho with ho | ho
    · exact h.returned hrunning o ho
    · exact absurd ho (hreturned o)

theorem ownWrites_split (log : List Event) (n : Nat) :
    ownWrites log = ownWrites (log.take n) ++ ownWrites (log.drop n) := by
  rw [← ownWrites_append, take_append_drop]

/-- A call that has written a live task can subscribe to it, until shutdown. -/
theorem subscribe_ok (h : Matched w) (hlatest : TaskSubscriptionService.Latest w.subscriptions)
    (hin : Inside w c (.subscribe task)) (hstreams : c.request.streams)
    (hwrote : WroteOnce c.request task (ownWrites (w.log.drop c.begunAt)))
    (hrunning : w.subscriptions.shutdown = false) : ∃ s, (w.subscriptions.subscribe task).1 = .ok s := by
  have hpublished := h.published_eq hrunning (h.idle_of_inside hin rfl) hin.unpublished
  have hlast : w.subscriptions.lastPublished task.id = some task := by
    unfold lastPublished
    rw [hpublished, ownWrites_split w.log c.begunAt, map_append, hwrote.tasks,
      lastOf_append_singleton, if_pos rfl]
    rfl
  have hstatus := currentTask_statusOr hlatest hrunning task
  rw [hlast] at hstatus
  have hlive : isTerminalTaskState (w.subscriptions.currentTask task).state = false := by
    show isTerminalTaskState (w.subscriptions.currentTask task).statusOr.state = false
    rw [hstatus]
    exact hwrote.live hstreams
  refine ⟨w.subscriptions.subscriberCount, ?_⟩
  simp [TaskSubscriptionService.World.subscribe, hrunning, hlive]

theorem subscribe_frame (s : TaskSubscriptionService.World) (task : Task) :
    (s.subscribe task).2.threads = s.threads ∧ (s.subscribe task).2.shutdown = s.shutdown ∧
      (s.subscribe task).2.published = s.published := by
  unfold TaskSubscriptionService.World.subscribe
  dsimp only
  split_ifs <;> exact ⟨rfl, rfl, rfl⟩

section

variable (h : Matched w)

include h

theorem subscribe (hlatest : TaskSubscriptionService.Latest w.subscriptions) (hin : Inside w c (.subscribe task)) :
    Matched (w.subscribe c task) := by
  obtain ⟨hthreads, hshutdown, hpublished⟩ := subscribe_frame w.subscriptions task
  refine h.quiet hthreads hshutdown hpublished (h.idle_of_inside hin rfl) hin.unpublished rfl (append_nil _).symm rfl
    ?_ (fun _ o ho => nomatch ho)
  intro c' hc'
  cases hc'
  refine callOk_goOn (h.call c hin.call) (append_nil _).symm (fun hrun => hshutdown ▸ hrun) rfl rfl rfl ?_
  obtain ⟨hstreams, hnone | hwrote⟩ := h.stageOk hin
  · exact .inl hnone
  · refine .inr ⟨?_, ?_⟩
    · rw [← length_map, hwrote.tasks]
      rfl
    · intro hrun
      obtain ⟨s, hs⟩ := h.subscribe_ok hlatest hin hstreams hwrote (hshutdown ▸ hrun)
      exact ⟨.session s, by rw [hs]; rfl⟩

theorem outcomeOk (hin : Inside w c (.returning result))
    (hrunning : w.subscriptions.shutdown = false) :
    OutcomeOk
      { request := c.request
        result
        writes := ownWrites (w.log.drop c.begunAt)
        published := w.subscriptions.published.drop c.publishedAt } := by
  have hbefore := h.stageOk hin
  refine ⟨?_, ?_, ?_⟩
  · rcases hbefore with hnone | ⟨hone, _⟩
    · simp [hnone]
    · exact Nat.le_of_eq hone
  · -- The calls before this one account for the publications before this one.
    have hpublished := h.published_eq hrunning (h.idle_of_inside hin rfl) hin.unpublished
    show w.subscriptions.published.drop c.publishedAt = _
    rw [hpublished, ownWrites_split w.log c.begunAt, map_append, (h.call c hin.call).publishedAt hrunning,
      ← length_map (f := Write.task), drop_left]
  · intro e he
    rcases hbefore with hnone | ⟨_, hanswer⟩
    · exact hnone
    · obtain ⟨answer, hanswer⟩ := hanswer hrunning
      cases he.symm.trans hanswer

theorem unlock (hin : Inside w c (.returning result)) : Matched (w.unlock c result) := by
  refine h.quiet rfl rfl rfl (h.idle_of_inside hin rfl) hin.unpublished rfl rfl rfl ?_ ?_
  · intro c' hc'
    exact absurd hc' (by simp [World.unlock])
  · intro hrunning o ho
    obtain rfl : _ = o := by
      have heq := mem_singleton.mp ho
      injection heq with heq
      exact heq.symm
    exact h.outcomeOk hin hrunning

/-- A call goes on to another stage at which it has nothing to publish. -/
theorem goOn (hin : Inside w c stage)
    (hidle : w.subscriptions.threads serviceThread = .idle) (hbefore : stage.toPublish = [])
    (hin' : Inside w' c' stage') (hafter : stage'.toPublish = []) (hbegun : c'.begunAt = c.begunAt)
    (hpublishedAt : c'.publishedAt = c.publishedAt) (hsubscriptions : w'.subscriptions = w.subscriptions)
    (hlog : w'.log = w.log ++ later) (hown : ownWrites later = []) (hreturned : ∀ o, .returned o ∉ later)
    (hstage : StageOk w.subscriptions.shutdown c'.request (ownWrites (w.log.drop c.begunAt)) stage') :
    Matched w' := by
  refine h.quiet (by rw [hsubscriptions]) (by rw [hsubscriptions]) (by rw [hsubscriptions]) hidle
    (hin.unpublished.trans hbefore) (hin'.unpublished.trans hafter) hlog hown ?_
    (fun _ o ho => absurd ho (hreturned o))
  intro d hd
  cases hin'.call.symm.trans hd
  refine callOk_goOn (h.call c hin.call) hlog (by rw [hsubscriptions]; exact id) hown hbegun hpublishedAt ?_
  rw [hsubscriptions, hin'.reached]
  exact hstage

theorem begin (hcall : w.call = none) (request : Request) :
    Matched { w with
      call := some { request, begunAt := w.log.length, publishedAt := w.subscriptions.published.length } } := by
  have hnone : w.unpublished = [] := by
    rw [unpublished, hcall]
    rfl
  have hidle : w.subscriptions.threads serviceThread = .idle := by
    refine h.idle ?_
    intro c hc
    cases hcall.symm.trans hc
  refine h.quiet rfl rfl rfl hidle hnone rfl (append_nil _).symm rfl ?_ (fun _ o ho => nomatch ho)
  intro c hc
  cases hc
  refine ⟨Nat.le_refl _, ?_, ?_⟩
  · intro hrunning
    show w.subscriptions.published.length = _
    rw [h.published_eq hrunning hidle hnone, length_map, take_length]
  · show ownWrites (w.log.drop w.log.length) = []
    rw [drop_length]
    rfl

theorem read {v : Option Validation} (hin : Inside w c .read) (hdecided : Decided w.store.raw c v stage) :
    Matched { w with
      call := some { c with stage, seenAt := w.log.length }
      log := w.log ++ (v.map Event.validated).toList } := by
  have hnothing : ownWrites (w.log.drop c.begunAt) = [] := h.stageOk hin
  refine h.goOn hin (h.idle_of_inside hin rfl) rfl ⟨rfl, rfl⟩ ?_ rfl rfl rfl rfl ?_ ?_ ?_
  · cases hdecided with
    | refused | planned => rfl
    | answered task => exact goOn_toPublish c task
  · cases v <;> rfl
  · intro o ho
    cases v <;> simp at ho
  · rw [hnothing]
    cases hdecided with
    | refused e => exact .inl rfl
    | answered task => exact stageOk_goOn (c := c) (.inl rfl)
    | planned planned hplanned => exact ⟨rfl, hplanned.live_of_streams⟩

/-- Each step keeps what was written and what was published matched. -/
theorem step {a : Action} (hlatest : TaskSubscriptionService.Latest w.subscriptions)
    (hstep : Step w a w') : Matched w' := by
  cases hstep with
  | begin request hcall => exact h.begin hcall request
  | read c v stage hcall hstage hdecided => exact h.read ⟨hcall, hstage⟩ hdecided
  | refused now c planned e hcall hstage =>
    have hin : Inside w c (.persist planned) := ⟨hcall, hstage⟩
    exact h.goOn hin (h.idle_of_inside hin rfl) rfl ⟨rfl, rfl⟩ rfl rfl rfl rfl (append_nil _).symm rfl
      (fun o => not_mem_nil) (.inl (h.stageOk hin).1)
  | persisted now c planned store revision hcall hstage => exact h.persisted ⟨hcall, hstage⟩
  | publish c task hcall hstage hidle => exact h.publish ⟨hcall, hstage⟩ hidle
  | published c task hcall hstage hidle =>
    have hin : Inside w c (.publishing task) := ⟨hcall, hstage⟩
    exact h.goOn hin hidle rfl ⟨rfl, rfl⟩ (goOn_toPublish c task) rfl rfl rfl
      (append_nil _).symm rfl (fun o => not_mem_nil) (stageOk_goOn (c := c) (.inr (h.stageOk hin)))
  | subscribe c task hcall hstage => exact h.subscribe hlatest ⟨hcall, hstage⟩
  | unlock c result hcall hstage => exact h.unlock ⟨hcall, hstage⟩
  | session a subscriptions ha hsession => exact h.session (apart_of_step ha hsession)
  | externalSilent c now store hsame =>
    have hsilent : Matched { w with store, log := w.log ++ [] } :=
      h.external rfl fun o => not_mem_nil
    rwa [append_nil] at hsilent
  | externalWrote c now store task revision hid hwrote hrevision =>
    exact h.external rfl fun o ho => nomatch ho

end

end Matched

variable {store : ConsistentStore} {w : World}

/-- The invariant, over every run. -/
theorem matched_of_reachable (h : (service store).Reachable w) : Matched w := by
  have hboth : Matched w ∧ (service store).Reachable w := by
    refine h.invariant (I := fun w => Matched w ∧ (service store).Reachable w)
      ⟨Matched.start store, [], rfl⟩ ?_
    rintro w a w' ⟨hmatched, hreachable⟩ hstep
    have hlatest := latest_of_reachable (subscriptions_reachable hreachable)
    exact ⟨hmatched.step hlatest (step_inv hstep), hreachable.step hstep⟩
  exact hboth.1

/-! ## What callers can rely on -/

/-- The service changes the store only by writes that are in the log. -/
theorem Step.store_eq {w' : World} {a : Action} (h : Step w a w') (hservice : ∀ c now, a ≠ .external c now)
    (hown : ownWrites w'.log = ownWrites w.log) : w'.store = w.store := by
  cases h with
  | persisted now c planned store revision hcall hstage hexpected hwrote hrevision =>
    rw [ownWrites_append] at hown
    exact absurd hown (by simp [ownWrites, Event.ownWrite])
  | externalSilent c now | externalWrote c now => exact absurd rfl (hservice c now)
  | _ => rfl

/-- The publications: the writes of the service, but the one on its way. -/
theorem published_of_reachable (h : (service store).Reachable w) (hrunning : w.subscriptions.shutdown = false) :
    ∃ ws, ws <+: ownWrites w.log ∧ w.subscriptions.published = ws.map Write.task := by
  have hconserved := (matched_of_reachable h).conserved hrunning
  refine ⟨(ownWrites w.log).take w.subscriptions.published.length, take_prefix _ _, ?_⟩
  rw [map_take, ← hconserved, take_left]

/-- Before shutdown: a call publishes exactly what it has written, in the order of the revisions; it
overwrites nothing it has not read; and a call that fails has neither written nor published. -/
theorem calls_publish_what_they_write (store : ConsistentStore) {w : World}
    (h : (service store).Reachable w) (hrunning : w.subscriptions.shutdown = false) :
    (∀ o, .returned o ∈ w.log →
      (∀ answer, o.result = .ok answer → (o.writes = [] ∧ o.published = []) ∨
        ∃ write, o.writes = [write] ∧ o.published = [write.task]) ∧
      (∀ e, o.result = .error e → o.writes = [] ∧ o.published = [])) ∧
    (∃ ws, ws <+: ownWrites w.log ∧ w.subscriptions.published = ws.map Write.task ∧
      ws.Pairwise RevisionsGrow) ∧
    (∀ before write after, w.log = before ++ .wrote write :: after → write.request.isSome = true →
      ∀ other, .wrote other ∈ before.drop write.seenAt → other.task.id ≠ write.task.id) ∧
    (∀ a w', step w a = some w' → (∀ c now, a ≠ .external c now) →
      ownWrites w'.log = ownWrites w.log → w'.store = w.store) := by
  have hordered := ordered_of_reachable h
  refine ⟨?_, ?_, ?_, ?_⟩
  · intro o ho
    obtain ⟨honce, hpublished, herror⟩ := (matched_of_reachable h).returned hrunning o ho
    refine ⟨?_, ?_⟩
    · intro answer _
      match hwrites : o.writes with
      | [] => exact .inl ⟨rfl, by rw [hpublished, hwrites]; rfl⟩
      | [write] => exact .inr ⟨write, rfl, by rw [hpublished, hwrites]; rfl⟩
      | _ :: _ :: _ =>
        rw [hwrites] at honce
        nomatch honce
    · intro e he
      have hnone := herror e he
      exact ⟨hnone, by rw [hpublished, hnone]; rfl⟩
  · obtain ⟨ws, hbegins, hpublished⟩ := published_of_reachable h hrunning
    exact ⟨ws, hbegins, hpublished, hordered.ownWrites_pairwise.sublist hbegins.sublist⟩
  · intro before write after hlog hown
    exact (hordered.writes before (.wrote write) after hlog).2 hown
  · intro a w' hstep
    exact (step_inv hstep).store_eq

/-- Another writer gets in before the write of a call, which then fails. -/
def Runs.conflict : List Action :=
  Runs.undisturbed Runs.ask 1 ++
    [.begin Runs.authorize, .read,
      .external (.appendTaskHistory "t" {} .noDedup (fun _ _ => [])) 2, .persist 3, .unlock]

/-- The last call returned an error. -/
def Runs.failed (log : List Event) : Bool :=
  match log.getLast? with
  | some (.returned { result := .error _, .. }) => true
  | _ => false

theorem conflicting_call_publishes_nothing : ∃ (w : World) (o : Outcome), .returned o ∈ w.log ∧
    o.writes = [] ∧ o.published = [] ∧ w.subscriptions.published.length = 1 ∧
    ∃ ws, ws <+: ownWrites w.log ∧ w.subscriptions.published = ws.map Write.task ∧
      ws.Pairwise RevisionsGrow := by
  obtain ⟨w, hw, hp⟩ := Machine.reachable_of_exec (M := service .empty)
    (p := fun w => !w.subscriptions.shutdown && decide (w.subscriptions.published.length = 1) &&
      Runs.failed w.log) Runs.conflict (by decide)
  simp only [Bool.and_eq_true, Bool.not_eq_true', decide_eq_true_eq] at hp
  obtain ⟨⟨hrunning, hlength⟩, hlast⟩ := hp
  obtain ⟨hreturned, hpublished, _⟩ := calls_publish_what_they_write .empty hw hrunning
  unfold Runs.failed at hlast
  split at hlast
  · next request e writes published hreturn =>
      have hmem := List.mem_of_getLast? hreturn
      obtain ⟨hwrites, hnone⟩ := (hreturned _ hmem).2 e rfl
      exact ⟨w, _, hmem, hwrites, hnone, hlength, hpublished⟩
  · cases hlast

end A2A.Server.Tasks.TaskAuthorizationService
