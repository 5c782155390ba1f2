/-
# Which state a subscription starts from.
-/
import A2A.Server.Tasks.AuthorizationPublication

namespace A2A.Server.Tasks.TaskAuthorizationService

open A2A.Foundation A2A.Core InMemoryTaskStore

/-- A call waits for the subscription service, and nothing is published. -/
structure Waiting (c : Call) (published : List Task) (w : World) : Prop where
  call : w.call = some c
  published : w.subscriptions.shutdown = false → w.subscriptions.published = published

variable {c : Call} {task : Task} {published : List Task} {w w' : World} {store : ConsistentStore} {taskId : Bytes}

/-- Until the call subscribes, nothing is published. -/
theorem Waiting.step {a : Action} (h : Waiting c published w) (hstage : c.stage = .subscribe task)
    (hmatched : Matched w) (ha : a ≠ .subscribe) (hstep : Step w a w') : Waiting c published w' := by
  have hown : ∀ c', w.call = some c' → c'.stage = .subscribe task := by
    intro c' hc'
    cases h.call.symm.trans hc'
    exact hstage
  cases hstep with
  | begin request hcall => nomatch h.call.symm.trans hcall
  | read c' v stage hcall hother | refused now c' planned e hcall hother
  | persisted now c' planned store revision hcall hother | publish c' task' hcall hother
  | published c' task' hcall hother | unlock c' result hcall hother =>
    cases hother.symm.trans (hown c' hcall)
  | subscribe => exact absurd rfl ha
  | session a subscriptions hothers hsession =>
    refine ⟨h.call, ?_⟩
    intro hrunning
    have hapart := apart_of_step hothers hsession
    have hidle := hmatched.idle fun c' hc' => by rw [hown c' hc']; rfl
    have hsame := hapart.conserved hmatched.exclusive hrunning
    rw [hapart.idle hidle, hidle] at hsame
    rw [← h.published (hapart.running hrunning)]
    exact List.append_cancel_right hsame
  | externalSilent | externalWrote => exact ⟨h.call, h.published⟩

theorem Waiting.exec {ls : List Action} (h : Waiting c published w) (hstage : c.stage = .subscribe task)
    (hreachable : (service store).Reachable w) (hls : .subscribe ∉ ls)
    (hrun : (service store).exec w ls = some w') : Waiting c published w' := by
  induction ls generalizing w with
  | nil =>
    cases hrun
    exact h
  | cons a ls ih =>
    obtain ⟨v, hstep, hrest⟩ := Machine.exec_cons.mp hrun
    rw [List.mem_cons, not_or] at hls
    have hv := h.step hstage (matched_of_reachable hreachable) (Ne.symm hls.1) (step_inv hstep)
    exact ih hv (hreachable.step hstep) hls.2 hrest

theorem read_of_subscribe (hcall : w.call = some c) (hrequest : c.request = .subscribe taskId)
    (hstage : c.stage = .read) (hstored : w.store.raw.get taskId = .ok task) :
    step w .read = some { w with call := some { c with stage := .subscribe task, seenAt := w.log.length } } := by
  have hplan : c.request.plan (some w.store.raw) = (none, .ok (.answer task)) := by
    rw [hrequest]
    simp [Request.plan, TaskAuthorizationService.subscribe, hstored, Except.map]
  have hgoOn : c.goOn task = .subscribe task := by
    simp [Call.goOn, hrequest, Request.streams]
  simp [step, hcall, World.runCall, hstage, World.read, hplan, hgoOn]

theorem get_id (h : store.raw.get taskId = .ok task) : task.id = taskId := by
  by_cases hid : taskId = []
  · subst hid
    exact absurd h (by simp [InMemoryTaskStore.get])
  · rw [get_eq store.wellFormed hid] at h
    cases hentry : store.raw.entryOf taskId with
    | none =>
      rw [hentry] at h
      cases h
    | some e =>
      rw [hentry] at h
      cases h
      exact store.wellFormed.entryOf_id hentry

/-- A terminal current status is rejected, any other starts a session. -/
theorem subscribe_current (s : TaskSubscriptionService.World) (task : Task) :
    (isTerminalTaskState (s.currentTask task).state ∨ s.shutdown →
      ∃ e, (s.subscribe task).1.map Answer.session = .error e) ∧
    ∀ n, (s.subscribe task).1.map Answer.session = .ok (.session n) → s.shutdown = false ∧
      ((s.subscribe task).2.states n).currentTask = s.currentTask task := by
  unfold TaskSubscriptionService.World.subscribe
  dsimp only
  split_ifs with hshutdown hterminal
  · refine ⟨fun _ => ⟨_, rfl⟩, ?_⟩
    intro n hn
    exact absurd hn (by simp [Except.map])
  · refine ⟨fun _ => ⟨_, rfl⟩, ?_⟩
    intro n hn
    exact absurd hn (by simp [Except.map])
  · refine ⟨?_, ?_⟩
    · rintro (h | h)
      · exact absurd h hterminal
      · exact absurd h hshutdown
    · intro n hn
      obtain rfl : s.subscriberCount = n := by simpa [Except.map] using hn
      refine ⟨by simpa using hshutdown, ?_⟩
      simp

/-- What `Subscribe` decides by: the status last published for the task, or the stored one if there
is none. Where the two agree, it is the stored status. -/
theorem subscribe_follows_last_published (store : ConsistentStore) {w w₁ w₂ w₃ : World} {c : Call} {taskId : Bytes}
    {task : Task} {ls : List Action} (h : (service store).Reachable w) (hcall : w.call = some c)
    (hrequest : c.request = .subscribe taskId) (hstage : c.stage = .read) (hstored : w.store.raw.get taskId = .ok task)
    (hread : (service store).step w .read = some w₁) (hrun : (service store).exec w₁ ls = some w₂)
    (hls : .subscribe ∉ ls) (hsubscribe : (service store).step w₂ .subscribe = some w₃) :
    ∃ result, w₃.call.map Call.stage = some (.returning result) ∧
      (isTerminalTaskState ((w.subscriptions.lastPublished taskId).getD task).state = true → ∃ e, result = .error e) ∧
      (∀ s, result = .ok (.session s) → ∃ shown, (w₃.subscriptions.states s).snapshot = .task shown ∧
        shown.statusOr = ((w.subscriptions.lastPublished taskId).getD task).statusOr) ∧
      ((∀ last, w.subscriptions.lastPublished taskId = some last → last.statusOr = task.statusOr) →
        (isTerminalTaskState task.state = true → ∃ e, result = .error e) ∧
        ∀ s, result = .ok (.session s) → ∃ shown, (w₃.subscriptions.states s).snapshot = .task shown ∧
          shown.statusOr = task.statusOr) := by
  have hread' := read_of_subscribe hcall hrequest hstage hstored
  cases hread'.symm.trans hread
  have hreachable₁ := h.step hread
  have hwaiting := Waiting.exec
    (c := { c with stage := .subscribe task, seenAt := w.log.length }) ⟨rfl, fun _ => rfl⟩ rfl
    hreachable₁ hls hrun
  have hlatest := TaskSubscriptionService.latest_of_reachable (subscriptions_reachable (hreachable₁.exec hrun))
  obtain rfl : w₂.subscribe { c with stage := .subscribe task, seenAt := w.log.length } task = w₃ := by
    simpa [service, TaskAuthorizationService.step, hwaiting.call, World.runCall] using hsubscribe
  obtain ⟨hrejected, haccepted⟩ := subscribe_current w₂.subscriptions task
  -- Unless the service was shut down, the current status is that of the last publication.
  have hstatus : w₂.subscriptions.shutdown = false → (w₂.subscriptions.currentTask task).statusOr =
        ((w.subscriptions.lastPublished taskId).getD task).statusOr := by
    intro hrunning
    rw [TaskSubscriptionService.currentTask_statusOr hlatest hrunning,
      TaskSubscriptionService.World.lastPublished, hwaiting.published hrunning, get_id hstored]
    rfl
  have hreject : isTerminalTaskState ((w.subscriptions.lastPublished taskId).getD task).state = true →
      ∃ e, (w₂.subscriptions.subscribe task).1.map Answer.session = .error e := by
    intro hterminal
    refine hrejected ?_
    cases hdown : w₂.subscriptions.shutdown with
    | true => exact .inr rfl
    | false =>
      refine .inl ?_
      show isTerminalTaskState (w₂.subscriptions.currentTask task).statusOr.state = true
      rw [hstatus hdown]
      exact hterminal
  have haccept : ∀ s, (w₂.subscriptions.subscribe task).1.map Answer.session = .ok (.session s) →
      ∃ shown, ((w₂.subscriptions.subscribe task).2.states s).snapshot = .task shown ∧
        shown.statusOr = ((w.subscriptions.lastPublished taskId).getD task).statusOr := by
    intro s hs
    obtain ⟨hrunning, hcurrent⟩ := haccepted s hs
    refine ⟨_, rfl, ?_⟩
    rw [hcurrent]
    exact hstatus hrunning
  refine ⟨_, rfl, hreject, haccept, ?_⟩
  intro hagree
  have hsame : ((w.subscriptions.lastPublished taskId).getD task).statusOr = task.statusOr := by
    cases hlast : w.subscriptions.lastPublished taskId with
    | none => rfl
    | some last => exact hagree last hlast
  refine ⟨?_, ?_⟩
  · intro hterminal
    refine hreject ?_
    show isTerminalTaskState ((w.subscriptions.lastPublished taskId).getD task).statusOr.state = true
    rw [hsame]
    exact hterminal
  · intro s hs
    rw [← hsame]
    exact haccept s hs

/-- A call of `Subscribe` on `t` reads `task` and is answered at once with the session `s`, which shows
the state `shown`. -/
structure Runs.Accepted (w w₁ w₂ : World) (c : Call) (task : Task) (s : Nat) (shown : TaskState) :
    Prop where
  call : w.call = some c
  request : c.request = .subscribe "t"
  stage : c.stage = .read
  stored : w.store.raw.get "t" = .ok task
  read : step w .read = some w₁
  subscribe : step w₁ .subscribe = some w₂
  answer : w₂.call.map Call.stage = some (.returning (.ok (.session s)))
  shown : (w₂.subscriptions.states s).currentTask.state = shown

def Runs.accepted (stored shown : TaskState) (w : World) : Bool :=
  match w.call, w.store.raw.get "t", step w .read with
  | some { request := .subscribe taskId, stage := .read, .. }, .ok task, some w₁ =>
    decide (taskId = "t") && decide (task.state = stored) &&
      match step w₁ .subscribe with
      | some w₂ =>
        match w₂.call.map Call.stage with
        | some (.returning (.ok (.session s))) =>
          decide ((w₂.subscriptions.states s).currentTask.state = shown)
        | _ => false
      | none => false
  | _, _, _ => false

theorem Runs.accepted_spec {stored shown : TaskState} (h : Runs.accepted stored shown w) :
    ∃ w₁ w₂ c task s, Runs.Accepted w w₁ w₂ c task s shown ∧ task.state = stored := by
  unfold Runs.accepted at h
  split at h
  · next taskId begunAt publishedAt seenAt task w₁ hcall hstored hread =>
      simp only [Bool.and_eq_true, decide_eq_true_eq] at h
      obtain ⟨⟨rfl, hstate⟩, h⟩ := h
      split at h
      · next w₂ hsubscribe =>
          split at h
          · next s hanswer =>
              exact ⟨w₁, w₂, _, task, s,
                ⟨hcall, rfl, rfl, hstored, hread, hsubscribe, hanswer, of_decide_eq_true h⟩, hstate⟩
          · cases h
      · cases h
  · cases h

theorem subscribe_shows_published_status : ∃ (w w' : World) (task shown : Task) (s : Nat),
    w.store.raw.get "t" = .ok task ∧
    w'.call.map Call.stage = some (.returning (.ok (.session s))) ∧
    (w'.subscriptions.states s).snapshot = .task shown ∧
    shown.statusOr = ((w.subscriptions.lastPublished "t").getD task).statusOr := by
  obtain ⟨w, hw, hp⟩ := Machine.reachable_of_exec (M := service .empty)
    (p := Runs.accepted .authRequired .authRequired)
    (Runs.undisturbed Runs.ask 1 ++ [.begin (.subscribe "t")]) (by decide)
  obtain ⟨w₁, w₂, c, task, s, h, _⟩ := Runs.accepted_spec hp
  obtain ⟨result, hresult, _, hshown, _⟩ := subscribe_follows_last_published .empty hw
    h.call h.request h.stage h.stored h.read rfl List.not_mem_nil h.subscribe
  obtain rfl : result = .ok (.session s) := by
    have hsame := hresult.symm.trans h.answer
    injection hsame with hsame
    injection hsame
  obtain ⟨shown, hsnapshot, hstatus⟩ := hshown s rfl
  exact ⟨w, w₂, task, shown, s, h.stored, h.answer, hsnapshot, hstatus⟩

/-- Another writer cancels the task in the store. `Subscribe` reads the canceled task, and starts a
session that shows it waiting for authorization. -/
theorem subscribe_accepts_canceled_task : ∃ (w w₁ w₂ : World) (c : Call) (task : Task) (s : Nat),
    (service .empty).Reachable w ∧ Runs.Accepted w w₁ w₂ c task s .authRequired ∧
    task.state = .canceled ∧ isTerminalTaskState task.state = true ∧
    (w₂.subscriptions.states s).currentTask.statusOr ≠ task.statusOr := by
  obtain ⟨w, hw, hp⟩ := Machine.reachable_of_exec (M := service .empty) (p := Runs.accepted .canceled .authRequired)
    (Runs.undisturbed Runs.ask 1 ++ [.external (.cancel "t") 2, .begin (.subscribe "t")]) (by decide)
  obtain ⟨w₁, w₂, c, task, s, h, hstate⟩ := Runs.accepted_spec hp
  refine ⟨w, w₁, w₂, c, task, s, hw, h, hstate, by rw [hstate]; rfl, ?_⟩
  intro hsame
  have hstates : (w₂.subscriptions.states s).currentTask.state = task.state :=
    congrArg TaskStatus.state hsame
  rw [h.shown, hstate] at hstates
  exact absurd hstates (by decide)

end A2A.Server.Tasks.TaskAuthorizationService
