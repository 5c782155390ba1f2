/-
# The service as its publishers see it.
-/
import A2A.Foundation.EventLog
import A2A.Server.SubscriptionThreads

namespace A2A.Server.TaskSubscriptionService

open A2A.Foundation A2A.Core Function

/-! ## Updates on their way -/

/-- The update that a thread inside `PublishTaskUpdated` has not yet recorded. -/
def Program.toPublish : Program → List Task
  | .lockPublication task | .publishSection task => [task]
  | _ => []

variable {p : Program} {w w' : World} {t : Nat}

@[simp] theorem toPublish_goOn (caller : Caller) : caller.goOn.toPublish = [] := by
  cases caller <;> rfl

theorem toPublish_of_closing {s : Nat} {caller : Caller} (h : p.closing = some (s, caller)) : p.toPublish = [] := by
  unfold Program.closing at h
  split at h <;> first | rfl | nomatch h

/-- What a section of the thread `t` does to the publications. -/
structure Records (w w' : World) (t : Nat) : Prop where
  others : ∀ u, u ≠ t → w'.threads u = w.threads u
  running : w'.shutdown = false → w.shutdown = false
  conserved : w'.shutdown = false →
    w'.published ++ (w'.threads t).toPublish = w.published ++ (w.threads t).toPublish
  quiet : (w.threads t).toPublish = [] →
    w'.published = w.published ∧ (w'.threads t).toPublish = []

/-- A section that records nothing, of a thread that has nothing to record. -/
theorem Records.ofQuiet {w₀ : World} (hthreads : w₀.threads = w.threads)
    (hpublished : w₀.published = w.published) (hrunning : w₀.shutdown = false → w.shutdown = false)
    (hbefore : (w.threads t).toPublish = []) (hafter : p.toPublish = []) :
    Records w (w₀.setThread t p) t where
  others := by
    intro u hu
    show update w₀.threads t p u = w.threads u
    rw [update_of_ne hu, hthreads]
  running := hrunning
  conserved := by
    intro _
    show w₀.published ++ (update w₀.threads t p t).toPublish = _
    rw [update_self, hpublished, hafter, hbefore]
  quiet := by
    intro _
    refine ⟨hpublished, ?_⟩
    show (update w₀.threads t p t).toPublish = []
    rw [update_self, hafter]

/-- Only the publishing section appends to what was published. -/
theorem ThreadStep.records (h : ThreadStep w t w') : Records w w' t := by
  cases h with
  | lockPublication task hp hfree =>
    refine ⟨fun u hu => update_of_ne hu _ _, id, ?_, ?_⟩
    · intro _
      simp [World.setThread, hp, Program.toPublish]
    · intro hnone
      exact absurd hnone (by simp [hp, Program.toPublish])
  | publishRefused task hp hshutdown =>
    refine ⟨fun u hu => update_of_ne hu _ _, id, ?_, ?_⟩
    · intro hrunning
      cases hshutdown.symm.trans hrunning
    · intro hnone
      exact absurd hnone (by simp [hp, Program.toPublish])
  | publish task hp hshutdown =>
    -- The only section that records: the update moves from the thread to the list.
    refine ⟨fun u hu => update_of_ne hu _ _, id, ?_, ?_⟩
    · intro _
      simp [World.setThread, World.recordPublished, hp, Program.toPublish]
    · intro hnone
      exact absurd hnone (by simp [hp, Program.toPublish])
  | published _ _ hp | enqueue _ _ _ _ hp | removeSubscriber _ hp | resumeLock _ _ hp | resumeUnlock _ _ hp =>
    exact .ofQuiet rfl rfl id (by rw [hp]; rfl) rfl
  | close s caller hp => exact .ofQuiet rfl rfl id (toPublish_of_closing hp) rfl
  | shutdown order hp hperm =>
    exact .ofQuiet rfl rfl (by simp) (by rw [hp]; rfl) rfl
  | finish hp =>
    refine .ofQuiet rfl rfl id ?_ rfl
    rcases hp with hp | hp | ⟨s, hp⟩ <;> rw [hp] <;> rfl
  | signal s caller hp =>
    refine .ofQuiet rfl rfl id (by rw [hp]; rfl) ?_
    split_ifs
    · rfl
    · exact toPublish_goOn caller
  | resumeDrop s caller hp => exact .ofQuiet rfl rfl id (by rw [hp]; rfl) (toPublish_goOn caller)

/-! ## The latest state of a task -/

def World.lastPublished (w : World) (taskId : Bytes) : Option Task :=
  lastOf (fun task => if task.id = taskId then some task else none) w.published

/-- Before shutdown, the latest state of each task is that of its last update. -/
def Latest (w : World) : Prop :=
  w.shutdown = false → ∀ taskId, w.latestTaskStatesById taskId =
    (w.lastPublished taskId).map fun task => ⟨task.contextId, task.statusOr⟩

theorem Latest.ofSame (h : Latest w) (hshutdown : w'.shutdown = w.shutdown)
    (hlatest : w'.latestTaskStatesById = w.latestTaskStatesById) (hpublished : w'.published = w.published) :
    Latest w' := by
  unfold Latest World.lastPublished at h ⊢
  rw [hshutdown, hlatest, hpublished]
  exact h

theorem Latest.recordPublished (h : Latest w) (task : Task) : Latest (w.recordPublished task) := by
  intro hrunning taskId
  show update w.latestTaskStatesById task.id (some ⟨task.contextId, task.statusOr⟩) taskId =
    (lastOf _ (w.published ++ [task])).map _
  rw [lastOf_append_singleton]
  by_cases hid : taskId = task.id
  · subst hid
    simp
  · rw [update_of_ne hid, if_neg (Ne.symm hid)]
    exact h hrunning taskId

theorem Latest.threadStep (h : Latest w) (hstep : ThreadStep w t w') : Latest w' := by
  cases hstep with
  | publish task hp hshutdown => exact (h.recordPublished task).ofSame rfl rfl rfl
  | shutdown order hp hperm =>
    intro hrunning
    exact absurd hrunning (by simp [World.setThread])
  | _ => exact h.ofSame rfl rfl rfl

theorem latest_of_reachable (h : service.Reachable w) : Latest w := by
  refine h.invariant (I := Latest) (fun _ _ => rfl) ?_
  intro w a w' hlatest hstep
  cases transition_of_step hstep with
  | thread t order hthread => exact hlatest.threadStep hthread
  | subscribeRefused | cancelAgain => exact hlatest
  | _ => exact hlatest.ofSame rfl rfl rfl

/-- The current status: the last published one, else the one passed in. -/
theorem currentTask_statusOr (h : Latest w) (hrunning : w.shutdown = false) (task : Task) :
    (w.currentTask task).statusOr = ((w.lastPublished task.id).getD task).statusOr := by
  unfold World.currentTask
  rw [h hrunning]
  cases w.lastPublished task.id <;> rfl

end A2A.Server.TaskSubscriptionService
