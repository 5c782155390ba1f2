/-
# The threads of the service and what they hold.
-/
import A2A.Server.SubscriptionInvariant
import A2A.Foundation.Ownership

namespace A2A.Server.TaskSubscriptionService

open A2A.Foundation A2A.Core List Function

/-! ## What a program says -/

/-- An event that is still to be queued for these subscribers. -/
structure Fanout where
  event : StreamResponse
  closeAfterEvent : Bool
  subscribers : List Nat

namespace Caller

/-- The subscribers that the rest of the call is about. -/
def mentions : Caller → List Nat
  | .publishTaskUpdated _ _ subscribers => subscribers
  | .shutdown subscribers => subscribers
  | .removeSubscriber s => [s]

/-- What the call still has to fan out. -/
def fanout : Caller → Option Fanout
  | .publishTaskUpdated event closeAfterEvent subscribers =>
    some ⟨event, closeAfterEvent, subscribers⟩
  | .shutdown _ | .removeSubscriber _ => none

end Caller

namespace Program

/-- The subscribers that the program is about. -/
def mentions : Program → List Nat
  | .idle | .lockPublication _ | .publishSection _ | .shutdownSection => []
  | .enqueue _ _ subscribers => subscribers
  | .shutdownClose subscribers => subscribers
  | .cancelClose s | .removeSubscriber s | .waitForResumes s => [s]
  | .signal s caller | .resume s _ caller => s :: caller.mentions

/-- What the program still has to fan out. -/
def fanout : Program → Option Fanout
  | .enqueue event closeAfterEvent subscribers => some ⟨event, closeAfterEvent, subscribers⟩
  | .signal _ caller | .resume _ _ caller => caller.fanout
  | _ => none

/-- The subscriber whose handle the thread has taken and not yet used. -/
def waking : Program → Option Nat
  | .resume s .lock _ => some s
  | _ => none

/-- The subscriber whose `resume_mutex_` the thread holds. -/
def holding : Program → Option Nat
  | .resume s .unlock _ => some s
  | _ => none

/-- The next section closes this subscriber, and then signals it. -/
def closing : Program → Option (Nat × Caller)
  | .shutdownClose (s :: rest) => some (s, .shutdown rest)
  | .cancelClose s => some (s, .removeSubscriber s)
  | _ => none

end Program

section GoOn

variable (caller : Caller)

@[simp] theorem mentions_goOn : caller.goOn.mentions = caller.mentions := by
  cases caller <;> rfl

@[simp] theorem fanout_goOn : caller.goOn.fanout = caller.fanout := by
  cases caller <;> rfl

@[simp] theorem waking_goOn : caller.goOn.waking = none := by
  cases caller <;> rfl

@[simp] theorem holding_goOn : caller.goOn.holding = none := by
  cases caller <;> rfl

end GoOn

variable {p : Program} {s t : Nat} {caller : Caller} {w w' : World}

/-! ## What a step does -/

/-- A section of the thread `t`. -/
inductive ThreadStep (w : World) (t : Nat) : World → Prop where
  | lockPublication (task : Task) (hp : w.threads t = .lockPublication task)
      (hfree : w.publicationMutex = none) :
      ThreadStep w t ({ w with publicationMutex := some t }.setThread t (.publishSection task))
  | publishRefused (task : Task) (hp : w.threads t = .publishSection task)
      (hshutdown : w.shutdown = true) :
      ThreadStep w t ({ w with publicationMutex := none }.setThread t .idle)
  | publish (task : Task) (hp : w.threads t = .publishSection task) (hshutdown : w.shutdown = false) :
      ThreadStep w t ((w.recordPublished task).setThread t
        (.enqueue (buildStatusUpdateEvent task) (isTerminalTaskState task.state)
          (w.subscribersOf task.id)))
  | published (event : StreamResponse) (closeAfterEvent : Bool)
      (hp : w.threads t = .enqueue event closeAfterEvent []) :
      ThreadStep w t ({ w with publicationMutex := none }.setThread t .idle)
  | enqueue (event : StreamResponse) (closeAfterEvent : Bool) (s : Nat) (rest : List Nat)
      (hp : w.threads t = .enqueue event closeAfterEvent (s :: rest)) :
      ThreadStep w t ((w.setState s ((w.states s).enqueue event closeAfterEvent)).setThread t
        (.signal s (.publishTaskUpdated event closeAfterEvent rest)))
  | close (s : Nat) (caller : Caller) (hp : (w.threads t).closing = some (s, caller)) :
      ThreadStep w t ((w.setState s (w.states s).close).setThread t (.signal s caller))
  | shutdown (order : List Nat) (hp : w.threads t = .shutdownSection)
      (hperm : order.Perm w.subscribers) :
      ThreadStep w t ({ w with
          shutdown := true, subscribers := [], latestTaskStatesById := fun _ => none }.setThread t
        (.shutdownClose order))
  | removeSubscriber (s : Nat) (hp : w.threads t = .removeSubscriber s) :
      ThreadStep w t
        ({ w with subscribers := w.subscribers.filter (· != s) }.setThread t (.waitForResumes s))
  | finish (hp : w.threads t = .shutdownSection ∨ w.threads t = .shutdownClose [] ∨
        ∃ s, w.threads t = .waitForResumes s) :
      ThreadStep w t (w.setThread t .idle)
  | signal (s : Nat) (caller : Caller) (hp : w.threads t = .signal s caller) :
      ThreadStep w t (w.signal t s caller)
  | resumeLock (s : Nat) (caller : Caller) (hp : w.threads t = .resume s .lock caller)
      (hmutex : (w.states s).resumeMutex = none) :
      ThreadStep w t ((w.setState s ((w.states s).resumedBy t)).setThread t (.resume s .unlock caller))
  | resumeUnlock (s : Nat) (caller : Caller) (hp : w.threads t = .resume s .unlock caller)
      (hsuspended : (w.states s).point.suspended = true) :
      ThreadStep w t ((w.setState s (w.states s).released).setThread t (.resume s .drop caller))
  | resumeDrop (s : Nat) (caller : Caller) (hp : w.threads t = .resume s .drop caller) :
      ThreadStep w t ((w.setState s (w.states s).dropResume).setThread t caller.goOn)

/-- The subscriber whose reader takes the step. -/
def Action.ofReader : Action → Option Nat
  | .next s | .nextFor s | .isLive s | .reader s | .timeOut s => some s
  | _ => none

/-- A step of the service, by what it does. -/
inductive Transition (w : World) : Action → World → Prop where
  | subscribeRefused (task : Task) : Transition w (.subscribe task) w
  | subscribed (task : Task) (hshutdown : w.shutdown = false) :
      Transition w (.subscribe task) { w with
        subscribers := w.subscribers ++ [w.subscriberCount]
        subscriberCount := w.subscriberCount + 1
        states := update w.states w.subscriberCount
          { taskId := task.id, currentTask := w.currentTask task
            registeredAt := w.published.length } }
  | call (a : Action) (t : Nat) (p : Program) (hidle : w.threads t = .idle)
      (hp : (∃ task, p = .lockPublication task) ∨ p = .shutdownSection) :
      Transition w a (w.setThread t p)
  | cancelAgain (t s : Nat) : Transition w (.cancel t s) w
  | cancel (t s : Nat) (hidle : w.threads t = .idle) (hs : s < w.subscriberCount) :
      Transition w (.cancel t s)
        ((w.setState s { w.states s with cancelled := true }).setThread t (.cancelClose s))
  | reader (a : Action) (s : Nat) (ha : a.ofReader = some s) (hs : s < w.subscriberCount)
      {sub : Subscriber} (hstep : Subscriber.ReaderStep (w.states s) sub) : Transition w a (w.setState s sub)
  | coroutine (s : Nat) (hs : s < w.subscriberCount) {sub : Subscriber}
      (hstep : Subscriber.CoroutineStep (w.states s) sub) :
      Transition w (.coroutine s) (w.setState s sub)
  | thread (t : Nat) (order : List Nat) {w' : World} (hstep : ThreadStep w t w') :
      Transition w (.thread t order) w'

/-- The executable step of a thread is one of the steps of the relation. -/
theorem threadStep_of_runThread {order : List Nat} (h : w.runThread t order = some w') : ThreadStep w t w' := by
  unfold World.runThread at h
  split at h
  · cases h
  · next task hp =>
      split at h
      · cases h
      · next hfree =>
          cases h
          exact .lockPublication task hp hfree
  · next task hp =>
      cases h
      unfold World.publishSection
      split_ifs with hshutdown
      · exact .publishRefused task hp hshutdown
      · exact .publish task hp (by simpa using hshutdown)
  · next event closeAfterEvent hp =>
      cases h
      exact .published event closeAfterEvent hp
  · next event closeAfterEvent s rest hp =>
      cases h
      exact .enqueue event closeAfterEvent s rest hp
  · next hp =>
      split_ifs at h with hshutdown hperm <;> cases h
      · exact .finish (.inl hp)
      · exact .shutdown order hp (isPerm_iff.mp hperm)
  · next hp =>
      cases h
      exact .finish (.inr (.inl hp))
  · next s rest hp =>
      cases h
      exact .close s _ (by rw [hp]; rfl)
  · next s hp =>
      cases h
      exact .close s _ (by rw [hp]; rfl)
  · next s hp =>
      cases h
      exact .removeSubscriber s hp
  · next s hp =>
      split_ifs at h
      cases h
      exact .finish (.inr (.inr ⟨s, hp⟩))
  · next s caller hp =>
      cases h
      exact .signal s caller hp
  · next s caller hp =>
      obtain ⟨sub, hlock, rfl⟩ := Option.map_eq_some_iff.mp h
      obtain ⟨hmutex, rfl⟩ := Subscriber.lockResume_eq_some hlock
      exact .resumeLock s caller hp hmutex
  · next s caller hp =>
      obtain ⟨sub, hunlock, rfl⟩ := Option.map_eq_some_iff.mp h
      obtain ⟨hsuspended, rfl⟩ := Subscriber.unlockResume_eq_some hunlock
      exact .resumeUnlock s caller hp hsuspended
  · next s caller hp =>
      cases h
      exact .resumeDrop s caller hp

theorem runState_eq_some {sub : Option Subscriber} (h : w.runState s sub = some w') :
    s < w.subscriberCount ∧ ∃ sub', sub = some sub' ∧ w' = w.setState s sub' := by
  unfold World.runState at h
  split_ifs at h with hs
  obtain ⟨sub', hsub, rfl⟩ := Option.map_eq_some_iff.mp h
  exact ⟨hs, sub', hsub, rfl⟩

open Subscriber

/-- Every action of the executable service is a transition. -/
theorem transition_of_step {a : Action} (h : step w a = some w') : Transition w a w' := by
  cases a with
  | subscribe task =>
    cases h
    unfold World.subscribe
    split_ifs with hshutdown
    · exact .subscribeRefused task
    · dsimp only
      split_ifs
      · exact .subscribeRefused task
      · exact .subscribed task (by simpa using hshutdown)
  | publishTaskUpdated t task =>
    simp only [step] at h
    split at h
    · next hidle =>
        cases h
        exact .call _ t _ hidle (.inl ⟨task, rfl⟩)
    · cases h
  | shutdown t =>
    simp only [step] at h
    split at h
    · next hidle =>
        cases h
        exact .call _ t _ hidle (.inr rfl)
    · cases h
  | cancel t s =>
    simp only [step] at h
    split at h
    · next hidle =>
        split_ifs at h with hs hcancelled <;> cases h
        · exact .cancelAgain t s
        · exact .cancel t s hidle hs
    · cases h
  | next s | nextFor s =>
    obtain ⟨hs, sub, hsub, rfl⟩ := runState_eq_some h
    exact .reader _ s rfl hs (readerStep_of_beginNext hsub)
  | isLive s =>
    obtain ⟨hs, sub, hsub, rfl⟩ := runState_eq_some h
    exact .reader _ s rfl hs (readerStep_of_beginIsLive hsub)
  | thread t order => exact .thread t order (threadStep_of_runThread h)
  | coroutine s =>
    obtain ⟨hs, sub, hsub, rfl⟩ := runState_eq_some h
    exact .coroutine s hs (coroutineStep_of_runCoroutine hsub)
  | reader s =>
    obtain ⟨hs, sub, hsub, rfl⟩ := runState_eq_some h
    exact .reader _ s rfl hs (readerStep_of_runReader hsub)
  | timeOut s =>
    obtain ⟨hs, sub, hsub, rfl⟩ := runState_eq_some h
    exact .reader _ s rfl hs (readerStep_of_timeOut hsub)

/-! ## What the threads hold -/

/-- The thread, other than the reader, that is inside `resume()`. -/
def Subscriber.holder (sub : Subscriber) : Option Nat :=
  match sub.resumeMutex with
  | some (.thread t) => some t
  | _ => none

theorem Subscriber.holder_eq_some {sub : Subscriber} : sub.holder = some t ↔ sub.resumeMutex = some (.thread t) := by
  unfold holder
  split
  · next u hmutex => simp [hmutex]
  · next hnone =>
      constructor
      · intro h
        cases h
      · intro h
        exact absurd h (hnone t)

/-- A fan-out carries a status update, and closes after it exactly if it is terminal. -/
def Fanout.Ok (f : Fanout) : Prop :=
  f.event.hasStatusUpdate = true ∧ f.closeAfterEvent = isTerminalEvent f.event

namespace Program

/-- The thread is about subscribers of the service, and fans out an update. -/
def Ok (count : Nat) (p : Program) : Prop :=
  (∀ s ∈ p.mentions, s < count) ∧ ∀ f, p.fanout = some f → f.Ok

/-- The thread has the same handle and the same lock. -/
def SameTokens (p p' : Program) : Prop := p.waking = p'.waking ∧ p.holding = p'.holding

theorem Ok.plain {count : Nat} (hmentions : p.mentions = []) (hfanout : p.fanout = none) : p.Ok count :=
  ⟨by simp [hmentions], by simp [hfanout]⟩

theorem Ok.goOn {count : Nat} (h : Ok count (.signal s caller)) : caller.goOn.Ok count := by
  refine ⟨fun x hx => h.1 x (mem_cons_of_mem s ?_), fun f hf => h.2 f ?_⟩
  · rwa [mentions_goOn] at hx
  · rwa [fanout_goOn] at hf

theorem sameTokens_goOn (hp : p.waking = none ∧ p.holding = none) : caller.goOn.SameTokens p :=
  ⟨(waking_goOn caller).trans hp.1.symm, (holding_goOn caller).trans hp.2.symm⟩

theorem closing_spec (h : p.closing = some (s, caller)) :
    s :: caller.mentions ⊆ p.mentions ∧ caller.fanout = none ∧ SameTokens (.signal s caller) p := by
  unfold closing at h
  split at h
  · cases h
    exact ⟨List.Subset.refl _, rfl, rfl, rfl⟩
  · cases h
    exact ⟨by simp [mentions, Caller.mentions], rfl, rfl, rfl⟩
  · cases h

end Program

/-- The records of the tokens agree, and every subscriber satisfies its invariant. -/
structure Sound (w : World) : Prop where
  known : ∀ s ∈ w.subscribers, s < w.subscriberCount
  mentioned : ∀ t, ∀ s ∈ (w.threads t).mentions, s < w.subscriberCount
  fanout : ∀ t f, (w.threads t).fanout = some f → f.Ok
  waking : Owns (Program.waking ∘ w.threads) (Subscriber.waker ∘ w.states)
  holding : Owns (Program.holding ∘ w.threads) (Subscriber.holder ∘ w.states)
  inv : ∀ s < w.subscriberCount, (w.states s).Inv

namespace Sound

open Program

variable {w : World} (h : Sound w) {t s : Nat} {p : Program} {sub : Subscriber} {caller : Caller}

theorem start : Sound {} where
  known := by simp
  mentioned := by simp [Program.mentions]
  fanout := by simp [Program.fanout]
  waking := by simp [Owns, Program.waking]
  holding := by simp [Owns, Program.holding, holder]
  inv := by simp

include h

theorem ok (hp : w.threads t = p) : p.Ok w.subscriberCount := hp ▸ ⟨h.mentioned t, h.fanout t⟩

/-- A subscriber changes and a thread goes on; the tokens are left to the caller. -/
theorem update (hinv : s < w.subscriberCount → sub.Inv) (hok : p.Ok w.subscriberCount)
    (hwaking : Owns (Function.update (Program.waking ∘ w.threads) t p.waking)
      (Function.update (Subscriber.waker ∘ w.states) s sub.waker))
    (hholding : Owns (Function.update (Program.holding ∘ w.threads) t p.holding)
      (Function.update (Subscriber.holder ∘ w.states) s sub.holder)) :
    Sound ((w.setState s sub).setThread t p) where
  known := h.known
  mentioned := (forall_update_iff w.threads fun _ q => ∀ x ∈ Program.mentions q, x < w.subscriberCount).mpr
    ⟨hok.1, fun u _ => h.mentioned u⟩
  fanout := (forall_update_iff w.threads fun _ q => ∀ f, Program.fanout q = some f → f.Ok).mpr
    ⟨hok.2, fun u _ => h.fanout u⟩
  waking := by
    show Owns (_ ∘ Function.update w.threads t p) (_ ∘ Function.update w.states s sub)
    rwa [Function.comp_update, Function.comp_update]
  holding := by
    show Owns (_ ∘ Function.update w.threads t p) (_ ∘ Function.update w.states s sub)
    rwa [Function.comp_update, Function.comp_update]
  inv := (forall_update_iff w.states fun x sub => x < w.subscriberCount → Subscriber.Inv sub).mpr
    ⟨hinv, fun x _ => h.inv x⟩

/-- No token moves. -/
theorem updateKeeping (hinv : s < w.subscriberCount → sub.Inv) (hok : p.Ok w.subscriberCount)
    (hsub : sub.waker = (w.states s).waker ∧ sub.holder = (w.states s).holder) (hp : p.SameTokens (w.threads t)) :
    Sound ((w.setState s sub).setThread t p) :=
  h.update hinv hok ((h.waking.keep hp.1).stay hsub.1) ((h.holding.keep hp.2).stay hsub.2)

theorem setState (hinv : s < w.subscriberCount → sub.Inv)
    (hsub : sub.waker = (w.states s).waker ∧ sub.holder = (w.states s).holder) : Sound (w.setState s sub) := by
  have hsame : w.setState s sub = (w.setState s sub).setThread 0 (w.threads 0) := by
    simp [World.setThread, World.setState]
  rw [hsame]
  exact h.updateKeeping hinv (h.ok rfl) hsub ⟨rfl, rfl⟩

theorem setThread (hok : p.Ok w.subscriberCount) (hp : p.SameTokens (w.threads t)) : Sound (w.setThread t p) := by
  have hsame : w.setThread t p = (w.setState 0 (w.states 0)).setThread t p := by
    simp [World.setThread, World.setState]
  rw [hsame]
  exact h.updateKeeping (h.inv 0) hok ⟨rfl, rfl⟩ hp

/-- The service's own fields: only the table of the subscribers matters. -/
theorem service {subscribers : List Nat} {latest : Bytes → Option LatestTaskState} {published : List Task}
    {mutex : Option Nat} {shutdown : Bool} (hsubset : subscribers ⊆ w.subscribers) :
    Sound { w with
      latestTaskStatesById := latest, subscribers, published, publicationMutex := mutex, shutdown } :=
  ⟨fun s hs => h.known s (hsubset hs), h.mentioned, h.fanout, h.waking, h.holding, h.inv⟩

omit h in
/-- A program is about the subscriber whose handle or lock it has. -/
theorem mentions_of_token (htoken : p.waking = some s ∨ p.holding = some s) : s ∈ p.mentions := by
  unfold Program.waking Program.holding at htoken
  rcases htoken with htoken | htoken
  all_goals
    split at htoken
    · cases htoken
      exact mem_cons_self
    · cases htoken

theorem subscribed (hinv : sub.Inv) (hwaker : sub.waker = none) (hmutex : sub.resumeMutex = none) :
    Sound { w with
      subscribers := w.subscribers ++ [w.subscriberCount]
      subscriberCount := w.subscriberCount + 1
      states := Function.update w.states w.subscriberCount sub } where
  known := by
    intro s hs
    show s < w.subscriberCount + 1
    rcases List.mem_append.mp hs with hs | hs
    · exact Nat.lt_succ_of_lt (h.known s hs)
    · rw [List.mem_singleton.mp hs]
      exact Nat.lt_succ_self _
  mentioned := fun t s hs => Nat.lt_succ_of_lt (h.mentioned t s hs)
  fanout := h.fanout
  waking := by
    show Owns _ (_ ∘ Function.update w.states _ sub)
    rw [Function.comp_update, hwaker]
    refine h.waking.appear ?_
    intro t hw
    exact absurd (h.mentioned t _ (mentions_of_token (.inl hw))) (Nat.lt_irrefl _)
  holding := by
    show Owns _ (_ ∘ Function.update w.states _ sub)
    have hnone : sub.holder = none := by simp [holder, hmutex]
    rw [Function.comp_update, hnone]
    refine h.holding.appear ?_
    intro t hh
    exact absurd (h.mentioned t _ (mentions_of_token (.inr hh))) (Nat.lt_irrefl _)
  inv := by
    intro s hs
    by_cases hnew : s = w.subscriberCount
    · subst hnew
      simpa using hinv
    · have hold : s < w.subscriberCount := Nat.lt_of_le_of_ne (Nat.lt_succ_iff.mp hs) hnew
      simpa [Function.update_of_ne hnew] using h.inv s hold

/-! ### The sections of a thread -/

theorem publish {task : Task} (hp : w.threads t = .publishSection task) :
    Sound ((w.recordPublished task).setThread t
      (.enqueue (buildStatusUpdateEvent task) (isTerminalTaskState task.state) (w.subscribersOf task.id))) := by
  have hsubset : (w.recordPublished task).subscribers ⊆ w.subscribers := by
    unfold World.recordPublished
    dsimp only
    split_ifs
    · exact filter_subset_self _
    · exact List.Subset.refl _
  refine (h.service hsubset).setThread ⟨fun s hs => h.known s (mem_of_mem_filter hs), ?_⟩ (hp.symm ▸ ⟨rfl, rfl⟩)
  rintro f hf
  cases hf
  exact ⟨rfl, rfl⟩

/-- The event of a fan-out is queued for the next subscriber, which is one of the service. -/
theorem enqueue {event : StreamResponse} {closeAfterEvent : Bool} {rest : List Nat}
    (hp : w.threads t = .enqueue event closeAfterEvent (s :: rest)) :
    s < w.subscriberCount ∧ event.hasStatusUpdate ∧ closeAfterEvent = isTerminalEvent event ∧
      Sound ((w.setState s ((w.states s).enqueue event closeAfterEvent)).setThread t
        (.signal s (.publishTaskUpdated event closeAfterEvent rest))) := by
  have hok := h.ok hp
  obtain ⟨hupdate, rfl⟩ : event.hasStatusUpdate ∧ closeAfterEvent = isTerminalEvent event := hok.2 _ rfl
  have hs : s < w.subscriberCount := hok.1 s mem_cons_self
  refine ⟨hs, hupdate, rfl, h.updateKeeping (fun _ => inv_enqueue (h.inv s hs) hupdate) ⟨hok.1, ?_⟩ ?_
    (hp.symm ▸ ⟨rfl, rfl⟩)⟩
  · rintro f hf
    cases hf
    exact ⟨hupdate, rfl⟩
  · unfold Subscriber.enqueue
    split_ifs <;> exact ⟨rfl, rfl⟩

theorem close (hp : (w.threads t).closing = some (s, caller)) :
    s < w.subscriberCount ∧ Sound ((w.setState s (w.states s).close).setThread t (.signal s caller)) := by
  obtain ⟨hmentions, hfanout, htokens⟩ := closing_spec hp
  have hmentioned : ∀ x ∈ s :: caller.mentions, x < w.subscriberCount := fun x hx =>
    h.mentioned t x (hmentions hx)
  have hs := hmentioned s mem_cons_self
  refine ⟨hs, h.updateKeeping (fun _ => inv_close (h.inv s hs)) ⟨hmentioned, ?_⟩ ⟨rfl, rfl⟩ htokens⟩
  intro f hf
  cases hfanout.symm.trans hf

/-- The one who signals takes the continuation, if there is one. -/
theorem signal (hp : w.threads t = .signal s caller) :
    s < w.subscriberCount ∧ Sound (w.signal t s caller) := by
  have hok := h.ok hp
  have hs := hok.1 s mem_cons_self
  have hwaking : (Program.waking ∘ w.threads) t = none := by simp [hp, Program.waking]
  have hinv : ((w.states s).takeContinuation t).Inv := inv_takeContinuation (h.inv s hs) t
  refine ⟨hs, ?_⟩
  unfold World.signal
  by_cases hstored : (w.states s).continuation
  · have hfree : (waker ∘ w.states) s = none := ((h.inv s hs).handle.stored hstored).2
    dsimp only
    rw [if_pos hstored]
    refine h.update (fun _ => hinv) hok ?_ ?_
    · have hwaker : ((w.states s).takeContinuation t).waker = some t := by
        simp [takeContinuation, hstored]
      rw [hwaker]
      exact h.waking.acquire hwaking hfree
    · refine (h.holding.keep ?_).stay ?_
      · simp [hp, Program.holding]
      · simp [takeContinuation, hstored, holder]
  · dsimp only
    rw [if_neg hstored]
    have hsame : (w.states s).takeContinuation t = w.states s := by
      simp [takeContinuation, hstored]
    exact h.updateKeeping (fun _ => hinv) hok.goOn (hsame.symm ▸ ⟨rfl, rfl⟩) (hp.symm ▸ sameTokens_goOn ⟨rfl, rfl⟩)

/-- The thread uses the handle: it gives it up and holds the lock instead. -/
theorem resumeLock (hp : w.threads t = .resume s .lock caller)
    (hmutex : (w.states s).resumeMutex = none) :
    s < w.subscriberCount ∧ (w.states s).waker = some t ∧
      Sound ((w.setState s ((w.states s).resumedBy t)).setThread t (.resume s .unlock caller)) := by
  have hheld : (Program.waking ∘ w.threads) t = some s := by simp [hp, Program.waking]
  have hwaker : (w.states s).waker = some t := (h.waking t s).mp hheld
  have hok := h.ok hp
  have hs := hok.1 s mem_cons_self
  have hinv := inv_resumedBy (h.inv s hs) hwaker hmutex
  have hfree : (holder ∘ w.states) s = none := by simp [holder, hmutex]
  have hnone : (Program.holding ∘ w.threads) t = none := by simp [hp, Program.holding]
  exact ⟨hs, hwaker, h.update (fun _ => hinv) hok (h.waking.release hheld) (h.holding.acquire hnone hfree)⟩

theorem resumeUnlock (hp : w.threads t = .resume s .unlock caller)
    (hsuspended : (w.states s).point.suspended) :
    s < w.subscriberCount ∧ (w.states s).resumeMutex = some (.thread t) ∧
      Sound ((w.setState s (w.states s).released).setThread t (.resume s .drop caller)) := by
  have hheld : (Program.holding ∘ w.threads) t = some s := by simp [hp, Program.holding]
  have hholder : (w.states s).resumeMutex = some (.thread t) :=
    holder_eq_some.mp ((h.holding t s).mp hheld)
  have hok := h.ok hp
  have hs := hok.1 s mem_cons_self
  have hinv := inv_released (h.inv s hs) hholder hsuspended
  refine ⟨hs, hholder, h.update (fun _ => hinv) hok ((h.waking.keep ?_).stay rfl) (h.holding.release hheld)⟩
  simp [hp, Program.waking]

theorem resumeDrop (hp : w.threads t = .resume s .drop caller) :
    s < w.subscriberCount ∧ Sound ((w.setState s (w.states s).dropResume).setThread t caller.goOn) := by
  have hok := h.ok hp
  have hs := hok.1 s mem_cons_self
  exact ⟨hs, h.updateKeeping (fun _ => inv_dropResume (h.inv s hs)) hok.goOn ⟨rfl, rfl⟩
    (hp.symm ▸ sameTokens_goOn ⟨rfl, rfl⟩)⟩

/-- The tokens of a subscriber do not move when its reader or its coroutine does. -/
theorem tokens_readerStep (hs : s < w.subscriberCount) (hstep : Subscriber.ReaderStep (w.states s) sub) :
    sub.waker = (w.states s).waker ∧ sub.holder = (w.states s).holder := by
  have hreaderHolds := (h.inv s hs).handle.reader
  cases hstep with
  | lock timed hreader hmutex => simp [holder, hmutex]
  | unlock timed hreader =>
    have hmutex := hreaderHolds.mpr ⟨timed, hreader⟩
    simp [holder, hmutex]
  | _ => exact ⟨rfl, rfl⟩

omit h in
theorem tokens_coroutineStep (hstep : Subscriber.CoroutineStep (w.states s) sub) :
    sub.waker = (w.states s).waker ∧ sub.holder = (w.states s).holder := by
  cases hstep <;> exact ⟨rfl, rfl⟩

end Sound

/-! ## What a step does to the subscribers -/

/-- A handle is only taken if there is something to resume for. -/
def prompt (w : World) : Action → Bool
  | .thread t _ =>
    match w.threads t with
    | .signal s _ =>
      !(w.states s).continuation || ((w.states s).closed || !(w.states s).events.isEmpty)
    | _ => true
  | _ => true

/-- At most one subscriber changes, by one operation; or one appears. -/
inductive Change (P : Prop) (w w' : World) : Prop where
  | same (hstates : w'.states = w.states) (hcount : w'.subscriberCount = w.subscriberCount)
  | one (s : Nat) (sub : Subscriber) (hs : s < w.subscriberCount)
      (hop : Subscriber.Op P (w.states s) sub) (hstates : w'.states = Function.update w.states s sub)
      (hcount : w'.subscriberCount = w.subscriberCount)
  | new (task current : Task)
      (hstates : w'.states = Function.update w.states w.subscriberCount
        { taskId := task.id, currentTask := current, registeredAt := w.published.length })
      (hcount : w'.subscriberCount = w.subscriberCount + 1)

/-- A section of a thread changes at most the subscriber it is at. -/
theorem change_threadStep (h : Sound w) {order : List Nat} (hstep : ThreadStep w t w') :
    Change (prompt w (.thread t order)) w w' ∧ Sound w' := by
  cases hstep with
  | lockPublication task hp | publishRefused task hp | published event closeAfterEvent hp =>
    exact ⟨.same rfl rfl, (h.service (List.Subset.refl _)).setThread (.plain rfl rfl) (hp.symm ▸ ⟨rfl, rfl⟩)⟩
  | publish task hp => exact ⟨.same rfl rfl, h.publish hp⟩
  | enqueue event closeAfterEvent s rest hp =>
    obtain ⟨hs, hupdate, rfl, hsound⟩ := h.enqueue hp
    exact ⟨.one s _ hs (.enqueue event hupdate) rfl rfl, hsound⟩
  | close s caller hp => exact ⟨.one s _ (h.close hp).1 .close rfl rfl, (h.close hp).2⟩
  | shutdown order hp hperm =>
    refine ⟨.same rfl rfl, (h.service (nil_subset _)).setThread ⟨?_, by simp [Program.fanout]⟩ (hp.symm ▸ ⟨rfl, rfl⟩)⟩
    exact fun s hs => h.known s (hperm.mem_iff.mp hs)
  | removeSubscriber s hp =>
    refine ⟨.same rfl rfl, (h.service (filter_subset_self _)).setThread ⟨?_, by simp [Program.fanout]⟩
      (hp.symm ▸ ⟨rfl, rfl⟩)⟩
    exact fun x hx => h.mentioned t x (hp.symm ▸ hx)
  | finish hp =>
    refine ⟨.same rfl rfl, h.setThread (.plain rfl rfl) ?_⟩
    rcases hp with hp | hp | ⟨s, hp⟩ <;> exact hp.symm ▸ ⟨rfl, rfl⟩
  | signal s caller hp =>
    refine ⟨.one s _ (h.signal hp).1 (.takeContinuation t ?_) rfl rfl, (h.signal hp).2⟩
    intro hprompt hstored
    simp only [prompt, hp, hstored, Bool.not_true, Bool.false_or] at hprompt
    exact (hasWork_iff _).mp hprompt
  | resumeLock s caller hp hmutex =>
    obtain ⟨hs, hwaker, hsound⟩ := h.resumeLock hp hmutex
    exact ⟨.one s _ hs (.lockResume hwaker hmutex) rfl rfl, hsound⟩
  | resumeUnlock s caller hp hsuspended =>
    obtain ⟨hs, hholder, hsound⟩ := h.resumeUnlock hp hsuspended
    exact ⟨.one s _ hs (.unlockResume hholder hsuspended) rfl rfl, hsound⟩
  | resumeDrop s caller hp => exact ⟨.one s _ (h.resumeDrop hp).1 .dropResume rfl rfl, (h.resumeDrop hp).2⟩

/-- What a step does to the subscribers, while the records of the tokens agree. -/
theorem change_of_step {a : Action} (h : Sound w) (hstep : step w a = some w') :
    Change (prompt w a) w w' ∧ Sound w' := by
  cases transition_of_step hstep with
  | subscribeRefused | cancelAgain => exact ⟨.same rfl rfl, h⟩
  | subscribed task => exact ⟨.new task _ rfl rfl, h.subscribed (inv_new _ _ _) rfl rfl⟩
  | call a t p hidle hp =>
    refine ⟨.same rfl rfl, h.setThread ?_ ?_⟩ <;> rcases hp with ⟨task, rfl⟩ | rfl
    · exact .plain rfl rfl
    · exact .plain rfl rfl
    · exact hidle.symm ▸ ⟨rfl, rfl⟩
    · exact hidle.symm ▸ ⟨rfl, rfl⟩
  | cancel t s hidle hs =>
    refine ⟨.one s _ hs .cancelled rfl rfl, h.updateKeeping (fun _ => inv_cancelled (h.inv s hs)) ⟨?_, ?_⟩
      ⟨rfl, rfl⟩ (hidle.symm ▸ ⟨rfl, rfl⟩)⟩ <;> simp [hs, Program.mentions, Program.fanout]
  | reader a s ha hs hreader =>
    exact ⟨.one s _ hs (.reader hreader) rfl rfl,
      h.setState (fun _ => inv_readerStep (h.inv s hs) hreader) (h.tokens_readerStep hs hreader)⟩
  | coroutine s hs hcoroutine =>
    exact ⟨.one s _ hs (.coroutine hcoroutine) rfl rfl,
      h.setState (fun _ => inv_coroutineStep (h.inv s hs) hcoroutine) (Sound.tokens_coroutineStep hcoroutine)⟩
  | thread t order hthread => exact change_threadStep h hthread

end A2A.Server.TaskSubscriptionService
