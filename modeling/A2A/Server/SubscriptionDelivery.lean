/-
# From publications to what a session hands out.
-/
import A2A.Server.SubscriptionThreads

namespace A2A.Server.TaskSubscriptionService

open A2A.Foundation A2A.Core List Function

/-! ## Runs of one subscriber -/

section Runs

variable {P : Prop} {w w' : World}

theorem Change.subscriber (h : Change P w w') {s : Nat} (hs : s < w.subscriberCount) :
    s < w'.subscriberCount ∧ (w'.states s = w.states s ∨ Subscriber.Op P (w.states s) (w'.states s)) := by
  cases h with
  | same hstates hcount =>
    rw [hstates, hcount]
    exact ⟨hs, .inl rfl⟩
  | one x sub hx hop hstates hcount =>
    rw [hstates, hcount]
    refine ⟨hs, ?_⟩
    by_cases hsx : s = x
    · subst hsx
      exact .inr (by simpa using hop)
    · exact .inl (update_of_ne hsx _ _)
  | new task current hstates hcount =>
    rw [hstates, hcount]
    exact ⟨Nat.lt_succ_of_lt hs, .inl (update_of_ne (Nat.ne_of_lt hs) _ _)⟩

theorem Change.extends (h : Change P w w') {s : Nat} (hs : s < w.subscriberCount) :
    s < w'.subscriberCount ∧ Subscriber.Extends (w.states s) (w'.states s) := by
  obtain ⟨hs', hsame | hop⟩ := h.subscriber hs
  · exact ⟨hs', hsame ▸ Subscriber.Extends.refl _⟩
  · exact ⟨hs', hop.extends⟩

theorem Change.complete (h : Change P w w') (hP : P) (hsound : Sound w)
    (hc : ∀ s < w.subscriberCount, (w.states s).Complete) : ∀ s < w'.subscriberCount, (w'.states s).Complete := by
  cases h with
  | same hstates hcount =>
    rw [hstates, hcount]
    exact hc
  | one x sub hx hop hstates hcount =>
    rw [hstates, hcount]
    intro s hs
    by_cases hsx : s = x
    · subst hsx
      simpa using hop.complete hP (hsound.inv s hs) (hc s hs)
    · simpa [update_of_ne hsx] using hc s hs
  | new task current hstates hcount =>
    rw [hstates, hcount]
    intro s hs
    by_cases hnew : s = w.subscriberCount
    · subst hnew
      simpa using Subscriber.complete_new task.id current w.published.length
    · have hold : s < w.subscriberCount := Nat.lt_of_le_of_ne (Nat.lt_succ_iff.mp hs) hnew
      simpa [update_of_ne hnew] using hc s hold

end Runs

/-! ## The fan-out -/

/-- The subscriber that the caller has closed and not yet removed. -/
def Caller.removing : Caller → Option Nat
  | .removeSubscriber s => some s
  | .publishTaskUpdated _ _ _ | .shutdown _ => none

namespace Program

/-- The thread holds `publication_mutex`. -/
def publishing : Program → Bool
  | .publishSection _ => true
  | p => p.fanout.isSome

/-- The subscriber that the thread has closed and not yet removed. -/
def removing : Program → Option Nat
  | .removeSubscriber s => some s
  | .signal _ caller | .resume _ _ caller => caller.removing
  | _ => none

end Program

@[simp] theorem publishing_goOn (caller : Caller) : caller.goOn.publishing = caller.fanout.isSome := by
  cases caller <;> rfl

@[simp] theorem removing_goOn (caller : Caller) : caller.goOn.removing = caller.removing := by
  cases caller <;> rfl

/-- The updates published for the task of a subscriber since it was registered. -/
def World.updatesFor (w : World) (s : Nat) : List StreamResponse :=
  ((w.published.drop (w.states s).registeredAt).filter fun task =>
    task.id == (w.states s).taskId).map buildStatusUpdateEvent

/-- The fan-out `f` is in progress. -/
def World.Running (w : World) (f : Fanout) : Prop := ∃ t, (w.threads t).fanout = some f

/-- The thread has yet to hand the event to the subscriber, which it then closes if `last`. -/
def Program.Awaited (p : Program) (s : Nat) (event : StreamResponse) (last : Bool) : Prop :=
  ∃ rest, p.fanout = some ⟨event, last, rest⟩ ∧ s ∈ rest

/-- The subscriber has yet to get the event of the fan-out in progress. -/
def World.Awaits (w : World) (s : Nat) (event : StreamResponse) (last : Bool) : Prop :=
  ∃ t, (w.threads t).Awaited s event last

/-- What has reached one subscriber of what was published for its task. -/
structure Served (w : World) (s : Nat) : Prop where
  registeredAt : (w.states s).registeredAt ≤ w.published.length
  accepted : (w.states s).accepted <+: w.updatesFor s
  current : (w.states s).closed = false → (∀ event last, ¬ w.Awaits s event last) →
    (w.states s).accepted = w.updatesFor s
  pending : ∀ event last, (w.states s).closed = false → w.Awaits s event last →
    w.updatesFor s = (w.states s).accepted ++ [event]
  registered : (w.states s).closed = false →
    s ∈ w.subscribers ∨ w.shutdown = true ∨ ∃ event, w.Awaits s event true

/-- The invariant of the fan-out: the lock, the table, and every subscriber. -/
structure Delivery (w : World) : Prop where
  mutex : ∀ t, (w.threads t).publishing = true ↔ w.publicationMutex = some t
  distinct : w.subscribers.Nodup
  targets : ∀ f, w.Running f → f.subscribers.Nodup
  removing : ∀ t s, (w.threads t).removing = some s → (w.states s).closed = true
  served : ∀ s < w.subscriberCount, Served w s

/-- For the fan-out a subscriber is the same, but may be closed. -/
structure Subscriber.SameLog (sub sub' : Subscriber) : Prop where
  taskId : sub'.taskId = sub.taskId
  registeredAt : sub'.registeredAt = sub.registeredAt
  accepted : sub'.accepted = sub.accepted
  closed : sub.closed = true → sub'.closed = true

theorem Subscriber.SameLog.refl (sub : Subscriber) : SameLog sub sub := ⟨rfl, rfl, rfl, id⟩

/-- What a thread contributes to the fan-out does not change. -/
structure Program.SamePart (p p' : Program) : Prop where
  fanout : p'.fanout = p.fanout
  publishing : p'.publishing = p.publishing

open World

section Steps

variable {w w' : World} {t s : Nat} {p : Program}

/-- Only the thread that goes on can change what a subscriber is waiting for. -/
theorem awaits_iff_of_step (hthreads : w'.threads = update w.threads t p) {event : StreamResponse} {last : Bool}
    (hp : p.Awaited s event last ↔ (w.threads t).Awaited s event last) :
    w'.Awaits s event last ↔ w.Awaits s event last := by
  have hbefore : w.Awaits s event last ↔ ∃ u, (update w.threads t (w.threads t) u).Awaited s event last := by
    rw [update_eq_self]
    rfl
  rw [hbefore, World.Awaits, hthreads, exists_update_iff _ fun _ q => Program.Awaited q s event last,
    exists_update_iff _ fun _ q => Program.Awaited q s event last, hp]

/-- A subscriber that gets nothing, and for which nothing is published. -/
theorem Served.frame (h : Served w s) (hpublished : w'.published = w.published)
    (hlog : Subscriber.SameLog (w.states s) (w'.states s))
    (hawaits : ∀ event last, w'.Awaits s event last ↔ w.Awaits s event last)
    (hregistered : s ∈ w.subscribers → (w'.states s).closed = false → s ∈ w'.subscribers ∨ w'.shutdown)
    (hshutdown : w.shutdown → w'.shutdown) : Served w' s := by
  have hopen : (w'.states s).closed = false → (w.states s).closed = false := by
    simpa using mt hlog.closed
  have hupdates : w'.updatesFor s = w.updatesFor s := by
    simp only [updatesFor, hpublished, hlog.taskId, hlog.registeredAt]
  constructor <;> simp only [hlog.registeredAt, hlog.accepted, hpublished, hupdates, hawaits]
  · exact h.registeredAt
  · exact h.accepted
  · exact fun hclosed => h.current (hopen hclosed)
  · exact fun event last hclosed => h.pending event last (hopen hclosed)
  · intro hclosed
    rcases h.registered (hopen hclosed) with hmem | hdown | hlast
    · exact (hregistered hmem hclosed).imp_right .inl
    · exact .inr (.inl (hshutdown hdown))
    · exact .inr (.inr hlast)

/-- The subscriber for which the fan-out queues its event. -/
theorem Served.enqueue (h : Served w s) {event : StreamResponse} {last : Bool} (hawaited : w.Awaits s event last)
    (honly : ∀ other last', w.Awaits s other last' → last' = last) (hdone : ∀ other last', ¬ w'.Awaits s other last')
    (hpublished : w'.published = w.published) (hsubscribers : w'.subscribers = w.subscribers)
    (hshutdown : w'.shutdown = w.shutdown) (hstate : w'.states s = (w.states s).enqueue event last) : Served w' s := by
  cases hclosed : (w.states s).closed with
  | true =>
    have hsame : w'.states s = w.states s := by rw [hstate, Subscriber.enqueue, if_pos hclosed]
    have habsurd : (w'.states s).closed ≠ false := by rw [hsame, hclosed]; simp
    have hupdates : w'.updatesFor s = w.updatesFor s := by simp only [updatesFor, hpublished, hsame]
    exact ⟨hsame ▸ hpublished ▸ h.registeredAt, hupdates ▸ hsame ▸ h.accepted, fun hopen => absurd hopen habsurd,
      fun _ _ hopen => absurd hopen habsurd, fun hopen => absurd hopen habsurd⟩
  | false =>
    rw [Subscriber.enqueue, if_neg (by simp [hclosed])] at hstate
    have hupdates : w'.updatesFor s = (w'.states s).accepted := by
      rw [hstate]
      exact (by simp only [updatesFor, hpublished, hstate] : w'.updatesFor s = w.updatesFor s).trans
        (h.pending event last hclosed hawaited)
    refine ⟨?_, hupdates ▸ List.prefix_refl _, fun _ _ => hupdates.symm, ?_, ?_⟩
    · rw [hstate, hpublished]
      exact h.registeredAt
    · exact fun other last' _ hother => absurd hother (hdone other last')
    · intro hopen
      rw [hsubscribers, hshutdown]
      -- The update was not terminal, so the subscriber stays registered as it was.
      rcases h.registered hclosed with hmem | hdown | ⟨other, hother⟩
      · exact .inl hmem
      · exact .inr (.inl hdown)
      · rw [hstate, ← honly other true hother] at hopen
        cases hopen

theorem updatesFor_recordPublished (task : Task) {x : Nat} (hx : (w.states x).registeredAt ≤ w.published.length) :
    (w.recordPublished task).updatesFor x =
      w.updatesFor x ++ if task.id == (w.states x).taskId then [buildStatusUpdateEvent task] else [] := by
  show (((w.published ++ [task]).drop (w.states x).registeredAt).filter fun other =>
    other.id == (w.states x).taskId).map _ = _
  rw [drop_append_of_le_length hx, filter_append, map_append]
  unfold updatesFor
  congr 1
  by_cases hid : (task.id == (w.states x).taskId) <;> simp [hid]

/-- A subscriber at the section that publishes: if the update is for its task, it now waits for it. -/
theorem Served.publish (h : Served w s) {task : Task} (hidle : ∀ event last, ¬ w.Awaits s event last)
    (hshutdown : w.shutdown = false)
    (hawaits : ∀ event last, ((w.recordPublished task).setThread t p).Awaits s event last ↔
      event = buildStatusUpdateEvent task ∧ last = isTerminalTaskState task.state ∧ s ∈ w.subscribersOf task.id) :
    Served ((w.recordPublished task).setThread t p) s := by
  have hregistered : (w.states s).closed = false → s ∈ w.subscribers := by
    intro hclosed
    rcases h.registered hclosed with hmem | hdown | ⟨event, hevent⟩
    · exact hmem
    · cases hshutdown.symm.trans hdown
    · exact absurd hevent (hidle event true)
  have hupdates := updatesFor_recordPublished task h.registeredAt
  have hmem_targets : s ∈ w.subscribersOf task.id ↔ s ∈ w.subscribers ∧ (task.id == (w.states s).taskId) := by
    rw [subscribersOf, mem_filter, beq_iff_eq, beq_iff_eq]
    exact and_congr_right fun _ => eq_comm
  refine ⟨?_, ?_, ?_, ?_, ?_⟩
  · exact h.registeredAt.trans (length_append ▸ Nat.le_add_right _ _)
  · show (w.states s).accepted <+: (w.recordPublished task).updatesFor s
    exact hupdates ▸ h.accepted.trans (prefix_append _ _)
  · intro hclosed hnot
    have hother : ¬ (task.id == (w.states s).taskId) := fun hid =>
      hnot _ _ ((hawaits _ _).mpr ⟨rfl, rfl, hmem_targets.mpr ⟨hregistered hclosed, hid⟩⟩)
    rw [if_neg hother, append_nil] at hupdates
    exact (h.current hclosed hidle).trans hupdates.symm
  · intro event last hclosed hawaited
    obtain ⟨rfl, -, hmem⟩ := (hawaits event last).mp hawaited
    rw [if_pos (hmem_targets.mp hmem).2, ← h.current hclosed hidle] at hupdates
    exact hupdates
  · intro hclosed
    have hmem := hregistered hclosed
    show s ∈ (if _ then _ else _ : List Nat) ∨ _
    split_ifs with hterminal
    · by_cases hid : (task.id == (w.states s).taskId)
      · -- The entry of the task is gone, but the fan-out is on its way to close the subscriber.
        exact .inr (.inr ⟨_, (hawaits _ _).mpr ⟨rfl, hterminal.symm, hmem_targets.mpr ⟨hmem, hid⟩⟩⟩)
      · refine .inl (mem_filter.mpr ⟨hmem, ?_⟩)
        rw [bne_iff_ne]
        intro heq
        exact hid (beq_iff_eq.mpr heq.symm)
    · exact .inl hmem

end Steps

namespace Delivery

variable {w : World}

theorem start : Delivery {} where
  mutex := by simp [Program.publishing, Program.fanout]
  distinct := nodup_nil
  targets := by simp [World.Running, Program.fanout]
  removing := by simp [Program.removing]
  served := by simp

variable (h : Delivery w) {t s : Nat} {p : Program} {sub : Subscriber} {w' : World}

include h

variable {u : Nat} {f : Fanout}

/-- A fan-out belongs to the thread that holds the lock. -/
theorem publisher (hu : (w.threads u).fanout = some f) : w.publicationMutex = some u := by
  refine (h.mutex u).mp ?_
  unfold Program.publishing
  split
  · rfl
  · rw [hu]
    rfl

theorem eq_publisher (hp : (w.threads t).publishing) (hu : (w.threads u).fanout = some f) : u = t :=
  Option.some.inj ((h.publisher hu).symm.trans ((h.mutex t).mp hp))

/-- Once the thread that holds the lock has gone on, its fan-out is the only one. -/
theorem awaits_iff_of_publishing (hp : (w.threads t).publishing) (hthreads : w'.threads = update w.threads t p)
    {event : StreamResponse} {last : Bool} : w'.Awaits s event last ↔ p.Awaited s event last := by
  rw [World.Awaits, hthreads, exists_update_iff _ fun _ q => Program.Awaited q s event last, or_iff_left]
  rintro ⟨u, hne, rest, hu, -⟩
  exact hne (h.eq_publisher hp hu)

/-- What a step of thread `t` has to show, part by part. -/
theorem of_step (hthreads : w'.threads = update w.threads t p)
    (hclosed : ∀ x, (w.states x).closed → (w'.states x).closed) (hself : p.publishing ↔ w'.publicationMutex = some t)
    (hother : ∀ u, u ≠ t → ((w.threads u).publishing ↔ w'.publicationMutex = some u))
    (hdistinct : w'.subscribers.Nodup) (htargets : ∀ f, p.fanout = some f → f.subscribers.Nodup)
    (hremoving : ∀ x, p.removing = some x → (w'.states x).closed) (hserved : ∀ x < w'.subscriberCount, Served w' x) :
    Delivery w' := by
  refine ⟨?_, hdistinct, ?_, ?_, hserved⟩ <;> simp only [World.Running, hthreads]
  · exact (forall_update_iff _ fun u q => Program.publishing q = true ↔ _).mpr ⟨hself, hother⟩
  · rintro f ⟨u, hu⟩
    exact (forall_update_iff _ fun _ q => Program.fanout q = some f → _).mpr
      ⟨htargets f, fun u _ hu => h.targets f ⟨u, hu⟩⟩ u hu
  · intro u x
    exact (forall_update_iff _ fun _ q => Program.removing q = some x → _).mpr
      ⟨hremoving x, fun u _ hx => hclosed x (h.removing u x hx)⟩ u

/-- The frame rule for a subscriber that changes and a thread that goes on. -/
theorem move (hlog : Subscriber.SameLog (w.states s) sub) (hpart : Program.SamePart (w.threads t) p)
    (hremoving : ∀ x, p.removing = some x → (w.threads t).removing = some x ∨ (x = s ∧ sub.closed)) :
    Delivery ((w.setState s sub).setThread t p) := by
  have hlogs : ∀ x, Subscriber.SameLog (w.states x) (update w.states s sub x) :=
    (forall_update_iff _ fun x sub' => Subscriber.SameLog (w.states x) sub').mpr
      ⟨hlog, fun x _ => Subscriber.SameLog.refl _⟩
  refine h.of_step rfl (fun x => (hlogs x).closed) ?_ (fun u _ => h.mutex u) h.distinct ?_ ?_ ?_
  · rw [hpart.publishing]
    exact h.mutex t
  · exact fun f hf => h.targets f ⟨t, hpart.fanout ▸ hf⟩
  · intro x hx
    rcases hremoving x hx with hbefore | ⟨rfl, hclosed⟩
    · exact (hlogs x).closed (h.removing t x hbefore)
    · show (update w.states x sub x).closed
      rwa [update_self]
  · refine fun x hx => (h.served x hx).frame rfl (hlogs x) (fun event last => awaits_iff_of_step rfl ?_)
      (fun hmem _ => .inl hmem) id
    rw [Program.Awaited, hpart.fanout]
    rfl

theorem setState (hlog : Subscriber.SameLog (w.states s) sub) : Delivery (w.setState s sub) := by
  have hsame : w.setState s sub = (w.setState s sub).setThread 0 (w.threads 0) := by
    simp [World.setThread, World.setState]
  rw [hsame]
  exact h.move hlog ⟨rfl, rfl⟩ fun x hx => .inl hx

theorem setThread (hpart : Program.SamePart (w.threads t) p)
    (hremoving : ∀ x, p.removing = some x → (w.threads t).removing = some x) : Delivery (w.setThread t p) := by
  have hsame : w.setThread t p = (w.setState 0 (w.states 0)).setThread t p := by
    simp [World.setThread, World.setState]
  rw [hsame]
  exact h.move (Subscriber.SameLog.refl _) hpart fun x hx => .inl (hremoving x hx)

/-! ### Publishing -/

/-- A section of the service: a thread goes on to a program with no fan-out. -/
theorem serviceSection {w₀ : World} (hstates : w₀.states = w.states) (hthreads : w₀.threads = w.threads)
    (hpublished : w₀.published = w.published) (hcount : w₀.subscriberCount = w.subscriberCount)
    (hself : p.publishing ↔ w₀.publicationMutex = some t)
    (hother : ∀ u, u ≠ t → ((w.threads u).publishing ↔ w₀.publicationMutex = some u)) (hdistinct : w₀.subscribers.Nodup)
    (hregistered : ∀ x ∈ w.subscribers, (w.states x).closed = false → x ∈ w₀.subscribers ∨ w₀.shutdown)
    (hshutdown : w.shutdown → w₀.shutdown) (hdone : ∀ f, (w.threads t).fanout = some f → f.subscribers = [])
    (hfanout : p.fanout = none) (hremoving : p.removing = none) : Delivery (w₀.setThread t p) := by
  have hlog : ∀ x, Subscriber.SameLog (w.states x) (w₀.states x) := fun x =>
    hstates ▸ Subscriber.SameLog.refl _
  have hstep : (w₀.setThread t p).threads = update w.threads t p := by
    rw [← hthreads]
    rfl
  refine h.of_step hstep (fun x => (hlog x).closed) hself hother hdistinct (by simp [hfanout]) (by simp [hremoving]) ?_
  intro x hx
  refine (h.served x (hcount ▸ hx)).frame hpublished (hlog x) (fun event last => awaits_iff_of_step hstep ?_)
    (fun hmem hclosed => hregistered x hmem (hstates ▸ hclosed)) hshutdown
  refine iff_of_false (fun ⟨_, hsome, _⟩ => ?_) (fun ⟨_, hsome, hmem⟩ => ?_)
  · cases hfanout.symm.trans hsome
  · exact ne_nil_of_mem hmem (hdone _ hsome)

theorem lockPublication {task : Task} (hp : w.threads t = .lockPublication task) (hfree : w.publicationMutex = none) :
    Delivery ({ w with publicationMutex := some t }.setThread t (.publishSection task)) := by
  refine h.serviceSection rfl rfl rfl rfl ?_ ?_ h.distinct (fun x hx _ => .inl hx) id ?_ rfl rfl
  · simp [Program.publishing]
  · intro u hu
    rw [h.mutex u, hfree]
    simp [Ne.symm hu]
  · simp [hp, Program.fanout]

theorem unlockPublication (hp : (w.threads t).publishing)
    (hdone : ∀ f, (w.threads t).fanout = some f → f.subscribers = []) :
    Delivery ({ w with publicationMutex := none }.setThread t .idle) := by
  refine h.serviceSection rfl rfl rfl rfl ?_ ?_ h.distinct (fun x hx _ => .inl hx) id hdone rfl rfl
  · simp [Program.publishing, Program.fanout]
  · intro u hu
    rw [h.mutex u, (h.mutex t).mp hp]
    simp [Ne.symm hu]

/-- The new update reaches the subscribers of its task by the fan-out that begins here. -/
theorem publish {task : Task} (hp : w.threads t = .publishSection task) (hshutdown : w.shutdown = false) :
    Delivery ((w.recordPublished task).setThread t
      (.enqueue (buildStatusUpdateEvent task) (isTerminalTaskState task.state) (w.subscribersOf task.id))) := by
  have hpublishing : (w.threads t).publishing := by rw [hp]; rfl
  have hidle : ∀ x event last, ¬ w.Awaits x event last := by
    rintro x event last ⟨u, rest, hu, -⟩
    rw [h.eq_publisher hpublishing hu, hp] at hu
    cases hu
  refine h.of_step rfl (fun _ => id) (iff_of_true rfl ((h.mutex t).mp hpublishing)) (fun u _ => h.mutex u) ?_ ?_
    (by simp [Program.removing]) ?_
  · show (if _ then _ else _ : List Nat).Nodup
    split_ifs
    · exact h.distinct.filter _
    · exact h.distinct
  · rintro f hf
    cases hf
    exact h.distinct.filter _
  · refine fun x hx => (h.served x hx).publish (hidle x) hshutdown fun event last => ?_
    rw [h.awaits_iff_of_publishing hpublishing rfl]
    simp only [Program.Awaited, Program.fanout, Option.some.injEq, Fanout.mk.injEq]
    grind

/-- The fan-out has served one more subscriber. -/
theorem enqueue {event : StreamResponse} {closeAfterEvent : Bool} {rest : List Nat}
    (hp : w.threads t = .enqueue event closeAfterEvent (s :: rest)) :
    Delivery ((w.setState s ((w.states s).enqueue event closeAfterEvent)).setThread t
      (.signal s (.publishTaskUpdated event closeAfterEvent rest))) := by
  have hpublishing : (w.threads t).publishing := by rw [hp]; rfl
  have hfanout : (w.threads t).fanout = some ⟨event, closeAfterEvent, s :: rest⟩ := by rw [hp]; rfl
  obtain ⟨hnotmem, hnodup⟩ := nodup_cons.mp (h.targets _ ⟨t, hfanout⟩)
  refine h.of_step rfl ?_ (iff_of_true rfl ((h.mutex t).mp hpublishing)) (fun u _ => h.mutex u) h.distinct ?_
    (by simp [Program.removing, Caller.removing]) ?_
  · refine (forall_update_iff _ fun x sub => (w.states x).closed → Subscriber.closed sub).mpr ⟨?_, fun _ _ => id⟩
    intro hclosed
    rwa [Subscriber.enqueue, if_pos hclosed]
  · rintro f hf
    cases hf
    exact hnodup
  · intro x hx
    by_cases hxs : x = s
    · subst hxs
      refine (h.served x hx).enqueue ⟨t, _, hfanout, mem_cons_self⟩ ?_ ?_ rfl rfl rfl (update_self _ _ _)
      · rintro other last' ⟨u, rest', hu, -⟩
        rw [h.eq_publisher hpublishing hu, hfanout] at hu
        cases hu
        rfl
      · intro other last' hawaits
        obtain ⟨_, hsome, hmem⟩ := (h.awaits_iff_of_publishing hpublishing rfl).mp hawaits
        cases hsome
        exact hnotmem hmem
    · refine (h.served x hx).frame rfl ?_ (fun other last' => awaits_iff_of_step rfl ?_) (fun hmem _ => .inl hmem) id
      · exact (update_of_ne hxs _ w.states).symm ▸ Subscriber.SameLog.refl (w.states x)
      · simp only [Program.Awaited, Program.fanout, Caller.fanout, hp, Option.some.injEq, Fanout.mk.injEq]
        grind

/-! ### Registration and removal -/

omit h in
theorem mentions_of_fanout {f : Fanout} (hf : p.fanout = some f) : f.subscribers ⊆ p.mentions := by
  have hcaller : ∀ (caller : Caller) {f : Fanout}, caller.fanout = some f → f.subscribers ⊆ caller.mentions := by
    intro caller f hf
    cases caller with
    | publishTaskUpdated =>
      cases hf
      exact List.Subset.refl _
    | shutdown | removeSubscriber => exact absurd hf (by simp [Caller.fanout])
  cases p with
  | enqueue =>
    cases hf
    exact List.Subset.refl _
  | signal x caller | resume x _ caller => exact subset_cons_of_subset x (hcaller caller hf)
  | _ => exact absurd hf (by simp [Program.fanout])

omit h in
theorem mentions_of_removing {x : Nat} (hx : p.removing = some x) : x ∈ p.mentions := by
  have hcaller : ∀ caller : Caller, caller.removing = some x → x ∈ caller.mentions := by
    intro caller hx
    cases caller with
    | removeSubscriber s =>
      cases hx
      exact mem_singleton_self _
    | publishTaskUpdated | shutdown => exact absurd hx (by simp [Caller.removing])
  cases p with
  | removeSubscriber s =>
    cases hx
    exact mem_singleton_self _
  | signal s caller | resume s _ caller => exact mem_cons_of_mem s (hcaller caller hx)
  | _ => exact absurd hx (by simp [Program.removing])

/-- A new subscriber has missed nothing yet. -/
theorem subscribed (hsound : Sound w) (haccepted : sub.accepted = [])
    (hregisteredAt : sub.registeredAt = w.published.length) :
    Delivery { w with
      subscribers := w.subscribers ++ [w.subscriberCount]
      subscriberCount := w.subscriberCount + 1
      states := update w.states w.subscriberCount sub } := by
  have hother : ∀ x, x < w.subscriberCount → update w.states w.subscriberCount sub x = w.states x := fun x hx =>
    update_of_ne (Nat.ne_of_lt hx) _ _
  refine ⟨h.mutex, ?_, h.targets, ?_, ?_⟩
  · refine nodup_append.mpr ⟨h.distinct, pairwise_singleton _ _, ?_⟩
    intro x hx y hy
    rw [mem_singleton.mp hy]
    exact Nat.ne_of_lt (hsound.known x hx)
  · intro u x hx
    show (update w.states w.subscriberCount sub x).closed
    rw [hother x (hsound.mentioned u x (mentions_of_removing hx))]
    exact h.removing u x hx
  · intro x hx
    rcases Nat.lt_or_eq_of_le (Nat.lt_succ_iff.mp hx) with hx | rfl
    · exact (h.served x hx).frame rfl ((hother x hx).symm ▸ Subscriber.SameLog.refl _) (fun _ _ => Iff.rfl)
        (fun hmem _ => .inl (mem_append_left _ hmem)) id
    · have hnot : ∀ event last, ¬ w.Awaits w.subscriberCount event last := by
        rintro event last ⟨u, rest, hu, hmem⟩
        exact absurd (hsound.mentioned u _ (mentions_of_fanout hu hmem)) (Nat.lt_irrefl _)
      constructor <;> simp only [updatesFor, update_self, haccepted, hregisteredAt, drop_length]
      · exact Nat.le_refl _
      · exact nil_prefix
      · exact fun _ _ => rfl
      · exact fun event last _ hawaits => absurd hawaits (hnot event last)
      · exact fun _ => .inl (mem_append_right _ (mem_singleton_self _))

/-- Shutting down empties the table; its subscribers are closed later. -/
theorem shutdown {order : List Nat} (hp : w.threads t = .shutdownSection) :
    Delivery ({ w with
        shutdown := true, subscribers := [], latestTaskStatesById := fun _ => none }.setThread t
      (.shutdownClose order)) := by
  refine h.serviceSection rfl rfl rfl rfl ?_ (fun u _ => h.mutex u) nodup_nil (fun x _ _ => .inr rfl)
    (fun _ => rfl) ?_ rfl rfl
  · rw [← h.mutex t, hp]
    rfl
  · simp [hp, Program.fanout]

theorem removeSubscriber (hp : w.threads t = .removeSubscriber s) :
    Delivery ({ w with subscribers := w.subscribers.filter (· != s) }.setThread t (.waitForResumes s)) := by
  have hclosed : (w.states s).closed := h.removing t s (by rw [hp]; rfl)
  refine h.serviceSection rfl rfl rfl rfl ?_ (fun u _ => h.mutex u) (h.distinct.filter _) ?_ id ?_ rfl rfl
  · rw [← h.mutex t, hp]
    rfl
  · intro x hx hopen
    refine .inl (mem_filter.mpr ⟨hx, ?_⟩)
    rw [bne_iff_ne]
    rintro rfl
    cases hopen.symm.trans hclosed
  · simp [hp, Program.fanout]

/-- Every step of a thread keeps the invariant of the fan-out. -/
theorem threadStep (hstep : ThreadStep w t w') : Delivery w' := by
  cases hstep with
  | lockPublication task hp hfree => exact h.lockPublication hp hfree
  | publishRefused task hp =>
    exact h.unlockPublication (by rw [hp]; rfl) (by simp [hp, Program.fanout])
  | publish task hp hshutdown => exact h.publish hp hshutdown
  | published event closeAfterEvent hp =>
    refine h.unlockPublication (by rw [hp]; rfl) ?_
    intro f hf
    rw [hp] at hf
    cases hf
    rfl
  | enqueue event closeAfterEvent s rest hp => exact h.enqueue hp
  | close s caller hp =>
    have hlog : Subscriber.SameLog (w.states s) (w.states s).close := ⟨rfl, rfl, rfl, fun _ => rfl⟩
    unfold Program.closing at hp
    split at hp
    · next hp' =>
        cases hp
        refine h.move hlog (hp'.symm ▸ ⟨rfl, rfl⟩) ?_
        intro x hx
        exact absurd hx (by simp [Program.removing, Caller.removing])
    · next hp' =>
        cases hp
        refine h.move hlog (hp'.symm ▸ ⟨rfl, rfl⟩) ?_
        intro x hx
        exact .inr ⟨(Option.some.inj hx).symm, rfl⟩
    · cases hp
  | shutdown order hp => exact h.shutdown hp
  | removeSubscriber s hp => exact h.removeSubscriber hp
  | finish hp =>
    refine h.setThread ?_ (by simp [Program.removing])
    rcases hp with hp | hp | ⟨s, hp⟩ <;> exact hp.symm ▸ ⟨rfl, rfl⟩
  | signal s caller hp =>
    have hlog : Subscriber.SameLog (w.states s) ((w.states s).takeContinuation t) := by
      unfold Subscriber.takeContinuation
      split_ifs <;> exact ⟨rfl, rfl, rfl, id⟩
    unfold signal
    dsimp only
    split_ifs
    · exact h.move hlog (hp.symm ▸ ⟨rfl, rfl⟩) fun x hx => .inl (by rw [hp]; exact hx)
    · refine h.move hlog (hp.symm ▸ ⟨fanout_goOn caller, publishing_goOn caller⟩) fun x hx =>
        .inl ?_
      rw [removing_goOn] at hx
      rw [hp]
      exact hx
  | resumeLock s caller hp | resumeUnlock s caller hp =>
    exact h.move ⟨rfl, rfl, rfl, id⟩ (hp.symm ▸ ⟨rfl, rfl⟩) fun x hx =>
      .inl (by rw [hp]; exact hx)
  | resumeDrop s caller hp =>
    refine h.move ⟨rfl, rfl, rfl, id⟩ (hp.symm ▸ ⟨fanout_goOn caller, publishing_goOn caller⟩) fun x hx => .inl ?_
    rw [removing_goOn] at hx
    rw [hp]
    exact hx

theorem step {a : Action} (hsound : Sound w) (hstep : TaskSubscriptionService.step w a = some w') : Delivery w' := by
  cases transition_of_step hstep with
  | subscribeRefused | cancelAgain => exact h
  | subscribed task => exact h.subscribed hsound rfl rfl
  | call a t p hidle hp =>
    refine h.setThread ?_ ?_ <;> rcases hp with ⟨task, rfl⟩ | rfl
    · exact hidle.symm ▸ ⟨rfl, rfl⟩
    · exact hidle.symm ▸ ⟨rfl, rfl⟩
    · simp [Program.removing]
    · simp [Program.removing]
  | cancel t s hidle hs =>
    exact h.move ⟨rfl, rfl, rfl, id⟩ (hidle.symm ▸ ⟨rfl, rfl⟩) (by simp [Program.removing])
  | reader a s ha hs hreader =>
    refine h.setState ?_
    cases hreader <;> exact ⟨rfl, rfl, rfl, id⟩
  | coroutine s hs hcoroutine =>
    refine h.setState ?_
    cases hcoroutine <;> exact ⟨rfl, rfl, rfl, id⟩
  | thread t order hthread => exact h.threadStep hthread

end Delivery

end A2A.Server.TaskSubscriptionService
