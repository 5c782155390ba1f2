/-
# What holds of one subscriber, whatever the threads do.
-/
import A2A.Server.TaskSubscriptionService

namespace A2A.Server.TaskSubscriptionService

open A2A.Foundation A2A.Core CoroutinePoint List

namespace Subscriber

/-! ## Where the events are -/

/-- The event that the reader has taken and not yet recorded. -/
def inReader (sub : Subscriber) : List StreamResponse :=
  match sub.reader with
  | .recordDelivered event => [event]
  | _ => []

/-- The events on their way to the reader: those that left the queue, then the queue. -/
def pipeline (sub : Subscriber) : List StreamResponse :=
  sub.inReader ++ sub.currentValue.toList ++ sub.point.inHand sub.snapshot ++ sub.events

/-- The events of a subscriber are all somewhere, in order, and the count agrees. -/
structure Flow (sub : Subscriber) : Prop where
  order : sub.delivered ++ sub.pipeline = sub.snapshot :: sub.accepted
  count : sub.pendingDeliveryCount = (sub.pipeline.countP StreamResponse.hasStatusUpdate : Nat)
  updates : ∀ e ∈ sub.accepted, e.hasStatusUpdate = true
  terminalLast : ∀ before e after, sub.accepted = before ++ e :: after →
    isTerminalEvent e = true → after = [] ∧ sub.closed = true

/-! ## Who may resume the coroutine -/

/-- The part of a subscriber that the reader's position speaks about. -/
structure Session where
  started : Bool
  resumeAfterYield : Bool
  point : CoroutinePoint
  currentValue : Option StreamResponse
  snapshot : StreamResponse
  delivered : List StreamResponse
  reader : ReaderPoint

/-- That part, of this subscriber. -/
def session (sub : Subscriber) : Session :=
  ⟨sub.started, sub.resumeAfterYield, sub.point, sub.currentValue, sub.snapshot, sub.delivered,
    sub.reader⟩

namespace Session

/-- The reader has resumed the coroutine and waits for what it stages next. -/
structure Engaged (r : Session) : Prop where
  started : r.started = true
  noResume : r.resumeAfterYield = false
  moved : r.point ≠ .initial
  staged : ∀ isTerminal, r.point = .yielded isTerminal → r.currentValue ≠ none
  first : r.delivered = [] → r.point = .yieldValue r.snapshot ∨ r.currentValue ≠ none

/-- The reader has taken a value, so the coroutine waits for it at that yield. -/
structure Owes (r : Session) : Prop where
  started : r.started = true
  taken : r.currentValue = none
  yielded : ∃ isTerminal, r.point = .yielded isTerminal

/-- Nothing has been resumed, staged or handed out. -/
structure Fresh (r : Session) : Prop where
  initial : r.point = .initial
  taken : r.currentValue = none
  noResume : r.resumeAfterYield = false
  delivered : r.delivered = []

/-- The reader is engaged and has a first value, staged or handed out. -/
def Settled (r : Session) : Prop := r.Engaged ∧ (r.delivered = [] → r.currentValue ≠ none)

/-- The reader is not inside `Next` or `NextFor`. -/
def Between (r : Session) : Prop :=
  (r.started = false ∧ r.Fresh) ∨ (r.resumeAfterYield = true ∧ r.Owes ∧ r.delivered ≠ []) ∨ r.Settled

/-- What the reader's position says about the coroutine. -/
def ReaderOk (r : Session) : Prop :=
  match r.reader with
  | .lockResume _ => r.started = true ∧ r.resumeAfterYield = false ∧
      (r.Fresh ∨ (r.Owes ∧ r.delivered ≠ []))
  | .unlockResume _ => r.Engaged
  | .waiting _ => r.Settled
  | .recordDelivered _ => r.resumeAfterYield = true ∧ r.Owes
  | .idle | .loadClosed | .loadPending => r.Between

end Session

/-- The right to resume the coroutine is in one place. -/
structure Handle (sub : Subscriber) : Prop where
  value : sub.currentValue ≠ none → ∃ isTerminal, sub.point = .yielded isTerminal
  stored : sub.continuation = true → sub.point = .awaiting ∧ sub.waker = none
  taken : sub.waker ≠ none → sub.point = .awaiting
  somewhere : sub.point = .awaiting → sub.continuation = true ∨ sub.waker ≠ none
  running : sub.point.suspended = false → sub.resumeMutex ≠ none
  reader : sub.resumeMutex = some .reader ↔ ∃ timed, sub.reader = .unlockResume timed
  done : sub.done = true ↔ sub.point = .finished

/-- What has been reported to the reader. -/
structure Reports (sub : Subscriber) : Prop where
  quiet : sub.quiet = true → sub.delivered ≠ []
  ended : sub.ended = true → sub.done = true
  loadPending : sub.reader = .loadPending → sub.closed = true

/-- The invariant of a subscriber. -/
structure Inv (sub : Subscriber) : Prop where
  flow : sub.Flow
  reader : sub.session.ReaderOk
  handle : sub.Handle
  reports : sub.Reports

/-- A value is staged at a yield only. -/
theorem Handle.unstaged {sub : Subscriber} (h : sub.Handle)
    (hpoint : ∀ isTerminal, sub.point ≠ .yielded isTerminal) : sub.currentValue = none := by
  by_contra hsome
  obtain ⟨isTerminal, hyielded⟩ := h.value hsome
  exact hpoint isTerminal hyielded

theorem inv_new (taskId : Bytes) (currentTask : Task) (registeredAt : Nat) :
    Inv { taskId, currentTask, registeredAt } where
  flow := by
    refine ⟨rfl, rfl, ?_, ?_⟩
    · intro e he
      cases he
    · intro before e after h
      exact absurd h (by simp)
  reader := .inl ⟨rfl, rfl, rfl, rfl, rfl⟩
  handle := by
    refine ⟨?_, ?_, ?_, ?_, ?_, ?_, ?_⟩ <;> simp [suspended]
  reports := by
    refine ⟨?_, ?_, ?_⟩ <;> simp

/-! ## Steps of other threads -/

section OtherThreads

variable {sub sub' : Subscriber}

variable {r : Session} {t : Nat}

/-- An accepted update joins the end of the pipeline; a terminal one closes it. -/
theorem inv_enqueue (h : sub.Inv) {event : StreamResponse}
    (hupdate : event.hasStatusUpdate) : (sub.enqueue event (isTerminalEvent event)).Inv := by
  by_cases hclosed : sub.closed
  · rw [enqueue, if_pos hclosed]
    exact h
  · rw [enqueue, if_neg hclosed]
    have hpipeline : ∀ l, l ++ (sub.events ++ [event]) = l ++ sub.events ++ [event] := fun l =>
      (append_assoc l _ _).symm
    refine ⟨⟨?_, ?_, ?_, ?_⟩, h.reader, ?_, h.reports.quiet, h.reports.ended, ?_⟩
    · show sub.delivered ++ (_ ++ (sub.events ++ [event])) = _ :: (sub.accepted ++ [event])
      rw [hpipeline, ← append_assoc, ← cons_append]
      exact congrArg (· ++ [event]) h.flow.order
    · show sub.pendingDeliveryCount + 1 = ((_ ++ (sub.events ++ [event])).countP _ : Nat)
      rw [hpipeline, countP_append, countP_singleton, if_pos hupdate, h.flow.count]
      rfl
    · intro e he
      rcases mem_append.mp he with he | he
      · exact h.flow.updates e he
      · rw [mem_singleton.mp he]
        exact hupdate
    · intro before e after hsplit hterminal
      -- A terminal update that was accepted before would have closed the subscriber.
      rcases eq_nil_or_concat after with rfl | ⟨rest, last, rfl⟩
      · obtain ⟨_, hlast⟩ := append_inj' hsplit rfl
        obtain rfl : event = e := singleton_inj.mp hlast
        exact ⟨rfl, hterminal⟩
      · rw [concat_eq_append, ← cons_append, ← append_assoc] at hsplit
        obtain ⟨hold, _⟩ := append_inj' hsplit rfl
        exact absurd (h.flow.terminalLast before e rest hold hterminal).2 hclosed
    · exact { h.handle with }
    · intro hload
      exact absurd (h.reports.loadPending hload) hclosed

theorem inv_close (h : sub.Inv) : sub.close.Inv where
  flow := ⟨h.flow.order, h.flow.count, h.flow.updates, fun before e after hsplit hterminal =>
    ⟨(h.flow.terminalLast before e after hsplit hterminal).1, rfl⟩⟩
  reader := h.reader
  handle := { h.handle with }
  reports := ⟨h.reports.quiet, h.reports.ended, fun _ => rfl⟩

theorem inv_takeContinuation (h : sub.Inv) (t : Nat) : (sub.takeContinuation t).Inv := by
  by_cases hstored : sub.continuation
  · rw [takeContinuation, if_pos hstored]
    obtain ⟨hawaiting, _⟩ := h.handle.stored hstored
    refine ⟨{ h.flow with }, h.reader, ?_, { h.reports with }⟩
    refine ⟨h.handle.value, ?_, ?_, ?_, h.handle.running, h.handle.reader, h.handle.done⟩
    · intro hfalse
      cases hfalse
    · intro _
      exact hawaiting
    · intro _
      exact .inr (by simp)
  · rw [takeContinuation, if_neg hstored]
    exact h

/-- A step that leaves the pipeline and the logs alone leaves the flow alone. -/
theorem Flow.congr (h : sub.Flow) (htask : sub'.currentTask = sub.currentTask)
    (hdelivered : sub'.delivered = sub.delivered) (haccepted : sub'.accepted = sub.accepted)
    (hclosed : sub'.closed = sub.closed) (hcount : sub'.pendingDeliveryCount = sub.pendingDeliveryCount)
    (hpipeline : sub'.pipeline = sub.pipeline) : sub'.Flow where
  order := by
    rw [hdelivered, hpipeline, haccepted, snapshot, htask]
    exact h.order
  count := by
    rw [hcount, hpipeline]
    exact h.count
  updates := by
    rw [haccepted]
    exact h.updates
  terminalLast := by
    rw [haccepted, hclosed]
    exact h.terminalLast

/-- Resuming puts nothing into the coroutine's hands and takes nothing out of them. -/
theorem inHand_resumedPoint (sub : Subscriber) :
    sub.resumedPoint.inHand sub.snapshot = sub.point.inHand sub.snapshot := by
  unfold resumedPoint
  cases sub.point with
  | yielded isTerminal => cases isTerminal <;> rfl
  | _ => rfl

theorem lockResume_eq_some {runner : Runner} (h : sub.lockResume runner = some sub') :
    sub.resumeMutex = none ∧ sub' = { sub with resumeMutex := some runner, point := sub.resumedPoint } := by
  unfold lockResume at h
  cases hmutex : sub.resumeMutex with
  | some _ =>
    rw [hmutex] at h
    cases h
  | none =>
    rw [hmutex] at h
    exact ⟨rfl, (Option.some.inj h).symm⟩

theorem unlockResume_eq_some (h : sub.unlockResume = some sub') :
    sub.point.suspended ∧ sub' = { sub with resumeMutex := none } := by
  unfold unlockResume at h
  split at h
  · next hsuspended => exact ⟨hsuspended, (Option.some.inj h).symm⟩
  · cases h

/-- A coroutine that is neither new nor at a yield has a reader engaged with it. -/
def Session.Attentive (r : Session) : Prop :=
  (∃ timed, r.reader = .unlockResume timed ∧ r.Engaged) ∨
  ((∀ timed, r.reader ≠ .lockResume timed) ∧ (∀ event, r.reader ≠ .recordDelivered event) ∧ r.Settled)

theorem Session.Attentive.engaged (h : r.Attentive) : r.Engaged := by
  rcases h with ⟨_, _, hengaged⟩ | ⟨_, _, hsettled⟩
  · exact hengaged
  · exact hsettled.1

theorem Session.Attentive.readerOk (h : r.Attentive) : r.ReaderOk := by
  unfold Session.ReaderOk
  rcases h with ⟨timed, hreader, hengaged⟩ | ⟨hlock, hrecord, hsettled⟩
  · rw [hreader]
    exact hengaged
  · split
    · next hreader => exact absurd hreader (hlock _)
    · exact hsettled.1
    · exact hsettled
    · next hreader => exact absurd hreader (hrecord _)
    all_goals exact .inr (.inr hsettled)

/-- The converse of `Attentive.readerOk`, away from the points where a reader may be new or owing. -/
theorem Session.ReaderOk.attentive (h : r.ReaderOk) (hinitial : r.point ≠ .initial)
    (hyielded : ∀ isTerminal, r.point ≠ .yielded isTerminal) : r.Attentive := by
  have hfresh : ¬ r.Fresh := fun hfresh => hinitial hfresh.initial
  have howes : ¬ r.Owes := fun howes => by
    obtain ⟨_, hpoint⟩ := howes.yielded
    exact hyielded _ hpoint
  unfold Session.ReaderOk at h
  unfold Session.Attentive
  split at h
  · rcases h.2.2 with h | h
    · exact absurd h hfresh
    · exact absurd h.1 howes
  · next hreader => exact .inl ⟨_, hreader, h⟩
  · next hreader => exact .inr ⟨by simp [hreader], by simp [hreader], h⟩
  · exact absurd h.2 howes
  all_goals
    next hreader =>
      rcases h with h | h | h
      · exact absurd h.2 hfresh
      · exact absurd h.2.1 howes
      · exact .inr ⟨by simp [hreader], by simp [hreader], h⟩

/-- A reader stays engaged while the coroutine moves on, if what is staged stays staged. -/
theorem Session.Attentive.move (h : r.Attentive) (point : CoroutinePoint) (value : Option StreamResponse)
    (hmoved : point ≠ .initial) (hstaged : ∀ isTerminal, point = .yielded isTerminal → value ≠ none)
    (hfirst : r.point = .yieldValue r.snapshot → value ≠ none) (hvalue : r.currentValue ≠ none → value ≠ none) :
    Session.Attentive { r with point := point, currentValue := value } := by
  have hengaged : Session.Engaged { r with point := point, currentValue := value } := by
    refine ⟨h.engaged.started, h.engaged.noResume, hmoved, hstaged, ?_⟩
    intro hdelivered
    rcases h.engaged.first hdelivered with hpoint | hsome
    · exact .inr (hfirst hpoint)
    · exact .inr (hvalue hsome)
  rcases h with ⟨timed, hreader, _⟩ | ⟨hlock, hrecord, hsettled⟩
  · exact .inl ⟨timed, hreader, hengaged⟩
  · exact .inr ⟨hlock, hrecord, hengaged, fun hdelivered => hvalue (hsettled.2 hdelivered)⟩

/-- The thread has the resume lock and uses its handle: the coroutine runs. -/
abbrev resumedBy (sub : Subscriber) (t : Nat) : Subscriber :=
  { sub with resumeMutex := some (.thread t), point := sub.resumedPoint, waker := none }

/-- The resume lock is given back. -/
abbrev released (sub : Subscriber) : Subscriber := { sub with resumeMutex := none }

/-- The thread that took the handle finds the coroutine awaiting, and resumes it. -/
theorem inv_resumedBy (h : sub.Inv) (hwaker : sub.waker = some t) (hmutex : sub.resumeMutex = none) :
    (sub.resumedBy t).Inv := by
  have hawaiting : sub.point = .awaiting := h.handle.taken (by simp [hwaker])
  have hnotStored : sub.continuation ≠ true := fun hstored => by
    have hnone := (h.handle.stored hstored).2
    rw [hwaker] at hnone
    cases hnone
  have hvalue : sub.currentValue = none := h.handle.unstaged (by simp [hawaiting])
  have hresumed : sub.resumedPoint = .awaitResume := by
    rw [resumedPoint, hawaiting]
  have hnotDone : ¬ sub.done := by simp [h.handle.done, hawaiting]
  have hattentive : sub.session.Attentive :=
    h.reader.attentive (by simp [session, hawaiting]) (by simp [session, hawaiting])
  refine ⟨?_, ?_, ?_, { h.reports with }⟩
  · refine h.flow.congr rfl rfl rfl rfl rfl ?_
    show _ ++ sub.resumedPoint.inHand sub.snapshot ++ sub.events = _
    rw [inHand_resumedPoint]
    rfl
  · refine (hattentive.move sub.resumedPoint sub.currentValue ?_ ?_ ?_ id).readerOk
    · simp [hresumed]
    · simp [hresumed]
    · simp [session, hawaiting]
  · refine ⟨(absurd hvalue ·), (absurd · hnotStored), (absurd rfl ·), ?_, by simp, ?_, ?_⟩
    · intro hpoint
      cases hresumed.symm.trans hpoint
    · have hreader := h.handle.reader
      rw [hmutex] at hreader
      constructor
      · intro hrunner
        cases hrunner
      · intro hunlock
        cases hreader.mpr hunlock
    · constructor
      · intro hdone
        exact absurd hdone hnotDone
      · intro hpoint
        cases hresumed.symm.trans hpoint

theorem inv_released (h : sub.Inv) (hholder : sub.resumeMutex = some (.thread t)) (hsuspended : sub.point.suspended) :
    sub.released.Inv := by
  refine ⟨{ h.flow with }, h.reader, ?_, { h.reports with }⟩
  refine ⟨h.handle.value, h.handle.stored, h.handle.taken, h.handle.somewhere, ?_, ?_, h.handle.done⟩
  · intro hrunning
    cases hsuspended.symm.trans hrunning
  · have hreader := h.handle.reader
    rw [hholder] at hreader
    constructor
    · intro hnone
      cases hnone
    · intro hunlocking
      cases hreader.mpr hunlocking

theorem inv_dropResume (h : sub.Inv) : sub.dropResume.Inv where
  flow := { h.flow with }
  reader := h.reader
  handle := { h.handle with }
  reports := { h.reports with }

theorem inv_cancelled (h : sub.Inv) : Inv { sub with cancelled := true } where
  flow := { h.flow with }
  reader := h.reader
  handle := { h.handle with }
  reports := { h.reports with }

end OtherThreads

/-! ## Steps of the coroutine -/

/-- There is something to resume the coroutine for. -/
def HasWork (sub : Subscriber) : Prop := sub.closed = true ∨ sub.events ≠ []

theorem hasWork_iff (sub : Subscriber) : (sub.closed || !sub.events.isEmpty) ↔ sub.HasWork := by
  simp [HasWork]

/-- What a section of the coroutine can do. -/
inductive CoroutineStep (sub : Subscriber) : Subscriber → Prop where
  | stage (value : StreamResponse) (hpoint : sub.point = .yieldValue value) :
      CoroutineStep sub
        { sub with currentValue := some value, point := .yielded (isTerminalEvent value) }
  | goOn (hpoint : sub.point = .awaitReady ∨ sub.point = .awaitSuspend) (hwork : sub.HasWork) :
      CoroutineStep sub { sub with point := .awaitResume }
  | toSuspend (hpoint : sub.point = .awaitReady) (hwork : ¬ sub.HasWork) :
      CoroutineStep sub { sub with point := .awaitSuspend }
  | suspend (hpoint : sub.point = .awaitSuspend) (hwork : ¬ sub.HasWork) :
      CoroutineStep sub { sub with continuation := true, point := .awaiting }
  | noEvent (hpoint : sub.point = .awaitResume) (hevents : sub.events = []) :
      CoroutineStep sub { sub with point := .finalSuspend }
  | pop (event : StreamResponse) (events : List StreamResponse) (hpoint : sub.point = .awaitResume)
      (hevents : sub.events = event :: events) :
      CoroutineStep sub { sub with events := events, point := .yieldValue event }
  | finish (hpoint : sub.point = .finalSuspend) :
      CoroutineStep sub { sub with done := true, point := .finished }

section Coroutine

variable {sub sub' : Subscriber}

theorem coroutineStep_of_runCoroutine (h : sub.runCoroutine = some sub') : CoroutineStep sub sub' := by
  unfold runCoroutine at h
  split at h
  · next value hpoint =>
      cases h
      exact .stage value hpoint
  · next hpoint =>
      split_ifs at h with hwork <;> cases h
      · exact .goOn (.inl hpoint) ((hasWork_iff sub).mp hwork)
      · exact .toSuspend hpoint fun hw => hwork ((hasWork_iff sub).mpr hw)
  · next hpoint =>
      split_ifs at h with hwork <;> cases h
      · exact .goOn (.inr hpoint) ((hasWork_iff sub).mp hwork)
      · exact .suspend hpoint fun hw => hwork ((hasWork_iff sub).mpr hw)
  · next hpoint =>
      split at h
      · next hevents =>
          cases h
          exact .noEvent hpoint hevents
      · next event events hevents =>
          cases h
          exact .pop event events hpoint hevents
  · next hpoint =>
      cases h
      exact .finish hpoint
  all_goals nomatch h

theorem CoroutineStep.running (h : CoroutineStep sub sub') : sub.point.suspended = false := by
  cases h with
  | goOn hpoint => rcases hpoint with hpoint | hpoint <;> rw [hpoint] <;> rfl
  | _ => simp_all [suspended]

theorem not_initial_of_running (h : sub.point.suspended = false) : sub.point ≠ .initial := by
  intro hpoint
  rw [hpoint] at h
  exact absurd h (by simp [suspended])

theorem not_yielded_of_running (h : sub.point.suspended = false) (isTerminal : Bool) :
    sub.point ≠ .yielded isTerminal := by
  intro hpoint
  rw [hpoint] at h
  exact absurd h (by simp [suspended])

/-- While the coroutine runs nothing is staged and its handle is nowhere else. -/
theorem Handle.of_running (h : sub.Handle) (hrunning : sub.point.suspended = false) :
    sub.currentValue = none ∧ sub.continuation ≠ true ∧ sub.waker = none ∧ ¬ sub.done := by
  have hnotAwaiting : sub.point ≠ .awaiting := by
    intro hpoint
    rw [hpoint] at hrunning
    exact absurd hrunning (by simp [suspended])
  refine ⟨h.unstaged (not_yielded_of_running hrunning), ?_, ?_, ?_⟩
  · intro hstored
    exact hnotAwaiting (h.stored hstored).1
  · by_contra hsome
    exact hnotAwaiting (h.taken hsome)
  · intro hdone
    rw [h.done.mp hdone] at hrunning
    exact absurd hrunning (by simp [suspended])

section

variable (h : sub.Inv) (hstep : CoroutineStep sub sub')

include h hstep

theorem flow_coroutineStep : sub'.Flow := by
  obtain ⟨hvalue, _, _, _⟩ := h.handle.of_running hstep.running
  cases hstep with
  | stage value hpoint =>
    refine h.flow.congr rfl rfl rfl rfl rfl ?_
    simp only [pipeline, hvalue, hpoint, inHand, inReader, Option.toList]
    simp
  | goOn hpoint =>
    refine h.flow.congr rfl rfl rfl rfl rfl ?_
    rcases hpoint with hpoint | hpoint <;> simp only [pipeline, hpoint] <;> rfl
  | pop event events hpoint hevents =>
    refine h.flow.congr rfl rfl rfl rfl rfl ?_
    simp only [pipeline, hpoint, hevents, inHand, inReader]
    simp
  | _ hpoint =>
    refine h.flow.congr rfl rfl rfl rfl rfl ?_
    simp only [pipeline, hpoint]
    rfl

theorem reader_coroutineStep : sub'.session.ReaderOk := by
  have hrunning := hstep.running
  have hattentive : sub.session.Attentive :=
    h.reader.attentive (not_initial_of_running hrunning) (not_yielded_of_running hrunning)
  cases hstep with
  | stage value hpoint =>
    refine (hattentive.move (.yielded (isTerminalEvent value)) (some value) ?_ ?_ ?_ ?_).readerOk <;>
      simp
  | goOn hpoint =>
    refine (hattentive.move .awaitResume sub.currentValue ?_ ?_ ?_ id).readerOk
    · simp
    · simp
    · intro hyield
      have hyield : sub.point = .yieldValue sub.snapshot := hyield
      rcases hpoint with hpoint | hpoint <;> nomatch hpoint.symm.trans hyield
  | pop event events hpoint =>
    refine (hattentive.move (.yieldValue event) sub.currentValue ?_ ?_ ?_ id).readerOk
    · simp
    · simp
    · intro hyield
      cases hpoint.symm.trans hyield
  | toSuspend hpoint | suspend hpoint | noEvent hpoint | finish hpoint =>
    refine (hattentive.move _ sub.currentValue ?_ ?_ ?_ id).readerOk
    · simp
    · simp
    · intro hyield
      cases hpoint.symm.trans hyield

theorem handle_coroutineStep : sub'.Handle := by
  have hrunning := hstep.running
  obtain ⟨hvalue, hstored, hwaker, hdone⟩ := h.handle.of_running hrunning
  have hmutex := h.handle.running hrunning
  cases hstep with
  | stage value hpoint =>
    exact ⟨fun _ => ⟨_, rfl⟩, fun hs => absurd hs hstored, fun hw => absurd hwaker hw, by simp,
      fun _ => hmutex, h.handle.reader, by simpa using hdone⟩
  | suspend hpoint =>
    exact ⟨fun hs => absurd hvalue hs, fun _ => ⟨rfl, hwaker⟩, fun _ => rfl, fun _ => .inl rfl,
      fun _ => hmutex, h.handle.reader, by simpa using hdone⟩
  | finish hpoint =>
    exact ⟨fun hs => absurd hvalue hs, fun hs => absurd hs hstored, fun hw => absurd hwaker hw,
      by simp, fun _ => hmutex, h.handle.reader, by simp⟩
  | goOn hpoint | toSuspend hpoint | noEvent hpoint | pop _ _ hpoint =>
    exact ⟨fun hs => absurd hvalue hs, fun hs => absurd hs hstored, fun hw => absurd hwaker hw,
      by simp, fun _ => hmutex, h.handle.reader, by simpa using hdone⟩

theorem inv_coroutineStep : sub'.Inv := by
  refine ⟨flow_coroutineStep h hstep, reader_coroutineStep h hstep, handle_coroutineStep h hstep, ?_⟩
  cases hstep with
  | finish => exact ⟨h.reports.quiet, fun _ => rfl, h.reports.loadPending⟩
  | _ => exact { h.reports with }

end

end Coroutine

/-! ## Steps of the reader -/

/-- What a step of the reader can do. -/
inductive ReaderStep (sub : Subscriber) : Subscriber → Prop where
  | start (timed : Bool) (hreader : sub.reader = .idle) (hstarted : sub.started = false) :
      ReaderStep sub { sub with started := true, reader := .lockResume timed }
  | resume (timed : Bool) (hreader : sub.reader = .idle) (hstarted : sub.started = true)
      (hresume : sub.resumeAfterYield = true) :
      ReaderStep sub { sub with resumeAfterYield := false, reader := .lockResume timed }
  | wait (timed : Bool) (hreader : sub.reader = .idle) (hstarted : sub.started = true)
      (hresume : sub.resumeAfterYield = false) :
      ReaderStep sub { sub with reader := .waiting timed }
  | deadAtOnce (hreader : sub.reader = .idle) (hdone : sub.done = true) :
      ReaderStep sub { sub with reportedDead := sub.reportedDead || sub.quiet }
  | askClosed (hreader : sub.reader = .idle) (hdone : sub.done = false) :
      ReaderStep sub { sub with reader := .loadClosed }
  | timeOut (hreader : sub.reader = .waiting true) (hready : sub.ready = false) :
      ReaderStep sub { sub with reader := .idle, quiet := true }
  | lock (timed : Bool) (hreader : sub.reader = .lockResume timed) (hmutex : sub.resumeMutex = none) :
      ReaderStep sub { sub with
        resumeMutex := some .reader, point := sub.resumedPoint, reader := .unlockResume timed }
  | unlock (timed : Bool) (hreader : sub.reader = .unlockResume timed)
      (hsuspended : sub.point.suspended = true) :
      ReaderStep sub { sub with resumeMutex := none, reader := .waiting timed }
  | take (timed : Bool) (event : StreamResponse) (hreader : sub.reader = .waiting timed)
      (hvalue : sub.currentValue = some event) :
      ReaderStep sub { sub with
        currentValue := none, resumeAfterYield := true, reader := .recordDelivered event }
  | endOfStream (timed : Bool) (hreader : sub.reader = .waiting timed)
      (hvalue : sub.currentValue = none) (hdone : sub.done = true) :
      ReaderStep sub { sub with reader := .idle, quiet := true, ended := true }
  | record (event : StreamResponse) (hreader : sub.reader = .recordDelivered event) :
      ReaderStep sub { sub with
        pendingDeliveryCount :=
          if event.hasStatusUpdate then sub.pendingDeliveryCount - 1 else sub.pendingDeliveryCount
        delivered := sub.delivered ++ [event]
        quiet := false
        reader := .idle }
  | askPending (hreader : sub.reader = .loadClosed) (hclosed : sub.closed = true) :
      ReaderStep sub { sub with reader := .loadPending }
  | live (hreader : sub.reader = .loadClosed ∨ sub.reader = .loadPending) :
      ReaderStep sub { sub with reader := .idle }
  | dead (hreader : sub.reader = .loadPending) (hpending : sub.pendingDeliveryCount = 0) :
      ReaderStep sub { sub with reader := .idle, reportedDead := sub.reportedDead || sub.quiet }

section Reader

variable {sub sub' : Subscriber}

variable {timed : Bool}

theorem readerStep_of_beginNext (h : sub.beginNext timed = some sub') : ReaderStep sub sub' := by
  unfold beginNext at h
  split at h
  · next hreader =>
      split_ifs at h with hstarted hresume <;> cases h
      · exact .start timed hreader (by simpa using hstarted)
      · exact .resume timed hreader (by simpa using hstarted) hresume
      · exact .wait timed hreader (by simpa using hstarted) (by simpa using hresume)
  · cases h

theorem readerStep_of_beginIsLive (h : sub.beginIsLive = some sub') : ReaderStep sub sub' := by
  unfold beginIsLive at h
  split at h
  · next hreader =>
      split_ifs at h with hdone <;> cases h
      · exact .deadAtOnce hreader hdone
      · exact .askClosed hreader (by simpa using hdone)
  · cases h

theorem readerStep_of_timeOut (h : sub.timeOut = some sub') : ReaderStep sub sub' := by
  unfold Subscriber.timeOut at h
  split at h
  · next hreader =>
      split_ifs at h with hready
      cases h
      exact .timeOut hreader (by simpa using hready)
  · cases h

/-- The executable step of the reader is one of the steps of the relation. -/
theorem readerStep_of_runReader (h : sub.runReader = some sub') : ReaderStep sub sub' := by
  unfold runReader at h
  split at h
  · next timed hreader =>
      obtain ⟨locked, hlock, rfl⟩ := Option.map_eq_some_iff.mp h
      obtain ⟨hmutex, rfl⟩ := lockResume_eq_some hlock
      exact .lock timed hreader hmutex
  · next timed hreader =>
      obtain ⟨unlocked, hunlock, rfl⟩ := Option.map_eq_some_iff.mp h
      obtain ⟨hsuspended, rfl⟩ := unlockResume_eq_some hunlock
      exact .unlock timed hreader hsuspended
  · next timed hreader =>
      split at h
      · next event hvalue =>
          cases h
          exact .take timed event hreader hvalue
      · next hvalue =>
          split_ifs at h with hdone
          cases h
          exact .endOfStream timed hreader hvalue hdone
  · next event hreader =>
      cases h
      exact .record event hreader
  · next hreader =>
      split_ifs at h with hclosed <;> cases h
      · exact .askPending hreader hclosed
      · exact .live (.inl hreader)
  · next hreader =>
      split_ifs at h with hpending <;> cases h
      · exact .live (.inr hreader)
      · exact .dead hreader (by simpa using hpending)
  · cases h

/-- The reader takes from the front of the pipeline, and nothing is lost on the way. -/
theorem flow_readerStep (h : sub.Flow) (hstep : ReaderStep sub sub') : sub'.Flow := by
  cases hstep with
  | deadAtOnce => exact { h with }
  | lock timed hreader =>
    refine h.congr rfl rfl rfl rfl rfl ?_
    show [] ++ _ ++ sub.resumedPoint.inHand sub.snapshot ++ _ = _
    rw [inHand_resumedPoint]
    simp only [pipeline, inReader, hreader]
  | take timed event hreader hvalue =>
    refine h.congr rfl rfl rfl rfl rfl ?_
    simp only [pipeline, inReader, hreader, hvalue]
    rfl
  | record event hreader =>
    -- The event leaves the head of the pipeline and joins what was handed out.
    have hpipeline : sub.pipeline =
        event :: (sub.currentValue.toList ++ sub.point.inHand sub.snapshot ++ sub.events) := by
      simp only [pipeline, inReader, hreader]
      rfl
    have horder := h.order
    have hcount := h.count
    rw [hpipeline] at horder hcount
    refine ⟨?_, ?_, h.updates, h.terminalLast⟩
    · show sub.delivered ++ [event] ++ _ = _
      rw [append_assoc]
      exact horder
    · show (if event.hasStatusUpdate then sub.pendingDeliveryCount - 1
        else sub.pendingDeliveryCount) = _
      rw [countP_cons] at hcount
      rw [hcount]
      show _ = (((sub.currentValue.toList ++ sub.point.inHand sub.snapshot ++ sub.events).countP
        StreamResponse.hasStatusUpdate : Nat) : Int)
      split_ifs <;> omega
  | live hreader =>
    refine h.congr rfl rfl rfl rfl rfl ?_
    rcases hreader with hreader | hreader <;> simp only [pipeline, inReader, hreader] <;> rfl
  | start _ hreader | resume _ hreader | wait _ hreader | askClosed hreader | timeOut hreader
  | unlock _ hreader | endOfStream _ hreader | askPending hreader | dead hreader =>
    refine h.congr rfl rfl rfl rfl rfl ?_
    simp only [pipeline, inReader, hreader]
    rfl

theorem Session.Between.moveReader {r : Session} (h : r.Between) (reader : ReaderPoint) :
    Session.Between { r with reader := reader } := by
  rcases h with ⟨hstarted, hfresh⟩ | ⟨hresume, howes, hdelivered⟩ | ⟨hengaged, hfirst⟩
  · exact .inl ⟨hstarted, { hfresh with }⟩
  · exact .inr (.inl ⟨hresume, { howes with }, hdelivered⟩)
  · exact .inr (.inr ⟨{ hengaged with }, hfirst⟩)

theorem between_of_reader (h : sub.session.ReaderOk)
    (hreader : sub.reader = .idle ∨ sub.reader = .loadClosed ∨ sub.reader = .loadPending) : sub.session.Between := by
  unfold Session.ReaderOk at h
  rcases hreader with hreader | hreader | hreader <;>
    simpa only [session, hreader] using h

theorem settled_of_waiting (h : sub.session.ReaderOk) (hreader : sub.reader = .waiting timed) :
    sub.session.Settled := by
  unfold Session.ReaderOk at h
  simpa only [session, hreader] using h

/-- The reader resumes a coroutine that is new or at the yield it has taken from. -/
theorem engaged_lock (h : sub.session.ReaderOk) (hreader : sub.reader = .lockResume timed) :
    Session.Engaged { sub.session with point := sub.resumedPoint, reader := .unlockResume timed } := by
  unfold Session.ReaderOk at h
  simp only [session, hreader] at h
  obtain ⟨hstarted, hresume, hfresh | ⟨howes, hdelivered⟩⟩ := h
  · have hpoint : sub.resumedPoint = .yieldValue sub.snapshot := by
      rw [resumedPoint, show sub.point = .initial from hfresh.initial]
    exact ⟨hstarted, hresume, by simp [hpoint], by simp [hpoint], fun _ => .inl hpoint⟩
  · obtain ⟨isTerminal, hyielded⟩ := howes.yielded
    have hpoint : sub.resumedPoint = if isTerminal then .finalSuspend else .awaitReady := by
      rw [resumedPoint, show sub.point = .yielded isTerminal from hyielded]
    refine ⟨hstarted, hresume, ?_, ?_, fun hnil => absurd hnil hdelivered⟩ <;>
      cases isTerminal <;> simp [hpoint]

/-- A step of the reader leaves it where its flags say that it is. -/
theorem reader_readerStep (h : sub.Inv) (hstep : ReaderStep sub sub') : sub'.session.ReaderOk := by
  have hok := h.reader
  cases hstep with
  | start timed hreader hstarted =>
    rcases between_of_reader hok (.inl hreader) with ⟨_, hfresh⟩ | ⟨_, howes, _⟩ | ⟨hengaged, _⟩
    · exact ⟨rfl, hfresh.noResume, .inl { hfresh with }⟩
    · cases hstarted.symm.trans howes.started
    · cases hstarted.symm.trans hengaged.started
  | resume timed hreader hstarted hresume =>
    rcases between_of_reader hok (.inl hreader) with ⟨hnot, _⟩ | ⟨_, howes, hdelivered⟩ | ⟨hengaged, _⟩
    · cases hstarted.symm.trans hnot
    · exact ⟨hstarted, rfl, .inr ⟨{ howes with }, hdelivered⟩⟩
    · cases hresume.symm.trans hengaged.noResume
  | wait timed hreader hstarted hresume =>
    rcases between_of_reader hok (.inl hreader) with ⟨hnot, _⟩ | ⟨hyes, _, _⟩ | ⟨hengaged, hfirst⟩
    · cases hstarted.symm.trans hnot
    · cases hresume.symm.trans hyes
    · exact ⟨{ hengaged with }, hfirst⟩
  | deadAtOnce => exact hok
  | askClosed hreader => exact (between_of_reader hok (.inl hreader)).moveReader .loadClosed
  | timeOut hreader | endOfStream _ hreader =>
    have hbetween : sub.session.Between := .inr (.inr (settled_of_waiting hok hreader))
    exact hbetween.moveReader .idle
  | lock timed hreader => exact engaged_lock hok hreader
  | unlock timed hreader hsuspended =>
    have hengaged : sub.session.Engaged := by
      unfold Session.ReaderOk at hok
      simpa only [session, hreader] using hok
    refine ⟨{ hengaged with }, ?_⟩
    intro hdelivered
    rcases hengaged.first hdelivered with hpoint | hvalue
    · have hpoint : sub.point = .yieldValue sub.snapshot := hpoint
      rw [hpoint] at hsuspended
      exact absurd hsuspended (by simp [suspended])
    · exact hvalue
  | take timed event hreader hvalue =>
    have hsettled := settled_of_waiting hok hreader
    exact ⟨rfl, hsettled.1.started, rfl, h.handle.value (by simp [hvalue])⟩
  | record event hreader =>
    have howes : sub.resumeAfterYield ∧ sub.session.Owes := by
      unfold Session.ReaderOk at hok
      simpa only [session, hreader] using hok
    refine .inr (.inl ⟨howes.1, { howes.2 with }, ?_⟩)
    show sub.delivered ++ [event] ≠ []
    simp
  | askPending hreader =>
    exact (between_of_reader hok (.inr (.inl hreader))).moveReader .loadPending
  | live hreader => exact (between_of_reader hok (.inr hreader)).moveReader .idle
  | dead hreader => exact (between_of_reader hok (.inr (.inr hreader))).moveReader .idle

/-- A step of the reader outside the resume lock moves no handle. -/
theorem Handle.moveReader (h : sub.Handle) (hbefore : ∀ timed, sub.reader ≠ .unlockResume timed)
    (hafter : ∀ timed, sub'.reader ≠ .unlockResume timed) (hvalue : sub'.currentValue ≠ none → sub.currentValue ≠ none)
    (hpoint : sub'.point = sub.point) (hcontinuation : sub'.continuation = sub.continuation)
    (hwaker : sub'.waker = sub.waker) (hmutex : sub'.resumeMutex = sub.resumeMutex) (hdone : sub'.done = sub.done) :
    sub'.Handle where
  value := fun hsome => by
    rw [hpoint]
    exact h.value (hvalue hsome)
  stored := by
    rw [hcontinuation, hpoint, hwaker]
    exact h.stored
  taken := by
    rw [hpoint, hwaker]
    exact h.taken
  somewhere := by
    rw [hpoint, hcontinuation, hwaker]
    exact h.somewhere
  running := by
    rw [hpoint, hmutex]
    exact h.running
  reader := by
    rw [hmutex]
    constructor
    · intro hheld
      obtain ⟨timed, hreader⟩ := h.reader.mp hheld
      exact absurd hreader (hbefore timed)
    · rintro ⟨timed, hreader⟩
      exact absurd hreader (hafter timed)
  done := by
    rw [hdone, hpoint]
    exact h.done

/-- A reader about to resume finds a coroutine at its start or a yield, with no value staged. -/
theorem point_of_lockResume (h : sub.session.ReaderOk) (hreader : sub.reader = .lockResume timed) :
    sub.currentValue = none ∧ (sub.point = .initial ∨ ∃ isTerminal, sub.point = .yielded isTerminal) := by
  unfold Session.ReaderOk at h
  simp only [session, hreader] at h
  rcases h.2.2 with hfresh | ⟨howes, _⟩
  · exact ⟨hfresh.taken, .inl hfresh.initial⟩
  · exact ⟨howes.taken, .inr howes.yielded⟩

section

variable (h : sub.Inv) (hstep : ReaderStep sub sub')

include h hstep

theorem handle_readerStep : sub'.Handle := by
  have hh := h.handle
  cases hstep with
  | lock timed hreader hmutex =>
    obtain ⟨hvalue, hpoint⟩ := point_of_lockResume h.reader hreader
    have hnotAwaiting : sub.point ≠ .awaiting := by
      rcases hpoint with hpoint | ⟨_, hpoint⟩ <;> simp [hpoint]
    have hresumed : sub.resumedPoint ≠ .awaiting ∧ sub.resumedPoint ≠ .finished := by
      rcases hpoint with hpoint | ⟨isTerminal, hpoint⟩ <;> simp only [resumedPoint, hpoint]
      · simp
      · cases isTerminal <;> simp
    have hnotDone : ¬ sub.done := fun hdone => by
      have hfinished := hh.done.mp hdone
      rcases hpoint with hpoint | ⟨_, hpoint⟩ <;> nomatch hpoint.symm.trans hfinished
    exact ⟨fun hsome => absurd hvalue hsome, fun hs => absurd (hh.stored hs).1 hnotAwaiting,
      fun hw => absurd (hh.taken hw) hnotAwaiting, fun hp => absurd hp hresumed.1, by simp,
      ⟨fun _ => ⟨timed, rfl⟩, fun _ => rfl⟩,
      ⟨fun hdone => absurd hdone hnotDone, fun hp => absurd hp hresumed.2⟩⟩
  | unlock timed hreader hsuspended =>
    exact ⟨hh.value, hh.stored, hh.taken, hh.somewhere,
      fun hrunning => absurd (hsuspended.symm.trans hrunning) (by simp), by simp, hh.done⟩
  | deadAtOnce hreader => exact { hh with }
  | take timed event hreader =>
    exact hh.moveReader (by simp [hreader]) (by simp) (by simp) rfl rfl rfl rfl rfl
  | live hreader =>
    refine hh.moveReader ?_ (by simp) id rfl rfl rfl rfl rfl
    rcases hreader with hreader | hreader <;> simp [hreader]
  | start _ hreader | resume _ hreader | wait _ hreader | askClosed hreader | timeOut hreader
  | endOfStream _ hreader | record _ hreader | askPending hreader | dead hreader =>
    exact hh.moveReader (by simp [hreader]) (by simp) id rfl rfl rfl rfl rfl

theorem reports_readerStep : sub'.Reports := by
  have hr := h.reports
  cases hstep with
  | timeOut hreader hready =>
    have hvalue : sub.currentValue = none := by
      simp only [ready, Bool.or_eq_false_iff, Option.isSome_eq_false_iff, Option.isNone_iff_eq_none] at hready
      exact hready.1
    exact ⟨fun _ hnil => (settled_of_waiting h.reader hreader).2 hnil hvalue, hr.ended, by simp⟩
  | endOfStream timed hreader hvalue hdone =>
    exact ⟨fun _ hnil => (settled_of_waiting h.reader hreader).2 hnil hvalue, fun _ => hdone, by simp⟩
  | record => exact ⟨by simp, hr.ended, by simp⟩
  | askPending hreader hclosed => exact ⟨hr.quiet, hr.ended, fun _ => hclosed⟩
  | deadAtOnce => exact { hr with }
  | start | resume | wait | askClosed | lock | unlock | take | live | dead =>
    exact ⟨hr.quiet, hr.ended, by simp⟩

theorem inv_readerStep : sub'.Inv :=
  ⟨flow_readerStep h.flow hstep, reader_readerStep h hstep, handle_readerStep h hstep, reports_readerStep h hstep⟩

end

end Reader

/-! ## Every step -/

/-- The ways in which a step can change a subscriber. Under `P` a handle is only taken if there is something to resume
for. -/
inductive Op (P : Prop) (sub : Subscriber) : Subscriber → Prop where
  | enqueue (event : StreamResponse) (hupdate : event.hasStatusUpdate = true) :
      Op P sub (sub.enqueue event (isTerminalEvent event))
  | close : Op P sub sub.close
  | cancelled : Op P sub { sub with cancelled := true }
  | takeContinuation (t : Nat) (hsignal : P → sub.continuation = true → sub.HasWork) :
      Op P sub (sub.takeContinuation t)
  | lockResume {t : Nat} (hwaker : sub.waker = some t) (hmutex : sub.resumeMutex = none) :
      Op P sub (sub.resumedBy t)
  | unlockResume {t : Nat} (hholder : sub.resumeMutex = some (.thread t))
      (hsuspended : sub.point.suspended = true) : Op P sub sub.released
  | dropResume : Op P sub sub.dropResume
  | coroutine {sub' : Subscriber} (h : CoroutineStep sub sub') : Op P sub sub'
  | reader {sub' : Subscriber} (h : ReaderStep sub sub') : Op P sub sub'

section Every

variable {P : Prop} {sub sub' : Subscriber}

/-- A subscriber stays the same, accepts nothing once closed, and what was handed out or reported stays so. -/
structure Extends (sub sub' : Subscriber) : Prop where
  taskId : sub'.taskId = sub.taskId
  currentTask : sub'.currentTask = sub.currentTask
  registeredAt : sub'.registeredAt = sub.registeredAt
  closed : sub.closed = true → sub'.closed = true
  accepted : sub.closed = true → sub'.accepted = sub.accepted
  delivered : sub.delivered <+: sub'.delivered
  ended : sub.ended = true → sub'.ended = true

theorem Extends.refl (sub : Subscriber) : Extends sub sub :=
  ⟨rfl, rfl, rfl, id, fun _ => rfl, prefix_rfl, id⟩

theorem Extends.trans {a b c : Subscriber} (hab : Extends a b) (hbc : Extends b c) : Extends a c where
  taskId := hbc.taskId.trans hab.taskId
  currentTask := hbc.currentTask.trans hab.currentTask
  registeredAt := hbc.registeredAt.trans hab.registeredAt
  closed := fun h => hbc.closed (hab.closed h)
  accepted := fun h => (hbc.accepted (hab.closed h)).trans (hab.accepted h)
  delivered := hab.delivered.trans hbc.delivered
  ended := fun h => hbc.ended (hab.ended h)

/-- What was accepted and delivered only grows. -/
theorem Op.extends (hop : Op P sub sub') : Extends sub sub' := by
  cases hop with
  | enqueue event hupdate =>
    by_cases hclosed : sub.closed
    · rw [Subscriber.enqueue, if_pos hclosed]
      exact Extends.refl sub
    · rw [Subscriber.enqueue, if_neg hclosed]
      exact ⟨rfl, rfl, rfl, fun h => absurd h hclosed, fun h => absurd h hclosed, prefix_rfl, id⟩
  | close => exact ⟨rfl, rfl, rfl, fun _ => rfl, fun _ => rfl, prefix_rfl, id⟩
  | takeContinuation t =>
    rw [Subscriber.takeContinuation]
    split_ifs
    · exact ⟨rfl, rfl, rfl, id, fun _ => rfl, prefix_rfl, id⟩
    · exact Extends.refl sub
  | cancelled | dropResume | lockResume | unlockResume => exact ⟨rfl, rfl, rfl, id, fun _ => rfl, prefix_rfl, id⟩
  | coroutine hstep =>
    cases hstep <;> exact ⟨rfl, rfl, rfl, id, fun _ => rfl, prefix_rfl, id⟩
  | reader hstep =>
    cases hstep with
    | record event => exact ⟨rfl, rfl, rfl, id, fun _ => rfl, prefix_append _ _, id⟩
    | endOfStream => exact ⟨rfl, rfl, rfl, id, fun _ => rfl, prefix_rfl, fun _ => rfl⟩
    | _ => exact ⟨rfl, rfl, rfl, id, fun _ => rfl, prefix_rfl, id⟩

/-- A finished coroutine stays finished, and nothing more is handed out. -/
theorem Op.done_stays (hop : Op P sub sub') (h : sub.Inv) (hdone : sub.done) :
    sub'.done ∧ sub'.delivered = sub.delivered := by
  cases hop with
  | enqueue event =>
    unfold Subscriber.enqueue
    split_ifs <;> exact ⟨hdone, rfl⟩
  | takeContinuation t =>
    unfold Subscriber.takeContinuation
    split_ifs <;> exact ⟨hdone, rfl⟩
  | close | cancelled | dropResume | lockResume | unlockResume => exact ⟨hdone, rfl⟩
  | coroutine hstep => exact absurd hdone (h.handle.of_running hstep.running).2.2.2
  | reader hstep =>
    cases hstep with
    | record event hreader =>
      have hok := h.reader
      unfold Session.ReaderOk at hok
      simp only [session, hreader] at hok
      obtain ⟨_, hyielded⟩ := hok.2.yielded
      cases (h.handle.done.mp hdone).symm.trans hyielded
    | _ => exact ⟨hdone, rfl⟩

theorem Inv.delivered_begins (h : sub.Inv) : sub.delivered <+: sub.snapshot :: sub.accepted :=
  ⟨sub.pipeline, h.flow.order⟩

theorem Inv.delivered_eq (h : sub.Inv) (hpipeline : sub.pipeline = []) :
    sub.delivered = sub.snapshot :: sub.accepted := by
  have horder := h.flow.order
  rwa [hpipeline, append_nil] at horder

theorem Inv.pipeline_updates (h : sub.Inv) (hdelivered : sub.delivered ≠ []) :
    ∀ e ∈ sub.pipeline, e.hasStatusUpdate := by
  obtain ⟨first, rest, hcons⟩ := exists_cons_of_ne_nil hdelivered
  have horder := h.flow.order
  rw [hcons, cons_append] at horder
  obtain ⟨_, htail⟩ := List.cons.inj horder
  intro e he
  refine h.flow.updates e ?_
  rw [← htail]
  exact mem_append_right rest he

/-! ### When nobody resumes for nothing -/

/-- Closed, with an empty queue. -/
def Drained (sub : Subscriber) : Prop := sub.closed = true ∧ sub.events = []

/-- The coroutine ends when it is resumed next, without looking at the queue again. -/
def atEnd (sub : Subscriber) : Bool :=
  match sub.point with
  | .yieldValue value => isTerminalEvent value
  | .yielded isTerminal => isTerminal
  | .finalSuspend | .finished => true
  | .initial | .awaitReady | .awaitSuspend | .awaiting | .awaitResume => false

/-- The coroutine is resumed and ends for a reason; `IsLive` gives up when all was handed out. -/
structure Complete (sub : Subscriber) : Prop where
  woken : sub.waker ≠ none → sub.HasWork
  resumed : sub.point = .awaitResume → sub.HasWork
  atEnd : sub.atEnd = true → sub.Drained
  dead : sub.reportedDead = true → sub.closed = true ∧ sub.delivered = sub.snapshot :: sub.accepted

theorem complete_new (taskId : Bytes) (currentTask : Task) (registeredAt : Nat) :
    Complete { taskId, currentTask, registeredAt } := by
  refine ⟨?_, ?_, ?_, ?_⟩ <;> simp [Subscriber.atEnd]

/-- A finished coroutine of a drained subscriber has handed everything out. -/
theorem Inv.delivered_of_done (h : sub.Inv) (hdone : sub.done) (hdrained : sub.Drained) :
    sub.delivered = sub.snapshot :: sub.accepted := by
  have hpoint := h.handle.done.mp hdone
  have hvalue : sub.currentValue = none := h.handle.unstaged (by simp [hpoint])
  have hreader : sub.inReader = [] := by
    unfold inReader
    split
    · next event hreader =>
        have hok := h.reader
        unfold Session.ReaderOk at hok
        simp only [session, hreader] at hok
        obtain ⟨_, hyielded⟩ := hok.2.yielded
        cases hpoint.symm.trans hyielded
    · rfl
  refine h.delivered_eq ?_
  rw [pipeline, hreader, hvalue, hpoint, hdrained.2]
  rfl

/-- With no update pending, everything has been handed out. -/
theorem Inv.delivered_of_count (h : sub.Inv) (hcount : sub.pendingDeliveryCount = 0)
    (hdelivered : sub.delivered ≠ []) : sub.delivered = sub.snapshot :: sub.accepted := by
  have hzero : sub.pipeline.countP StreamResponse.hasStatusUpdate = 0 := by
    have hflow := h.flow.count
    omega
  refine h.delivered_eq (eq_nil_iff_forall_not_mem.mpr ?_)
  intro e he
  exact absurd (h.pipeline_updates hdelivered e he) (countP_eq_zero.mp hzero e he)

/-- A terminal update is the last one in the queue. -/
theorem Inv.drained_of_terminal (h : sub.Inv) {event : StreamResponse} {rest : List StreamResponse}
    (hevents : sub.events = event :: rest) (hterminal : isTerminalEvent event) : sub.closed ∧ rest = [] := by
  have horder := h.flow.order
  rw [pipeline, hevents, ← append_assoc] at horder
  cases hbefore : sub.delivered ++ (sub.inReader ++ sub.currentValue.toList ++ sub.point.inHand sub.snapshot) with
  | nil =>
    -- Then the event would be the snapshot, which is no update.
    rw [hbefore, nil_append] at horder
    obtain ⟨hsnapshot, _⟩ := List.cons.inj horder
    rw [hsnapshot] at hterminal
    exact absurd hterminal (by simp [snapshot])
  | cons first before =>
    rw [hbefore, cons_append] at horder
    obtain ⟨_, haccepted⟩ := List.cons.inj horder
    exact (h.flow.terminalLast before event rest haccepted.symm hterminal).symm

theorem complete_coroutineStep (h : sub.Inv) (hc : sub.Complete) (hstep : CoroutineStep sub sub') : sub'.Complete := by
  obtain ⟨_, _, hwaker, _⟩ := h.handle.of_running hstep.running
  cases hstep with
  | stage value hpoint =>
    refine ⟨hc.woken, by simp, fun hend => hc.atEnd ?_, hc.dead⟩
    simpa only [Subscriber.atEnd, hpoint] using hend
  | goOn hpoint hwork => exact ⟨hc.woken, fun _ => hwork, by simp [Subscriber.atEnd], hc.dead⟩
  | toSuspend | suspend => exact ⟨hc.woken, by simp, by simp [Subscriber.atEnd], hc.dead⟩
  | noEvent hpoint hevents =>
    refine ⟨hc.woken, by simp, fun _ => ⟨?_, hevents⟩, hc.dead⟩
    rcases hc.resumed hpoint with hclosed | hsome
    · exact hclosed
    · exact absurd hevents hsome
  | pop event events hpoint hevents =>
    refine ⟨fun hw => absurd hwaker hw, by simp, ?_, hc.dead⟩
    intro hterminal
    exact h.drained_of_terminal hevents hterminal
  | finish hpoint =>
    refine ⟨hc.woken, by simp, fun _ => hc.atEnd ?_, hc.dead⟩
    simp only [Subscriber.atEnd, hpoint]

/-- Without cancellation the reader skips no update. -/
theorem complete_readerStep (h : sub.Inv) (hc : sub.Complete) (hstep : ReaderStep sub sub') : sub'.Complete := by
  cases hstep with
  | lock timed hreader =>
    obtain ⟨_, hpoint⟩ := point_of_lockResume h.reader hreader
    rcases hpoint with hpoint | ⟨isTerminal, hpoint⟩
    · refine ⟨hc.woken, ?_, ?_, hc.dead⟩ <;> simp [Subscriber.atEnd, resumedPoint, hpoint, snapshot]
    · cases isTerminal with
      | false => refine ⟨hc.woken, ?_, ?_, hc.dead⟩ <;> simp [Subscriber.atEnd, resumedPoint, hpoint]
      | true =>
        refine ⟨hc.woken, ?_, fun _ => hc.atEnd ?_, hc.dead⟩
        · simp [resumedPoint, hpoint]
        · simp [Subscriber.atEnd, hpoint]
  | deadAtOnce hreader hdone =>
    have hdrained : sub.Drained := hc.atEnd (by simp [Subscriber.atEnd, h.handle.done.mp hdone])
    exact ⟨hc.woken, hc.resumed, hc.atEnd, fun _ => ⟨hdrained.1, h.delivered_of_done hdone hdrained⟩⟩
  | dead hreader hpending =>
    refine ⟨hc.woken, hc.resumed, hc.atEnd, ?_⟩
    intro hdead
    rcases Bool.or_eq_true_iff.mp hdead with hbefore | hquiet
    · exact hc.dead hbefore
    · exact ⟨h.reports.loadPending hreader, h.delivered_of_count hpending (h.reports.quiet hquiet)⟩
  | record event hreader =>
    refine ⟨hc.woken, hc.resumed, hc.atEnd, ?_⟩
    intro hdead
    -- Everything had been handed out, so the reader had no event in its hands.
    have horder := h.flow.order
    rw [(hc.dead hdead).2] at horder
    have hnil : sub.pipeline = [] := append_right_eq_self.mp horder
    simp only [pipeline, inReader, hreader, append_eq_nil_iff] at hnil
    exact absurd hnil.1.1.1 (by simp)
  | start | resume | wait | askClosed | timeOut | unlock | take | endOfStream | askPending | live =>
    exact ⟨hc.woken, hc.resumed, hc.atEnd, hc.dead⟩

/-- Nothing is lost as long as nobody resumes for nothing. -/
theorem Op.complete (hop : Op P sub sub') (hP : P) (h : sub.Inv) (hc : sub.Complete) : sub'.Complete := by
  cases hop with
  | enqueue event hupdate =>
    by_cases hclosed : sub.closed
    · rw [Subscriber.enqueue, if_pos hclosed]
      exact hc
    · rw [Subscriber.enqueue, if_neg hclosed]
      have hevents : sub.events ++ [event] ≠ [] := by simp
      exact ⟨fun _ => .inr hevents, fun _ => .inr hevents,
        fun hend => absurd (hc.atEnd hend).1 hclosed, fun hdead => absurd (hc.dead hdead).1 hclosed⟩
  | close =>
    exact ⟨fun _ => .inl rfl, fun _ => .inl rfl, fun hend => ⟨rfl, (hc.atEnd hend).2⟩,
      fun hdead => ⟨rfl, (hc.dead hdead).2⟩⟩
  | takeContinuation t hsignal =>
    rw [Subscriber.takeContinuation]
    split_ifs with hstored
    · exact ⟨fun _ => hsignal hP hstored, hc.resumed, hc.atEnd, hc.dead⟩
    · exact hc
  | lockResume hwaker =>
    have hsome : sub.waker ≠ none := by simp [hwaker]
    have hawaiting := h.handle.taken hsome
    refine ⟨by simp, fun _ => hc.woken hsome, ?_, hc.dead⟩
    simp [Subscriber.atEnd, resumedPoint, hawaiting]
  | cancelled | dropResume | unlockResume => exact ⟨hc.woken, hc.resumed, hc.atEnd, hc.dead⟩
  | coroutine hstep => exact complete_coroutineStep h hc hstep
  | reader hstep => exact complete_readerStep h hc hstep

theorem Complete.delivered_of_ended (hc : sub.Complete) (h : sub.Inv) (hended : sub.ended) :
    sub.closed ∧ sub.delivered = sub.snapshot :: sub.accepted := by
  have hdone := h.reports.ended hended
  have hdrained : sub.Drained := hc.atEnd (by simp [Subscriber.atEnd, h.handle.done.mp hdone])
  exact ⟨hdrained.1, h.delivered_of_done hdone hdrained⟩

end Every

end Subscriber

end A2A.Server.TaskSubscriptionService
