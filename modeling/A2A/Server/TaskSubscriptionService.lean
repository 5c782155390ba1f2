/-
# Live subscriptions (`task_subscription_service.cpp`,
`stream_response_coroutine.h`).
-/
import A2A.Core.Error
import A2A.Core.Messages
import A2A.Foundation.Machine
import Mathlib.Logic.Function.Basic
import Mathlib.Data.List.Perm.Basic

namespace A2A.Server.TaskSubscriptionService

open A2A.Foundation A2A.Core

/-! ## Events -/

/-- `BuildCurrentTaskEvent`. -/
def buildCurrentTaskEvent (task : Task) : StreamResponse :=
  .task { task with artifacts := [], history := [] }

/-- `BuildStatusUpdateEvent`. -/
def buildStatusUpdateEvent (task : Task) : StreamResponse :=
  .statusUpdate
    { taskId := task.id, contextId := task.contextId, status := some task.statusOr }

/-- The test `is_terminal` of `RunSubscription`. -/
def isTerminalEvent : StreamResponse → Bool
  | .statusUpdate update => isTerminalTaskState (update.status.getD {}).state
  | _ => false

@[simp] theorem isTerminalEvent_buildCurrentTaskEvent (task : Task) :
    isTerminalEvent (buildCurrentTaskEvent task) = false := rfl

/-! ## The coroutine -/

/-- Where the coroutine of `RunSubscription` is: suspended (`initial`, `yielded`, `awaiting`, `finished`) or about to
enter the named section. -/
inductive CoroutinePoint where
  | initial
  | yieldValue (value : StreamResponse)
  | yielded (isTerminal : Bool)
  | awaitReady
  | awaitSuspend
  | awaiting
  | awaitResume
  | finalSuspend
  | finished

/-- The coroutine is suspended: a call of `resume()` has returned. -/
def CoroutinePoint.suspended : CoroutinePoint → Bool
  | .initial | .yielded _ | .awaiting | .finished => true
  | _ => false

/-- The event in the coroutine's hands: taken (or the snapshot) and not yet staged. -/
def CoroutinePoint.inHand (snapshot : StreamResponse) : CoroutinePoint → List StreamResponse
  | .initial => [snapshot]
  | .yieldValue value => [value]
  | _ => []

/-- Who is inside `resume()`, holding `resume_mutex_`. -/
inductive Runner where
  | reader
  | thread (t : Nat)
  deriving DecidableEq

/-- Where the reader is in `WaitForNext` (with `RecordDeliveredEvent`), or in `IsLive`. -/
inductive ReaderPoint where
  | idle
  | lockResume (timed : Bool)
  | unlockResume (timed : Bool)
  | waiting (timed : Bool)
  | recordDelivered (event : StreamResponse)
  | loadClosed
  | loadPending

/-- `SubscriberState`, the promise and the session, with what was observed. `pendingDeliveryCount` is an integer, so an
underflow would be seen. -/
structure Subscriber where
  taskId : Bytes := []
  currentTask : Task := {}
  events : List StreamResponse := []
  closed : Bool := false
  pendingDeliveryCount : Int := 0
  continuation : Bool := false
  activeResumes : Nat := 0
  point : CoroutinePoint := .initial
  currentValue : Option StreamResponse := none
  done : Bool := false
  resumeMutex : Option Runner := none
  started : Bool := false
  resumeAfterYield : Bool := false
  cancelled : Bool := false
  reader : ReaderPoint := .idle
  /-- The thread that has taken the continuation and not yet resumed it. -/
  waker : Option Nat := none
  /-- How many updates had been published when the subscriber was registered. -/
  registeredAt : Nat := 0
  /-- The updates that were queued for this subscriber, in order. -/
  accepted : List StreamResponse := []
  /-- The events that `Next` and `NextFor` have returned, in order. -/
  delivered : List StreamResponse := []
  /-- The last `Next` or `NextFor` returned no event. -/
  quiet : Bool := false
  /-- A `Next` or `NextFor` found the coroutine finished: end of stream. -/
  ended : Bool := false
  /-- `IsLive` returned false right after a `Next` or `NextFor` that returned no event. -/
  reportedDead : Bool := false

namespace Subscriber

variable (sub : Subscriber)

def snapshot : StreamResponse := buildCurrentTaskEvent sub.currentTask

/-- The wait predicate of `WaitForNext`. -/
def ready : Bool := sub.currentValue.isSome || sub.done

/-- One section of the running coroutine. -/
def runCoroutine : Option Subscriber :=
  match sub.point with
  | .yieldValue value =>
    some { sub with currentValue := some value, point := .yielded (isTerminalEvent value) }
  | .awaitReady =>
    if sub.closed || !sub.events.isEmpty then some { sub with point := .awaitResume }
    else some { sub with point := .awaitSuspend }
  | .awaitSuspend =>
    if sub.closed || !sub.events.isEmpty then some { sub with point := .awaitResume }
    else some { sub with continuation := true, point := .awaiting }
  | .awaitResume =>
    match sub.events with
    | [] => some { sub with point := .finalSuspend }
    | event :: events => some { sub with events, point := .yieldValue event }
  | .finalSuspend => some { sub with done := true, point := .finished }
  | .initial | .yielded _ | .awaiting | .finished => none

/-- The code between a suspension point and the next section. -/
def resumedPoint : CoroutinePoint :=
  match sub.point with
  | .initial => .yieldValue sub.snapshot
  | .yielded isTerminal => if isTerminal then .finalSuspend else .awaitReady
  | .awaiting => .awaitResume
  | running => running

/-- Lock `resume_mutex_` and enter `resume()`. -/
def lockResume (runner : Runner) : Option Subscriber :=
  match sub.resumeMutex with
  | some _ => none
  | none => some { sub with resumeMutex := some runner, point := sub.resumedPoint }

/-- Return from `resume()` and unlock `resume_mutex_`. -/
def unlockResume : Option Subscriber :=
  if sub.point.suspended then some { sub with resumeMutex := none } else none

/-- The queueing section of `PublishTaskUpdated`. -/
def enqueue (event : StreamResponse) (closeAfterEvent : Bool) : Subscriber :=
  if sub.closed then sub
  else
    { sub with
      events := sub.events ++ [event]
      pendingDeliveryCount := sub.pendingDeliveryCount + 1
      closed := closeAfterEvent
      accepted := sub.accepted ++ [event] }

/-- The section that sets `closed`. -/
def close : Subscriber := { sub with closed := true }

/-- The first section of `SignalSubscriber`. -/
def takeContinuation (t : Nat) : Subscriber :=
  if sub.continuation then
    { sub with continuation := false, activeResumes := sub.activeResumes + 1, waker := some t }
  else sub

/-- The last section of `SignalSubscriber`. -/
def dropResume : Subscriber := { sub with activeResumes := sub.activeResumes - 1 }

/-! ### The reader -/

/-- Enter `WaitForNext`: `Start`, or resume after the last yield, or wait at once. -/
def beginNext (timed : Bool) : Option Subscriber :=
  match sub.reader with
  | .idle =>
    if !sub.started then some { sub with started := true, reader := .lockResume timed }
    else if sub.resumeAfterYield then
      some { sub with resumeAfterYield := false, reader := .lockResume timed }
    else some { sub with reader := .waiting timed }
  | _ => none

/-- Enter `IsLive`: the load of `done_`. -/
def beginIsLive : Option Subscriber :=
  match sub.reader with
  | .idle =>
    if sub.done then some { sub with reportedDead := sub.reportedDead || sub.quiet }
    else some { sub with reader := .loadClosed }
  | _ => none

/-- The timed wait gives up, which happens only if nothing is ready when the time is over. -/
def timeOut : Option Subscriber :=
  match sub.reader with
  | .waiting true => if sub.ready then none else some { sub with reader := .idle, quiet := true }
  | _ => none

def runReader : Option Subscriber :=
  match sub.reader with
  | .lockResume timed =>
    (sub.lockResume .reader).map fun s => { s with reader := .unlockResume timed }
  | .unlockResume timed => sub.unlockResume.map fun s => { s with reader := .waiting timed }
  | .waiting _ =>
    match sub.currentValue with
    | some event =>
      some { sub with
        currentValue := none, resumeAfterYield := true, reader := .recordDelivered event }
    | none => if sub.done then some { sub with reader := .idle, quiet := true, ended := true } else none
  | .recordDelivered event =>
    some { sub with
      pendingDeliveryCount :=
        if event.hasStatusUpdate then sub.pendingDeliveryCount - 1 else sub.pendingDeliveryCount
      delivered := sub.delivered ++ [event]
      quiet := false
      reader := .idle }
  | .loadClosed =>
    if sub.closed then some { sub with reader := .loadPending }
    else some { sub with reader := .idle }
  | .loadPending =>
    if sub.pendingDeliveryCount ≠ 0 then some { sub with reader := .idle }
    else some { sub with reader := .idle, reportedDead := sub.reportedDead || sub.quiet }
  | .idle => none

end Subscriber

/-! ## The service -/

/-- `LatestTaskState`. -/
structure LatestTaskState where
  contextId : Bytes
  status : TaskStatus

/-- What `SignalSubscriber` has still to do with the handle it took. -/
inductive ResumeStage where
  | lock
  | unlock
  | drop
  deriving DecidableEq

/-- Who called `SignalSubscriber`, with what is left to do when it returns. -/
inductive Caller where
  | publishTaskUpdated (event : StreamResponse) (closeAfterEvent : Bool) (subscribers : List Nat)
  | shutdown (subscribers : List Nat)
  | removeSubscriber (s : Nat)

/-- What a thread has still to do; `signal` and `resume` are in `SignalSubscriber(s)`. -/
inductive Program where
  | idle
  | lockPublication (task : Task)
  | publishSection (task : Task)
  | enqueue (event : StreamResponse) (closeAfterEvent : Bool) (subscribers : List Nat)
  | shutdownSection
  | shutdownClose (subscribers : List Nat)
  | cancelClose (s : Nat)
  | removeSubscriber (s : Nat)
  | waitForResumes (s : Nat)
  | signal (s : Nat) (caller : Caller)
  | resume (s : Nat) (stage : ResumeStage) (caller : Caller)

/-- What the caller of `SignalSubscriber` does next. -/
def Caller.goOn : Caller → Program
  | .publishTaskUpdated event closeAfterEvent subscribers => .enqueue event closeAfterEvent subscribers
  | .shutdown subscribers => .shutdownClose subscribers
  | .removeSubscriber s => .removeSubscriber s

/-- `ServiceState`, the subscribers, the threads, and the published tasks. `subscribers_by_task_id` is one list in
registration order, of which the entry of an id is a part. -/
structure World where
  subscribers : List Nat := []
  latestTaskStatesById : Bytes → Option LatestTaskState := fun _ => none
  shutdown : Bool := false
  publicationMutex : Option Nat := none
  subscriberCount : Nat := 0
  states : Nat → Subscriber := fun _ => {}
  threads : Nat → Program := fun _ => .idle
  published : List Task := []

namespace World

variable (w : World)

def setState (s : Nat) (sub : Subscriber) : World :=
  { w with states := Function.update w.states s sub }

def setThread (t : Nat) (program : Program) : World :=
  { w with threads := Function.update w.threads t program }

/-- The current task of `Subscribe`: the published status wins. -/
def currentTask (task : Task) : Task :=
  match w.latestTaskStatesById task.id with
  | some latest => { task with contextId := latest.contextId, status := some latest.status }
  | none => task

/-- The section of `Subscribe`: the number of the new subscriber. -/
def subscribe (task : Task) : Result Nat × World :=
  if w.shutdown then (.error (.internal "task subscription service is shut down"), w)
  else
    let current := w.currentTask task
    if isTerminalTaskState current.state then
      (.error (ProtocolErrors.unsupportedOperation "task is already terminal"), w)
    else
      (.ok w.subscriberCount,
        { w with
          subscribers := w.subscribers ++ [w.subscriberCount]
          subscriberCount := w.subscriberCount + 1
          states := Function.update w.states w.subscriberCount
            { taskId := task.id, currentTask := current, registeredAt := w.published.length } })

def subscribersOf (taskId : Bytes) : List Nat :=
  w.subscribers.filter fun s => (w.states s).taskId == taskId

/-- What `PublishTaskUpdated` records; a terminal update ends the entry. -/
def recordPublished (task : Task) : World :=
  { w with
    latestTaskStatesById := Function.update w.latestTaskStatesById task.id
      (some ⟨task.contextId, task.statusOr⟩)
    subscribers :=
      if isTerminalTaskState task.state then
        w.subscribers.filter fun s => (w.states s).taskId != task.id
      else w.subscribers
    published := w.published ++ [task] }

/-- The service section of `PublishTaskUpdated`, and the fan-out it leaves to do. -/
def publishSection (t : Nat) (task : Task) : World :=
  if w.shutdown then { w with publicationMutex := none }.setThread t .idle
  else
    (w.recordPublished task).setThread t
      (.enqueue (buildStatusUpdateEvent task) (isTerminalTaskState task.state)
        (w.subscribersOf task.id))

/-- The first section of `SignalSubscriber`. -/
def signal (t s : Nat) (caller : Caller) : World :=
  let sub := w.states s
  (w.setState s (sub.takeContinuation t)).setThread t
    (if sub.continuation then .resume s .lock caller else caller.goOn)

/-- One section of a thread. The order in which `Shutdown` finds the subscribers is a parameter. -/
def runThread (t : Nat) (order : List Nat) : Option World :=
  match w.threads t with
  | .idle => none
  | .lockPublication task =>
    match w.publicationMutex with
    | some _ => none
    | none => some ({ w with publicationMutex := some t }.setThread t (.publishSection task))
  | .publishSection task => some (w.publishSection t task)
  | .enqueue _ _ [] => some ({ w with publicationMutex := none }.setThread t .idle)
  | .enqueue event closeAfterEvent (s :: rest) =>
    some ((w.setState s ((w.states s).enqueue event closeAfterEvent)).setThread t
      (.signal s (.publishTaskUpdated event closeAfterEvent rest)))
  | .shutdownSection =>
    if w.shutdown then some (w.setThread t .idle)
    else if order.isPerm w.subscribers then
      some ({ w with
          shutdown := true, subscribers := [], latestTaskStatesById := fun _ => none }.setThread t
        (.shutdownClose order))
    else none
  | .shutdownClose [] => some (w.setThread t .idle)
  | .shutdownClose (s :: rest) =>
    some ((w.setState s (w.states s).close).setThread t (.signal s (.shutdown rest)))
  | .cancelClose s =>
    some ((w.setState s (w.states s).close).setThread t (.signal s (.removeSubscriber s)))
  | .removeSubscriber s =>
    some ({ w with subscribers := w.subscribers.filter (· != s) }.setThread t (.waitForResumes s))
  | .waitForResumes s =>
    if (w.states s).activeResumes = 0 then some (w.setThread t .idle) else none
  | .signal s caller => some (w.signal t s caller)
  | .resume s .lock caller =>
    ((w.states s).lockResume (.thread t)).map fun sub =>
      (w.setState s { sub with waker := none }).setThread t (.resume s .unlock caller)
  | .resume s .unlock caller =>
    (w.states s).unlockResume.map fun sub =>
      (w.setState s sub).setThread t (.resume s .drop caller)
  | .resume s .drop caller => some ((w.setState s (w.states s).dropResume).setThread t caller.goOn)

/-- A step of a known subscriber. -/
def runState (s : Nat) (sub : Option Subscriber) : Option World :=
  if s < w.subscriberCount then sub.map (w.setState s) else none

end World

/-- What can happen next. The first group starts calls, the second goes on with them. -/
inductive Action where
  | subscribe (task : Task)
  | publishTaskUpdated (t : Nat) (task : Task)
  | shutdown (t : Nat)
  | cancel (t s : Nat)
  | next (s : Nat)
  | nextFor (s : Nat)
  | isLive (s : Nat)
  | thread (t : Nat) (order : List Nat)
  | coroutine (s : Nat)
  | reader (s : Nat)
  | timeOut (s : Nat)

def step (w : World) : Action → Option World
  | .subscribe task => some (w.subscribe task).2
  | .publishTaskUpdated t task =>
    match w.threads t with
    | .idle => some (w.setThread t (.lockPublication task))
    | _ => none
  | .shutdown t =>
    match w.threads t with
    | .idle => some (w.setThread t .shutdownSection)
    | _ => none
  | .cancel t s =>
    match w.threads t with
    | .idle =>
      if s < w.subscriberCount then
        -- `cancelled_.exchange(true)`: only the first call goes on.
        if (w.states s).cancelled then some w
        else
          some ((w.setState s { w.states s with cancelled := true }).setThread t (.cancelClose s))
      else none
    | _ => none
  | .next s => w.runState s ((w.states s).beginNext false)
  | .nextFor s => w.runState s ((w.states s).beginNext true)
  | .isLive s => w.runState s (w.states s).beginIsLive
  | .thread t order => w.runThread t order
  | .coroutine s => w.runState s (w.states s).runCoroutine
  | .reader s => w.runState s (w.states s).runReader
  | .timeOut s => w.runState s (w.states s).timeOut

/-- The service with all its threads, readers and coroutines. -/
def service : Machine World Action where
  start := {}
  step := step

end A2A.Server.TaskSubscriptionService
