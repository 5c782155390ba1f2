/-
# Cancelling a stream while its callbacks run (`client.cpp`, `json_rpc_streaming.cpp`).
-/
import A2A.Foundation.Machine
import Mathlib.Logic.Function.Basic

namespace A2A.Client.StreamHandle

open A2A.Foundation Function

inductive Callback where
  | metadata
  | chunk
  | completion

inductive Location where
  | idle
  /-- `HandleAsyncJsonRpcMetadata`, which does not call the observer. -/
  | metadata
  /-- `HandleChunk`, before it looks at the flag. -/
  | chunk
  /-- `Feed`, before its next event. -/
  | feeding
  /-- `DispatchEvent`, which has not seen a cancellation. -/
  | event
  /-- `Complete`, before it looks at the flag. -/
  | complete
  | completing
  /-- `Complete` after `Finish`, before it looks at the flag again. -/
  | finished
  | ending
  /-- Inside a method of the observer; the last one ends the callback. -/
  | observing (last : Bool)
  | leaving
  deriving DecidableEq

/-- Where a callback begins. -/
def Callback.start : Callback → Location
  | .metadata => .metadata
  | .chunk => .chunk
  | .completion => .complete

/-- One step of a callback. It may `stop`: at shutdown, at the end of the chunk, or at an error. -/
def Location.next (cancelRequested stop : Bool) : Location → Option Location
  | .idle => none
  | .metadata => some .leaving
  | .chunk => some (if stop || cancelRequested then .leaving else .feeding)
  | .feeding => some (if stop then .leaving else if cancelRequested then .feeding else .event)
  | .event => some (if stop then .leaving else .observing false)
  | .complete => some (if stop || cancelRequested then .leaving else .completing)
  | .completing => some (if stop then .observing true else .finished)
  | .finished => some (if cancelRequested then .leaving else .ending)
  | .ending => some (.observing true)
  | .observing last => some (if last then .leaving else .feeding)
  | .leaving => some .idle

/-- A call of `Cancel`; `invoking` knows whether it is the first and found a callback. -/
inductive CancelCall where
  | outside
  | invoking (callback : Bool)
  | waiting
  deriving DecidableEq

/-- The call of `RegisterCancelCallback`. -/
inductive Registration where
  | outside
  | invoking
  | returned
  deriving DecidableEq

/-- `StreamHandle::State`, where each thread is, how often the callback was invoked, and whether `Cancel` has returned.
-/
structure State where
  cancelRequested : Bool := false
  cancelCallback : Bool := false
  callbackThread : Option Nat := none
  location : Location := .idle
  registration : Registration := .outside
  cancels : Nat → CancelCall := fun _ => .outside
  invoked : Nat := 0
  returned : Bool := false

namespace State

/-- The constructor of `CallbackExecutionScope`. -/
def enter (s : State) (callback : Callback) (thread : Nat) : Option State :=
  if s.location = .idle ∧ s.cancels thread = .outside then
    some { s with callbackThread := some thread, location := callback.start }
  else none

/-- A callback goes on; at its end the destructor of its scope runs. -/
def advance (s : State) (stop : Bool) : Option State :=
  (s.location.next s.cancelRequested stop).map fun location =>
    { s with location, callbackThread := if location = .idle then none else s.callbackThread }

/-- `RegisterCancelCallback`, which is called once. -/
def register (s : State) : Option State :=
  match s.registration with
  | .outside =>
    some (if s.cancelRequested then { s with registration := .invoking }
      else { s with cancelCallback := true, registration := .returned })
  | .invoking => some { s with invoked := s.invoked + 1, registration := .returned }
  | .returned => none

/-- `Cancel`: the exchange, the call of the callback, and `WaitForCallbackIdle`. -/
def cancel (s : State) (thread : Nat) : Option State :=
  match s.cancels thread with
  | .outside =>
    if s.callbackThread = some thread then none
    else some { s with
      cancelRequested := true
      cancels := Function.update s.cancels thread (.invoking (!s.cancelRequested && s.cancelCallback)) }
  | .invoking callback =>
    some { s with
      invoked := if callback then s.invoked + 1 else s.invoked
      cancels := Function.update s.cancels thread .waiting }
  | .waiting =>
    if s.callbackThread = some thread ∨ s.callbackThread = none then
      some { s with cancels := Function.update s.cancels thread .outside, returned := true }
    else none

end State

inductive Label where
  | enter (callback : Callback) (thread : Nat)
  | advance (stop : Bool)
  | register
  | cancel (thread : Nat)

/-- A handle with one callback at a time and any number of cancelling threads. -/
def machine : Machine State Label where
  start := {}
  step
    | s, .enter callback thread => s.enter callback thread
    | s, .advance stop => s.advance stop
    | s, .register => s.register
    | s, .cancel thread => s.cancel thread

/-! ## The invariant -/

/-- The callback has not seen the flag set, and may call the observer. -/
def Location.passed : Location → Bool
  | .event | .completing | .ending | .observing _ => true
  | _ => false

variable {location next : Location} {stop : Bool}

theorem Location.passed_next (h : location.next true stop = some next) (hpassed : location.passed = false) :
    next.passed = false := by
  cases location <;> simp_all [Location.next, Location.passed] <;> grind [Location.passed]

theorem Location.next_of_idle {cancelRequested : Bool} (h : location.next cancelRequested stop = some next) :
    location ≠ .idle := by
  rintro rfl
  cases h

/-- What holds whenever no step is under way. -/
structure Inv (s : State) : Prop where
  idle : s.callbackThread = none ↔ s.location = .idle
  apart : ∀ thread, s.callbackThread = some thread → s.cancels thread = .outside
  quiet : s.returned = true → s.cancelRequested = true ∧ s.location.passed = false
  /-- Nobody has cancelled, and the callback is stored once it is registered. -/
  uncancelled : s.cancelRequested = false → s.invoked = 0 ∧ (∀ thread, s.cancels thread = .outside) ∧
    (s.cancelCallback = true ↔ s.registration = .returned) ∧ s.registration ≠ .invoking
  /-- The callback was stored before the first cancellation, which is the one to invoke it. -/
  stored : s.cancelCallback = true → s.registration = .returned ∧ (s.cancelRequested = true →
    s.invoked = 1 ∧ (∀ thread, s.cancels thread ≠ .invoking true) ∨
    s.invoked = 0 ∧ ∃ thread, ∀ other, s.cancels other = .invoking true ↔ other = thread)
  /-- The callback was not stored; then its registration is the one to invoke it. -/
  late : s.cancelRequested = true → s.cancelCallback = false → (∀ thread, s.cancels thread ≠ .invoking true) ∧
    s.invoked = if s.registration = .returned then 1 else 0

theorem inv_start : Inv {} := by
  constructor <;> simp

section Steps

variable {s s' : State}

theorem inv_enter {callback : Callback} {thread : Nat} (h : Inv s) (hstep : s.enter callback thread = some s') :
    Inv s' := by
  unfold State.enter at hstep
  split_ifs at hstep with hguard
  cases hstep
  obtain ⟨hidle, hapart, hquiet, huncancelled, hstored, hlate⟩ := h
  have hstart : callback.start ≠ .idle ∧ callback.start.passed = false := by cases callback <;> decide
  constructor <;> grind

theorem inv_advance {stop : Bool} (h : Inv s) (hstep : s.advance stop = some s') : Inv s' := by
  obtain ⟨location, hnext, rfl⟩ := Option.map_eq_some_iff.mp hstep
  have hbusy := Location.next_of_idle hnext
  obtain ⟨hidle, hapart, hquiet, huncancelled, hstored, hlate⟩ := h
  refine ⟨?_, ?_, fun hreturned => ?_, huncancelled, hstored, hlate⟩
  · grind
  · grind
  · obtain ⟨hflag, hpassed⟩ := hquiet hreturned
    rw [hflag] at hnext
    exact ⟨hflag, Location.passed_next hnext hpassed⟩

theorem inv_register (h : Inv s) (hstep : s.register = some s') : Inv s' := by
  obtain ⟨hidle, hapart, hquiet, huncancelled, hstored, hlate⟩ := h
  unfold State.register at hstep
  split at hstep
  · cases hstep
    split_ifs <;> constructor <;> grind
  · cases hstep
    constructor <;> grind
  · cases hstep

/-- A call of `Cancel` that is not the one to invoke the callback moves on. -/
theorem Inv.move (h : Inv s) (thread : Nat) (call : CancelCall) (hbefore : s.cancels thread ≠ .invoking true)
    (hafter : call ≠ .invoking true) (hflag : s.cancelRequested)
    (hapart : s.callbackThread = some thread → call = .outside) {returned : Bool}
    (hquiet : returned → s.location.passed = false) :
    Inv { s with cancels := update s.cancels thread call, returned } := by
  have hinvoking (other : Nat) : update s.cancels thread call other = .invoking true ↔
      s.cancels other = .invoking true := by
    grind [update_apply]
  refine ⟨h.idle, ?_, fun hreturned => ⟨hflag, hquiet hreturned⟩, fun hopen => (nomatch hopen.symm.trans hflag), ?_, ?_⟩
  · have houtside := h.apart
    grind [update_apply]
  · simp only [ne_eq, hinvoking]
    exact h.stored
  · simp only [ne_eq, hinvoking]
    exact h.late

/-- A step of a cancelling thread keeps the invariant. -/
theorem inv_cancel {thread : Nat} (h : Inv s) (hstep : s.cancel thread = some s') : Inv s' := by
  unfold State.cancel at hstep
  split at hstep
  · rename_i houtside
    split_ifs at hstep with hinside
    cases hstep
    by_cases hflag : s.cancelRequested
    · have hmoved := h.move thread (.invoking false) (by simp [houtside]) (by simp) hflag (absurd · hinside)
        fun hreturned => (h.quiet hreturned).2
      simpa [hflag] using hmoved
    · -- the first cancellation, which is going to invoke a callback that is stored
      rw [Bool.not_eq_true] at hflag
      obtain ⟨hinvoked, houtside, hregistered, -⟩ := h.uncancelled hflag
      have hinvoking (other : Nat) : update s.cancels thread (.invoking s.cancelCallback) other = .invoking true ↔
            other = thread ∧ s.cancelCallback := by
        grind [update_apply]
      simp only [hflag, Bool.not_false, Bool.true_and]
      refine ⟨h.idle, ?_, fun hreturned => ⟨rfl, (h.quiet hreturned).2⟩, nofun, fun hstored => ?_, fun _ hlate => ?_⟩
      · grind [update_apply]
      · refine ⟨hregistered.mp hstored, fun _ => .inr ⟨hinvoked, thread, fun other => ?_⟩⟩
        rw [hinvoking, and_iff_left hstored]
      · simp only [ne_eq, hinvoking]
        grind
  · rename_i callback hcall
    cases hstep
    have hflag : s.cancelRequested := by
      have huncancelled := h.uncancelled
      grind
    have hinside : s.callbackThread ≠ some thread := fun heq => nomatch hcall.symm.trans (h.apart thread heq)
    cases callback with
    | false =>
      exact h.move thread .waiting (by simp [hcall]) (by simp) hflag (absurd · hinside)
        fun hreturned => (h.quiet hreturned).2
    | true =>
      have hinvoking (other : Nat) : update s.cancels thread .waiting other = .invoking true ↔
          other ≠ thread ∧ s.cancels other = .invoking true := by
        grind [update_apply]
      refine ⟨h.idle, ?_, h.quiet, fun hopen => (nomatch hopen.symm.trans hflag), fun hstored => ?_, fun _ hlate => ?_⟩
      · have hapart := h.apart
        grind [update_apply]
      · obtain ⟨hregistered, honce⟩ := h.stored hstored
        refine ⟨hregistered, fun _ => .inl ?_⟩
        rcases honce hflag with ⟨-, hnone⟩ | ⟨hinvoked, first, hfirst⟩
        · exact absurd hcall (hnone thread)
        · simp only [ne_eq, hinvoking]
          grind
      · exact absurd hcall ((h.late hflag hlate).1 thread)
  · rename_i hwaiting
    split_ifs at hstep with hidle
    cases hstep
    have hflag : s.cancelRequested := by
      have huncancelled := h.uncancelled
      grind
    refine h.move thread .outside (by simp [hwaiting]) (by simp) hflag (fun _ => rfl) fun _ => ?_
    rcases hidle with hinside | hnone
    · cases hwaiting.symm.trans (h.apart thread hinside)
    · rw [h.idle.mp hnone]
      rfl

theorem inv_of_reachable (h : machine.Reachable s) : Inv s := by
  refine h.invariant inv_start fun s label s' hinv hstep => ?_
  cases label with
  | enter callback thread => exact inv_enter hinv hstep
  | advance stop => exact inv_advance hinv hstep
  | register => exact inv_register hinv hstep
  | cancel thread => exact inv_cancel hinv hstep

theorem returned_step {label : Label} (hreturned : s.returned) (hstep : machine.step s label = some s') :
    s'.returned := by
  cases label <;> simp only [machine, State.enter, State.advance, State.register, State.cancel] at hstep <;>
    grind [Option.map_eq_some_iff]

theorem Inv.once (h : Inv s) (hflag : s.cancelRequested) : s.invoked ≤ 1 ∧
    (s.registration = .returned → (∀ thread, s.cancels thread ≠ .invoking true) → s.invoked = 1) := by
  cases hstored : s.cancelCallback with
  | true =>
    rcases (h.stored hstored).2 hflag with ⟨hone, -⟩ | ⟨hzero, thread, hthread⟩
    · exact ⟨Nat.le_of_eq hone, fun _ _ => hone⟩
    · exact ⟨hzero ▸ Nat.zero_le 1, fun _ hnone => absurd ((hthread thread).mpr rfl) (hnone thread)⟩
  | false =>
    rw [(h.late hflag hstored).2]
    split <;> simp_all

/-- The callback that cancels the transport is invoked once if the stream is cancelled, and else never. Once a call of
`Cancel` has returned, no method of the observer is running, then or later. -/
theorem cancelled_stream_is_quiet (h : machine.Reachable s) :
    s.invoked ≤ 1 ∧ (s.cancelRequested = false → s.invoked = 0) ∧
    (s.cancelRequested = true → s.registration = .returned → (∀ thread, s.cancels thread ≠ .invoking true) →
      s.invoked = 1) ∧
    (s.returned = true → ∀ ls t, machine.exec s ls = some t → ∀ last, t.location ≠ .observing last) := by
  have hinv := inv_of_reachable h
  refine ⟨?_, fun hopen => (hinv.uncancelled hopen).1, fun hflag => (hinv.once hflag).2,
    fun hreturned ls t hexec last hobserving => ?_⟩
  · by_cases hflag : s.cancelRequested = true
    · exact (hinv.once hflag).1
    · rw [(hinv.uncancelled (Bool.not_eq_true _ ▸ hflag)).1]
      exact Nat.zero_le 1
  have hstill : t.returned = true :=
    Machine.exec_invariant (I := fun s => s.returned = true) (fun _ _ _ hreturned _ => returned_step hreturned) hreturned
      (Machine.meets_true s ls) hexec
  have hpassed := ((inv_of_reachable (h.exec hexec)).quiet hstill).2
  rw [hobserving] at hpassed
  cases hpassed

end Steps

/-- A chunk calls the observer, and a cancellation meanwhile waits for the callback. -/
def sampleRun : List Label :=
  [.register, .enter .chunk 7, .advance false, .advance false, .advance false, .cancel 1, .cancel 1, .advance false,
    .advance false, .advance true, .advance false, .cancel 1]

theorem sampleRun_is_quiet : ∃ s, machine.exec machine.start sampleRun = some s ∧ s.returned = true ∧ s.invoked = 1 ∧
    ∀ ls t, machine.exec s ls = some t → ∀ last, t.location ≠ .observing last := by
  refine ⟨_, rfl, rfl, rfl, ?_⟩
  exact (cancelled_stream_is_quiet ⟨sampleRun, rfl⟩).2.2.2 rfl

end A2A.Client.StreamHandle
