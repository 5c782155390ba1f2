/-
# A reader that keeps calling `Next` on a closed subscription.
-/
import A2A.Server.SubscriptionDelivery
import A2A.Foundation.Fairness

namespace A2A.Server.TaskSubscriptionService

open A2A.Foundation A2A.Core World Function List Option

/-! ## No wake-up is missed -/

/-- Some thread is about to signal the subscriber. -/
def World.Signaled (w : World) (s : Nat) : Prop := ∃ t caller, w.threads t = .signal s caller

/-- A stored handle of a subscriber that has something to resume for will be taken. -/
def Wakeful (w : World) : Prop :=
  ∀ s < w.subscriberCount, (w.states s).continuation = true → (w.states s).HasWork → w.Signaled s

/-- The subscriber has not got work that it did not have. -/
def Subscriber.NoNewWork (sub sub' : Subscriber) : Prop :=
  sub'.continuation = true → sub'.HasWork → sub.continuation = true ∧ sub.HasWork

open Subscriber

namespace Wakeful

variable {w w' : World} {t s : Nat} {p : Program} {sub : Subscriber}

theorem signaled_setThread (h : w.Signaled s) (hp : ∀ x caller, w.threads t ≠ .signal x caller) :
    (w.setThread t p).Signaled s := by
  obtain ⟨u, caller, hu⟩ := h
  have hut : u ≠ t := by
    rintro rfl
    exact hp s caller hu
  exact ⟨u, caller, by simpa [World.setThread, update_of_ne hut] using hu⟩

section

variable (h : Wakeful w)

include h

/-- A subscriber gets work only if somebody is about to signal it. -/
theorem frame (hcount : w'.subscriberCount = w.subscriberCount)
    (hwork : ∀ x, Subscriber.NoNewWork (w.states x) (w'.states x) ∨ w'.Signaled x)
    (hsignaled : ∀ x, w.Signaled x → w'.Signaled x ∨ (w'.states x).continuation = false) : Wakeful w' := by
  intro x hx hstored hsome
  rcases hwork x with hnone | hsignal
  · obtain ⟨hstored', hsome'⟩ := hnone hstored hsome
    exact (hsignaled x (h x (hcount ▸ hx) hstored' hsome')).resolve_right (by simp [hstored])
  · exact hsignal

theorem setState (hwork : Subscriber.NoNewWork (w.states s) sub) : Wakeful (w.setState s sub) := by
  refine h.frame rfl (fun x => .inl ?_) fun x hx => .inl hx
  exact (forall_update_iff w.states fun x sub' => NoNewWork (w.states x) sub').mpr
    ⟨hwork, fun _ _ => And.intro⟩ x

theorem setThread (hp : ∀ x caller, w.threads t ≠ .signal x caller) : Wakeful (w.setThread t p) :=
  h.frame rfl (fun _ => .inl And.intro) fun _ hx => .inl (signaled_setThread hx hp)

theorem move (hwork : Subscriber.NoNewWork (w.states s) sub)
    (hp : ∀ x caller, w.threads t ≠ .signal x caller) : Wakeful ((w.setState s sub).setThread t p) :=
  (h.setState hwork).setThread hp

theorem work {caller : Caller} (hp : ∀ x caller, w.threads t ≠ .signal x caller) :
    Wakeful ((w.setState s sub).setThread t (.signal s caller)) := by
  refine h.frame rfl (fun x => ?_) fun x hx => .inl (signaled_setThread hx hp)
  by_cases hxs : x = s
  · subst hxs
    exact .inr ⟨t, caller, by simp [World.setThread]⟩
  · refine .inl ?_
    simp only [World.setThread, World.setState, update_of_ne hxs]
    exact And.intro

theorem signal {caller : Caller} (hp : w.threads t = .signal s caller) : Wakeful (w.signal t s caller) := by
  have htaken : ((w.states s).takeContinuation t).continuation = false := by
    unfold takeContinuation
    split_ifs with hcontinuation
    · rfl
    · simpa using hcontinuation
  have hself : (w.signal t s caller).states s = (w.states s).takeContinuation t := update_self _ _ _
  have hother : ∀ x, x ≠ s → (w.signal t s caller).states x = w.states x := fun x hx => update_of_ne hx _ _
  refine h.frame rfl (fun x => .inl ?_) fun x hx => ?_
  · by_cases hxs : x = s
    · rw [hxs, hself]
      exact fun hstored => absurd (htaken.symm.trans hstored) (by simp)
    · rw [hother x hxs]
      exact And.intro
  · by_cases hxs : x = s
    · exact .inr (by rw [hxs, hself, htaken])
    · obtain ⟨u, caller', hu⟩ := hx
      have hut : u ≠ t := by
        rintro rfl
        cases hp.symm.trans hu
        exact hxs rfl
      exact .inl ⟨u, caller', (update_of_ne hut _ _).trans hu⟩

theorem threadStep (hstep : ThreadStep w t w') : Wakeful w' := by
  cases hstep with
  | signal s caller hp => exact h.signal hp
  | enqueue event closeAfterEvent s rest hp => exact h.work (by simp [hp])
  | close s caller hp =>
    refine h.work ?_
    intro x caller' hx
    rw [hx] at hp
    exact absurd hp (by simp [Program.closing])
  | resumeLock s caller hp | resumeUnlock s caller hp | resumeDrop s caller hp =>
    exact h.move And.intro (by simp [hp])
  | publish task hp =>
    exact h.frame rfl (fun _ => .inl And.intro) fun _ hx =>
      .inl (signaled_setThread hx (by simp [hp, recordPublished]))
  | lockPublication _ hp | publishRefused _ hp | published _ _ hp | shutdown _ hp
  | removeSubscriber _ hp =>
    exact h.frame rfl (fun _ => .inl And.intro) fun _ hx => .inl (signaled_setThread hx (by simp [hp]))
  | finish hp => exact h.setThread (by rcases hp with hp | hp | ⟨_, hp⟩ <;> simp [hp])

/-- No wake-up is missed. -/
theorem step {a : Action} (hsound : Sound w) (hstep : TaskSubscriptionService.step w a = some w') : Wakeful w' := by
  cases transition_of_step hstep with
  | subscribeRefused | cancelAgain => exact h
  | subscribed task =>
    intro x hx hstored hsome
    by_cases hnew : x = w.subscriberCount
    · subst hnew
      simp at hstored
    · have hold : x < w.subscriberCount := Nat.lt_of_le_of_ne (Nat.lt_succ_iff.mp hx) hnew
      simp only [update_of_ne hnew] at hstored hsome
      exact h x hold hstored hsome
  | call a t p hidle hp => exact h.setThread (by simp [hidle])
  | cancel t s hidle hs => exact h.move And.intro (by simp [hidle])
  | reader a s ha hs hreader =>
    refine h.setState ?_
    cases hreader <;> exact And.intro
  | coroutine s hs hcoroutine =>
    refine h.setState ?_
    -- A running coroutine has its handle itself; it stores it only when there is nothing to do.
    obtain ⟨_, hnotStored, _, _⟩ := (hsound.inv s hs).handle.of_running hcoroutine.running
    cases hcoroutine with
    | suspend hpoint hwork => exact fun _ hsome => absurd hsome hwork
    | _ => exact fun hstored _ => absurd hstored hnotStored
  | thread t order hthread => exact h.threadStep hthread

end

end Wakeful

/-! ## The rank of a subscriber -/

namespace Subscriber

/-- How far the coroutine is from its next suspension, once the subscriber is closed. -/
def coroutineRank (sub : Subscriber) : Nat :=
  match sub.point with
  | .yieldValue _ | .finalSuspend => 1
  | .awaitResume => 2
  | .awaitReady | .awaitSuspend => 3
  | .awaiting =>
    3 + (if sub.continuation then 2 else 0) + (if sub.resumeMutex.isSome then 1 else 0)
  | .initial | .yielded _ | .finished => 0

/-- How far the reader is from the next event within `Next`; other calls come before that. -/
def readerRank (sub : Subscriber) : Nat :=
  match sub.reader with
  | .recordDelivered _ => 1
  | .waiting timed => (if timed then 40 else 2) + sub.coroutineRank
  | .unlockResume timed => (if timed then 50 else 10) + sub.coroutineRank
  | .lockResume timed => (if timed then 60 else 20) + (if sub.resumeMutex.isSome then 1 else 0)
  | .idle => 30
  | .loadPending => 31
  | .loadClosed => 32

/-- How far the reader is from the end of the stream. -/
def rank (sub : Subscriber) : Nat :=
  100 * (sub.accepted.length + 1 - sub.delivered.length) + sub.readerRank

/-- Who has to move next for the reader to get on. -/
inductive Need where
  | caller
  | reader
  | coroutine
  | signal
  | waker (t : Nat)
  | holder (t : Nat)

/-- Who has to move next, by where the reader is. -/
def need (sub : Subscriber) : Need :=
  match sub.reader with
  | .idle => .caller
  | .recordDelivered _ | .loadClosed | .loadPending => .reader
  | .lockResume _ =>
    match sub.holder with
    | some t => .holder t
    | none => .reader
  | .unlockResume _ => if sub.point.suspended then .reader else .coroutine
  | .waiting _ =>
    if sub.ready then .reader
    else if sub.point.suspended then
      if sub.continuation then .signal
      else
        match sub.holder, sub.waker with
        | some t, _ => .holder t
        | none, some t => .waker t
        | none, none => .reader
    else .coroutine

/-- The reader is as far as it was. -/
def Steady (sub sub' : Subscriber) : Prop := sub'.rank = sub.rank ∧ sub'.need = sub.need

section Rank

variable {sub sub' : Subscriber}

theorem rank_lt (haccepted : sub'.accepted = sub.accepted) (hdelivered : sub'.delivered = sub.delivered)
    (h : sub'.readerRank < sub.readerRank) : sub'.rank < sub.rank := by
  rw [rank, rank, haccepted, hdelivered]
  exact Nat.add_lt_add_left h _

theorem steady (haccepted : sub'.accepted = sub.accepted) (hdelivered : sub'.delivered = sub.delivered)
    (h : sub'.readerRank = sub.readerRank) (hneed : sub'.need = sub.need) : Steady sub sub' := by
  refine ⟨?_, hneed⟩
  rw [rank, rank, haccepted, hdelivered, h]

theorem reader_of_moving (h : sub.Inv) (hinitial : sub.point ≠ .initial)
    (hyielded : ∀ isTerminal, sub.point ≠ .yielded isTerminal) :
    (∃ timed, sub.reader = .waiting timed) ∨ (∃ timed, sub.reader = .unlockResume timed) ∨
      sub.reader = .idle ∨ sub.reader = .loadClosed ∨ sub.reader = .loadPending := by
  have hattentive : sub.session.Attentive := h.reader.attentive hinitial hyielded
  cases hreader : sub.reader with
  | waiting timed => exact .inl ⟨timed, rfl⟩
  | unlockResume timed => exact .inr (.inl ⟨timed, rfl⟩)
  | idle | loadClosed | loadPending => simp
  | lockResume timed =>
    rcases hattentive with ⟨_, hunlock, _⟩ | ⟨hlock, _, _⟩
    · cases hreader.symm.trans hunlock
    · exact absurd hreader (hlock timed)
  | recordDelivered event =>
    rcases hattentive with ⟨_, hunlock, _⟩ | ⟨_, hrecord, _⟩
    · cases hreader.symm.trans hunlock
    · exact absurd hreader (hrecord event)

/-- A waiting reader waits for an awaiting coroutine, or a running one. -/
theorem awaiting_of_waiting (h : sub.Inv) {timed : Bool} (hreader : sub.reader = .waiting timed)
    (hready : ¬ sub.ready) (hsuspended : sub.point.suspended) : sub.point = .awaiting := by
  have hengaged : sub.session.Engaged := (settled_of_waiting h.reader hreader).1
  simp only [ready, Bool.or_eq_true, not_or, Bool.not_eq_true, isSome_eq_false_iff, isNone_iff_eq_none] at hready
  cases hpoint : sub.point with
  | awaiting => rfl
  | initial => exact absurd hpoint hengaged.moved
  | yielded isTerminal => exact absurd hready.1 (hengaged.staged isTerminal hpoint)
  | finished => exact absurd (h.handle.done.mpr hpoint) (by simp [hready.2])
  | yieldValue | awaitReady | awaitSuspend | awaitResume | finalSuspend =>
    rw [hpoint] at hsuspended
    exact absurd hsuspended (by simp [CoroutinePoint.suspended])

theorem point_of_ready (h : sub.Inv) (hready : sub.ready) :
    (∃ isTerminal, sub.point = .yielded isTerminal) ∨ sub.point = .finished := by
  rcases Bool.or_eq_true_iff.mp hready with hvalue | hdone
  · exact .inl (h.handle.value (isSome_iff_ne_none.mp hvalue))
  · exact .inr (h.handle.done.mp hdone)

theorem need_of_ready (timed : Bool) (hreader : sub.reader = .waiting timed)
    (hready : sub.ready) : sub.need = .reader := by
  simp only [need, hreader, hready, if_true]

theorem runCoroutine_isSome (h : sub.point.suspended = false) : sub.runCoroutine.isSome := by
  unfold runCoroutine
  cases hpoint : sub.point with
  | yieldValue | finalSuspend => rfl
  | awaitReady | awaitSuspend =>
    dsimp only
    split_ifs <;> rfl
  | awaitResume => cases sub.events <;> rfl
  | initial | yielded | awaiting | finished =>
    rw [hpoint] at h
    exact absurd h (by simp [CoroutinePoint.suspended])

section

variable (h : sub.Inv)

include h

/-- Who is needed can move. -/
theorem need_spec :
    match sub.need with
    | .caller => sub.reader = .idle
    | .reader => sub.runReader.isSome
    | .coroutine => sub.point.suspended = false
    | .signal => sub.continuation
    | .waker t => sub.waker = some t ∧ sub.resumeMutex = none
    | .holder t => sub.resumeMutex = some (.thread t) ∧ sub.point.suspended := by
  unfold need
  cases hreader : sub.reader with
  | idle => rfl
  | recordDelivered | loadClosed | loadPending =>
    simp only [runReader, hreader]
    split_ifs <;> rfl
  | lockResume timed =>
    obtain ⟨_, hpoint⟩ := point_of_lockResume h.reader hreader
    have hsuspended : sub.point.suspended := by
      rcases hpoint with hpoint | ⟨_, hpoint⟩ <;> rw [hpoint] <;> rfl
    cases hmutex : sub.resumeMutex with
    | none => simp [holder, hmutex, runReader, hreader, lockResume]
    | some runner =>
      cases runner with
      | thread t => simp [holder, hmutex, hsuspended]
      | reader =>
        obtain ⟨_, hunlock⟩ := h.handle.reader.mp hmutex
        cases hreader.symm.trans hunlock
  | unlockResume timed =>
    by_cases hsuspended : sub.point.suspended
    · simp [hsuspended, runReader, hreader, unlockResume]
    · simp [hsuspended]
  | waiting timed =>
    by_cases hready : sub.ready
    · have hsome : sub.runReader.isSome := by
        simp only [runReader, hreader]
        cases hvalue : sub.currentValue with
        | some event => rfl
        | none => simpa [ready, hvalue] using hready
      simpa [hready] using hsome
    · by_cases hsuspended : sub.point.suspended
      · have hawaiting := awaiting_of_waiting h hreader hready hsuspended
        by_cases hstored : sub.continuation
        · simp [hready, hsuspended, hstored]
        · have hwaker : sub.waker ≠ none := (h.handle.somewhere hawaiting).resolve_left hstored
          obtain ⟨t, ht⟩ := ne_none_iff_exists'.mp hwaker
          cases hmutex : sub.resumeMutex with
          | none => simp [hready, hsuspended, hstored, holder, hmutex, ht]
          | some runner =>
            cases runner with
            | thread u => simp [hready, hsuspended, hstored, holder, hmutex]
            | reader =>
              obtain ⟨_, hunlock⟩ := h.handle.reader.mp hmutex
              cases hreader.symm.trans hunlock
      · simp [hready, hsuspended]

/-- Taking the handle helps the reader that waits for it, and disturbs nobody else. -/
theorem rank_takeContinuation (t : Nat) :
    (sub.takeContinuation t).rank < sub.rank ∨ (Steady sub (sub.takeContinuation t) ∧ sub.need ≠ .signal) := by
  by_cases hstored : sub.continuation
  · have hpoint := (h.handle.stored hstored).1
    have htake : sub.takeContinuation t =
        { sub with continuation := false, activeResumes := sub.activeResumes + 1, waker := some t } := by
      rw [takeContinuation, if_pos hstored]
    rw [htake]
    rcases reader_of_moving h (by simp [hpoint]) (by simp [hpoint]) with
      ⟨timed, hreader⟩ | ⟨timed, hreader⟩ | hreader | hreader | hreader
    · exact .inl (rank_lt rfl rfl (by simp [readerRank, coroutineRank, hreader, hpoint, hstored]))
    · exact .inl (rank_lt rfl rfl (by simp [readerRank, coroutineRank, hreader, hpoint, hstored]))
    all_goals
      refine .inr ⟨steady rfl rfl ?_ ?_, ?_⟩ <;> simp [readerRank, need, hreader]
  · have hsame : sub.takeContinuation t = sub := by rw [takeContinuation, if_neg hstored]
    rw [hsame]
    refine .inr ⟨⟨rfl, rfl⟩, ?_⟩
    intro hneed
    have hspec := need_spec h
    rw [hneed] at hspec
    exact hstored hspec

theorem rank_resumedBy {t : Nat} (hwaker : sub.waker = some t) (hmutex : sub.resumeMutex = none) :
    (sub.resumedBy t).rank < sub.rank ∨ (Steady sub (sub.resumedBy t) ∧ ∀ u, sub.need ≠ .waker u) := by
  have hpoint : sub.point = .awaiting := h.handle.taken (by simp [hwaker])
  have hresumed : sub.resumedPoint = .awaitResume := by rw [resumedPoint, hpoint]
  rcases reader_of_moving h (by simp [hpoint]) (by simp [hpoint]) with
    ⟨timed, hreader⟩ | ⟨timed, hreader⟩ | hreader | hreader | hreader
  · refine .inl (rank_lt rfl rfl ?_)
    simp only [readerRank, coroutineRank, hreader, hpoint, hresumed]
    omega
  · have hheld := h.handle.reader.mpr ⟨timed, hreader⟩
    cases hmutex.symm.trans hheld
  all_goals
    refine .inr ⟨steady rfl rfl ?_ ?_, ?_⟩ <;> simp [readerRank, need, hreader]

/-- Releasing the lock brings the reader forward, or nobody waits for it any more. -/
theorem rank_released {t : Nat} (hholder : sub.resumeMutex = some (.thread t)) (hsuspended : sub.point.suspended) :
    sub.released.rank < sub.rank ∨ (Steady sub sub.released ∧ ∀ u, sub.need ≠ .holder u) := by
  cases hreader : sub.reader with
  | lockResume timed =>
    refine .inl (rank_lt rfl rfl ?_)
    simp [readerRank, hreader, hholder]
  | unlockResume timed =>
    have hheld := h.handle.reader.mpr ⟨timed, hreader⟩
    cases hholder.symm.trans hheld
  | waiting timed =>
    by_cases hready : sub.ready
    · have hneed : sub.need = .reader := need_of_ready timed hreader hready
      have hneed' : sub.released.need = .reader := need_of_ready timed hreader hready
      refine .inr ⟨steady rfl rfl ?_ ?_, ?_⟩
      · rcases point_of_ready h hready with ⟨_, hpoint⟩ | hpoint <;>
          simp [readerRank, coroutineRank, hreader, hpoint]
      · exact hneed'.trans hneed.symm
      · simp [hneed]
    · have hpoint := awaiting_of_waiting h hreader hready hsuspended
      refine .inl (rank_lt rfl rfl ?_)
      simp [readerRank, coroutineRank, hreader, hpoint, hholder]
  | idle | loadClosed | loadPending | recordDelivered =>
    refine .inr ⟨steady rfl rfl ?_ ?_, ?_⟩ <;> simp [readerRank, need, hreader]

/-- The coroutine of a closed subscriber helps the reader that waits for it. -/
theorem rank_coroutineStep (hclosed : sub.closed) (hstep : CoroutineStep sub sub') :
    sub'.rank < sub.rank ∨ (Steady sub sub' ∧ sub.need ≠ .coroutine) := by
  have hrunning := hstep.running
  have hwork : sub.HasWork := .inl hclosed
  have hreader := reader_of_moving h (not_initial_of_running hrunning) (not_yielded_of_running hrunning)
  have hlower : sub'.coroutineRank < sub.coroutineRank := by
    cases hstep with
    | goOn hpoint => rcases hpoint with hpoint | hpoint <;> simp [coroutineRank, hpoint]
    | toSuspend _ hno | suspend _ hno => exact absurd hwork hno
    | stage _ hpoint | noEvent hpoint | pop _ _ hpoint | finish hpoint => simp [coroutineRank, hpoint]
  have hsame : sub'.reader = sub.reader ∧ sub'.accepted = sub.accepted ∧ sub'.delivered = sub.delivered := by
    cases hstep <;> exact ⟨rfl, rfl, rfl⟩
  rcases hreader with ⟨timed, hreader⟩ | ⟨timed, hreader⟩ | hreader | hreader | hreader
  · refine .inl (rank_lt hsame.2.1 hsame.2.2 ?_)
    simp only [readerRank, hsame.1, hreader]
    omega
  · refine .inl (rank_lt hsame.2.1 hsame.2.2 ?_)
    simp only [readerRank, hsame.1, hreader]
    omega
  all_goals
    refine .inr ⟨steady hsame.2.1 hsame.2.2 ?_ ?_, ?_⟩ <;> simp [readerRank, need, hsame.1, hreader]

theorem delivered_lt {event : StreamResponse}
    (hreader : sub.reader = .recordDelivered event) : sub.delivered.length < sub.accepted.length + 1 := by
  have hlength := congrArg List.length h.flow.order
  have hpipeline : 0 < sub.pipeline.length := by
    simp only [pipeline, inReader, hreader, length_append, length_singleton]
    omega
  simp only [length_append, length_cons] at hlength
  omega

/-- Every step inside a call brings the reader nearer to the end, or reports it. -/
theorem rank_runReader (hrun : sub.runReader = some sub') : sub'.ended ∨ sub'.rank < sub.rank := by
  unfold runReader at hrun
  cases hreader : sub.reader with
  | idle => simp [hreader] at hrun
  | lockResume timed =>
    simp only [hreader] at hrun
    obtain ⟨locked, hlock, rfl⟩ := map_eq_some_iff.mp hrun
    obtain ⟨_, rfl⟩ := lockResume_eq_some hlock
    obtain ⟨_, hpoint⟩ := point_of_lockResume h.reader hreader
    refine .inr (rank_lt rfl rfl ?_)
    rcases hpoint with hpoint | ⟨isTerminal, hpoint⟩
    · simp only [readerRank, coroutineRank, resumedPoint, hpoint, hreader]
      split_ifs <;> omega
    · cases isTerminal <;> cases timed <;>
        simp [readerRank, coroutineRank, resumedPoint, hpoint, hreader] <;> omega
  | unlockResume timed =>
    simp only [hreader] at hrun
    obtain ⟨unlocked, hunlock, rfl⟩ := map_eq_some_iff.mp hrun
    obtain ⟨_, rfl⟩ := unlockResume_eq_some hunlock
    refine .inr (rank_lt rfl rfl ?_)
    have hle : coroutineRank { sub with resumeMutex := none, reader := .waiting timed } ≤
        sub.coroutineRank := by
      simp only [coroutineRank]
      split <;> simp
    simp only [readerRank, hreader]
    split_ifs <;> omega
  | waiting timed =>
    simp only [hreader] at hrun
    split at hrun
    · cases hrun
      refine .inr (rank_lt rfl rfl ?_)
      simp only [readerRank, hreader]
      split_ifs <;> omega
    · split_ifs at hrun
      cases hrun
      exact .inl rfl
  | recordDelivered event =>
    simp only [hreader] at hrun
    cases hrun
    have hlt := delivered_lt h hreader
    refine .inr ?_
    simp only [rank, readerRank, hreader, length_append, length_singleton]
    omega
  | loadClosed | loadPending =>
    simp only [hreader] at hrun
    split_ifs at hrun <;> obtain rfl := Option.some.inj hrun <;>
      exact .inr (rank_lt rfl rfl (by simp [readerRank, hreader]))

end

theorem rank_timeOut (h : sub.timeOut = some sub') : sub'.rank < sub.rank := by
  unfold timeOut at h
  split at h
  · next hreader =>
      split_ifs at h
      cases h
      refine rank_lt rfl rfl ?_
      simp only [readerRank, hreader, if_true]
      omega
  · cases h

/-- A new call of `Next` starts below the position between two calls. -/
theorem rank_beginNext (h : sub.beginNext false = some sub') : sub'.rank < sub.rank := by
  unfold beginNext at h
  split at h
  · next hreader =>
      have hle : sub.coroutineRank ≤ 6 := by
        unfold coroutineRank
        cases sub.point with
        | awaiting =>
          dsimp only
          split_ifs <;> omega
        | _ => simp
      split_ifs at h <;> obtain rfl := Option.some.inj h <;> refine rank_lt rfl rfl ?_
      · simp only [readerRank, hreader]
        split_ifs <;> simp_all
      · simp only [readerRank, hreader]
        split_ifs <;> simp_all
      · have hsame : coroutineRank { sub with reader := .waiting false } =
          sub.coroutineRank := rfl
        simp only [readerRank, hreader, hsame]
        simp
        omega
  · cases h

end Rank

end Subscriber

/-! ## Processes -/

/-- Who takes the steps that go on with calls, and who calls `Next`. -/
inductive Process where
  | thread (t : Nat)
  | coroutine (s : Nat)
  | reader (s : Nat)
  | caller (s : Nat)

/-- The process of an action; the first steps of the other calls belong to nobody. -/
def Action.process : Action → Option Process
  | .thread t _ => some (.thread t)
  | .coroutine s => some (.coroutine s)
  | .reader s => some (.reader s)
  | .next s => some (.caller s)
  | _ => none

/-- The process whose step brings the reader of `s` on. -/
def Helps (s : Nat) (w : World) (q : Process) : Prop :=
  match (w.states s).need with
  | .caller => q = .caller s
  | .reader => q = .reader s
  | .coroutine => q = .coroutine s
  | .signal => ∃ t caller, q = .thread t ∧ w.threads t = .signal s caller
  | .waker t | .holder t => q = .thread t

/-- What is assumed of the states of a run from the close on. -/
structure Closing (s : Nat) (w : World) : Prop where
  sound : Sound w
  wakeful : Wakeful w
  known : s < w.subscriberCount
  closed : (w.states s).closed = true

/-- A step of the process `p` leaves the subscriber nearer to the end, or was not waited for and changes nothing. -/
def Eases (s : Nat) (p : Option Process) (w : World) (sub : Subscriber) : Prop :=
  sub.ended ∨ sub.rank < (w.states s).rank ∨ (Steady (w.states s) sub ∧ ∀ q, p = some q → ¬ Helps s w q)

section Eases

variable {s : Nat} {w : World} {sub : Subscriber} {q : Process}

theorem Eases.idle (h : Steady (w.states s) sub) : Eases s none w sub := .inr (.inr ⟨h, nofun⟩)

theorem Eases.steady (h : Steady (w.states s) sub) (hq : ¬ Helps s w q) : Eases s (some q) w sub := by
  refine .inr (.inr ⟨h, ?_⟩)
  rintro _ ⟨⟩
  exact hq

theorem Eases.same (hq : ¬ Helps s w q) : Eases s (some q) w (w.states s) := .steady ⟨rfl, rfl⟩ hq

end Eases

theorem waking_eq_some {p : Program} {s : Nat} (h : p.waking = some s) : ∃ caller, p = .resume s .lock caller := by
  unfold Program.waking at h
  split at h
  · cases h
    exact ⟨_, rfl⟩
  · cases h

theorem holding_eq_some {p : Program} {s : Nat} (h : p.holding = some s) : ∃ caller, p = .resume s .unlock caller := by
  unfold Program.holding at h
  split at h
  · cases h
    exact ⟨_, rfl⟩
  · cases h

namespace Closing

variable {s : Nat} {w w' : World} (h : Closing s w) {q : Process} {t x : Nat} {caller : Caller} {p : Program}

include h

theorem inv : (w.states s).Inv := h.sound.inv s h.known

theorem waker (hneed : (w.states s).need = .waker t) :
    (w.states s).resumeMutex = none ∧ ∃ caller, w.threads t = .resume s .lock caller := by
  have hspec := need_spec h.inv
  rw [hneed] at hspec
  exact ⟨hspec.2, waking_eq_some ((h.sound.waking t s).mpr hspec.1)⟩

theorem holder (hneed : (w.states s).need = .holder t) :
    (w.states s).point.suspended ∧ ∃ caller, w.threads t = .resume s .unlock caller := by
  have hspec := need_spec h.inv
  rw [hneed] at hspec
  exact ⟨hspec.2, holding_eq_some ((h.sound.holding t s).mpr (holder_eq_some.mpr hspec.1))⟩

theorem exists_helps : ∃ q, Helps s w q := by
  unfold Helps
  have hspec := need_spec h.inv
  cases hneed : (w.states s).need with
  | signal =>
    rw [hneed] at hspec
    obtain ⟨t, caller, ht⟩ := h.wakeful s h.known hspec (.inl h.closed)
    exact ⟨.thread t, t, caller, rfl, ht⟩
  | _ => exact ⟨_, rfl⟩

/-- Whoever the reader waits for can move. -/
theorem enabled (hq : Helps s w q) : service.Enabled Action.process q w := by
  have hspec := need_spec h.inv
  have hrun : ∀ {sub : Option Subscriber}, sub.isSome → (w.runState s sub).isSome := by
    intro sub hsome
    obtain ⟨sub', rfl⟩ := isSome_iff_exists.mp hsome
    simp [runState, h.known]
  unfold Helps at hq
  cases hneed : (w.states s).need with
  | caller =>
    rw [hneed] at hspec hq
    subst hq
    have hsome : ((w.states s).beginNext false).isSome := by
      simp only [beginNext, hspec]
      split_ifs <;> rfl
    obtain ⟨w', hw'⟩ := isSome_iff_exists.mp (hrun hsome)
    exact ⟨.next s, w', rfl, hw'⟩
  | reader =>
    rw [hneed] at hspec hq
    subst hq
    obtain ⟨w', hw'⟩ := isSome_iff_exists.mp (hrun hspec)
    exact ⟨.reader s, w', rfl, hw'⟩
  | coroutine =>
    rw [hneed] at hspec hq
    subst hq
    obtain ⟨w', hw'⟩ := isSome_iff_exists.mp (hrun (runCoroutine_isSome hspec))
    exact ⟨.coroutine s, w', rfl, hw'⟩
  | signal =>
    rw [hneed] at hq
    obtain ⟨t, caller, rfl, ht⟩ := hq
    refine ⟨.thread t [], w.signal t s caller, rfl, ?_⟩
    show w.runThread t [] = _
    rw [runThread, ht]
  | waker t =>
    rw [hneed] at hq
    subst hq
    obtain ⟨hmutex, caller, ht⟩ := h.waker hneed
    have hsome : (w.runThread t []).isSome := by
      rw [runThread, ht]
      simp [lockResume, hmutex]
    obtain ⟨w', hw'⟩ := isSome_iff_exists.mp hsome
    exact ⟨.thread t [], w', rfl, hw'⟩
  | holder t =>
    rw [hneed] at hq
    subst hq
    obtain ⟨hsuspended, caller, ht⟩ := h.holder hneed
    have hsome : (w.runThread t []).isSome := by
      rw [runThread, ht]
      simp [unlockResume, hsuspended]
    obtain ⟨w', hw'⟩ := isSome_iff_exists.mp hsome
    exact ⟨.thread t [], w', rfl, hw'⟩

theorem helper_program (hq : Helps s w (.thread t)) :
    ((w.states s).need = .signal ∧ ∃ caller, w.threads t = .signal s caller) ∨
    ((w.states s).need = .waker t ∧ ∃ caller, w.threads t = .resume s .lock caller) ∨
    ((w.states s).need = .holder t ∧ ∃ caller, w.threads t = .resume s .unlock caller) := by
  unfold Helps at hq
  cases hneed : (w.states s).need with
  | caller | reader | coroutine =>
    rw [hneed] at hq
    cases hq
  | signal =>
    rw [hneed] at hq
    obtain ⟨u, caller, hut, hu⟩ := hq
    cases hut
    exact .inl ⟨rfl, caller, hu⟩
  | waker u =>
    rw [hneed] at hq
    cases hq
    exact .inr (.inl ⟨rfl, (h.waker hneed).2⟩)
  | holder u =>
    rw [hneed] at hq
    cases hq
    exact .inr (.inr ⟨rfl, (h.holder hneed).2⟩)

/-- A thread at no section of `SignalSubscriber(s)` is not waited for. -/
theorem not_helps (hsignal : ∀ caller, w.threads t ≠ .signal s caller)
    (hlock : ∀ caller, w.threads t ≠ .resume s .lock caller)
    (hunlock : ∀ caller, w.threads t ≠ .resume s .unlock caller) : ¬ Helps s w (.thread t) := by
  intro hq
  rcases h.helper_program hq with ⟨_, caller, ht⟩ | ⟨_, caller, ht⟩ | ⟨_, caller, ht⟩
  · exact hsignal caller ht
  · exact hlock caller ht
  · exact hunlock caller ht

omit h in
/-- The rule for the sections of a thread that change one subscriber. -/
theorem eases_setState {sub : Subscriber}
    (hhere : s = x → Eases s (some (.thread t)) w sub) (hthere : s ≠ x → ¬ Helps s w (.thread t)) :
    Eases s (some (.thread t)) w (((w.setState x sub).setThread t p).states s) := by
  by_cases hx : s = x
  · have hself : ((w.setState x sub).setThread t p).states s = sub := hx ▸ update_self _ _ _
    rw [hself]
    exact hhere hx
  · have hother : ((w.setState x sub).setThread t p).states s = w.states s := update_of_ne hx _ _
    rw [hother]
    exact .same (hthere hx)

theorem eases_signal (hp : w.threads t = .signal x caller) :
    Eases s (some (.thread t)) w ((w.signal t x caller).states s) := by
  refine eases_setState ?_ fun hx => h.not_helps (by simp [hp, Ne.symm hx]) (by simp [hp]) (by simp [hp])
  rintro rfl
  refine .inr ((rank_takeContinuation h.inv t).imp_right fun hsteady => ⟨hsteady.1, ?_⟩)
  rintro _ ⟨⟩ hq
  rcases h.helper_program hq with ⟨hsignal, _⟩ | ⟨_, _, ht⟩ | ⟨_, _, ht⟩
  · exact hsteady.2 hsignal
  · cases hp.symm.trans ht
  · cases hp.symm.trans ht

theorem eases_resumeLock (hp : w.threads t = .resume x .lock caller) (hmutex : (w.states x).resumeMutex = none) :
    Eases s (some (.thread t)) w (((w.setState x ((w.states x).resumedBy t)).setThread t p).states s) := by
  refine eases_setState ?_ fun hx => h.not_helps (by simp [hp]) (by simp [hp, Ne.symm hx]) (by simp [hp])
  rintro rfl
  obtain ⟨-, hwaker, -⟩ := h.sound.resumeLock hp hmutex
  refine .inr ((rank_resumedBy h.inv hwaker hmutex).imp_right fun hsteady => ⟨hsteady.1, ?_⟩)
  rintro _ ⟨⟩ hq
  rcases h.helper_program hq with ⟨_, _, ht⟩ | ⟨hwaiting, _⟩ | ⟨_, _, ht⟩
  · cases hp.symm.trans ht
  · exact hsteady.2 t hwaiting
  · cases hp.symm.trans ht

theorem eases_resumeUnlock (hp : w.threads t = .resume x .unlock caller)
    (hsuspended : (w.states x).point.suspended) :
    Eases s (some (.thread t)) w (((w.setState x (w.states x).released).setThread t p).states s) := by
  refine eases_setState ?_ fun hx => h.not_helps (by simp [hp]) (by simp [hp]) (by simp [hp, Ne.symm hx])
  rintro rfl
  obtain ⟨-, hholder, -⟩ := h.sound.resumeUnlock hp hsuspended
  refine .inr ((rank_released h.inv hholder hsuspended).imp_right fun hsteady => ⟨hsteady.1, ?_⟩)
  rintro _ ⟨⟩ hq
  rcases h.helper_program hq with ⟨_, _, ht⟩ | ⟨_, _, ht⟩ | ⟨hwaiting, _⟩
  · cases hp.symm.trans ht
  · cases hp.symm.trans ht
  · exact hsteady.2 t hwaiting

/-- A section of a thread lowers the rank, or changes nothing for the reader. -/
theorem eases_threadStep (hstep : ThreadStep w t w') : Eases s (some (.thread t)) w (w'.states s) := by
  cases hstep with
  | signal x caller hp => exact h.eases_signal hp
  | resumeLock x caller hp hmutex => exact h.eases_resumeLock hp hmutex
  | resumeUnlock x caller hp hsuspended => exact h.eases_resumeUnlock hp hsuspended
  | enqueue event closeAfterEvent x rest hp =>
    have hnot := h.not_helps (t := t) (by simp [hp]) (by simp [hp]) (by simp [hp])
    refine eases_setState ?_ fun _ => hnot
    rintro rfl
    rw [enqueue, if_pos h.closed]
    exact .same hnot
  | close x caller hp =>
    have hnot : ¬ Helps s w (.thread t) := by
      refine h.not_helps ?_ ?_ ?_ <;> intro caller' ht <;> rw [ht] at hp <;>
        exact absurd hp (by simp [Program.closing])
    exact eases_setState (fun hx => hx ▸ .steady ⟨rfl, rfl⟩ hnot) fun _ => hnot
  | resumeDrop x caller hp =>
    have hnot := h.not_helps (t := t) (by simp [hp]) (by simp [hp]) (by simp [hp])
    exact eases_setState (fun hx => hx ▸ .steady ⟨rfl, rfl⟩ hnot) fun _ => hnot
  | finish hp =>
    refine .same ?_
    rcases hp with hp | hp | ⟨_, hp⟩ <;>
      exact h.not_helps (by simp [hp]) (by simp [hp]) (by simp [hp])
  | lockPublication _ hp | publishRefused _ hp | publish _ hp | published _ _ hp | shutdown _ hp
  | removeSubscriber _ hp =>
    exact .same (h.not_helps (by simp [hp]) (by simp [hp]) (by simp [hp]))

omit h in
/-- Of the readers, the coroutines and the callers, only those of `s` itself help. -/
theorem eq_of_helps
    (hq : Helps s w (.coroutine x) ∨ Helps s w (.reader x) ∨ Helps s w (.caller x)) : x = s := by
  unfold Helps at hq
  cases hneed : (w.states s).need <;> rw [hneed] at hq <;> simp_all

omit h in
theorem need_of_helps_coroutine (hq : Helps s w (.coroutine x)) : (w.states s).need = .coroutine := by
  unfold Helps at hq
  cases hneed : (w.states s).need <;> rw [hneed] at hq <;> simp_all

omit h in
/-- The rule for the steps of readers and coroutines. -/
theorem eases_runState {sub : Option Subscriber} {p : Option Process} (hrun : w.runState x sub = some w')
    (hhere : ∀ sub', x = s → sub = some sub' → Eases s p w sub') (hthere : ∀ q, p = some q → Helps s w q → x = s) :
    Eases s p w (w'.states s) := by
  obtain ⟨_, sub', hsub, rfl⟩ := runState_eq_some hrun
  by_cases hx : x = s
  · have hself : (w.setState x sub').states s = sub' := hx ▸ update_self _ _ _
    rw [hself]
    exact hhere sub' hx hsub
  · have hother : (w.setState x sub').states s = w.states s := update_of_ne (Ne.symm hx) _ _
    rw [hother]
    exact .inr (.inr ⟨⟨rfl, rfl⟩, fun q hq hhelps => hx (hthere q hq hhelps)⟩)

/-- Calls of the service leave the reader where it is. -/
theorem eases_call {a : Action} (hstep : Transition w a w') (hprocess : a.process = none) (hreader : a.ofReader = none) :
    Eases s none w (w'.states s) := by
  cases hstep with
  | subscribeRefused | cancelAgain | call => exact .idle ⟨rfl, rfl⟩
  | subscribed =>
    refine .idle ?_
    simp only [update_of_ne (Nat.ne_of_lt h.known)]
    exact ⟨rfl, rfl⟩
  | cancel t x =>
    have hsteady : ∀ y, Steady (w.states y) (update w.states x { w.states x with cancelled := true } y) :=
      (forall_update_iff w.states fun y sub => Steady (w.states y) sub).mpr ⟨⟨rfl, rfl⟩, fun _ _ => ⟨rfl, rfl⟩⟩
    exact .idle (hsteady s)
  | reader _ _ ha => cases hreader.symm.trans ha
  | coroutine | thread => cases hprocess

theorem eases_coroutine (hstep : w.runState x (w.states x).runCoroutine = some w') :
    Eases s (some (.coroutine x)) w (w'.states s) := by
  refine eases_runState hstep ?_ ?_
  · rintro sub' rfl hsub
    refine .inr ((rank_coroutineStep h.inv h.closed (coroutineStep_of_runCoroutine hsub)).imp_right ?_)
    rintro ⟨hsteady, hneed⟩
    refine ⟨hsteady, ?_⟩
    rintro _ ⟨⟩ hq
    exact hneed (need_of_helps_coroutine hq)
  · rintro _ ⟨⟩ hq
    exact eq_of_helps (.inl hq)

/-- Every step brings a reader that only calls `Next` nearer to the end, or was not waited for. -/
theorem eases_step {a : Action} (hstep : TaskSubscriptionService.step w a = some w')
    (hallowed : a ≠ .nextFor s ∧ a ≠ .isLive s) : Eases s a.process w (w'.states s) := by
  cases a with
  | subscribe | publishTaskUpdated | shutdown | cancel => exact h.eases_call (transition_of_step hstep) rfl rfl
  | thread t order => exact h.eases_threadStep (threadStep_of_runThread hstep)
  | coroutine x => exact h.eases_coroutine hstep
  | next x =>
    refine eases_runState hstep ?_ ?_
    · rintro sub' rfl hsub
      exact .inr (.inl (rank_beginNext hsub))
    · rintro _ ⟨⟩ hq
      exact eq_of_helps (.inr (.inr hq))
  | reader x =>
    refine eases_runState hstep ?_ ?_
    · rintro sub' rfl hsub
      exact (rank_runReader h.inv hsub).imp_right .inl
    · rintro _ ⟨⟩ hq
      exact eq_of_helps (.inr (.inl hq))
  | nextFor x =>
    refine eases_runState hstep ?_ nofun
    rintro _ rfl
    exact absurd rfl hallowed.1
  | isLive x =>
    refine eases_runState hstep ?_ nofun
    rintro _ rfl
    exact absurd rfl hallowed.2
  | timeOut x =>
    refine eases_runState hstep ?_ nofun
    rintro sub' rfl hsub
    exact .inr (.inl (rank_timeOut hsub))

omit h in
/-- Only its own sections move a thread that is in a call. -/
theorem threads_of_step {a : Action} (hstep : TaskSubscriptionService.step w a = some w')
    (hbusy : w.threads t ≠ .idle) (hother : a.process ≠ some (.thread t)) : w'.threads t = w.threads t := by
  cases transition_of_step hstep with
  | call a u p hidle | cancel u x hidle =>
    have htu : t ≠ u := by
      rintro rfl
      exact hbusy hidle
    exact update_of_ne htu _ _
  | thread u order hthread =>
    have htu : t ≠ u := by
      rintro rfl
      exact hother rfl
    cases hthread <;> exact update_of_ne htu _ _
  | _ => rfl

/-- Every step brings a reader that only calls `Next` nearer to the end, or leaves its process where it is. -/
theorem rank_step {a : Action} (hstep : TaskSubscriptionService.step w a = some w')
    (hallowed : a ≠ .nextFor s ∧ a ≠ .isLive s) (hq : Helps s w q) :
    (w'.states s).ended ∨ (w'.states s).rank < (w.states s).rank ∨
      ((w'.states s).rank = (w.states s).rank ∧ Helps s w' q ∧ a.process ≠ some q) := by
  refine (h.eases_step hstep hallowed).imp_right (Or.imp_right ?_)
  rintro ⟨⟨hrank, hneed⟩, hnot⟩
  refine ⟨hrank, ?_, fun hprocess => hnot q hprocess hq⟩
  have hhelps := hq
  unfold Helps at hq ⊢
  rw [hneed]
  cases hwho : (w.states s).need with
  | signal =>
    rw [hwho] at hq
    obtain ⟨t, caller, rfl, ht⟩ := hq
    refine ⟨t, caller, rfl, (threads_of_step hstep (by simp [ht]) ?_).trans ht⟩
    exact fun hprocess => hnot _ hprocess hhelps
  | _ =>
    rw [hwho] at hq
    exact hq

theorem step {a : Action} (hstep : TaskSubscriptionService.step w a = some w') : Closing s w' := by
  obtain ⟨hchange, hsound⟩ := change_of_step h.sound hstep
  obtain ⟨hknown, hextends⟩ := hchange.extends h.known
  exact ⟨hsound, h.wakeful.step h.sound hstep, hknown, hextends.closed h.closed⟩

end Closing

/-- The reader keeps calling `Next`, in a run fair to it, its coroutine and the threads. -/
structure KeepsReading (r : service.InfiniteRun) (s n : Nat) : Prop where
  threads : ∀ t, r.Fair Action.process (.thread t)
  coroutine : r.Fair Action.process (.coroutine s)
  reader : r.Fair Action.process (.reader s)
  caller : r.Fair Action.process (.caller s)
  only : ∀ m, n ≤ m → r.label m ≠ .nextFor s ∧ r.label m ≠ .isLive s

/-- A reader that keeps calling `Next` on a closed subscription reaches the end. -/
theorem reader_reaches_end {r : service.InfiniteRun} {s n : Nat} (hclosing : Closing s (r.state n))
    (hreads : KeepsReading r s n) : ∃ m, n ≤ m ∧ ((r.state m).states s).ended := by
  refine Machine.InfiniteRun.leadsTo Action.process (Closing s)
    (fun w => (w.states s).ended) (fun a => a ≠ .nextFor s ∧ a ≠ .isLive s)
    (fun w => (w.states s).rank) (Helps s) ?_ (fun w h _ => h.exists_helps) (fun w q h _ hq => h.enabled hq)
    (fun w a w' q h _ hallowed hq hstep => h.rank_step hstep hallowed hq)
    (Machine.InfiniteRun.always (fun w a w' h hstep => h.step hstep) hclosing) hreads.only
  intro w q hq
  unfold Helps at hq
  cases hneed : (w.states s).need <;> rw [hneed] at hq
  · exact hq ▸ hreads.caller
  · exact hq ▸ hreads.reader
  · exact hq ▸ hreads.coroutine
  · obtain ⟨t, _, rfl, _⟩ := hq
    exact hreads.threads t
  · exact hq ▸ hreads.threads _
  · exact hq ▸ hreads.threads _

end A2A.Server.TaskSubscriptionService
