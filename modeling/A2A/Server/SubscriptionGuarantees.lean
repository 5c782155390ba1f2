/-
# What a subscription promises to its reader.
-/
import A2A.Server.SubscriptionProgress

namespace A2A.Server.TaskSubscriptionService

open A2A.Foundation A2A.Core Machine

/-! ## Every interleaving -/

/-- All that is known of a reachable state. -/
structure ServiceInv (w : World) : Prop where
  sound : Sound w
  delivery : Delivery w
  wakeful : Wakeful w

variable {w w' : World} {ls : List Action} {s : Nat}

theorem serviceInv_of_reachable (h : service.Reachable w) : ServiceInv w := by
  refine h.invariant (I := ServiceInv) ⟨Sound.start, Delivery.start, ?_⟩ ?_
  · intro s hs
    exact absurd hs (Nat.not_lt_zero s)
  · intro w a w' hinv hstep
    exact ⟨(change_of_step hinv.sound hstep).2, hinv.delivery.step hinv.sound hstep,
      hinv.wakeful.step hinv.sound hstep⟩

theorem extends_of_exec (h : Sound w) (hrun : service.exec w ls = some w') (hs : s < w.subscriberCount) :
    s < w'.subscriberCount ∧ Subscriber.Extends (w.states s) (w'.states s) := by
  refine exec_rel (C := fun _ _ => True) (I := Sound)
    (R := fun w w' => ∀ s < w.subscriberCount, s < w'.subscriberCount ∧
      Subscriber.Extends (w.states s) (w'.states s)) ?_ ?_ ?_ ?_ h (meets_true _ _) hrun s hs
  · intro w s hs
    exact ⟨hs, Subscriber.Extends.refl _⟩
  · intro a b c hab hbc s hs
    obtain ⟨hs', h₁⟩ := hab s hs
    obtain ⟨hs'', h₂⟩ := hbc s hs'
    exact ⟨hs'', h₁.trans h₂⟩
  · intro w a w' hsound _ hstep
    exact (change_of_step hsound hstep).2
  · intro w a w' hsound _ hstep s hs
    exact (change_of_step hsound hstep).1.extends hs

/-- The stream of a subscription in one state. -/
structure InOrder (w : World) (s : Nat) : Prop where
  /-- What was handed out is a beginning of the snapshot followed by the accepted updates. -/
  handedOut : (w.states s).delivered <+: (w.states s).snapshot :: (w.states s).accepted
  /-- The accepted updates are those published since the registration, in order. One that is missing
  comes after the close, or is the one whose fan-out is still on its way to this subscriber. -/
  accepted : ∃ rest, w.updatesFor s = (w.states s).accepted ++ rest ∧
    ((w.states s).closed = true ∨ rest = [] ∨
      ∃ f, w.Running f ∧ s ∈ f.subscribers ∧ rest = [f.event])
  /-- Nothing follows a terminal update, and it closes the subscription. -/
  terminalLast : ∀ before e after, (w.states s).accepted = before ++ e :: after →
    isTerminalEvent e = true → after = [] ∧ (w.states s).closed = true

theorem ServiceInv.inOrder (h : ServiceInv w) (hs : s < w.subscriberCount) : InOrder w s := by
  refine ⟨(h.sound.inv s hs).delivered_begins, ?_, (h.sound.inv s hs).flow.terminalLast⟩
  have hserved := h.delivery.served s hs
  cases hclosed : (w.states s).closed with
  | true =>
    obtain ⟨rest, hrest⟩ := hserved.accepted
    exact ⟨rest, hrest.symm, .inl rfl⟩
  | false =>
    by_cases hpending : ∃ event last, w.Awaits s event last
    · obtain ⟨event, last, hawaits⟩ := hpending
      obtain ⟨t, rest, hf, hmem⟩ := id hawaits
      exact ⟨[event], hserved.pending event last hclosed hawaits, .inr (.inr ⟨_, ⟨t, hf⟩, hmem, rfl⟩)⟩
    · refine ⟨[], ?_, .inr (.inl rfl)⟩
      rw [List.append_nil]
      exact (hserved.current hclosed fun event last hawaits => hpending ⟨event, last, hawaits⟩).symm

/-! ## The runs in which nobody resumes for nothing -/

theorem complete_of_reachableMeeting (h : service.ReachableMeeting (fun w a => prompt w a) w) :
    ∀ s < w.subscriberCount, (w.states s).Complete := by
  have hboth : Sound w ∧ ∀ s < w.subscriberCount, (w.states s).Complete := by
    refine h.invariant (I := fun w => Sound w ∧ ∀ s < w.subscriberCount, (w.states s).Complete)
      ⟨Sound.start, fun s hs => absurd hs (Nat.not_lt_zero s)⟩ ?_
    rintro w a w' ⟨hsound, hcomplete⟩ hprompt hstep
    obtain ⟨hchange, hsound'⟩ := change_of_step hsound hstep
    exact ⟨hsound', hchange.complete hprompt hsound hcomplete⟩
  exact hboth.2

/-- The reader has been told the end of the stream, and it has everything. -/
theorem whole_list_of_ended (h : service.ReachableMeeting (fun w a => prompt w a) w)
    (hs : s < w.subscriberCount) (hended : (w.states s).ended) :
    (w.states s).closed ∧ (w.states s).delivered = (w.states s).snapshot :: (w.states s).accepted :=
  (complete_of_reachableMeeting h s hs).delivered_of_ended
    ((serviceInv_of_reachable h.reachable).sound.inv s hs) hended

/-- A reader that keeps calling `Next` gets the whole list, and then nothing. -/
theorem keeps_reading_whole_list {r : service.InfiniteRun} {n : Nat}
    (h : service.ReachableMeeting (fun w a => prompt w a) (r.state n))
    (hprompt : ∀ m, n ≤ m → prompt (r.state m) (r.label m)) (hs : s < (r.state n).subscriberCount)
    (hclosed : ((r.state n).states s).closed) (hreads : KeepsReading r s n) :
    ∃ m, n ≤ m ∧ ((r.state m).states s).ended ∧ ∀ k, m ≤ k → ((r.state k).states s).delivered =
        ((r.state n).states s).snapshot :: ((r.state n).states s).accepted := by
  have hinv := serviceInv_of_reachable h.reachable
  obtain ⟨m, hm, hended⟩ := reader_reaches_end ⟨hinv.sound, hinv.wakeful, hs, hclosed⟩ hreads
  refine ⟨m, hm, hended, ?_⟩
  intro k hk
  have hlater := Machine.InfiniteRun.reachableMeeting h hprompt
  -- The subscriber at `n`, at `m` and at `k` is one subscriber that has been closed all the time.
  obtain ⟨d, rfl⟩ := Nat.exists_eq_add_of_le hm
  obtain ⟨e, rfl⟩ := Nat.exists_eq_add_of_le hk
  obtain ⟨hsm, hnm⟩ := extends_of_exec hinv.sound (r.exec_from n d) hs
  obtain ⟨hsk, hmk⟩ := extends_of_exec
    (serviceInv_of_reachable (hlater (n + d) hm).reachable).sound (r.exec_from (n + d) e) hsm
  have hnk := hnm.trans hmk
  have hwhole := (whole_list_of_ended (hlater (n + d + e) (Nat.le_trans hm hk)) hsk (hmk.ended hended)).2
  rw [hwhole, Subscriber.snapshot, hnk.currentTask, hnk.accepted hclosed]
  rfl

/-- The stream of a session: in order and without gaps in every interleaving, whole at the end in
every prompt one. -/
theorem session_hands_out_publications_in_order {w : World} (h : service.Reachable w) {s : Nat}
    (hs : s < w.subscriberCount) :
    InOrder w s ∧
    (service.ReachableMeeting (fun w a => prompt w a = true) w →
      ((w.states s).ended = true → (w.states s).closed = true ∧
        (w.states s).delivered = (w.states s).snapshot :: (w.states s).accepted) ∧
      ∀ (r : service.InfiniteRun) (n : Nat), r.state n = w → (w.states s).closed = true →
        KeepsReading r s n → (∀ m, n ≤ m → prompt (r.state m) (r.label m) = true) →
        ∃ m, n ≤ m ∧ ((r.state m).states s).ended = true ∧ ∀ k, m ≤ k →
          ((r.state k).states s).delivered = (w.states s).snapshot :: (w.states s).accepted) := by
  refine ⟨(serviceInv_of_reachable h).inOrder hs, ?_⟩
  intro hmeeting
  refine ⟨whole_list_of_ended hmeeting hs, ?_⟩
  rintro r n rfl hclosed hreads hprompt
  exact keeps_reading_whole_list hmeeting hprompt hs hclosed hreads

/-- The counter of a session, its `closed` flag, and what it means that `IsLive` gives up. -/
theorem pending_count_and_final_isLive {w : World} (h : service.Reachable w) {s : Nat} (hs : s < w.subscriberCount) :
    (w.states s).pendingDeliveryCount = ((w.states s).events.countP StreamResponse.hasStatusUpdate +
        ((w.states s).inReader ++ (w.states s).currentValue.toList ++
          (w.states s).point.inHand (w.states s).snapshot).countP StreamResponse.hasStatusUpdate : Nat) ∧
    0 ≤ (w.states s).pendingDeliveryCount ∧
    (∀ ls w', service.exec w ls = some w' → (w.states s).closed = true → (w'.states s).closed = true) ∧
    (service.ReachableMeeting (fun w a => prompt w a = true) w → (w.states s).reportedDead = true →
      (w.states s).delivered = (w.states s).snapshot :: (w.states s).accepted) := by
  have hsound := (serviceInv_of_reachable h).sound
  have hcount := (hsound.inv s hs).flow.count
  refine ⟨?_, ?_, ?_, ?_⟩
  · rw [hcount, Subscriber.pipeline, List.countP_append, Nat.add_comm]
  · omega
  · intro ls w' hrun hclosed
    exact (extends_of_exec hsound hrun hs).2.closed hclosed
  · intro hmeeting hdead
    exact ((complete_of_reachableMeeting hmeeting s hs).dead hdead).2

/-! ## A signal that comes too late -/

theorem done_stays_of_exec (h : Sound w) (hrun : service.exec w ls = some w') (hs : s < w.subscriberCount)
    (hdone : (w.states s).done) : (w'.states s).delivered = (w.states s).delivered := by
  have hfinal := exec_invariant (M := service) (C := fun _ _ => True)
    (I := fun v => Sound v ∧ s < v.subscriberCount ∧ (v.states s).done ∧
      (v.states s).delivered = (w.states s).delivered) ?_ ⟨h, hs, hdone, rfl⟩
    (meets_true _ _) hrun
  · exact hfinal.2.2.2
  · rintro v a v' ⟨hsound, hsv, hdonev, hsame⟩ _ hstep
    obtain ⟨hchange, hsound'⟩ := change_of_step hsound hstep
    obtain ⟨hsv', hequal | hop⟩ := hchange.subscriber hsv
    · rw [hequal]
      exact ⟨hsound', hsv', hdonev, hsame⟩
    · obtain ⟨hdone', hdelivered⟩ := hop.done_stays (hsound.inv s hsv) hdonev
      exact ⟨hsound', hsv', hdone', hdelivered.trans hsame⟩

namespace Runs

def task (state : TaskState) : Task := { id := "t", status := some { state } }

def readSnapshot : List Action :=
  [.subscribe (task .working), .next 0, .reader 0, .coroutine 0, .reader 0, .reader 0, .reader 0]

/-- A thread publishes an update, up to the signal. -/
def publishUpTo (state : TaskState) : List Action :=
  [.publishTaskUpdated 1 (task state), .thread 1 [], .thread 1 [], .thread 1 []]

def readUpdate : List Action :=
  [.next 0, .reader 0, .coroutine 0, .coroutine 0, .coroutine 0, .reader 0, .reader 0, .reader 0]

/-- The reader takes an update before its publisher signals; its next call is resumed by that signal, finds nothing, and
the coroutine ends before the terminal update. -/
def lateSignal : List Action :=
  readSnapshot ++ publishUpTo .working ++ readUpdate ++
    [.next 0, .reader 0, .coroutine 0, .coroutine 0, .reader 0] ++
    [.thread 1 [], .thread 1 [], .coroutine 0, .coroutine 0, .thread 1 [], .thread 1 [], .thread 1 []] ++
    [.reader 0] ++ publishUpTo .completed ++ [.thread 1 [], .thread 1 []]

/-- The same updates; the reader calls after the publisher is done. -/
def promptSignal : List Action :=
  readSnapshot ++ publishUpTo .working ++ [.thread 1 [], .thread 1 []] ++ readUpdate ++
    publishUpTo .completed ++ [.thread 1 [], .thread 1 []] ++ readUpdate ++
    [.nextFor 0, .reader 0, .coroutine 0, .reader 0, .reader 0]

end Runs

theorem session_of_prompt_run : ∃ w : World, 0 < w.subscriberCount ∧ InOrder w 0 ∧ (w.states 0).delivered.length = 3 ∧
    (w.states 0).delivered = (w.states 0).snapshot :: (w.states 0).accepted := by
  obtain ⟨w, hw, hp⟩ := reachableMeeting_of_execIf (M := service) (c := prompt)
    (p := fun w => decide (0 < w.subscriberCount) && (w.states 0).ended &&
      decide ((w.states 0).delivered.length = 3)) Runs.promptSignal (by decide)
  simp only [Bool.and_eq_true, decide_eq_true_eq] at hp
  obtain ⟨horder, hprompt⟩ := session_hands_out_publications_in_order hw.reachable hp.1.1
  exact ⟨w, hp.1.1, horder, hp.2, ((hprompt hw).1 hp.1.2).2⟩

/-- Two updates are accepted before the close, and only the first of them is ever handed out. -/
theorem accepted_update_never_handed_out : ∃ w, service.Reachable w ∧ 0 < w.subscriberCount ∧
    (w.states 0).cancelled = false ∧ (w.states 0).closed = true ∧ (w.states 0).ended = true ∧
    (w.states 0).delivered ≠ (w.states 0).snapshot :: (w.states 0).accepted ∧
    ∀ ls w', service.exec w ls = some w' → (w'.states 0).delivered = (w.states 0).delivered := by
  obtain ⟨w, hw, hp⟩ := reachable_of_exec (M := service)
    (p := fun w => decide (0 < w.subscriberCount) && !(w.states 0).cancelled && (w.states 0).closed &&
      (w.states 0).ended && (w.states 0).done &&
      decide ((w.states 0).delivered.length ≠ (w.states 0).accepted.length + 1))
    Runs.lateSignal (by decide)
  simp only [Bool.and_eq_true, Bool.not_eq_true', decide_eq_true_eq] at hp
  obtain ⟨⟨⟨⟨⟨hcount, hcancelled⟩, hclosed⟩, hended⟩, hdone⟩, hlength⟩ := hp
  refine ⟨w, hw, hcount, hcancelled, hclosed, hended, ?_, ?_⟩
  · intro hequal
    exact hlength (by rw [hequal, List.length_cons])
  · intro ls w' hrun
    exact done_stays_of_exec (serviceInv_of_reachable hw).sound hrun hcount hdone

theorem isLive_of_prompt_run : ∃ w : World, 0 < w.subscriberCount ∧ (w.states 0).reportedDead = true ∧
    0 ≤ (w.states 0).pendingDeliveryCount ∧
    (w.states 0).delivered = (w.states 0).snapshot :: (w.states 0).accepted := by
  obtain ⟨w, hw, hp⟩ := reachableMeeting_of_execIf (M := service) (c := prompt)
    (p := fun w => decide (0 < w.subscriberCount) && (w.states 0).reportedDead)
    (Runs.promptSignal ++ [.isLive 0]) (by decide)
  simp only [Bool.and_eq_true, decide_eq_true_eq] at hp
  obtain ⟨_, hnonneg, _, hdead⟩ := pending_count_and_final_isLive hw.reachable hp.1
  exact ⟨w, hp.1, hp.2, hnonneg, hdead hw hp.2⟩

/-- `NextFor` returns no event and `IsLive` returns false, with an accepted update in the queue. -/
theorem isLive_false_with_update_queued : ∃ w, service.Reachable w ∧ 0 < w.subscriberCount ∧
    (w.states 0).cancelled = false ∧ (w.states 0).reportedDead = true ∧
    (w.states 0).events ≠ [] ∧
    (w.states 0).delivered ≠ (w.states 0).snapshot :: (w.states 0).accepted := by
  obtain ⟨w, hw, hp⟩ := reachable_of_exec (M := service)
    (p := fun w => decide (0 < w.subscriberCount) && !(w.states 0).cancelled &&
      (w.states 0).reportedDead && !(w.states 0).events.isEmpty &&
      decide ((w.states 0).delivered.length ≠ (w.states 0).accepted.length + 1))
    (Runs.lateSignal ++ [.nextFor 0, .reader 0, .isLive 0]) (by decide)
  simp only [Bool.and_eq_true, Bool.not_eq_true', decide_eq_true_eq] at hp
  obtain ⟨⟨⟨⟨hcount, hcancelled⟩, hdead⟩, hevents⟩, hlength⟩ := hp
  refine ⟨w, hw, hcount, hcancelled, hdead, ?_, ?_⟩
  · intro hnil
    exact absurd hevents (by simp [hnil])
  · intro hequal
    exact hlength (by rw [hequal, List.length_cons])

end A2A.Server.TaskSubscriptionService
