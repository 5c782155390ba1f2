/-
# The callbacks of many streams on one pool of threads (`http_client_streaming.cpp`).
-/
import A2A.Foundation.Machine
import A2A.Foundation.Tally
import Mathlib.Algebra.Ring.Nat

namespace A2A.Http

open A2A.Foundation Function List

def kMaximumPendingDispatchTasks : Nat := 256
def kMaximumPendingDispatchBytes : Nat := 4 * 1024 * 1024

/-- A task and the bytes it accounts for. -/
structure QueuedTask (α : Type) where
  task : α
  pendingBytes : Nat := 0

structure SerialStreamDispatch (α : Type) where
  tasks : List (QueuedTask α) := []
  pendingBytes : Nat := 0
  scheduled : Bool := false

namespace SerialStreamDispatch

variable {K α : Type}

/-- `Enqueue`, under the lock; nothing if the backlog is full. -/
def enqueue (d : SerialStreamDispatch α) (task : QueuedTask α) (terminal : Bool) : Option (SerialStreamDispatch α) :=
  let bounded := if task.pendingBytes < kMaximumPendingDispatchBytes then task.pendingBytes
    else kMaximumPendingDispatchBytes
  if !terminal && (kMaximumPendingDispatchTasks ≤ d.tasks.length ||
      kMaximumPendingDispatchBytes - bounded < d.pendingBytes) then none
  else some ⟨d.tasks ++ [task], d.pendingBytes + task.pendingBytes, true⟩

/-- `Drain`, under the lock. -/
def pop (d : SerialStreamDispatch α) : Option (QueuedTask α) × SerialStreamDispatch α :=
  match d.tasks with
  | [] => (none, { d with scheduled := false })
  | task :: tasks => (some task, { d with tasks, pendingBytes := d.pendingBytes - task.pendingBytes })

/-- What one stream has accepted and begun, and how many calls of `Drain` it has on the way. -/
structure Serial (d : SerialStreamDispatch α) (accepted begun : List (QueuedTask α)) (drains : Nat) : Prop where
  one : drains = if d.scheduled then 1 else 0
  empty : d.scheduled = false → d.tasks = []
  order : begun ++ d.tasks = accepted
  bytes : d.pendingBytes = (d.tasks.map QueuedTask.pendingBytes).sum

variable {d d' : SerialStreamDispatch α} {accepted begun : List (QueuedTask α)} {drains : Nat} {task : QueuedTask α}

/-- `Enqueue` has a `Drain` submitted if none is on the way. -/
theorem Serial.enqueue (h : Serial d accepted begun drains) {terminal : Bool} (hd : d.enqueue task terminal = some d') :
    Serial d' (accepted ++ [task]) begun (drains + if d.scheduled then 0 else 1) := by
  obtain ⟨hone, hempty, horder, hbytes⟩ := h
  have hd' : d' = ⟨d.tasks ++ [task], d.pendingBytes + task.pendingBytes, true⟩ := by
    unfold SerialStreamDispatch.enqueue at hd
    generalize (if task.pendingBytes < _ then task.pendingBytes else _) = bounded at hd
    exact (Option.some.inj (Option.ite_none_left_eq_some.mp hd).2).symm
  subst hd'
  refine ⟨?_, (fun hnot => by cases hnot), ?_, ?_⟩
  · rw [hone]
    cases d.scheduled <;> rfl
  · rw [← horder, append_assoc]
  · simp [hbytes]

/-- A `Drain` that finds a task goes on, one that finds none is over. -/
theorem Serial.pop (h : Serial d accepted begun (drains + 1)) {found : Option (QueuedTask α)} (hd : d.pop = (found, d')) :
    Serial d' accepted (begun ++ found.toList) (drains + found.toList.length) := by
  obtain ⟨hone, hempty, horder, hbytes⟩ := h
  have hscheduled : d.scheduled = true := by
    cases hd : d.scheduled with
    | true => rfl
    | false => rw [hd] at hone; cases hone
  rw [hscheduled] at hone
  unfold SerialStreamDispatch.pop at hd
  split at hd <;> cases hd
  next htasks =>
    refine ⟨Nat.succ.inj hone, fun _ => htasks, ?_, hbytes⟩
    rw [← horder]
    exact congrArg (· ++ _) (append_nil begun)
  next task tasks htasks =>
    refine ⟨?_, fun hnot => ?_, ?_, ?_⟩
    · rw [hscheduled]
      exact hone
    · cases hscheduled.symm.trans hnot
    · rw [← horder, htasks]
      exact append_assoc begun [task] tasks
    · rw [hbytes, htasks, map_cons, sum_cons, Nat.add_sub_cancel_left]

/-! ## The executor -/

/-- The streams, the calls of `Drain` that are on their way to the lock, and those that are in a callback. -/
structure Executor (K α : Type) where
  streams : K → SerialStreamDispatch α
  drains : List K
  running : List K
  accepted : K → List (QueuedTask α)
  begun : K → List (QueuedTask α)

inductive Label (K α : Type) where
  | enqueue (k : K) (task : QueuedTask α) (terminal : Bool)
  | drain (k : K)
  | finish (k : K)

variable [DecidableEq K]

/-- One step; a drain begins the next task, whose end asks for the next drain. -/
def step (s : Executor K α) : Label K α → Option (Executor K α)
  | .enqueue k task terminal =>
    match (s.streams k).enqueue task terminal with
    | none => some s
    | some d => some { s with
        streams := update s.streams k d
        drains := if (s.streams k).scheduled then s.drains else k :: s.drains
        accepted := update s.accepted k (s.accepted k ++ [task]) }
  | .drain k =>
    if k ∈ s.drains then
      let (found, d) := (s.streams k).pop
      some { s with
        streams := update s.streams k d
        drains := s.drains.erase k
        running := if found.isSome then k :: s.running else s.running
        begun := update s.begun k (s.begun k ++ found.toList) }
    else none
  | .finish k =>
    if k ∈ s.running then some { s with drains := k :: s.drains, running := s.running.erase k } else none

/-- Threads that enqueue callbacks of streams, and threads that run them. -/
def executor (K α : Type) [DecidableEq K] : Machine (Executor K α) (Label K α) where
  start := ⟨fun _ => {}, [], [], fun _ => [], fun _ => []⟩
  step := step

variable {s s' t : Executor K α} {j k : K}

/-- The calls of `Drain` that a stream has on the way. -/
def drainsOf (s : Executor K α) (k : K) : Nat := s.drains.count k + s.running.count k

def AllSerial (s : Executor K α) : Prop := ∀ k, Serial (s.streams k) (s.accepted k) (s.begun k) (drainsOf s k)

/-- Each step keeps the queue of every stream serial. -/
theorem AllSerial.step (h : AllSerial s) {l : Label K α} (hstep : step s l = some s') : AllSerial s' := by
  intro j
  have hj := h j
  cases l with
  | enqueue k task terminal =>
    simp only [SerialStreamDispatch.step] at hstep
    split at hstep <;> obtain rfl := Option.some.inj hstep
    next => exact hj
    next d hd =>
      by_cases heq : j = k
      · subst heq
        -- `schedule` is computed under the lock: a `Drain` is submitted if none was on the way
        have hserial := hj.enqueue hd
        simp only [update_self, drainsOf] at hserial ⊢
        split_ifs at hserial ⊢
        · exact hserial
        · rwa [count_cons_self, Nat.add_right_comm]
      · simp only [update_of_ne heq, drainsOf] at hj ⊢
        split_ifs
        · exact hj
        · rwa [count_cons_of_ne (Ne.symm heq)]
  | drain k =>
    rcases hpop : (s.streams k).pop with ⟨found, d⟩
    simp only [SerialStreamDispatch.step, hpop] at hstep
    obtain ⟨hk, hs'⟩ := Option.ite_none_right_eq_some.mp hstep
    obtain rfl := Option.some.inj hs'
    by_cases heq : j = k
    · subst heq
      have hcount : drainsOf s j = (s.drains.erase j).count j + s.running.count j + 1 := by
        have hpos := count_pos_iff.mpr hk
        rw [drainsOf, count_erase_self]
        omega
      rw [hcount] at hj
      -- the `Drain` goes from the lock into a callback, or it ends
      have hserial := hj.pop hpop
      simp only [update_self, drainsOf]
      cases found with
      | none => exact hserial
      | some task => rwa [Option.isSome_some, if_pos rfl, count_cons_self]
    · simp only [update_of_ne heq, drainsOf] at hj ⊢
      rw [count_erase_of_ne heq]
      split_ifs
      · rwa [count_cons_of_ne (Ne.symm heq)]
      · exact hj
  | finish k =>
    simp only [SerialStreamDispatch.step] at hstep
    split_ifs at hstep with hk
    obtain rfl := Option.some.inj hstep
    have hcount : drainsOf { s with drains := k :: s.drains, running := s.running.erase k } j = drainsOf s j := by
      have hpos := count_pos_iff.mpr hk
      simp only [drainsOf, count_cons, count_erase, beq_iff_eq]
      split_ifs with heq
      · subst heq
        omega
      · rfl
    rwa [← hcount] at hj

theorem allSerial_of_reachable (h : (executor K α).Reachable s) : AllSerial s :=
  h.invariant (fun _ => ⟨rfl, fun _ => rfl, rfl, rfl⟩) fun _ _ _ hI hstep => hI.step hstep

/-- In every interleaving the callbacks of a stream run one at a time, each once and in the order in which `Enqueue` took
them. Those that have not begun are `pending_bytes_` long, and if there are any, one `Drain` is on the way. -/
theorem callbacks_run_in_order_one_at_a_time (h : (executor K α).Reachable s) (k : K) :
    s.begun k ++ (s.streams k).tasks = s.accepted k ∧
    (s.streams k).pendingBytes = ((s.streams k).tasks.map QueuedTask.pendingBytes).sum ∧
    s.running.count k ≤ 1 ∧ ((s.streams k).tasks ≠ [] → drainsOf s k = 1) := by
  obtain ⟨hone, hempty, horder, hbytes⟩ := allSerial_of_reachable h k
  refine ⟨horder, hbytes, ?_, fun hne => ?_⟩
  · unfold drainsOf at hone
    split_ifs at hone <;> omega
  · cases hscheduled : (s.streams k).scheduled with
    | true => rwa [hscheduled] at hone
    | false => exact absurd (hempty hscheduled) hne

/-- A second chunk is enqueued while the callback of the first one runs. -/
def twoChunks : List (Label Unit Nat) :=
  [.enqueue () ⟨1, 3⟩ false, .drain (), .enqueue () ⟨2, 5⟩ false, .finish ()]

theorem twoChunks_in_order : ∃ s, (executor Unit Nat).exec (executor Unit Nat).start twoChunks = some s ∧
    s.begun () = [⟨1, 3⟩] ∧ s.begun () ++ (s.streams ()).tasks = s.accepted () :=
  ⟨_, rfl, rfl, (callbacks_run_in_order_one_at_a_time ⟨twoChunks, rfl⟩ ()).1⟩

/-! ## No callback is stranded -/

/-- The label is a call of `Enqueue`. -/
def Label.enqueues : Label K α → Bool
  | .enqueue .. => true
  | _ => false

/-- How many steps the executor has to make for the callbacks that are there. -/
def backlog [Fintype K] (s : Executor K α) : Nat :=
  -- a queued callback is popped and finished, and then `Drain` comes to the lock again
  2 * tally (fun d => d.tasks.length) s.streams + s.drains.length + 2 * s.running.length

/-- Each step of the executor works off some of the backlog. -/
theorem backlog_step [Fintype K] {l : Label K α} (hl : l.enqueues = false) (hstep : step s l = some s') :
    backlog s' < backlog s ∧ s'.accepted = s.accepted := by
  cases l with
  | enqueue => cases hl
  | drain k =>
    simp only [step] at hstep
    obtain ⟨hk, hs'⟩ := Option.ite_none_right_eq_some.mp hstep
    obtain rfl := Option.some.inj hs'
    refine ⟨?_, rfl⟩
    have hlength := length_erase_add_one hk
    have hstreams := tally_update (fun d => d.tasks.length) s.streams k (s.streams k).pop.2
    cases htasks : (s.streams k).tasks with
    | nil =>
      simp only [pop, htasks, backlog] at hstreams ⊢
      simp at hstreams ⊢
      omega
    | cons task tasks =>
      simp only [pop, htasks, backlog, length_cons, Option.isSome_some, if_true] at hstreams ⊢
      omega
  | finish k =>
    simp only [step] at hstep
    split_ifs at hstep with hk
    obtain rfl := Option.some.inj hstep
    refine ⟨?_, rfl⟩
    have hlength := length_erase_add_one hk
    simp only [backlog, length_cons]
    omega

theorem backlog_exec [Fintype K] {ls : List (Label K α)} (hls : ∀ l ∈ ls, l.enqueues = false)
    (hexec : (executor K α).exec s ls = some t) : ls.length + backlog t ≤ backlog s ∧ t.accepted = s.accepted := by
  induction ls generalizing s with
  | nil =>
    obtain rfl := Option.some.inj hexec
    exact ⟨by simp, rfl⟩
  | cons l ls ih =>
    obtain ⟨s', hstep, hexec⟩ := Machine.exec_cons.mp hexec
    obtain ⟨hl, hls⟩ := forall_mem_cons.mp hls
    obtain ⟨hless, haccepted⟩ := backlog_step hl hstep
    obtain ⟨hle, haccepted'⟩ := ih hls hexec
    exact ⟨by rw [length_cons]; omega, haccepted'.trans haccepted⟩

/-- Whatever the executor runs in which order, it is done after as many steps as the backlog says, and then every callback
that `Enqueue` took has been begun. -/
theorem every_accepted_callback_is_begun [Fintype K] (h : (executor K α).Reachable s) {ls : List (Label K α)}
    (hls : ∀ l ∈ ls, l.enqueues = false) (hexec : (executor K α).exec s ls = some t) :
    ls.length ≤ backlog s ∧
    ((∀ l : Label K α, l.enqueues = false → (executor K α).step t l = none) → ∀ k, t.begun k = s.accepted k) := by
  obtain ⟨hlength, haccepted⟩ := backlog_exec hls hexec
  refine ⟨by omega, fun hquiet k => ?_⟩
  have hdrains : k ∉ t.drains := fun hk => by simpa [executor, step, hk] using hquiet (.drain k) rfl
  have hrunning : k ∉ t.running := fun hk => by simpa [executor, step, hk] using hquiet (.finish k) rfl
  obtain ⟨hone, hempty, horder, -⟩ := allSerial_of_reachable (h.exec hexec) k
  rw [drainsOf, count_eq_zero_of_not_mem hdrains, count_eq_zero_of_not_mem hrunning] at hone
  cases hscheduled : (t.streams k).scheduled with
  | true => simp [hscheduled] at hone
  | false =>
    -- no `Drain` is on the way, so nothing is queued
    rwa [hempty hscheduled, append_nil, haccepted] at horder

theorem twoChunks_begun : ∃ s t, (executor Unit Nat).exec (executor Unit Nat).start twoChunks = some s ∧
    (executor Unit Nat).exec s [.drain (), .finish (), .drain ()] = some t ∧ 3 ≤ backlog s ∧
    t.begun () = [⟨1, 3⟩, ⟨2, 5⟩] ∧ t.begun () = s.accepted () := by
  obtain ⟨s, t, hs, ht, hbegun, hquiet⟩ : ∃ s t,
      (executor Unit Nat).exec (executor Unit Nat).start twoChunks = some s ∧
      (executor Unit Nat).exec s [.drain (), .finish (), .drain ()] = some t ∧ t.begun () = [⟨1, 3⟩, ⟨2, 5⟩] ∧
      ∀ l : Label Unit Nat, l.enqueues = false → (executor Unit Nat).step t l = none := by
    refine ⟨_, _, rfl, rfl, rfl, fun l hl => ?_⟩
    cases l with
    | enqueue k task terminal => cases hl
    | drain k => rfl
    | finish k => rfl
  obtain ⟨hlength, hall⟩ := every_accepted_callback_is_begun ⟨twoChunks, hs⟩ (by decide) ht
  exact ⟨s, t, hs, ht, hlength, hbegun, hall hquiet ()⟩

end SerialStreamDispatch

end A2A.Http
