/-
# Connections that threads lease (`postgres_common.cpp`).
-/
import A2A.Foundation.Machine
import A2A.Foundation.Tally
import Mathlib.Data.Fintype.Basic

namespace A2A.Server.Stores

open A2A.Foundation Function List

/-- A `PGconn`: `PQstatus` is `CONNECTION_OK`, and the server has a transaction open on it. -/
structure PgConnection where
  ok : Bool := true
  inTransaction : Bool := false
  deriving DecidableEq

namespace PgConnection

/-- A connection that can be used as it is has no transaction open. -/
def Clean (c : PgConnection) : Prop := c.ok → c.inTransaction = false

/-- What a statement leaves behind; a connection that is broken stays so. -/
def after (c : PgConnection) (alive inTransaction : Bool) : PgConnection :=
  ⟨c.ok && alive, inTransaction⟩

end PgConnection

/-- Where a thread is in a call of a store. -/
inductive PoolCaller where
  | outside
  | waiting (notified : Bool)
  | acquired (connection : PgConnection)
  | leased (connection : PgConnection)
  | transaction (connection : PgConnection) (committed : Bool)
  | returning (connection : PgConnection)
  deriving DecidableEq

namespace PoolCaller

/-- The connection that the thread owns. -/
def connection : PoolCaller → Option PgConnection
  | .outside | .waiting _ => none
  | .acquired c | .leased c | .transaction c _ | .returning c => some c

/-- What the thread owns is clean, unless a `Transaction` of its own is going to clean it. -/
def Settled : PoolCaller → Prop
  | .transaction _ false => True
  | caller => ∀ c ∈ caller.connection, c.Clean

theorem settled_of_free {caller : PoolCaller} (h : caller.connection = none) : caller.Settled := by
  cases caller with
  | outside | waiting => exact fun _ hc => by cases hc
  | acquired | leased | transaction | returning => cases h

/-- What a thread does with a connection that it has leased, and in what state the server leaves it. -/
inductive Use where
  | statement (alive : Bool)
  | begin (alive inTransaction : Bool)
  | execute (alive inTransaction : Bool)
  | commit (succeeded alive inTransaction : Bool)
  | endTransaction (alive inTransaction : Bool)
  | release

/-- What the server is trusted with: a `COMMIT` that succeeds has ended the transaction, and so has a
`ROLLBACK` that leaves the connection alive. -/
def Use.EndsTransaction : Use → Prop
  | .commit succeeded _ inTransaction => succeeded → inTransaction = false
  | .endTransaction alive inTransaction => alive → inTransaction = false
  | _ => True

/-- A statement, the destructor of a `Transaction` or the end of a lease. -/
def use : Use → PoolCaller → Option PoolCaller
  | .statement alive, .leased c => some (.leased (c.after alive c.inTransaction))
  | .begin alive inTransaction, .leased c => some (.transaction (c.after alive inTransaction) false)
  | .execute alive inTransaction, .transaction c false =>
    some (.transaction (c.after alive inTransaction) false)
  | .commit succeeded alive inTransaction, .transaction c false =>
    some (.transaction (c.after alive inTransaction) succeeded)
  | .endTransaction alive inTransaction, .transaction c committed =>
    some (.returning (if committed then c else c.after alive inTransaction))
  | .release, .leased c => some (.returning c)
  | _, _ => none

theorem connection_use {u : Use} {caller caller' : PoolCaller} (h : use u caller = some caller') :
    caller.connection.isSome ∧ caller'.connection.isSome := by
  unfold use at h
  split at h <;> cases h <;> exact ⟨rfl, rfl⟩

/-- A thread that uses its connection leaves it clean. -/
theorem Settled.use {u : Use} {caller caller' : PoolCaller} (hsettled : caller.Settled)
    (hends : u.EndsTransaction) (h : PoolCaller.use u caller = some caller') : caller'.Settled := by
  unfold PoolCaller.use at h
  split at h <;> cases h
  next alive c =>
    rintro d ⟨⟩ hok
    exact hsettled c rfl (Bool.and_elim_left hok)
  next => trivial
  next => trivial
  next succeeded alive inTransaction c =>
    cases succeeded with
    | false => trivial
    | true =>
      rintro d ⟨⟩ _
      exact hends rfl
  next alive inTransaction c committed =>
    -- `~Transaction`: only an uncommitted one is rolled back
    rintro d ⟨⟩
    cases committed with
    | false => exact fun hok => hends (Bool.and_elim_right hok)
    | true => exact hsettled c rfl
  next c => exact hsettled

/-- Whether the thread owns a connection, as a number. -/
def owns (caller : PoolCaller) : Nat := if caller.connection.isSome then 1 else 0

/-- The thread waits and has not been notified. -/
def asleep (caller : PoolCaller) : Nat := if caller = .waiting false then 1 else 0

/-- The thread waits and has been notified. -/
def notified (caller : PoolCaller) : Nat := if caller = .waiting true then 1 else 0

/-- A thread that owns a connection does not wait. -/
theorem counts_of_owner {caller : PoolCaller} (h : caller.connection.isSome) :
    caller.owns = 1 ∧ caller.asleep = 0 ∧ caller.notified = 0 := by
  cases caller with
  | outside | waiting => cases h
  | acquired | leased | transaction | returning => exact ⟨rfl, rfl, rfl⟩

end PoolCaller

open PoolCaller

/-- The pool and the threads that use it. -/
structure PostgresConnectionPool (T : Type) where
  connections : List PgConnection
  callers : T → PoolCaller

namespace PostgresConnectionPool

/-- How `OpenConnection` and the check of the identity of what it opened ended. -/
inductive Reopened where
  | failed
  | mismatched
  | ok

/-- The steps of a thread. -/
inductive Label (T : Type) where
  | acquire (t : T)
  | wake (t : T)
  | lease (t : T) (reopened : Reopened)
  | use (t : T) (use : Use)
  | giveBack (t : T) (woken : Option T)

/-- `Acquire`, behind the lock; `giveBack` follows where it fails. -/
def lease (c : PgConnection) (reopened : Reopened) : PoolCaller :=
  if c.ok then .leased c
  else
    match reopened with
    | .failed | .mismatched => .returning c
    | .ok => .leased {}

variable {T : Type} [DecidableEq T]

/-- The predicate of `condition_.wait`, and what follows it under the same lock. -/
def take (s : PostgresConnectionPool T) (t : T) : PostgresConnectionPool T :=
  match s.connections with
  | [] => { s with callers := update s.callers t (.waiting false) }
  | c :: connections => ⟨connections, update s.callers t (.acquired c)⟩

variable [Fintype T]

/-- One step; `notify_one` in `Return` wakes one thread that is asleep, if there is one. -/
def step (s : PostgresConnectionPool T) : Label T → Option (PostgresConnectionPool T)
  | .acquire t => if s.callers t = .outside then some (s.take t) else none
  | .wake t =>
    if s.callers t = .waiting true ∨ s.callers t = .waiting false then some (s.take t) else none
  | .lease t reopened =>
    match s.callers t with
    | .acquired c => some { s with callers := update s.callers t (lease c reopened) }
    | _ => none
  | .use t u =>
    (PoolCaller.use u (s.callers t)).map fun caller => { s with callers := update s.callers t caller }
  | .giveBack t woken =>
    match s.callers t, woken with
    | .returning c, none =>
      if ∀ u, s.callers u ≠ .waiting false then
        some ⟨c :: s.connections, update s.callers t .outside⟩
      else none
    | .returning c, some u =>
      if s.callers u = .waiting false then
        some ⟨c :: s.connections, update (update s.callers t .outside) u (.waiting true)⟩
      else none
    | _, _ => none

/-- Threads that use a pool that was made with so many connections. -/
def pool (T : Type) [DecidableEq T] [Fintype T] (size : Nat) :
    Machine (PostgresConnectionPool T) (Label T) where
  start := ⟨List.replicate size {}, fun _ => .outside⟩
  step := step

/-! ## What the locks keep -/

variable {s s' : PostgresConnectionPool T} {t : T} {size : Nat}

/-- No connection is lost, and while a thread is asleep there is a notified one for every idle
connection. -/
structure Sound (size : Nat) (s : PostgresConnectionPool T) : Prop where
  conserved : s.connections.length + tally owns s.callers = size
  awake : 0 < tally asleep s.callers → s.connections.length ≤ tally notified s.callers

/-- A thread goes on with a connection. -/
theorem Sound.go (h : Sound size s) {caller : PoolCaller} (hbefore : (s.callers t).connection.isSome)
    (hafter : caller.connection.isSome) :
    Sound size { s with callers := update s.callers t caller } := by
  obtain ⟨howns, hasleep, hnotified⟩ := counts_of_owner hbefore
  obtain ⟨howns', hasleep', hnotified'⟩ := counts_of_owner hafter
  constructor
  · rw [tally_update_of_eq (howns'.trans howns.symm)]
    exact h.conserved
  · rw [tally_update_of_eq (hasleep'.trans hasleep.symm),
      tally_update_of_eq (hnotified'.trans hnotified.symm)]
    exact h.awake

/-- A thread that owns nothing may take a connection. -/
theorem Sound.take (h : Sound size s) (hfree : (s.callers t).owns = 0) : Sound size (s.take t) := by
  obtain ⟨hconserved, hawake⟩ := h
  unfold PostgresConnectionPool.take
  split
  next hnone =>
    -- the thread falls asleep unnotified, but there is no idle connection it could miss
    have howns := tally_update owns s.callers t (.waiting false)
    constructor
    · have hzero : owns (.waiting false) = 0 := rfl
      dsimp only
      omega
    · rw [hnone]
      exact fun _ => Nat.zero_le _
  next c connections hsome =>
    -- one idle connection less, and at most one notified thread less
    have howns := tally_update owns s.callers t (.acquired c)
    have hasleep := tally_update asleep s.callers t (.acquired c)
    have hnotified := tally_update notified s.callers t (.acquired c)
    have hone : (s.callers t).notified ≤ 1 := by
      unfold notified
      split_ifs <;> omega
    obtain ⟨howns', hasleep', hnotified'⟩ :=
      counts_of_owner (rfl : (PoolCaller.acquired c).connection.isSome)
    rw [hsome, length_cons] at hconserved hawake
    constructor <;> dsimp only <;> omega

/-- A connection that is given back is idle. -/
theorem Sound.giveBack (h : Sound size s) {c : PgConnection} (hc : s.callers t = .returning c) :
    s.connections.length + 1 + tally owns (update s.callers t .outside) = size ∧
    tally asleep (update s.callers t .outside) = tally asleep s.callers ∧
    tally notified (update s.callers t .outside) = tally notified s.callers := by
  have hconserved := h.conserved
  have howns := tally_update owns s.callers t .outside
  have hone : (s.callers t).owns = 1 := by rw [hc]; rfl
  have hzero : owns .outside = 0 := rfl
  have hsame : ∀ has : PoolCaller → Nat, has .outside = has (.returning c) →
      tally has (update s.callers t .outside) = tally has s.callers :=
    fun has heq => tally_update_of_eq (by rw [hc, heq])
  exact ⟨by omega, hsame asleep rfl, hsame notified rfl⟩

theorem connection_lease (c : PgConnection) (reopened : Reopened) :
    (lease c reopened).connection.isSome := by
  unfold lease
  split_ifs
  · rfl
  · cases reopened <;> rfl

/-- No step loses or duplicates a connection. -/
theorem Sound.step (h : Sound size s) {l : Label T} (hstep : step s l = some s') : Sound size s' := by
  cases l with
  | acquire t =>
    simp only [PostgresConnectionPool.step] at hstep
    split_ifs at hstep with ht
    exact Option.some.inj hstep ▸ h.take (by rw [ht]; rfl)
  | wake t =>
    simp only [PostgresConnectionPool.step] at hstep
    split_ifs at hstep with ht
    refine Option.some.inj hstep ▸ h.take ?_
    rcases ht with ht | ht <;> rw [ht] <;> rfl
  | lease t reopened =>
    simp only [PostgresConnectionPool.step] at hstep
    split at hstep <;> cases hstep
    next c hc => exact h.go (by rw [hc]; rfl) (connection_lease c reopened)
  | use t u =>
    obtain ⟨caller, huse, rfl⟩ := Option.map_eq_some_iff.mp hstep
    obtain ⟨hbefore, hafter⟩ := connection_use huse
    exact h.go hbefore hafter
  | giveBack t woken =>
    simp only [PostgresConnectionPool.step] at hstep
    split at hstep
    next c hc =>
      split_ifs at hstep with hawake
      obtain rfl := Option.some.inj hstep
      obtain ⟨hconserved, hasleep, -⟩ := h.giveBack hc
      refine ⟨hconserved, fun hpos => ?_⟩
      -- `notify_one` met nobody asleep
      have hnone : tally asleep s.callers = 0 := Finset.sum_eq_zero fun u _ => if_neg (hawake u)
      rw [hasleep, hnone] at hpos
      cases hpos
    next c u hc =>
      split_ifs at hstep with hu
      obtain rfl := Option.some.inj hstep
      obtain ⟨hconserved, hasleep, hnotified⟩ := h.giveBack hc
      have hu' : update s.callers t .outside u = .waiting false := by
        rw [update_of_ne, hu]
        rintro rfl
        cases hc.symm.trans hu
      -- the count of the notified threads grows with that of the idle connections
      have hless := tally_update asleep (update s.callers t .outside) u (.waiting true)
      have hmore := tally_update notified (update s.callers t .outside) u (.waiting true)
      have hsame : tally owns (update (update s.callers t .outside) u (.waiting true)) = _ :=
        tally_update_of_eq (by rw [hu']; rfl)
      rw [hu'] at hless hmore
      simp only [asleep, PoolCaller.notified, reduceCtorEq, PoolCaller.waiting.injEq, if_true,
        if_false] at hless hmore
      refine ⟨hsame ▸ hconserved, fun _ => ?_⟩
      have hawake := h.awake (by omega)
      dsimp only
      rw [length_cons]
      omega
    next => cases hstep

theorem sound_of_reachable (h : (pool T size).Reachable s) : Sound size s := by
  refine h.invariant ⟨?_, ?_⟩ fun _ _ _ hI hstep => hI.step hstep
  · have hnone : tally owns (pool T size).start.callers = 0 := tally_const_zero rfl
    rw [hnone]
    exact length_replicate
  · intro hasleep
    have hnone : tally asleep (pool T size).start.callers = 0 := tally_const_zero rfl
    rw [hnone] at hasleep
    cases hasleep

/-! ## What the server keeps -/

/-- The condition on a step: the server ends transactions. -/
def EndsTransactions (_ : PostgresConnectionPool T) : Label T → Prop
  | .use _ u => u.EndsTransaction
  | _ => True

/-- No connection that is at rest has a transaction open. -/
structure Tidy (s : PostgresConnectionPool T) : Prop where
  idle : ∀ c ∈ s.connections, c.Clean
  settled : ∀ t, (s.callers t).Settled

omit [Fintype T] in
theorem Tidy.update (h : Tidy s) {caller : PoolCaller} (hcaller : caller.Settled) :
    Tidy { s with callers := update s.callers t caller } where
  idle := h.idle
  settled u := by
    by_cases hu : u = t
    · simpa [hu] using hcaller
    · simpa [update_of_ne hu] using h.settled u

theorem settled_lease {c : PgConnection} (h : c.Clean) (reopened : Reopened) :
    (lease c reopened).Settled := by
  unfold lease
  split_ifs
  · rintro d ⟨⟩
    exact h
  · cases reopened with
    | failed | mismatched =>
      rintro d ⟨⟩
      exact h
    | ok =>
      rintro d ⟨⟩ _
      rfl

omit [Fintype T] in
theorem Tidy.take (h : Tidy s) : Tidy (s.take t) := by
  unfold PostgresConnectionPool.take
  split
  · exact h.update (settled_of_free rfl)
  next c connections hsome =>
    obtain ⟨hc, hrest⟩ := forall_mem_cons.mp (hsome ▸ h.idle)
    have hafter : Tidy ⟨connections, s.callers⟩ := ⟨hrest, h.settled⟩
    refine hafter.update ?_
    rintro d ⟨⟩
    exact hc

omit [DecidableEq T] [Fintype T] in
theorem Tidy.clean (h : Tidy s) {c : PgConnection}
    (hc : s.callers t = .acquired c ∨ s.callers t = .returning c) : c.Clean := by
  have ht := h.settled t
  rcases hc with hc | hc <;> rw [hc] at ht <;> exact ht c rfl

/-- Callers that end their transactions leave none open in the pool. -/
theorem Tidy.step (h : Tidy s) {l : Label T} (hends : EndsTransactions s l)
    (hstep : step s l = some s') : Tidy s' := by
  cases l with
  | acquire t =>
    simp only [PostgresConnectionPool.step] at hstep
    split_ifs at hstep
    exact Option.some.inj hstep ▸ h.take
  | wake t =>
    simp only [PostgresConnectionPool.step] at hstep
    split_ifs at hstep
    exact Option.some.inj hstep ▸ h.take
  | lease t reopened =>
    simp only [PostgresConnectionPool.step] at hstep
    split at hstep <;> cases hstep
    next c hc => exact h.update (settled_lease (h.clean (.inl hc)) reopened)
  | use t u =>
    obtain ⟨caller, huse, rfl⟩ := Option.map_eq_some_iff.mp hstep
    exact h.update ((h.settled t).use hends huse)
  | giveBack t woken =>
    have hback : ∀ {c}, s.callers t = .returning c →
        Tidy ⟨c :: s.connections, Function.update s.callers t .outside⟩ := fun {c} hc =>
      have hidle : Tidy ⟨c :: s.connections, s.callers⟩ :=
        ⟨forall_mem_cons.mpr ⟨h.clean (.inr hc), h.idle⟩, h.settled⟩
      hidle.update (settled_of_free rfl)
    simp only [PostgresConnectionPool.step] at hstep
    split at hstep
    next c hc =>
      split_ifs at hstep
      exact Option.some.inj hstep ▸ hback hc
    next c u hc =>
      split_ifs at hstep
      exact Option.some.inj hstep ▸ (hback hc).update (settled_of_free rfl)
    next => cases hstep

theorem tidy_of_reachable (h : (pool T size).ReachableMeeting EndsTransactions s) : Tidy s := by
  refine h.invariant ⟨fun c hc => ?_, fun _ => settled_of_free rfl⟩ fun _ _ _ hI hends hstep =>
    hI.step hends hstep
  rw [eq_of_mem_replicate hc]
  exact fun _ => rfl

/-! ## What the stores can rely on -/

/-- The number of threads that own a connection, in a lease or in an `Acquire`. -/
def owners (s : PostgresConnectionPool T) : Nat :=
  (Finset.univ.filter fun t => (s.callers t).connection.isSome).card

omit [DecidableEq T] in
theorem Sound.owners (h : Sound size s) : s.connections.length + s.owners = size := by
  rw [PostgresConnectionPool.owners, Finset.card_filter]
  exact h.conserved

/-- What `Acquire` hands out is alive and clean. -/
theorem leased_of_tidy (h : Tidy s) {reopened : Reopened} {c : PgConnection}
    (hstep : step s (.lease t reopened) = some s') (hleased : s'.callers t = .leased c) :
    c.ok = true ∧ c.inTransaction = false := by
  simp only [step] at hstep
  split at hstep <;> cases hstep
  next d hd =>
    have hclean := h.clean (.inl hd)
    have hlease : lease d reopened = .leased c := (update_self t _ s.callers).symm.trans hleased
    unfold lease at hlease
    split_ifs at hlease with hok
    · cases hlease
      exact ⟨hok, hclean hok⟩
    · cases reopened <;> cases hlease
      exact ⟨rfl, rfl⟩

/-- In every interleaving no connection is lost or invented, and if the server ends transactions,
`Acquire` hands out none that is inside a transaction of an earlier operation. -/
theorem pool_conserves_clean_connections (h : (pool T size).Reachable s) :
    s.connections.length + s.owners = size ∧
    ((pool T size).ReachableMeeting EndsTransactions s → ∀ t reopened s' c,
      (pool T size).step s (.lease t reopened) = some s' → s'.callers t = .leased c →
        c.ok = true ∧ c.inTransaction = false) :=
  ⟨(sound_of_reachable h).owners, fun hends _ _ _ _ => leased_of_tidy (tidy_of_reachable hends)⟩

/-- A connection breaks in a transaction, and the first attempt to replace it fails. -/
def broken : List (Label Bool) :=
  [.acquire false, .lease false .ok, .use false (.begin true true), .use false (.execute false true),
    .use false (.endTransaction false true), .giveBack false none, .acquire true,
    .lease true .mismatched, .giveBack true none, .acquire true]

theorem broken_connection_is_replaced : ∃ s s' c,
    (pool Bool 1).exec (pool Bool 1).start broken = some s ∧ s.connections.length + s.owners = 1 ∧
    (pool Bool 1).step s (.lease true .ok) = some s' ∧ s'.callers true = .leased c ∧
    c.ok = true ∧ c.inTransaction = false :=
  have hends : (pool Bool 1).Meets EndsTransactions (pool Bool 1).start broken := by
    simp [broken, Machine.Meets, EndsTransactions, Use.EndsTransaction]
  have h := pool_conserves_clean_connections (⟨broken, rfl⟩ : (pool Bool 1).Reachable _)
  ⟨_, _, _, rfl, h.1, rfl, rfl, h.2 ⟨broken, rfl, hends⟩ true .ok _ _ rfl rfl⟩

/-- In every interleaving the idle connections and those that threads own are as many as the pool was
made with, whether reconnecting fails or operations fail at a statement. -/
theorem connections_are_conserved (h : (pool T size).Reachable s) :
    s.connections.length + s.owners = size :=
  (sound_of_reachable h).owners

/-- The second thread waits while the statement of the first one fails. -/
def contended : List (Label Bool) :=
  [.acquire false, .lease false .ok, .acquire true, .use false (.begin true true),
    .use false (.execute true true), .use false (.endTransaction true false), .giveBack false (some true)]

theorem contended_connections : ∃ s, (pool Bool 1).exec (pool Bool 1).start contended = some s ∧
    s.callers true = .waiting true ∧ s.connections.length + s.owners = 1 :=
  ⟨_, rfl, rfl, connections_are_conserved ⟨contended, rfl⟩⟩

/-- In every interleaving a connection that `Acquire` hands out is alive and has no transaction open,
if the server ends transactions. -/
theorem leased_connection_is_clean (h : (pool T size).ReachableMeeting EndsTransactions s)
    {reopened : Reopened} {c : PgConnection}
    (hstep : (pool T size).step s (.lease t reopened) = some s') (hleased : s'.callers t = .leased c) :
    c.ok = true ∧ c.inTransaction = false :=
  leased_of_tidy (tidy_of_reachable h) hstep hleased

theorem contended_lease : ∃ s s' c,
    (pool Bool 1).exec (pool Bool 1).start (contended ++ [.wake true]) = some s ∧
    (pool Bool 1).step s (.lease true .failed) = some s' ∧ s'.callers true = .leased c ∧
    c.ok = true ∧ c.inTransaction = false :=
  have hends : (pool Bool 1).Meets EndsTransactions (pool Bool 1).start (contended ++ [.wake true]) := by
    simp [contended, Machine.Meets, EndsTransactions, Use.EndsTransaction]
  ⟨_, _, _, rfl, rfl, rfl, leased_connection_is_clean ⟨contended ++ [.wake true], rfl, hends⟩
    (rfl : (pool Bool 1).step _ (.lease true .failed) = some _) rfl⟩

-- a `ROLLBACK` that fails on a live connection is not noticed: the next lease is in the transaction
example : ∃ s c, (pool Bool 1).exec (pool Bool 1).start
    [.acquire false, .lease false .ok, .use false (.begin true true),
      .use false (.endTransaction true true), .giveBack false none, .acquire true, .lease true .ok] =
        some s ∧ s.callers true = .leased c ∧ c.ok = true ∧ c.inTransaction = true :=
  ⟨_, _, rfl, rfl, rfl, rfl⟩

/-- In every interleaving of a pool that has connections, a thread that waits does not wait for
nothing: some thread owns a connection and will give it back, or one that has been notified finds an
idle connection. -/
theorem waiting_thread_is_served (hsize : 0 < size) (h : (pool T size).Reachable s) {b : Bool}
    (hwaiting : s.callers t = .waiting b) :
    (∃ u, (s.callers u).connection.isSome) ∨
    ∃ u c s', s.callers u = .waiting true ∧ (pool T size).step s (.wake u) = some s' ∧
      s'.callers u = .acquired c := by
  have hsound := sound_of_reachable h
  by_cases howned : ∃ u, (s.callers u).connection.isSome
  · exact .inl howned
  refine .inr ?_
  have hidle : s.connections.length = size := by
    have hnone : tally owns s.callers = 0 :=
      Finset.sum_eq_zero fun u _ => if_neg fun hu => howned ⟨u, hu⟩
    have hconserved := hsound.conserved
    rwa [hnone] at hconserved
  obtain ⟨u, hu⟩ : ∃ u, s.callers u = .waiting true := by
    cases b with
    | true => exact ⟨t, hwaiting⟩
    | false =>
      -- all connections are idle, so as many threads have been notified
      have hasleep : 1 ≤ tally asleep s.callers := by
        have hle := le_tally asleep s.callers t
        rwa [hwaiting] at hle
      have hnotified := hsound.awake hasleep
      by_contra hnobody
      have hnone : tally notified s.callers = 0 :=
        Finset.sum_eq_zero fun u _ => if_neg fun hu => hnobody ⟨u, hu⟩
      omega
  cases hconnections : s.connections with
  | nil =>
    rw [hconnections] at hidle
    exact absurd hidle hsize.ne
  | cons c connections =>
    refine ⟨u, c, s.take u, hu, by simp only [pool, step, hu, true_or, if_true], ?_⟩
    simp only [take, hconnections, update_self]

theorem contended_wake : ∃ s, (pool Bool 1).exec (pool Bool 1).start contended = some s ∧
    ((∃ u, (s.callers u).connection.isSome) ∨ ∃ u c s', s.callers u = .waiting true ∧
      (pool Bool 1).step s (.wake u) = some s' ∧ s'.callers u = .acquired c) :=
  ⟨_, rfl, waiting_thread_is_served Nat.one_pos ⟨contended, rfl⟩
    (rfl : PostgresConnectionPool.callers _ true = _)⟩

end PostgresConnectionPool

end A2A.Server.Stores
