/-
# What concurrent clients of the task table can rely on.
-/
import A2A.Server.Stores.PostgresClientInvariant

namespace A2A.Server.Stores.PostgresClients

open A2A.Foundation A2A.Core A2A.Server.Tasks PostgresTaskStore

variable {P : Type} {codec : TaskCodec P}

/-! ## History appends -/

/-- A call that returned a task without deduplicating it has written its message once; any other, nothing. -/
def WritesOnce (log : List Event) (call : Nat) (c : AppendCall) : Prop :=
  match c.phase with
  | .returned (.ok task) false => ∃ number,
      appendsBy call log = [.appended call (cString c.taskId) c.message ⟨number, task⟩]
  | _ => appendsBy call log = []

theorem PhaseOk.writesOnce {db : Database P} {log : List Event} {call : Nat} {c : AppendCall}
    (h : PhaseOk codec db log call c) : WritesOnce log call c := by
  unfold PhaseOk at h
  unfold WritesOnce
  split at h
  · next hphase => 
    rw [hphase]
    exact h
  · next hphase => 
    rw [hphase]
    exact h.1
  · next hphase hphase' => 
    split
    · next hEq => exact absurd hEq (hphase _)
    · exact h

def Action.call : Action → Option Nat
  | .beginAppend call _ _ _ | .readHistory call _ | .writeHistory call _ => some call
  | _ => none

theorem writeHistory_db {pg : Postgres} (w : World P) (call : Nat) (c : AppendCall) (attempts : Nat)
    (snapshot : TaskHistorySnapshot) (now : Int)
    (hlog : appendsBy call (writeHistory pg codec w call c attempts snapshot now).log = appendsBy call w.log) :
    (writeHistory pg codec w call c attempts snapshot now).db = w.db := by
  unfold writeHistory updateTaskHistory execute at hlog ⊢
  dsimp only at hlog ⊢
  rcases Database.updateTaskHistory_cases pg now w.store.database (snapshot.task.addHistory c.message).id
      (codec.serialize (snapshot.task.addHistory c.message)) snapshot.revision snapshot.createdSequence with
    ⟨e, hresult⟩ | hresult | ⟨old, advanced, db', hresult, -⟩
  · rw [hresult]
    rfl
  · rw [hresult]
    rfl
  · rw [hresult] at hlog
    have hgrown := appendsBy_append_own w.log call (cString c.taskId) c.message
      ⟨snapshot.createdSequence.toNat, snapshot.task.addHistory c.message⟩
    cases List.append_right_eq_self.mp (hgrown.symm.trans hlog)

theorem readHistory_db {pg : Postgres} (w : World P) (call : Nat) (c : AppendCall) (attempts : Nat)
    (serialize : Serializer) : (readHistory pg codec w call c attempts serialize).db = w.db := by
  unfold readHistory
  split
  · rfl
  · dsimp only
    split
    · rfl
    · rfl

/-- A step of a call that logs no append leaves the database as it is. -/
theorem db_eq_of_no_append {pg : Postgres} {w w' : World P} {action : Action} {call : Nat}
    (hstep : (clients pg codec).step w action = some w') (hcall : action.call = some call)
    (hlog : appendsBy call w'.log = appendsBy call w.log) : w'.db = w.db := by
  cases action with
  | beginAppend other taskId message policy =>
    simp only [clients, step] at hstep
    split at hstep
    · cases hstep
    · cases hstep
      rfl
  | readHistory other serialize =>
    obtain ⟨c, attempts, -, -, rfl⟩ := step_readHistory_iff.mp hstep
    exact readHistory_db w other c attempts serialize
  | writeHistory other now =>
    obtain ⟨c, attempts, snapshot, -, -, rfl⟩ := step_writeHistory_iff.mp hstep
    obtain rfl : other = call := Option.some.inj hcall
    exact writeHistory_db w other c attempts snapshot now hlog
  | _ => cases hcall

/-- Appends to one history: each success is one write, onto what its call had read and what was still stored. -/
theorem append_writes_once {pg : Postgres} {w : World P} (h : (clients pg codec).Reachable w) :
    Matches codec (replay w.log) w.db ∧
    EachEvent EventOk w.log ∧
    (∀ call c, w.calls call = some c → WritesOnce w.log call c) ∧
    (∀ front back key, w.log = front ++ back → (∀ e ∈ back, e.overwrites key = false) → replay w.log key =
        (replay front key).map fun found => found.grown (back.filterMap (Event.appendedTo key))) ∧
    (∀ action w' call, (clients pg codec).step w action = some w' → action.call = some call →
      appendsBy call w'.log = appendsBy call w.log → w'.db = w.db) := by
  have hinv := inv_reachable h
  refine ⟨hinv.stored, hinv.events, fun call c hcall => (hinv.calls call c hcall).writesOnce, ?_, ?_⟩
  · intro front back key hsplit hback
    rw [hsplit]
    exact replay_append_of_not_overwritten front back key hback
  · intro action w' call hstep hcall hlog
    exact db_eq_of_no_append hstep hcall hlog

/-- Two appends read the same row; the second loses to the other, and then to a deletion and re-creation. -/
def racingAppends : List Action :=
  [.createOrUpdate { id := [116] } 0,
    .beginAppend 0 [116] { messageId := [109] } .noDedup, .beginAppend 1 [116] { messageId := [110] } .noDedup,
    .readHistory 0 fun _ _ => [], .readHistory 1 fun _ _ => [],
    .writeHistory 0 1, .writeHistory 1 1,
    .readHistory 1 fun _ _ => [], .deleteRow [116], .createOrUpdate { id := [116] } 2, .writeHistory 1 3,
    .readHistory 1 fun _ _ => [], .writeHistory 1 4]

theorem racing_appends_write_once :
    ∃ w, (clients .permissive .identity).Reachable w ∧
      ((appendsBy 0 w.log).length = 1 ∧ (appendsBy 1 w.log).length = 1) ∧
      Matches .identity (replay w.log) w.db ∧ EachEvent EventOk w.log ∧
      ∀ call c, w.calls call = some c → WritesOnce w.log call c := by
  obtain ⟨w, hreachable, hlengths⟩ := Machine.reachable_of_exec (M := clients .permissive .identity)
    (p := fun w => decide ((appendsBy 0 w.log).length = 1 ∧ (appendsBy 1 w.log).length = 1)) racingAppends
    (by decide +kernel)
  obtain ⟨hstored, hevents, hcalls, -⟩ := append_writes_once hreachable
  exact ⟨w, hreachable, of_decide_eq_true hlengths, hstored, hevents, hcalls⟩

/-! ## Conditional writes -/

/-- A successful conditional write found no row or the expected revision. -/
theorem find_of_updated {pg : Postgres} {store : PostgresTaskStore P} {task : Task} {expectedRevision : UInt64}
    {now : Int} (h : (store.createOrUpdateIfRevision pg codec task expectedRevision now).1 = .ok .updated) :
    store.database.tasks.find (cString task.id) = none ∨
    ∃ old, store.database.tasks.find (cString task.id) = some old ∧ old.revision.val = expectedRevision.toNat := by
  unfold createOrUpdateIfRevision execute at h
  split_ifs at h with hid hzero
  all_goals dsimp only at h
  · rcases Database.conditionalCreate_cases pg (taskParameters codec task) now store.database with
      ⟨e, hresult⟩ | ⟨db', hresult, -⟩ | ⟨row, db', -, -, hcarries, hfree⟩
    · rw [hresult] at h
      cases h
    · rw [hresult] at h
      cases h
    · rw [hcarries.id] at hfree
      exact .inl hfree
  · rcases Database.conditionalUpdate_cases pg (taskParameters codec task) now store.database expectedRevision with
      ⟨e, hresult⟩ | hresult | ⟨old, row, db', -, hfind, hrevision, -⟩
    · rw [hresult] at h
      cases h
    · rw [hresult] at h
      cases h
    · exact .inr ⟨old, hfind, hrevision⟩

/-- A conditional write with the revision of a snapshot overwrites the row that the snapshot has read exactly if
the row is still of the incarnation that the snapshot has read. -/
theorem conditional_write_overwrites_seen_row_iff {pg : Postgres} {w : World P}
    (h : (clients pg codec).Reachable w) {client : Nat} {held : Held P} (hheld : w.held client = some held)
    {task : Task} (hid : cString task.id = cString held.id) {now : Int}
    (hupdated : (w.store.createOrUpdateIfRevision pg codec task held.snapshot.revision now).1 = .ok .updated) :
    w.db.tasks.find (cString task.id) = some held.row ↔ ∃ row, w.db.tasks.find (cString task.id) = some row ∧
        row.createdSequence = held.row.createdSequence := by
  have hok := (inv_reachable h).held client held hheld
  constructor
  · intro hfind
    exact ⟨held.row, hfind, rfl⟩
  · rintro ⟨row, hfind, hsequence⟩
    have hfind' : w.db.tasks.find held.row.id = some row := by
      rw [hok.key, ← hid]
      exact hfind
    obtain ⟨-, hsame⟩ := hok.observed.current row hfind' hsequence
    rcases find_of_updated hupdated with hnone | ⟨old, hold, hrevision⟩
    · cases hnone.symm.trans hfind
    · obtain rfl : old = row := Option.some.inj (hold.symm.trans hfind)
      rw [hok.revision, Bigint.toNat_toUInt64] at hrevision
      rw [hfind, hsame (Subtype.ext hrevision)]

/-- A client that reads and writes alone. -/
theorem undisturbed_conditional_write :
    ∃ w held, (clients .permissive .identity).Reachable w ∧ w.held 0 = some held ∧
      (w.store.createOrUpdateIfRevision .permissive .identity { id := [116] } held.snapshot.revision 2).1 =
        .ok .updated ∧
      w.db.tasks.find (cString [116]) = some held.row := by
  obtain ⟨w, hreachable, hseen⟩ := Machine.reachable_of_exec (M := clients .permissive .identity)
    (p := fun w => (w.held 0).any fun held => decide (cString [116] = cString held.id ∧
      (w.store.createOrUpdateIfRevision .permissive .identity { id := [116] } held.snapshot.revision 2).1 =
        .ok .updated ∧
      (w.db.tasks.find (cString [116])).map TaskRow.createdSequence = some held.row.createdSequence))
    [.createOrUpdate { id := [116] } 0, .getSnapshot 0 [116], .createOrUpdate { id := [117] } 1]
    (by decide +kernel)
  obtain ⟨held, hheld, hok⟩ := (Option.any_eq_true _ _).mp hseen
  obtain ⟨hid, hupdated, hsequence⟩ := of_decide_eq_true hok
  refine ⟨w, held, hreachable, hheld, hupdated, ?_⟩
  apply (conditional_write_overwrites_seen_row_iff hreachable hheld hid hupdated).mpr
  exact Option.map_eq_some_iff.mp hsequence

/-- The row is deleted and made anew after a snapshot was taken: the revision starts again at one, and the
conditional write with the revision of the snapshot overwrites a task that its client has never read. -/
theorem conditional_write_overwrites_recreated_row :
    ∃ w held row, (clients .permissive .identity).Reachable w ∧ w.held 0 = some held ∧ held.id = [116] ∧
      (w.store.createOrUpdateIfRevision .permissive .identity { id := [116] } held.snapshot.revision 3).1 =
        .ok .updated ∧
      w.db.tasks.find (cString [116]) = some row ∧ row.createdSequence ≠ held.row.createdSequence := by
  obtain ⟨w, hreachable, hseen⟩ := Machine.reachable_of_exec (M := clients .permissive .identity)
    (p := fun w => (w.held 0).any fun (held : Held Task) =>
      (w.db.tasks.find (cString [116])).any fun (row : TaskRow Task) => decide (held.id = [116] ∧
        (w.store.createOrUpdateIfRevision .permissive .identity { id := [116] } held.snapshot.revision 3).1 =
          .ok .updated ∧
        row.createdSequence ≠ held.row.createdSequence))
    [.createOrUpdate { id := [116] } 0, .getSnapshot 0 [116], .deleteRow [116],
      .createOrUpdate { id := [116], contextId := [99] } 2]
    (by decide +kernel)
  obtain ⟨held, hheld, hrow⟩ := (Option.any_eq_true _ _).mp hseen
  obtain ⟨row, hfind, hok⟩ := (Option.any_eq_true _ _).mp hrow
  obtain ⟨hid, hupdated, hsequence⟩ := of_decide_eq_true hok
  exact ⟨w, held, row, hreachable, hheld, hid, hupdated, hfind, hsequence⟩

end A2A.Server.Stores.PostgresClients
