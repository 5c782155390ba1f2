/-
# The log of an interleaving, and the invariant.
-/
import A2A.Foundation.EventLog
import A2A.Server.Stores.PostgresClients
import Mathlib.Data.Option.Basic

namespace A2A.Server.Stores.PostgresClients

open A2A.Foundation A2A.Core A2A.Server.Tasks List Function

variable {P : Type}

/-! ## Replaying the log -/

/-- The table as the log tells it: the present incarnation of each key. -/
abbrev Contents := Bytes → Option Incarnation

/-- What an event does. An append adds its message to the history that it finds. -/
def Event.apply (contents : Contents) : Event → Contents
  | .read _ _ _ => contents
  | .appended _ key message _ =>
    Function.update contents key
      ((contents key).map fun found => ⟨found.number, found.task.addHistory message⟩)
  | .stored key written => Function.update contents key (some written)
  | .deleted key => Function.update contents key none

/-- The contents that the events add up to. -/
def replay (log : List Event) : Contents := log.foldl Event.apply fun _ => none

theorem replay_append_singleton (log : List Event) (event : Event) :
    replay (log ++ [event]) = event.apply (replay log) := by
  rw [replay, foldl_append]
  rfl

/-- The event overwrites or removes what is stored under the key. -/
def Event.overwrites (key : Bytes) : Event → Bool
  | .stored k _ | .deleted k => k = key
  | _ => false

/-- The message, if it was appended under the key. -/
def Event.appendedTo (key : Bytes) : Event → Option Message
  | .appended _ k message _ => if k = key then some message else none
  | _ => none

def Incarnation.grown (found : Incarnation) (messages : List Message) : Incarnation :=
  ⟨found.number, { found.task with history := found.task.history ++ messages }⟩

theorem Incarnation.grown_nil (found : Incarnation) : found.grown [] = found := by
  rw [grown, append_nil]

theorem Incarnation.grown_grown (found : Incarnation) (messages later : List Message) :
    (found.grown messages).grown later = found.grown (messages ++ later) := by
  simp only [grown, append_assoc]

/-- An event that does not overwrite a task adds at most its message. -/
theorem Event.apply_of_not_overwrites {event : Event} {key : Bytes} (h : event.overwrites key = false)
    (contents : Contents) :
    event.apply contents key = (contents key).map fun found => found.grown (event.appendedTo key).toList := by
  have hsame : (contents key).map (fun found => found.grown []) = contents key := by
    simp only [Incarnation.grown_nil]
    exact Option.map_id'
  cases event with
  | read _ _ _ => exact hsame.symm
  | appended call k message result =>
    by_cases hkey : k = key
    · subst hkey
      simp only [apply, update_self, appendedTo, if_true]
      rfl
    · simp only [apply, update_of_ne (Ne.symm hkey), appendedTo, if_neg hkey]
      exact hsame.symm
  | stored k | deleted k =>
    have hkey : ¬ k = key := by simpa [overwrites] using h
    simp only [apply, update_of_ne (Ne.symm hkey)]
    exact hsame.symm

open Event

/-- Unless overwritten, a history grows by the appended messages, once each and in order. -/
theorem replay_append_of_not_overwritten (front back : List Event) (key : Bytes)
    (h : ∀ e ∈ back, e.overwrites key = false) :
    replay (front ++ back) key =
      (replay front key).map fun found => found.grown (back.filterMap (Event.appendedTo key)) := by
  induction back using List.reverseRecOn with
  | nil =>
    rw [append_nil]
    cases replay front key with
    | none => rfl
    | some found => exact congrArg some found.grown_nil.symm
  | append_singleton back last ih =>
    have hback := ih fun e he => h e (mem_append_left _ he)
    have hlast := h last (mem_append_right _ (mem_singleton_self last))
    have hone : [last].filterMap (appendedTo key) = (last.appendedTo key).toList := by
      cases hmessage : last.appendedTo key <;> simp [hmessage]
    rw [← append_assoc, replay_append_singleton, apply_of_not_overwrites hlast, hback,
      Option.map_map, filterMap_append, hone]
    simp only [comp_def, Incarnation.grown_grown]

/-! ## The invariant -/

structure RowHolds (codec : TaskCodec P) (held : Incarnation) (row : TaskRow P) : Prop where
  number : row.createdSequence.val = held.number
  payload : row.taskProto = codec.serialize held.task
  key : row.id = cString held.task.id

/-- The table holds exactly these incarnations. -/
def Matches (codec : TaskCodec P) (contents : Contents) (db : Database P) : Prop :=
  ∀ key, Option.Rel (RowHolds codec) (contents key) (db.tasks.find key)

def Event.call : Event → Option Nat
  | .read call _ _ | .appended call _ _ _ => some call
  | .stored _ _ | .deleted _ => none

/-- What the call read, and where. -/
def Event.readBy (call : Nat) : Event → Option (Bytes × Incarnation)
  | .read c key seen => if c = call then some (key, seen) else none
  | _ => none

def Event.isAppendBy (call : Nat) : Event → Bool
  | .appended c _ _ _ => c = call
  | _ => false

def appendsBy (call : Nat) (log : List Event) : List Event := log.filter (Event.isAppendBy call)

/-- A read sees what is stored; an append finds what its call has read last, unchanged, and adds the message. -/
def EventOk (before : List Event) : Event → Prop
  | .read _ key seen => replay before key = some seen
  | .appended call key message result => ∃ seen, lastOf (Event.readBy call) before = some (key, seen) ∧
      replay before key = some seen ∧ result = ⟨seen.number, seen.task.addHistory message⟩
  | .stored _ _ | .deleted _ => True

/-- What a call holds between its two statements: a row that it has seen. -/
structure SnapshotOk (codec : TaskCodec P) (db : Database P) (log : List Event) (call : Nat) (c : AppendCall)
    (snapshot : TaskHistorySnapshot) (seen : TaskRow P) : Prop where
  observed : Observed db seen
  rowKey : seen.id = cString c.taskId
  taskKey : cString snapshot.task.id = cString c.taskId
  task : codec.parse seen.taskProto = some snapshot.task
  revision : snapshot.revision = seen.revision.toUInt64
  createdSequence : snapshot.createdSequence = seen.createdSequence.toUInt64
  logged : lastOf (Event.readBy call) log =
    some (cString c.taskId, ⟨snapshot.createdSequence.toNat, snapshot.task⟩)

/-- A call that returned a task without deduplicating it has written once; every other, never. -/
def PhaseOk (codec : TaskCodec P) (db : Database P) (log : List Event) (call : Nat) (c : AppendCall) : Prop :=
  match c.phase with
  | .returned (.ok task) false => ∃ number,
      appendsBy call log = [.appended call (cString c.taskId) c.message ⟨number, task⟩]
  | .writing _ snapshot => appendsBy call log = [] ∧ ∃ seen, SnapshotOk codec db log call c snapshot seen
  | _ => appendsBy call log = []

/-- A snapshot that a client holds was read from a row. -/
structure HeldOk (codec : TaskCodec P) (db : Database P) (held : Held P) : Prop where
  observed : Observed db held.row
  key : held.row.id = cString held.id
  task : codec.parse held.row.taskProto = some held.snapshot.task
  revision : held.snapshot.revision = held.row.revision.toUInt64

/-- What holds after every statement. -/
structure Inv (codec : TaskCodec P) (w : World P) : Prop where
  numbered : Numbered w.db
  stored : Matches codec (replay w.log) w.db
  events : EachEvent EventOk w.log
  idle : ∀ call, w.calls call = none → appendsBy call w.log = []
  calls : ∀ call c, w.calls call = some c → PhaseOk codec w.db w.log call c
  held : ∀ client held, w.held client = some held → HeldOk codec w.db held

variable {codec : TaskCodec P}

variable {call : Nat} {event : Event} {es log : List Event} {db db' : Database P} {c : AppendCall}
    {contents : Contents} {key : Bytes} {row seen : TaskRow P} {w w' : World P} {phase : Phase}
    {pg : Postgres} {snapshot : TaskHistorySnapshot}

theorem inv_start (pg : Postgres) : Inv codec (clients pg codec).start where
  numbered := fun _ _ hfind => nomatch hfind
  stored := fun _ => .none
  events := eachEvent_nil _
  idle := fun _ _ => rfl
  calls := fun _ _ hcall => nomatch hcall
  held := fun _ _ hheld => nomatch hheld

theorem isAppendBy_of_call_ne (h : event.call ≠ some call) : event.isAppendBy call = false := by
  cases event with
  | appended c _ _ _ =>
    have hne : c ≠ call := fun hEq => h (congrArg some hEq)
    simpa [isAppendBy] using hne
  | _ => rfl

theorem readBy_of_call_ne (h : event.call ≠ some call) : event.readBy call = none := by
  cases event with
  | read c _ _ =>
    have hne : c ≠ call := fun hEq => h (congrArg some hEq)
    exact if_neg hne
  | _ => rfl

theorem appendsBy_append (log : List Event) (hes : ∀ e ∈ es, e.call ≠ some call) :
    appendsBy call (log ++ es) = appendsBy call log := by
  have hnone : es.filter (isAppendBy call) = [] := by
    rw [filter_eq_nil_iff]
    intro e he
    rw [isAppendBy_of_call_ne (hes e he)]
    exact Bool.false_ne_true
  rw [appendsBy, filter_append, hnone, append_nil]
  rfl

theorem appendsBy_append_own (log : List Event) (call : Nat) (key : Bytes) (message : Message) (result : Incarnation) :
    appendsBy call (log ++ [.appended call key message result]) =
      appendsBy call log ++ [.appended call key message result] := by
  have hself : (appended call key message result).isAppendBy call = true := decide_eq_true rfl
  rw [appendsBy, filter_append, filter_cons_of_pos hself]
  rfl

theorem PhaseOk.mono (h : PhaseOk codec db log call c) (hstep : TableStep db db') (hes : ∀ e ∈ es, e.call ≠ some call) :
    PhaseOk codec db' (log ++ es) call c := by
  have happends := appendsBy_append log hes
  unfold PhaseOk at h ⊢
  split at h
  · rw [happends]
    exact h
  · obtain ⟨hnone, seen, hsnapshot⟩ := h
    refine ⟨by rw [happends, hnone], seen, ?_⟩
    have hlast : lastOf (readBy call) (log ++ es) = lastOf (readBy call) log :=
      lastOf_append_of_forall_none log fun e he => readBy_of_call_ne (hes e he)
    exact { hsnapshot with
      observed := hstep.observed hsnapshot.observed
      logged := hlast.trans hsnapshot.logged }
  · rw [happends]
    exact h

theorem HeldOk.mono {held : Held P} (h : HeldOk codec db held) (hstep : TableStep db db') : HeldOk codec db' held :=
  { h with observed := hstep.observed h.observed }

section

variable (h : Matches codec contents db)

include h

theorem Matches.find_some (hfind : db.tasks.find key = some row) :
    ∃ held, contents key = some held ∧ RowHolds codec held row := by
  have hrel := h key
  rw [hfind] at hrel
  cases hcontents : contents key with
  | none =>
    rw [hcontents] at hrel
    cases hrel
  | some held =>
    rw [hcontents] at hrel
    cases hrel with
    | some hholds => exact ⟨held, rfl, hholds⟩

theorem Matches.contents_eq {read : Task}
    (hfind : db.tasks.find key = some row) (hparse : codec.parse row.taskProto = some read) :
    contents key = some ⟨row.createdSequence.val, read⟩ ∧ cString read.id = key := by
  obtain ⟨held, hcontents, hholds⟩ := h.find_some hfind
  rw [hholds.payload] at hparse
  obtain rfl := codec.exact held.task read hparse
  refine ⟨?_, hholds.key.symm.trans (Table.find_key hfind)⟩
  rw [hcontents, hholds.number]

theorem Matches.put (htasks : db'.tasks = db.tasks.put row) {held : Incarnation}
    (hholds : RowHolds codec held row) : Matches codec (update contents row.id (some held)) db' := by
  intro key
  rw [htasks]
  by_cases hkey : key = row.id
  · rw [hkey, update_self, Table.find_put_self]
    exact .some hholds
  · rw [update_of_ne hkey, Table.find_put_of_ne hkey]
    exact h key

theorem Matches.delete (gone : Bytes) :
    Matches codec (update contents gone none) { db with tasks := db.tasks.delete gone } := by
  intro key
  by_cases hkey : key = gone
  · rw [hkey, update_self, Table.find_delete_self]
    exact .none
  · rw [update_of_ne hkey, Table.find_delete_of_ne hkey]
    exact h key

theorem Matches.untouched (hsame : db'.tasks = db.tasks) : Matches codec contents db' := by
  intro key
  rw [hsame]
  exact h key

end

/-! ## Steps -/

/-- A step of one call, or of nobody's: the table and the log grow, and the others stand as they did. -/
theorem Inv.next (h : Inv codec w) (es : List Event) (owner : Option Nat) (htable : TableStep w.db w'.db)
    (hlog : w'.log = w.log ++ es) (hstored : Matches codec (replay w'.log) w'.db) (hevents : EachEvent EventOk w'.log)
    (hheld : w'.held = w.held) (howner : ∀ e ∈ es, ∀ call, e.call = some call → owner = some call)
    (hothers : ∀ call, owner ≠ some call → w'.calls call = w.calls call)
    (hown : ∀ call, owner = some call → ∃ c, w'.calls call = some c ∧ PhaseOk codec w'.db w'.log call c) :
    Inv codec w' where
  numbered := htable.numbered h.numbered
  stored := hstored
  events := hevents
  idle := by
    intro call hidle
    have hne : owner ≠ some call := by
      intro hEq
      obtain ⟨c, hc, -⟩ := hown call hEq
      rw [hidle] at hc
      cases hc
    rw [hlog, appendsBy_append w.log fun e he hcall => hne (howner e he call hcall)]
    exact h.idle call ((hothers call hne).symm.trans hidle)
  calls := by
    intro call c hc
    by_cases hEq : owner = some call
    · obtain ⟨c', hc', hphase⟩ := hown call hEq
      cases hc'.symm.trans hc
      exact hphase
    · rw [hothers call hEq] at hc
      rw [hlog]
      exact (h.calls call c hc).mono htable fun e he hcall => hEq (howner e he call hcall)
  held := by
    intro client held hclient
    rw [hheld] at hclient
    exact (h.held client held hclient).mono htable

theorem Inv.setPhase (h : Inv codec w) (hsame : w.db.Untouched db)
    (hphase : PhaseOk codec db w.log call { c with phase }) : Inv codec { w.setPhase call c phase with db } := by
  refine h.next [] (some call) (.untouched hsame) (append_nil _).symm
    (h.stored.untouched hsame.tasks) h.events rfl (fun _ he => absurd he not_mem_nil) ?_ ?_
  · intro other hother
    exact update_of_ne (fun hEq => hother (congrArg some hEq.symm)) _ _
  · intro other hother
    cases hother
    exact ⟨_, update_self _ _ _, hphase⟩

theorem Inv.logOwn (h : Inv codec w) (hcall : event.call = some call) (htable : TableStep w.db db)
    (hevent : EventOk w.log event) (hstored : Matches codec (replay (w.log ++ [event])) db)
    (hphase : PhaseOk codec db (w.log ++ [event]) call { c with phase }) :
    Inv codec { w.setPhase call c phase with db, log := w.log ++ [event] } := by
  refine h.next [event] (some call) htable rfl hstored
    (eachEvent_append_singleton.mpr ⟨h.events, hevent⟩) rfl ?_ ?_ ?_
  · intro e he other hother
    rw [mem_singleton.mp he, hcall] at hother
    exact hother
  · intro other hother
    exact update_of_ne (fun hEq => hother (congrArg some hEq.symm)) _ _
  · intro other hother
    cases hother
    exact ⟨_, update_self _ _ _, hphase⟩

theorem Inv.logOther (h : Inv codec w) (hcall : event.call = none) (htable : TableStep w.db db)
    (hevent : EventOk w.log event) (hstored : Matches codec (replay (w.log ++ [event])) db) :
    Inv codec { w with db, log := w.log ++ [event] } := by
  refine h.next [event] none htable rfl hstored (eachEvent_append_singleton.mpr ⟨h.events, hevent⟩) rfl ?_
    (fun _ _ => rfl) nofun
  intro e he other hother
  rw [mem_singleton.mp he, hcall] at hother
  cases hother

theorem wrote_none (w : World P) (db : Database P) : w.wrote db none = { w with db } := by
  show ({ w with db, log := w.log ++ [] } : World P) = { w with db }
  rw [append_nil]

/-- The number that the log records for a written task is that of its row. -/
theorem incarnationOf_of_put (htasks : db'.tasks = db.tasks.put row) {task : Task} (hkey : row.id = cString task.id) :
    World.incarnationOf db' task = ⟨row.createdSequence.val, task⟩ := by
  have hfind : db'.tasks.find (cString task.id) = some row := by
    rw [htasks, ← hkey]
    exact Table.find_put_self row
  rw [World.incarnationOf, hfind]
  rfl

/-- A call that wrote at most one task has its event in the log. -/
theorem Inv.wrote (h : Inv codec w) {call : TaskStoreCall} {written : Option Task}
    {store' : PostgresTaskStore P} (heffect : PostgresTaskStore.Effect pg codec w.store call written store') :
    Inv codec (w.wrote store'.database written) := by
  cases heffect with
  | silent untouched =>
    rw [wrote_none]
    exact h.next [] none (.untouched untouched) (append_nil _).symm
      (h.stored.untouched untouched.tasks) h.events rfl (fun _ he => absurd he not_mem_nil)
      (fun _ _ => rfl) (fun _ hEq => nomatch hEq)
  | @wrote _ task row _ write hkey payload _ =>
    let held : Incarnation := ⟨row.createdSequence.val, task⟩
    have hworld : w.wrote store'.database (some task) =
        { w with db := store'.database, log := w.log ++ [.stored row.id held] } := by
      show ({ w with
        db := store'.database
        log := w.log ++ [.stored (cString task.id) (World.incarnationOf store'.database task)] } : World P) = _
      rw [incarnationOf_of_put write.tasks hkey, hkey]
    rw [hworld]
    refine h.logOther rfl (.wrote write) trivial ?_
    rw [replay_append_singleton]
    exact h.stored.put write.tasks ⟨rfl, payload, hkey⟩

theorem Inv.deleteRow (h : Inv codec w) (key : Bytes) :
    Inv codec { w with
      db := { w.db with tasks := w.db.tasks.delete key }
      log := w.log ++ [.deleted key] } := by
  refine h.logOther rfl (.deleted key) trivial ?_
  rw [replay_append_singleton]
  exact h.stored.delete key

open PostgresTaskStore

theorem Inv.getSnapshot (h : Inv codec w) (client : Nat) {id : Bytes} {snapshot : TaskSnapshot}
    (hread : w.store.getSnapshot pg codec id = .ok snapshot) (hfind : w.db.tasks.find (cString id) = some row) :
    Inv codec { w with held := update w.held client (some ⟨id, snapshot, row⟩) } := by
  have hsnapshot : codec.parse row.taskProto = some snapshot.task ∧ snapshot.revision = row.revision.toUInt64 := by
    unfold PostgresTaskStore.getSnapshot at hread
    split_ifs at hread
    obtain ⟨-, row', hfind', hparse⟩ := selectRow_eq_ok hread
    cases hfind'.symm.trans hfind
    obtain ⟨task, htask, rfl⟩ := parsed_of_map hparse
    exact ⟨htask, rfl⟩
  refine { h with held := ?_ }
  intro other held hother
  by_cases hEq : other = client
  · subst hEq
    cases (update_self other _ w.held).symm.trans hother
    exact ⟨observed_of_find h.numbered hfind, Table.find_key hfind, hsnapshot.1, hsnapshot.2⟩
  · have hold : w.held other = some held := (update_of_ne hEq _ w.held).symm.trans hother
    exact h.held other held hold

/-- The read of an attempt: what it answers is what the log says is stored. -/
theorem Inv.read_ok (h : Inv codec w) (hread : w.store.selectTaskHistorySnapshot pg codec c.taskId = .ok snapshot)
    (hevent : event = .read call (cString c.taskId) ⟨snapshot.createdSequence.toNat, snapshot.task⟩) :
    EventOk w.log event ∧ ∃ seen, SnapshotOk codec w.db (w.log ++ [event]) call c snapshot seen := by
  obtain ⟨-, row, hfind, hsnapshot⟩ := selectRow_eq_ok hread
  obtain ⟨read, hparse, rfl⟩ := parsed_of_map hsnapshot
  obtain ⟨hcontents, hkey⟩ := h.stored.contents_eq hfind hparse
  subst hevent
  refine ⟨?_, row, observed_of_find h.numbered hfind, Table.find_key hfind, hkey, hparse, rfl, rfl, ?_⟩
  · show replay w.log (cString c.taskId) = some ⟨row.createdSequence.toUInt64.toNat, read⟩
    rw [Bigint.toNat_toUInt64]
    exact hcontents
  · rw [lastOf_append_singleton, readBy, if_pos rfl]
    rfl

/-- The first statement of an append reads, and may find a duplicate. -/
theorem Inv.readHistory (h : Inv codec w) (hnone : appendsBy call w.log = []) (attempts : Nat)
    (serialize : Serializer) : Inv codec (readHistory pg codec w call c attempts serialize) := by
  unfold PostgresClients.readHistory
  cases hread : w.store.selectTaskHistorySnapshot pg codec c.taskId with
  | error e => exact h.setPhase (.refl _) hnone
  | ok snapshot =>
    dsimp only
    generalize hseen : read call (cString c.taskId) ⟨snapshot.createdSequence.toNat, snapshot.task⟩ = event
    obtain ⟨hevent, seen, hsnapshot⟩ := h.read_ok hread hseen.symm
    have hcall : event.call = some call := by rw [← hseen]; rfl
    have hstored : Matches codec (replay (w.log ++ [event])) w.db := by
      rw [replay_append_singleton, ← hseen]
      exact h.stored
    have hnone' : appendsBy call (w.log ++ [event]) = [] := by
      rw [appendsBy, filter_append, ← hseen]
      exact (append_nil _).trans hnone
    cases findHistoryDedupeReason serialize snapshot.task.history c.message c.policy with
    | some reason => exact h.logOwn hcall (.untouched (.refl _)) hevent hstored hnone'
    | none =>
      exact h.logOwn hcall (.untouched (.refl _)) hevent hstored ⟨hnone', seen, { hsnapshot with }⟩

/-- An update finds the row that the attempt has read: no other has both its counters. -/
theorem SnapshotOk.found {old : TaskRow P} (h : SnapshotOk codec db log call c snapshot seen)
    (hfind : db.tasks.find (cString snapshot.task.id) = some old)
    (hrevision : old.revision.val = snapshot.revision.toNat)
    (hsequence : old.createdSequence.val = snapshot.createdSequence.toNat) : old = seen := by
  rw [h.taskKey, ← h.rowKey] at hfind
  rw [h.revision, Bigint.toNat_toUInt64] at hrevision
  rw [h.createdSequence, Bigint.toNat_toUInt64] at hsequence
  exact (h.observed.current old hfind (Subtype.ext hsequence)).2 (Subtype.ext hrevision)

/-- An update finds what its attempt has read, still stored, and adds the message to that. -/
theorem Inv.append_ok (h : Inv codec w) (hseen : SnapshotOk codec w.db w.log call c snapshot seen)
    (hfind : w.db.tasks.find (cString c.taskId) = some seen) {now : Int} {advanced : TaskRow P}
    (hadvanced : seen.advance now = .ok advanced)
    (hwrote : w.db.Wrote db { advanced with taskProto := codec.serialize (snapshot.task.addHistory c.message) })
    (hevent : event = .appended call (cString c.taskId) c.message
      ⟨snapshot.createdSequence.toNat, snapshot.task.addHistory c.message⟩) :
    EventOk w.log event ∧ Matches codec (replay (w.log ++ [event])) db := by
  obtain ⟨hcontents, -⟩ := h.stored.contents_eq hfind hseen.task
  have hnumber : seen.createdSequence.val = snapshot.createdSequence.toNat := by
    rw [hseen.createdSequence, Bigint.toNat_toUInt64]
  rw [hnumber] at hcontents
  subst hevent
  refine ⟨⟨_, hseen.logged, hcontents, rfl⟩, ?_⟩
  obtain ⟨_, -, rfl⟩ := advance_eq_ok_iff.mp hadvanced
  rw [replay_append_singleton, apply, hcontents, ← hseen.rowKey]
  exact h.stored.put hwrote.tasks ⟨hnumber, rfl, hseen.rowKey.trans hseen.taskKey.symm⟩

/-- The second statement of an append: a write, a retry or a failure. -/
theorem Inv.writeHistory (h : Inv codec w) (hnone : appendsBy call w.log = []) (attempts : Nat)
    (hseen : SnapshotOk codec w.db w.log call c snapshot seen) (now : Int) :
    Inv codec (writeHistory pg codec w call c attempts snapshot now) := by
  unfold PostgresClients.writeHistory updateTaskHistory execute
  dsimp only
  rcases Database.updateTaskHistory_cases pg now w.store.database (snapshot.task.addHistory c.message).id
      (codec.serialize (snapshot.task.addHistory c.message)) snapshot.revision snapshot.createdSequence with
    ⟨e, hresult⟩ | hresult | ⟨old, advanced, db', hresult, -, hold, hrevision, hsequence, hadvanced, hwrote⟩
  · rw [hresult]
    exact h.setPhase (.refl _) hnone
  · rw [hresult]
    apply h.setPhase (.refl _)
    cases attempts with
    | zero | succ => exact hnone
  · rw [hresult]
    -- the row that is found has both counters of the row that was read, so it is that row
    obtain rfl := hseen.found hold hrevision hsequence
    have hfind : w.db.tasks.find (cString c.taskId) = some old := hseen.taskKey ▸ hold
    obtain ⟨hevent, hstored⟩ := h.append_ok hseen hfind hadvanced hwrote rfl
    refine h.logOwn rfl (.wrote hwrote) hevent hstored ⟨snapshot.createdSequence.toNat, ?_⟩
    exact (appendsBy_append_own w.log call _ _ _).trans (congrArg (· ++ _) hnone)

/-- Every statement of every client keeps the invariant. -/
theorem inv_step (pg : Postgres) {action : Action} (h : Inv codec w)
    (hstep : (clients pg codec).step w action = some w') : Inv codec w' := by
  cases action with
  | beginAppend call taskId message policy =>
    cases hcall : w.calls call with
    | some c => simp [clients, step, hcall] at hstep
    | none =>
      simp only [clients, step, hcall, Option.some.injEq] at hstep
      subst hstep
      have hnone := h.idle call hcall
      let c : AppendCall := ⟨taskId, message, policy, .reading 0⟩
      have hphase : PhaseOk codec w.db w.log call { c with
          phase := if taskId.isEmpty then .returned (.error (.validation kTaskIdRequiredMessage)) false
            else .reading kTaskHistoryRevisionRetryLimit } := by
        unfold PhaseOk
        dsimp only
        split_ifs
        · exact hnone
        · exact hnone
      exact h.setPhase (.refl _) hphase
  | readHistory call serialize =>
    obtain ⟨c, attempts, hcall, hphase, rfl⟩ := step_readHistory_iff.mp hstep
    have hok := h.calls call c hcall
    rw [PhaseOk, hphase] at hok
    exact h.readHistory hok attempts serialize
  | writeHistory call now =>
    obtain ⟨c, attempts, snapshot, hcall, hphase, rfl⟩ := step_writeHistory_iff.mp hstep
    have hok := h.calls call c hcall
    rw [PhaseOk, hphase] at hok
    obtain ⟨hnone, seen, hseen⟩ := hok
    exact h.writeHistory hnone attempts hseen now
  | getSnapshot client id =>
    simp only [clients, step] at hstep
    split at hstep
    · next snapshot row hread hfind =>
        cases hstep
        exact h.getSnapshot client hread hfind
    · cases hstep
      exact h
  | createOrUpdate task now =>
    cases hstep
    exact h.wrote effect_createOrUpdate
  | createOrUpdateIfRevision task expectedRevision now =>
    cases hstep
    exact h.wrote effect_createOrUpdateIfRevision
  | cancel id now =>
    cases hstep
    exact h.wrote effect_cancel
  | deleteRow key =>
    cases hstep
    exact h.deleteRow key

theorem inv_reachable (h : (clients pg codec).Reachable w) : Inv codec w :=
  h.invariant (inv_start pg) fun _ _ _ => inv_step pg

end A2A.Server.Stores.PostgresClients
