/-
# The five containers of the store always describe one map.
-/
import A2A.Server.Tasks.InMemoryTaskStore

namespace A2A.Server.Tasks.InMemoryTaskStore

open A2A.Foundation A2A.Core Option List

/-! ## Entries -/

/-- A stored task with its revision and update time. -/
structure Entry where
  task : Task
  revision : UInt64
  updatedAt : Int64

def Entry.cursor (e : Entry) : ListTaskCursor := ⟨e.updatedAt, e.task.id⟩

/-- A stored task has an id, a non-negative update time, and no more writes than that time has room for. -/
structure Entry.Ok (e : Entry) : Prop where
  id_ne : e.task.id ≠ []
  time_nonneg : 0 ≤ e.updatedAt.toInt
  revision_pos : 1 ≤ e.revision.toNat
  revision_le : (e.revision.toNat : Int) ≤ e.updatedAt.toInt + 1

/-- The entry at a position of the vectors. -/
def rowAt (store : InMemoryTaskStore) (index : Nat) : Option Entry :=
  match store.orderedTasks[index]?, store.revisions[index]?, store.updatedAt[index]? with
  | some task, some revision, some updatedAt => some ⟨task, revision, updatedAt⟩
  | _, _, _ => none

def entryOf (store : InMemoryTaskStore) (id : Bytes) : Option Entry :=
  (store.taskIndices.lookup id).bind store.rowAt

variable {store : InMemoryTaskStore} {index : Nat} {e : Entry}

theorem rowAt_eq_some :
    store.rowAt index = some e ↔
      store.orderedTasks[index]? = some e.task ∧ store.revisions[index]? = some e.revision ∧
        store.updatedAt[index]? = some e.updatedAt := by
  unfold rowAt
  constructor
  · intro h
    split at h
    · rename_i task revision updatedAt htask hrevision hupdated
      cases h
      exact ⟨htask, hrevision, hupdated⟩
    · cases h
  · rintro ⟨htask, hrevision, hupdated⟩
    simp [htask, hrevision, hupdated]

theorem getD_task_of_row (hrow : store.rowAt index = some e) : store.orderedTasks.getD index {} = e.task := by
  rw [getD_eq_getElem?_getD, (rowAt_eq_some.mp hrow).1, getD_some]

theorem getD_revision_of_row (hrow : store.rowAt index = some e) : store.revisions.getD index 0 = e.revision := by
  rw [getD_eq_getElem?_getD, (rowAt_eq_some.mp hrow).2.1, getD_some]

theorem getD_updatedAt_of_row (hrow : store.rowAt index = some e) : store.updatedAt.getD index 0 = e.updatedAt := by
  rw [getD_eq_getElem?_getD, (rowAt_eq_some.mp hrow).2.2, getD_some]

section

variable (hrevisions : store.revisions.length = store.orderedTasks.length)
  (hupdated : store.updatedAt.length = store.orderedTasks.length)

include hrevisions hupdated

theorem exists_row_of_lengths {task : Task}
    (htask : store.orderedTasks[index]? = some task) : ∃ e, store.rowAt index = some e ∧ e.task = task := by
  have hlt : index < store.orderedTasks.length := (List.getElem?_eq_some_iff.mp htask).1
  obtain ⟨revision, hrevision⟩ : ∃ revision, store.revisions[index]? = some revision :=
    ⟨_, List.getElem?_eq_getElem (by omega)⟩
  obtain ⟨updatedAt, htime⟩ : ∃ updatedAt, store.updatedAt[index]? = some updatedAt :=
    ⟨_, List.getElem?_eq_getElem (by omega)⟩
  exact ⟨⟨task, revision, updatedAt⟩, rowAt_eq_some.mpr ⟨htask, hrevision, htime⟩, rfl⟩

/-- "A stored task with this property" in terms of the vectors and in terms of rows. -/
theorem exists_task_iff_exists_row (index : Nat) (id : Bytes) :
    (∃ task : Task, store.orderedTasks[index]? = some task ∧ task.id = id) ↔
      ∃ e, store.rowAt index = some e ∧ e.task.id = id := by
  constructor
  · rintro ⟨task, htask, hid⟩
    obtain ⟨e, he, rfl⟩ := exists_row_of_lengths hrevisions hupdated htask
    exact ⟨e, he, hid⟩
  · rintro ⟨e, he, hid⟩
    exact ⟨e.task, (rowAt_eq_some.mp he).1, hid⟩

theorem exists_time_iff_exists_cursor (cursor : ListTaskCursor) :
    (∃ (index : Nat) (task : Task), store.orderedTasks[index]? = some task ∧
      store.updatedAt[index]? = some cursor.updatedAt ∧ task.id = cursor.taskId) ↔
      ∃ index e, store.rowAt index = some e ∧ e.cursor = cursor := by
  constructor
  · rintro ⟨index, task, htask, htime, hid⟩
    obtain ⟨e, he, rfl⟩ := exists_row_of_lengths hrevisions hupdated htask
    have htime' : e.updatedAt = cursor.updatedAt :=
      Option.some.inj ((rowAt_eq_some.mp he).2.2.symm.trans htime)
    exact ⟨index, e, he, by rw [Entry.cursor, htime', hid]⟩
  · rintro ⟨index, e, he, rfl⟩
    obtain ⟨htask, _, htime⟩ := rowAt_eq_some.mp he
    exact ⟨index, e.task, htask, htime, rfl⟩

end

/-! ## The invariant -/

/-- The vectors are parallel, the index is the map from ids to positions, the ordered set the set of cursors. -/
structure Consistent (store : InMemoryTaskStore) : Prop where
  revisions_length : store.revisions.length = store.orderedTasks.length
  updatedAt_length : store.updatedAt.length = store.orderedTasks.length
  index_iff : ∀ id index, store.taskIndices.lookup id = some index ↔
    ∃ task : Task, store.orderedTasks[index]? = some task ∧ task.id = id
  order_iff : ∀ cursor, cursor ∈ store.updateOrder ↔
    ∃ (index : Nat) (task : Task), store.orderedTasks[index]? = some task ∧
      store.updatedAt[index]? = some cursor.updatedAt ∧ task.id = cursor.taskId

/-- A consistent store of entries that can be written again. -/
structure WellFormed (store : InMemoryTaskStore) : Prop extends Consistent store where
  rows_ok : ∀ index e, store.rowAt index = some e → e.Ok

theorem wellFormed_empty : WellFormed {} where
  revisions_length := rfl
  updatedAt_length := rfl
  index_iff := by
    intro id index
    simp
  order_iff := by
    intro cursor
    simp
  rows_ok := by
    intro index e h
    simp [rowAt] at h

namespace Consistent

variable {store : InMemoryTaskStore} (h : store.Consistent)

include h

theorem index_iff_row (id : Bytes) (index : Nat) :
    store.taskIndices.lookup id = some index ↔ ∃ e, store.rowAt index = some e ∧ e.task.id = id :=
  (h.index_iff id index).trans (exists_task_iff_exists_row h.revisions_length h.updatedAt_length index id)

theorem order_iff_row (cursor : ListTaskCursor) :
    cursor ∈ store.updateOrder ↔ ∃ index e, store.rowAt index = some e ∧ e.cursor = cursor :=
  (h.order_iff cursor).trans (exists_time_iff_exists_cursor h.revisions_length h.updatedAt_length cursor)

/-- Reading the map through the index: an id's entry is the row that carries the id. -/
theorem entryOf_eq_some_iff (id : Bytes) (e : Entry) :
    store.entryOf id = some e ↔ ∃ index, store.rowAt index = some e ∧ e.task.id = id := by
  unfold entryOf
  rw [bind_eq_some_iff]
  constructor
  · rintro ⟨index, hindex, he⟩
    obtain ⟨e', he', hid⟩ := (h.index_iff_row id index).mp hindex
    cases he'.symm.trans he
    exact ⟨index, he, hid⟩
  · rintro ⟨index, he, hid⟩
    exact ⟨index, (h.index_iff_row id index).mpr ⟨e, he, hid⟩, he⟩

theorem entryOf_id {id : Bytes} {e : Entry} (he : store.entryOf id = some e) : e.task.id = id := by
  obtain ⟨_, _, hid⟩ := (h.entryOf_eq_some_iff id e).mp he
  exact hid

theorem entryOf_eq_none_iff (id : Bytes) : store.entryOf id = none ↔ store.taskIndices.lookup id = none := by
  constructor
  · intro hnone
    cases hindex : store.taskIndices.lookup id with
    | none => rfl
    | some index =>
      obtain ⟨e, he, _⟩ := (h.index_iff_row id index).mp hindex
      simp [entryOf, hindex, he] at hnone
  · intro hnone
    simp [entryOf, hnone]

theorem mem_updateOrder_iff (cursor : ListTaskCursor) :
    cursor ∈ store.updateOrder ↔ ∃ e, store.entryOf cursor.taskId = some e ∧ e.cursor = cursor := by
  rw [h.order_iff_row]
  constructor
  · rintro ⟨index, e, he, rfl⟩
    exact ⟨e, (h.entryOf_eq_some_iff _ e).mpr ⟨index, he, rfl⟩, rfl⟩
  · rintro ⟨e, he, hcursor⟩
    obtain ⟨index, hrow, _⟩ := (h.entryOf_eq_some_iff _ e).mp he
    exact ⟨index, e, hrow, hcursor⟩

end Consistent

variable {store : InMemoryTaskStore} {e : Entry} {index : Nat} {task : Task}

theorem WellFormed.entryOf_ok (h : store.WellFormed) {id : Bytes} (he : store.entryOf id = some e) : e.Ok := by
  obtain ⟨index, hrow, _⟩ := (h.entryOf_eq_some_iff id e).mp he
  exact h.rows_ok index e hrow

/-! ## What a successful write does to the containers -/

/-- The entry that a write leaves, given the one it finds. -/
def nextEntry (old : Option Entry) (task : Task) (now : Int64) : Entry :=
  match old with
  | none => ⟨task, kInitialTaskRevision, max 0 now⟩
  | some e => ⟨task, e.revision + 1, max (e.updatedAt + 1) now⟩

@[simp] theorem nextEntry_task (old : Option Entry) (task : Task) (now : Int64) :
    (nextEntry old task now).task = task := by
  cases old <;> rfl

/-- The store after a stored task was touched and overwritten. -/
def rewritten (store : InMemoryTaskStore) (index : Nat) (old : Entry) (task : Task) (now : Int64) :
    InMemoryTaskStore :=
  let time := max (old.updatedAt + 1) now
  { store with
    updateOrder := (store.updateOrder.extract old.cursor).1.insert ⟨time, old.task.id⟩
    updatedAt := store.updatedAt.set index time
    orderedTasks := store.orderedTasks.set index task
    revisions := store.revisions.modify index (· + 1) }

def appended (store : InMemoryTaskStore) (task : Task) (now : Int64) : InMemoryTaskStore :=
  let time := max 0 now
  { store with
    updateOrder := store.updateOrder.insert ⟨time, task.id⟩
    updatedAt := store.updatedAt ++ [time]
    orderedTasks := store.orderedTasks ++ [task]
    revisions := store.revisions ++ [kInitialTaskRevision]
    taskIndices := store.taskIndices.insert task.id store.orderedTasks.length }

theorem touchTask_exhausted (hrow : store.rowAt index = some e) (hmax : e.updatedAt = Int64.maxValue) (now : Int64) :
    store.touchTask index now = (.error (.internal kUpdateTimeExhaustedMessage), store) := by
  obtain ⟨_, _, htime⟩ := rowAt_eq_some.mp hrow
  have hlt : index < store.updatedAt.length := (List.getElem?_eq_some_iff.mp htime).1
  unfold touchTask
  simp only [if_neg (Nat.ne_of_lt hlt), getD_updatedAt_of_row hrow, hmax, if_true]

/-- A stored task whose time can advance is touched, and its cursor moves. -/
theorem touchTask_putTask (h : store.Consistent) (hrow : store.rowAt index = some e)
    (hmax : e.updatedAt ≠ Int64.maxValue) (task : Task) (now : Int64) :
    ∃ touched, store.touchTask index now = (.ok (), touched) ∧
      touched.putTask index task = store.rewritten index e task now := by
  obtain ⟨_, _, htime⟩ := rowAt_eq_some.mp hrow
  have hlt : index < store.updatedAt.length := (List.getElem?_eq_some_iff.mp htime).1
  have hnode : (store.updateOrder.extract e.cursor).2 = some e.cursor :=
    OrderedSet.extract_snd_of_mem ((h.order_iff_row _).mpr ⟨index, e, hrow, rfl⟩)
  refine ⟨{ store with
    updateOrder := (store.updateOrder.extract e.cursor).1.insert ⟨max (e.updatedAt + 1) now, e.task.id⟩
    updatedAt := store.updatedAt.set index (max (e.updatedAt + 1) now) }, ?_, rfl⟩
  unfold touchTask
  simp only [if_neg (Nat.ne_of_lt hlt), getD_updatedAt_of_row hrow, getD_task_of_row hrow, if_neg hmax]
  rw [show (⟨e.updatedAt, e.task.id⟩ : ListTaskCursor) = e.cursor from rfl, hnode]
  rfl

theorem appendTask_eq (h : store.Consistent) (habsent : store.taskIndices.lookup task.id = none) (now : Int64) :
    store.appendTask task now = (.ok (), store.appended task now) := by
  have hlength : (store.orderedTasks ++ [task]).length - 1 = store.orderedTasks.length := by simp
  have hid : ((store.orderedTasks ++ [task]).getD store.orderedTasks.length {}).id = task.id := by
    simp
  unfold appendTask touchTask
  simp only [habsent, isSome_none, Bool.false_eq_true, if_false, hlength, h.updatedAt_length, if_true, hid]
  rfl

/-! ### Rows after a write -/

theorem rowAt_rewritten (hrow : store.rowAt index = some e) (task : Task) (now : Int64) (j : Nat) :
    (store.rewritten index e task now).rowAt j =
      if j = index then some (nextEntry (some e) task now) else store.rowAt j := by
  obtain ⟨htask, hrevision, htime⟩ := rowAt_eq_some.mp hrow
  by_cases hj : j = index
  · subst hj
    have h1 : j < store.orderedTasks.length := (List.getElem?_eq_some_iff.mp htask).1
    have h2 : j < store.updatedAt.length := (List.getElem?_eq_some_iff.mp htime).1
    rw [if_pos rfl, rowAt_eq_some]
    refine ⟨?_, ?_, ?_⟩
    · simp [rewritten, h1]
    · simp [rewritten, nextEntry, hrevision]
    · simp [rewritten, nextEntry, h2]
  · have hj' : ¬ index = j := fun hEq => hj hEq.symm
    rw [if_neg hj]
    simp only [rowAt, rewritten, List.getElem?_set_ne hj', List.getElem?_modify, if_neg hj']
    simp

theorem rowAt_appended (h : store.Consistent) (task : Task) (now : Int64) (j : Nat) :
    (store.appended task now).rowAt j =
      if j = store.orderedTasks.length then some (nextEntry none task now) else store.rowAt j := by
  have hr := h.revisions_length
  have hu := h.updatedAt_length
  by_cases hj : j = store.orderedTasks.length
  · subst hj
    rw [if_pos rfl, rowAt_eq_some]
    refine ⟨?_, ?_, ?_⟩
    · simp [appended]
    · simp [appended, nextEntry, ← hr]
    · simp [appended, nextEntry, ← hu]
  · rw [if_neg hj]
    have hcase : j < store.orderedTasks.length ∨ store.orderedTasks.length + 1 ≤ j := by omega
    rcases hcase with hlt | hge
    · simp only [rowAt, appended, List.getElem?_append_left hlt,
        List.getElem?_append_left (hr ▸ hlt), List.getElem?_append_left (hu ▸ hlt)]
    · have hnew : (store.orderedTasks ++ [task])[j]? = none := by simpa using hge
      have hold : store.orderedTasks[j]? = none := by simp; omega
      simp only [rowAt, appended, hnew, hold]

/-! ### The invariant after a write -/

/-- One more write costs one time unit, so the 64-bit increment is the increment of a number. -/
theorem Entry.Ok.advance (h : e.Ok) (hmax : e.updatedAt ≠ Int64.maxValue) (hid : task.id = e.task.id) (now : Int64) :
    (nextEntry (some e) task now).Ok ∧ (e.revision + 1).toNat = e.revision.toNat + 1 ∧
      e.updatedAt < max (e.updatedAt + 1) now := by
  have hsucc := int64_toInt_succ hmax
  have hlater : e.updatedAt + 1 ≤ max (e.updatedAt + 1) now := le_max_left _ _
  have hlater' := Int64.le_iff_toInt_le.mp hlater
  have hhi := (max (e.updatedAt + 1) now).toInt_lt
  have htime := h.time_nonneg
  have hrevision := h.revision_le
  have hstep : (e.revision + 1).toNat = e.revision.toNat + 1 := by
    apply uint64_toNat_succ
    omega
  refine ⟨⟨?_, ?_, ?_, ?_⟩, hstep, lt_of_lt_of_le (int64_lt_succ hmax) hlater⟩
  · show task.id ≠ []
    rw [hid]
    exact h.id_ne
  · show 0 ≤ (max (e.updatedAt + 1) now).toInt
    omega
  · show 1 ≤ (e.revision + 1).toNat
    omega
  · show ((e.revision + 1).toNat : Int) ≤ (max (e.updatedAt + 1) now).toInt + 1
    omega

theorem Entry.Ok.initial (hid : task.id ≠ []) (now : Int64) : (nextEntry none task now).Ok := by
  have htime : (0 : Int) ≤ (max 0 now : Int64).toInt := Int64.le_iff_toInt_le.mp (le_max_left 0 now)
  refine ⟨hid, htime, ?_, ?_⟩
  · show 1 ≤ kInitialTaskRevision.toNat
    decide
  · show (kInitialTaskRevision.toNat : Int) ≤ (max 0 now : Int64).toInt + 1
    have hone : kInitialTaskRevision.toNat = 1 := by decide
    omega

/-- `store'` holds `new` at `index`, where no other task stood, and is `store` everywhere else. -/
structure RowWritten (store store' : InMemoryTaskStore) (index : Nat) (new : Entry) : Prop where
  revisions_length : store'.revisions.length = store'.orderedTasks.length
  updatedAt_length : store'.updatedAt.length = store'.orderedTasks.length
  rows : ∀ j, store'.rowAt j = if j = index then some new else store.rowAt j
  indices : ∀ id, store'.taskIndices.lookup id =
    if id = new.task.id then some index else store.taskIndices.lookup id
  own : ∀ id, store.taskIndices.lookup id = some index → id = new.task.id
  alone : ∀ j, store.taskIndices.lookup new.task.id = some j → j = index
  order : ∀ cursor, cursor ∈ store'.updateOrder ↔
    cursor = new.cursor ∨ cursor ∈ store.updateOrder ∧ cursor.taskId ≠ new.task.id

theorem rowWritten_rewritten (h : store.Consistent) (hrow : store.rowAt index = some e)
    (hid : task.id = e.task.id) (now : Int64) : RowWritten store (store.rewritten index e task now) index
      (nextEntry (some e) task now) := by
  have hindex : store.taskIndices.lookup task.id = some index :=
    (h.index_iff_row _ _).mpr ⟨e, hrow, hid.symm⟩
  refine ⟨by simp [rewritten, h.revisions_length], by simp [rewritten, h.updatedAt_length],
    rowAt_rewritten hrow task now, fun id => ?_, fun id hother => ?_,
    fun j hj => Option.some.inj (hj.symm.trans hindex), fun cursor => ?_⟩
  · split_ifs with hkey
    · exact hkey ▸ hindex
    · rfl
  · obtain ⟨e', he', rfl⟩ := (h.index_iff_row _ _).mp hother
    cases he'.symm.trans hrow
    exact hid.symm
  · show cursor ∈ (store.updateOrder.extract e.cursor).1.insert _ ↔ _
    rw [OrderedSet.mem_insert, OrderedSet.mem_extract, ← hid]
    -- One cursor carries the id, so the extracted one is the only one that goes.
    refine or_congr_right (and_congr_right fun hmem => not_congr ⟨?_, fun (hkey : _ = task.id) => ?_⟩)
    · rintro rfl
      exact hid.symm
    · obtain ⟨e', he', hcursor⟩ := (h.mem_updateOrder_iff cursor).mp hmem
      rw [hkey, entryOf, hindex, bind_some, hrow] at he'
      cases he'
      exact hcursor.symm

theorem rowWritten_appended (h : store.Consistent) (habsent : store.taskIndices.lookup task.id = none)
    (now : Int64) : RowWritten store (store.appended task now) store.orderedTasks.length
      (nextEntry none task now) := by
  refine ⟨by simp [appended, h.revisions_length], by simp [appended, h.updatedAt_length],
    rowAt_appended h task now, fun id => ?_, fun id hother => ?_, fun j hj => ?_, fun cursor => ?_⟩
  · show (store.taskIndices.insert task.id store.orderedTasks.length).lookup id = _
    split_ifs with hkey
    · exact hkey ▸ AList.lookup_insert _
    · exact AList.lookup_insert_ne hkey
  · obtain ⟨_, htask, _⟩ := (h.index_iff _ _).mp hother
    exact absurd htask (by simp)
  · cases habsent.symm.trans hj
  · show cursor ∈ store.updateOrder.insert _ ↔ _
    rw [OrderedSet.mem_insert]
    refine or_congr_right (iff_self_and.mpr fun hmem (hkey : _ = task.id) => ?_)
    obtain ⟨e, he, _⟩ := (h.mem_updateOrder_iff cursor).mp hmem
    rw [hkey, (h.entryOf_eq_none_iff _).mpr habsent] at he
    cases he

namespace RowWritten

variable {store' : InMemoryTaskStore} {new : Entry} (hw : RowWritten store store' index new)
include hw

theorem wellFormed (h : store.WellFormed) (hok : new.Ok) : store'.WellFormed := by
  have hrevisions := hw.revisions_length
  have hupdated := hw.updatedAt_length
  refine ⟨⟨hrevisions, hupdated,
    fun id j => .trans ?_ (exists_task_iff_exists_row hrevisions hupdated j id).symm,
    fun cursor => .trans ?_ (exists_time_iff_exists_cursor hrevisions hupdated cursor).symm⟩, fun j e he => ?_⟩
  · rw [hw.indices, hw.rows]
    by_cases hj : j = index
    · subst hj
      rw [if_pos rfl]
      split_ifs with hid
      · simp [hid]
      · exact ⟨fun hother => absurd (hw.own id hother) hid, by rintro ⟨_, ⟨⟩, rfl⟩; exact absurd rfl hid⟩
    · rw [if_neg hj, ← h.index_iff_row]
      split_ifs with hid
      · subst hid
        exact ⟨by rintro ⟨⟩; exact absurd rfl hj, fun hother => absurd (hw.alone j hother) hj⟩
      · rfl
  · rw [hw.order]
    constructor
    · rintro (rfl | ⟨hmem, hne⟩)
      · exact ⟨index, new, by rw [hw.rows, if_pos rfl], rfl⟩
      · obtain ⟨j, e, he, rfl⟩ := (h.order_iff_row _).mp hmem
        have hj : j ≠ index := by
          rintro rfl
          exact hne (hw.own _ ((h.index_iff_row _ _).mpr ⟨e, he, rfl⟩))
        exact ⟨j, e, by rw [hw.rows, if_neg hj, he], rfl⟩
    · rintro ⟨j, e, he, rfl⟩
      rw [hw.rows] at he
      split_ifs at he with hj
      · cases he
        exact .inl rfl
      · refine .inr ⟨(h.order_iff_row _).mpr ⟨j, e, he, rfl⟩, fun hid => hj (hw.alone j ?_)⟩
        exact (h.index_iff_row _ _).mpr ⟨e, he, hid⟩
  · rw [hw.rows] at he
    split_ifs at he
    · cases he
      exact hok
    · exact h.rows_ok j e he

/-- Seen through the ids, a write changes one entry of the map. -/
theorem entryOf (id : Bytes) : store'.entryOf id = if id = new.task.id then some new else store.entryOf id := by
  rw [InMemoryTaskStore.entryOf, hw.indices]
  split_ifs with hid
  · rw [bind_some, hw.rows, if_pos rfl]
  · rw [InMemoryTaskStore.entryOf]
    cases hother : store.taskIndices.lookup id with
    | none => rfl
    | some j =>
      have hj : j ≠ index := by
        rintro rfl
        exact hid (hw.own id hother)
      rw [bind_some, bind_some, hw.rows, if_neg hj]

end RowWritten

/-! ## What a successful write does to the map -/

/-- A first write gets revision one, a later one the next revision and a strictly later time. -/
def Advances : Option Entry → Entry → Prop
  | none, new => new.revision = kInitialTaskRevision
  | some old, new => new.revision.toNat = old.revision.toNat + 1 ∧ old.updatedAt < new.updatedAt

/-- The store wrote `task` under its id and touched nothing else. -/
structure Wrote (store store' : InMemoryTaskStore) (task : Task) : Prop where
  written : ∃ new, store'.entryOf task.id = some new ∧ new.task = task ∧
    Advances (store.entryOf task.id) new
  frame : ∀ id, id ≠ task.id → store'.entryOf id = store.entryOf id
  positions : ∀ id index, store.taskIndices.lookup id = some index →
    store'.taskIndices.lookup id = some index

/-- The task exists and its update time has reached the largest value. -/
def Exhausted (store : InMemoryTaskStore) (id : Bytes) : Prop :=
  ∃ e, store.entryOf id = some e ∧ e.updatedAt = Int64.maxValue

/-- Writing the next entry of a task that is new, or whose time can advance. -/
theorem RowWritten.wrote {store' : InMemoryTaskStore} {now : Int64} (h : store.WellFormed) (hid : task.id ≠ [])
    (hroom : ¬ store.Exhausted task.id)
    (hw : RowWritten store store' index (nextEntry (store.entryOf task.id) task now)) :
    store'.WellFormed ∧ Wrote store store' task := by
  have hnext : (nextEntry (store.entryOf task.id) task now).Ok ∧
      Advances (store.entryOf task.id) (nextEntry (store.entryOf task.id) task now) := by
    cases hentry : store.entryOf task.id with
    | none => exact ⟨.initial hid now, rfl⟩
    | some e =>
      exact (h.entryOf_ok hentry).advance (fun hmax => hroom ⟨e, hentry, hmax⟩) (h.entryOf_id hentry).symm now
  have hentries := hw.entryOf
  have hindices := hw.indices
  have halone := hw.alone
  rw [nextEntry_task] at hentries hindices halone
  refine ⟨hw.wellFormed h hnext.1, ⟨_, by rw [hentries, if_pos rfl], nextEntry_task .., hnext.2⟩,
    fun id hne => by rw [hentries, if_neg hne], fun id j hj => ?_⟩
  rw [hindices]
  split_ifs with hkey
  · subst hkey
    rw [halone j hj]
  · exact hj

end A2A.Server.Tasks.InMemoryTaskStore
