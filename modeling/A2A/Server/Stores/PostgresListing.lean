/-
# The list statements read on the tasks and not on the columns.
-/
import A2A.Server.Stores.PostgresStoreEffects
import A2A.Server.Tasks.Pagination

namespace A2A.Server.Stores

open A2A.Foundation A2A.Core A2A.Server.Tasks InMemoryTaskStore List

variable {P : Type}

/-! ## Texts without a NUL byte -/

/-- The byte string has no NUL byte and is text for the server. -/
structure IsText (pg : Postgres) (text : Bytes) : Prop where
  noNul : 0 ∉ text
  valid : pg.validText text = true

variable {text : Bytes} {pg : Postgres}

theorem cString_of_noNul (h : 0 ∉ text) : cString text = text := by
  rw [cString, takeWhile_eq_self_iff]
  intro byte hbyte
  have hne : byte ≠ 0 := fun hzero => h (hzero ▸ hbyte)
  simpa using hne

theorem IsText.cString_eq (h : IsText pg text) : cString text = text :=
  cString_of_noNul h.noNul

theorem IsText.valid_cString (h : IsText pg text) : pg.validText (cString text) := by
  rw [h.cString_eq]
  exact h.valid

/-! ## Rows and entries -/

/-- The row stores the entry: payload and columns are those of its task. -/
structure RowMatches (codec : TaskCodec P) (e : Entry) (row : TaskRow P) : Prop where
  id : row.id = e.task.id
  assigned : (taskParameters codec e.task).assign row = row
  revision : row.revision.val = e.revision.toNat
  updatedAt : row.updatedAt = e.updatedAt.toInt

/-- The texts of the entry pass through C strings, and its payload parses. -/
structure EntryOk (pg : Postgres) (codec : TaskCodec P) (e : Entry) : Prop where
  id : IsText pg e.task.id
  contextId : IsText pg e.task.contextId
  parses : codec.parse (codec.serialize e.task) = some e.task

theorem assign_eq_self_iff {parameters : TaskParameters P} {row : TaskRow P} :
    parameters.assign row = row ↔ row.contextId = parameters.contextId ∧ row.state = parameters.state ∧
        row.hasStatusTimestamp = parameters.hasStatusTimestamp ∧
        row.statusSeconds = parameters.statusSeconds ∧ row.statusNanos = parameters.statusNanos ∧
        row.taskProto = parameters.payload := by
  obtain ⟨⟩ := row
  simp [TaskParameters.assign, eq_comm]

section Columns

variable {pg : Postgres} {codec : TaskCodec P} {e : Entry} {row : TaskRow P}

namespace RowMatches

variable (h : RowMatches codec e row)

include h

theorem taskProto : row.taskProto = codec.serialize e.task := by
  rw [← h.assigned]
  rfl

theorem parse (hok : EntryOk pg codec e) : codec.parse row.taskProto = some e.task := by
  rw [h.taskProto]
  exact hok.parses

theorem toUInt64_revision : row.revision.toUInt64 = e.revision := by
  apply UInt64.toNat_inj.mp
  rw [Bigint.toNat_toUInt64, h.revision]

theorem ofInt_updatedAt : Int64.ofInt row.updatedAt = e.updatedAt := by
  rw [h.updatedAt, Int64.ofInt_toInt]

theorem contextId (hok : EntryOk pg codec e) : row.contextId = e.task.contextId := by
  rw [← h.assigned]
  exact hok.contextId.cString_eq

theorem state : row.state = e.task.state := by
  rw [← h.assigned]
  rfl

theorem hasStatusTimestamp : row.hasStatusTimestamp = e.task.statusOr.timestamp.isSome := by
  rw [← h.assigned]
  rfl

theorem statusSeconds : row.statusSeconds = (e.task.statusOr.timestamp.map Timestamp.seconds).getD 0 := by
  rw [← h.assigned]
  rfl

theorem statusNanos : row.statusNanos = (e.task.statusOr.timestamp.map Timestamp.nanos).getD 0 := by
  rw [← h.assigned]
  rfl

/-- The cutoff reads three columns where `HasStatusAfterCutoff` reads the timestamp. -/
theorem cutoff (cutoff : Timestamp) :
    (row.hasStatusTimestamp && (decide (row.statusSeconds > cutoff.seconds) ||
      (row.statusSeconds == cutoff.seconds && decide (row.statusNanos ≥ cutoff.nanos)))) =
      hasStatusAfterCutoff e.task cutoff := by
  rw [h.hasStatusTimestamp, h.statusSeconds, h.statusNanos, hasStatusAfterCutoff]
  cases e.task.statusOr.timestamp <;> rfl

/-- The SQL filter selects a row exactly if `MatchesListFilters` selects its task. -/
theorem taskListFilter (hok : EntryOk pg codec e) {request : ListTasksRequest}
    (hcontext : IsText pg request.contextId) : taskListFilter request row = matchesListFilters e.task request := by
  rw [Bool.eq_iff_iff, matchesListFilters_iff, Stores.taskListFilter, h.contextId hok, h.state, hcontext.cString_eq]
  simp only [h.cutoff, Bool.and_eq_true, Bool.or_eq_true, List.isEmpty_iff, beq_iff_eq, and_assoc]
  refine and_congr Iff.rfl (and_congr ?_ ?_)
  · cases request.statusFilter with
    | none | some => simp
  · cases request.statusTimestampAfter with
    | none | some => simp

end RowMatches

/-- The cursor that a page token would name for the row. -/
def TaskRow.cursor (row : TaskRow P) : ListTaskCursor := ⟨Int64.ofInt row.updatedAt, row.id⟩

theorem RowMatches.cursor (h : RowMatches codec e row) : row.cursor = e.cursor := by
  rw [TaskRow.cursor, h.ofInt_updatedAt, h.id]
  rfl

/-- The row comparison selects a row exactly if the cursor precedes that of its task. -/
theorem RowMatches.beyondBoundary (h : RowMatches codec e row) {boundary : Option ListTaskCursor}
    (htexts : ∀ cursor ∈ boundary, IsText pg cursor.taskId) :
    beyondBoundary boundary row ↔ After boundary e.cursor := by
  cases boundary with
  | none => simp [Stores.beyondBoundary, After]
  | some cursor =>
    have htext : cString cursor.taskId = cursor.taskId := (htexts cursor rfl).cString_eq
    have hAfter : After (some cursor) e.cursor ↔ CursorOrder cursor e.cursor := by
      simp [After]
    rw [hAfter, cursorOrder_iff, Stores.beyondBoundary, Option.all_some, htext, h.updatedAt, h.id]
    simp only [Bool.or_eq_true, Bool.and_eq_true, decide_eq_true_eq, Entry.cursor,
      Int64.lt_iff_toInt_lt, Int64.toInt_inj, eq_comm (a := cursor.updatedAt)]

end Columns

/-! ## Filling a page -/

abbrev ListItem := Task × ListTaskCursor

/-- The loop that fills a page from matching tasks; where there is no more room it leaves a token. -/
def fillPage (request : ListTasksRequest) : List ListItem → ListTasksResponse → ListTasksResponse
  | [], response => response
  | (task, cursor) :: rest, response =>
    if request.pageSize ≠ 0 ∧ response.tasks.length = request.pageSize then
      { response with
        nextPageToken := encodeListPageToken (response.taskCursors.getLast?.getD {}) }
    else
      fillPage request rest
        { response with
          tasks := response.tasks ++
            [projectTaskForList task request.includeArtifacts request.historyLength]
          taskCursors := response.taskCursors ++ [cursor] }

def itemOf (e : Entry) : ListItem := (e.task, e.cursor)

variable {codec : TaskCodec P} {request : ListTasksRequest} {response : ListTasksResponse} {items : List ListItem}

/-- The in-memory loop fills the page from the entries that pass the filters. -/
theorem listFrom_eq_fillPage {store : InMemoryTaskStore} {entries : List Entry}
    (hentries : ∀ e ∈ entries, store.taskAt e.task.id = e.task) :
    store.listFrom request (entries.map Entry.cursor) response =
      fillPage request ((entries.filter (Entry.passes request)).map itemOf) response := by
  induction entries generalizing response with
  | nil => rfl
  | cons e entries ih =>
    have htask : store.taskAt e.cursor.taskId = e.task := hentries e mem_cons_self
    have hrest : ∀ e' ∈ entries, store.taskAt e'.task.id = e'.task :=
      fun e' he' => hentries e' (mem_cons_of_mem e he')
    simp only [map_cons, listFrom, htask]
    by_cases hmatch : matchesListFilters e.task request
    · have hkeep : (e :: entries).filter (Entry.passes request) =
          e :: entries.filter (Entry.passes request) := filter_cons_of_pos hmatch
      rw [hkeep, if_neg (by simp [hmatch])]
      simp only [map_cons, itemOf, fillPage]
      split_ifs
      · rfl
      · exact ih hrest
    · have hskip : (e :: entries).filter (Entry.passes request) =
          entries.filter (Entry.passes request) := filter_cons_of_neg hmatch
      rw [hskip, if_pos (by simp [hmatch])]
      exact ih hrest

def rowItem (codec : TaskCodec P) (row : TaskRow P) : ListItem :=
  ((codec.parse row.taskProto).getD {}, row.cursor)

theorem RowMatches.rowItem_eq {pg : Postgres} {e : Entry} {row : TaskRow P} (h : RowMatches codec e row)
    (hok : EntryOk pg codec e) : rowItem codec row = itemOf e := by
  rw [rowItem, h.parse hok, Option.getD_some, h.cursor]
  rfl

/-- The loop fills the page from rows whose payloads parse to their tasks. -/
theorem readTaskListRows_eq_fillPage {rows : List (TaskRow P)}
    (hrows : ∀ row ∈ rows, ∃ task : Task, codec.parse row.taskProto = some task ∧ task.id = row.id) :
    readTaskListRows codec request (rows.map fun row => (row.taskProto, Int64.ofInt row.updatedAt))
      response = .ok (fillPage request (rows.map (rowItem codec)) response) := by
  induction rows generalizing response with
  | nil => rfl
  | cons row rows ih =>
    obtain ⟨task, hparse, hid⟩ := hrows row mem_cons_self
    have hread : parseTaskRow codec row.taskProto = .ok task :=
      PostgresTaskStore.parseTaskRow_eq_ok.mpr hparse
    simp only [map_cons, readTaskListRows, fillPage, rowItem, hread, hparse, Option.getD_some, TaskRow.cursor, hid]
    split_ifs
    · rfl
    · exact ih fun row' hrow' => hrows row' (mem_cons_of_mem row hrow')

/-- One item more than there is room for decides everything that a page says. -/
theorem fillPage_take (hsize : request.pageSize ≠ 0) (hroom : response.tasks.length ≤ request.pageSize) {n : Nat}
    (hn : request.pageSize - response.tasks.length + 1 ≤ n) :
    fillPage request (items.take n) response = fillPage request items response := by
  induction items generalizing response n with
  | nil => rw [take_nil]
  | cons item items ih =>
    obtain ⟨m, rfl⟩ : ∃ m, n = m + 1 := ⟨n - 1, by omega⟩
    obtain ⟨task, cursor⟩ := item
    rw [take_succ_cons]
    simp only [fillPage]
    split_ifs with hfull
    · rfl
    · have hlt : response.tasks.length ≠ request.pageSize := fun heq => hfull ⟨hsize, heq⟩
      apply ih
      · rw [length_append, length_singleton]
        omega
      · rw [length_append, length_singleton]
        omega

theorem fillPage_token (hlength : response.taskCursors.length = response.tasks.length) :
    (fillPage request items response).nextPageToken = response.nextPageToken ∨
      ∃ cursor ∈ response.taskCursors ++ items.map Prod.snd,
        (fillPage request items response).nextPageToken = encodeListPageToken cursor := by
  induction items generalizing response with
  | nil => exact .inl rfl
  | cons item items ih =>
    obtain ⟨task, cursor⟩ := item
    simp only [fillPage]
    split_ifs with hfull
    · refine .inr ?_
      have hne : response.taskCursors ≠ [] := by
        rw [← length_pos_iff, hlength]
        omega
      refine ⟨response.taskCursors.getLast hne, mem_append_left _ (getLast_mem hne), ?_⟩
      rw [List.getLast?_eq_some_getLast hne, Option.getD_some]
    · rw [map_cons, append_cons _ _ (map Prod.snd items)]
      apply ih
      rw [length_append, length_append, hlength]
      rfl

/-- The response with the first of the items and, if it was asked for, the number of all. -/
def listedPage (request : ListTasksRequest) (items : List ListItem) (count : Nat) : ListTasksResponse :=
  let page := fillPage request items { totalSize := if request.includeTotalSize then count else 0 }
  { page with pageSize := page.tasks.length }

theorem listedPage_token {count : Nat} :
    (listedPage request items count).nextPageToken = [] ∨
      ∃ item ∈ items, (listedPage request items count).nextPageToken = encodeListPageToken item.2 := by
  refine (fillPage_token rfl).imp_right ?_
  rintro ⟨cursor, hcursor, htoken⟩
  obtain ⟨item, hitem, rfl⟩ := mem_map.mp hcursor
  exact ⟨item, hitem, htoken⟩

/-! ## The items of both stores -/

/-- The table holds the tasks of the in-memory store, row for entry. -/
structure SameTasks (pg : Postgres) (codec : TaskCodec P) (memory : InMemoryTaskStore) (db : Database P) :
    Prop where
  wellFormed : memory.WellFormed
  rows : ∀ id, Option.Rel (RowMatches codec) (memory.entryOf id) (db.tasks.find id)
  entries : ∀ id e, memory.entryOf id = some e → EntryOk pg codec e

namespace SameTasks

variable {pg : Postgres} {memory : InMemoryTaskStore} {db : Database P} (h : SameTasks pg codec memory db)

include h

variable {id : Bytes} {e : Entry}

theorem find_none (hnone : memory.entryOf id = none) : db.tasks.find id = none := by
  have hrel := h.rows id
  rw [hnone] at hrel
  generalize db.tasks.find id = found at hrel ⊢
  cases hrel
  rfl

theorem find_some (he : memory.entryOf id = some e) : ∃ row, db.tasks.find id = some row ∧ RowMatches codec e row := by
  have hrel := h.rows id
  rw [he] at hrel
  generalize db.tasks.find id = found at hrel ⊢
  cases hrel with
  | some hmatches => exact ⟨_, rfl, hmatches⟩

theorem entry_of_mem {row : TaskRow P} (hrow : row ∈ db.tasks.rows) :
    ∃ e, memory.entryOf row.id = some e ∧ RowMatches codec e row ∧ EntryOk pg codec e := by
  have hfind : db.tasks.find row.id = some row := Table.find_eq_some_iff.mpr ⟨hrow, rfl⟩
  cases he : memory.entryOf row.id with
  | none =>
    rw [h.find_none he] at hfind
    nomatch hfind
  | some e =>
    obtain ⟨row', hfind', hmatches⟩ := h.find_some he
    cases hfind'.symm.trans hfind
    exact ⟨e, rfl, hmatches, h.entries _ _ he⟩

theorem mem_of_entry (he : memory.entryOf e.task.id = some e) : ∃ row ∈ db.tasks.rows, RowMatches codec e row := by
  obtain ⟨row, hfind, hmatches⟩ := h.find_some he
  exact ⟨row, (Table.find_eq_some_iff.mp hfind).1, hmatches⟩

end SameTasks

instance : Std.Total (TaskRow.ListedBefore (P := P)) where
  total := by
    intro lhs rhs
    rcases lt_trichotomy lhs.updatedAt rhs.updatedAt with hlt | heq | hgt
    · exact Or.inr (Or.inl hlt)
    · rcases le_total rhs.id lhs.id with hle | hle
      · exact Or.inl (Or.inr ⟨heq, hle⟩)
      · exact Or.inr (Or.inr ⟨heq.symm, hle⟩)
    · exact Or.inl (Or.inl hgt)

instance : IsTrans (TaskRow P) TaskRow.ListedBefore where
  trans := by
    rintro a b c (hab | ⟨hab, hab'⟩) (hbc | ⟨hbc, hbc'⟩)
    · exact Or.inl (hbc.trans hab)
    · exact Or.inl (hbc ▸ hab)
    · exact Or.inl (hab ▸ hbc)
    · exact Or.inr ⟨hab.trans hbc, hbc'.trans hab'⟩

def ItemOrder (x y : ListItem) : Prop := CursorOrder x.2 y.2

instance : Std.Irrefl ItemOrder := ⟨fun x => irrefl_of CursorOrder x.2⟩

instance : Std.Antisymm ItemOrder := ⟨fun _ _ hxy hyx => absurd hyx (asymm_of CursorOrder hxy)⟩

section Items

variable {pg : Postgres} {memory : InMemoryTaskStore} {db : Database P}

/-- The rows that the page statement has sorted, before its limit. -/
def sortedRows (db : Database P) (request : ListTasksRequest) (boundary : Option ListTaskCursor) :
    List (TaskRow P) :=
  (db.tasks.rows.filter fun row => taskListFilter request row && beyondBoundary boundary row)
    |>.insertionSort TaskRow.ListedBefore

variable {boundary : Option ListTaskCursor} {row : TaskRow P}

theorem mem_sortedRows :
    row ∈ sortedRows db request boundary ↔
      row ∈ db.tasks.rows ∧ taskListFilter request row ∧ beyondBoundary boundary row := by
  rw [sortedRows, mem_insertionSort, mem_filter, Bool.and_eq_true]

theorem length_sortedRows_le : (sortedRows db request boundary).length ≤ db.tasks.rows.length := by
  rw [sortedRows, length_insertionSort]
  exact length_filter_le _ _

/-- Different rows have different ids, so the sorted rows are strictly sorted. -/
theorem pairwise_sortedRows (h : SameTasks pg codec memory db) :
    ((sortedRows db request boundary).map (rowItem codec)).Pairwise ItemOrder := by
  have hsorted : (sortedRows db request boundary).Pairwise TaskRow.ListedBefore :=
    pairwise_insertionSort _ _
  have hids : (sortedRows db request boundary).Pairwise fun row row' => row.id ≠ row'.id := by
    have hperm := perm_insertionSort TaskRow.ListedBefore
      (db.tasks.rows.filter fun row => taskListFilter request row && beyondBoundary boundary row)
    have hnodup : ((sortedRows db request boundary).map TaskRow.id).Nodup :=
      (hperm.map TaskRow.id).nodup_iff.mpr (db.tasks.unique.sublist (filter_sublist.map _))
    exact pairwise_map.mp hnodup
  rw [pairwise_map]
  refine (hsorted.and hids).imp_of_mem ?_
  intro row row' hrow hrow' hboth
  obtain ⟨e, -, hmatches, hok⟩ := h.entry_of_mem (mem_sortedRows.mp hrow).1
  obtain ⟨e', -, hmatches', hok'⟩ := h.entry_of_mem (mem_sortedRows.mp hrow').1
  show CursorOrder (rowItem codec row).2 (rowItem codec row').2
  rw [hmatches.rowItem_eq hok, hmatches'.rowItem_eq hok', cursorOrder_iff]
  obtain ⟨hlater | ⟨hsame, hid⟩, hne⟩ := hboth
  · rw [hmatches.updatedAt, hmatches'.updatedAt] at hlater
    exact .inl (Int64.lt_iff_toInt_lt.mpr hlater)
  · rw [hmatches.updatedAt, hmatches'.updatedAt] at hsame
    rw [hmatches.id, hmatches'.id] at hid hne
    exact .inr ⟨Int64.toInt_inj.mp hsame, lt_of_le_of_ne hid (Ne.symm hne)⟩

/-- Sorting the rows gives the entries in the order of the cursors. -/
theorem sortedRows_items (h : SameTasks pg codec memory db) (hcontext : IsText pg request.contextId)
    (htexts : ∀ cursor ∈ boundary, IsText pg cursor.taskId) :
    (sortedRows db request boundary).map (rowItem codec) = (memory.matchingAfter request boundary).map itemOf := by
  refine List.Pairwise.eq_of_mem_iff (r := ItemOrder) (pairwise_sortedRows h) ?_ ?_
  · rw [pairwise_map]
    exact pairwise_matchingAfter h.wellFormed request boundary
  · intro item
    rw [mem_map, mem_map]
    constructor
    · rintro ⟨row, hrow, rfl⟩
      obtain ⟨hmem, hfilter, hbeyond⟩ := mem_sortedRows.mp hrow
      obtain ⟨e, he, hmatches, hok⟩ := h.entry_of_mem hmem
      rw [hmatches.taskListFilter hok hcontext] at hfilter
      have hafter := (hmatches.beyondBoundary htexts).mp hbeyond
      rw [hmatches.id] at he
      exact ⟨e, (mem_matchingAfter h.wellFormed).mpr ⟨he, hafter, hfilter⟩, (hmatches.rowItem_eq hok).symm⟩
    · rintro ⟨e, he, rfl⟩
      obtain ⟨hentry, hafter, hpasses⟩ := (mem_matchingAfter h.wellFormed).mp he
      have hok := h.entries _ _ hentry
      obtain ⟨row, hmem, hmatches⟩ := h.mem_of_entry hentry
      refine ⟨row, mem_sortedRows.mpr ⟨hmem, ?_, (hmatches.beyondBoundary htexts).mpr hafter⟩,
        hmatches.rowItem_eq hok⟩
      rw [hmatches.taskListFilter hok hcontext]
      exact hpasses

/-! ## Counting -/

theorem mem_orderedTasks_iff (h : memory.WellFormed) {task : Task} :
    task ∈ memory.orderedTasks ↔ ∃ e, memory.entryOf task.id = some e ∧ e.task = task := by
  constructor
  · intro hmem
    obtain ⟨index, hindex⟩ := mem_iff_getElem?.mp hmem
    obtain ⟨e, hrow, rfl⟩ := exists_row_of_lengths h.revisions_length h.updatedAt_length hindex
    exact ⟨e, (h.entryOf_eq_some_iff _ e).mpr ⟨index, hrow, rfl⟩, rfl⟩
  · rintro ⟨e, he, rfl⟩
    obtain ⟨index, hrow, -⟩ := (h.entryOf_eq_some_iff _ e).mp he
    exact mem_iff_getElem?.mpr ⟨index, (rowAt_eq_some.mp hrow).1⟩

/-- The index gives every id one position, so no task is stored twice. -/
theorem nodup_orderedTasks (h : memory.WellFormed) : memory.orderedTasks.Nodup := by
  rw [nodup_iff_getElem?_ne_getElem?]
  intro i j hlt hj heq
  have htask : memory.orderedTasks[j]? = some memory.orderedTasks[j] := List.getElem?_eq_getElem hj
  have hi := (h.index_iff memory.orderedTasks[j].id i).mpr ⟨_, heq.trans htask, rfl⟩
  have hj := (h.index_iff memory.orderedTasks[j].id j).mpr ⟨_, htask, rfl⟩
  have hsame : i = j := Option.some.inj (hi.symm.trans hj)
  omega

/-- The table and the in-memory store hold the same tasks, each of them once. -/
theorem tasks_perm (h : SameTasks pg codec memory db) :
    (db.tasks.rows.map fun row => (rowItem codec row).1).Perm memory.orderedTasks := by
  have hitem : ∀ row ∈ db.tasks.rows, (rowItem codec row).1.id = row.id := by
    intro row hrow
    obtain ⟨e, -, hmatches, hok⟩ := h.entry_of_mem hrow
    rw [hmatches.rowItem_eq hok, hmatches.id]
    rfl
  have hnodup : (db.tasks.rows.map fun row => (rowItem codec row).1).Nodup := by
    apply List.Nodup.of_map Task.id
    have hids : (db.tasks.rows.map fun row => (rowItem codec row).1).map Task.id = db.tasks.rows.map TaskRow.id := by
      rw [map_map]
      exact map_congr_left hitem
    rw [hids]
    exact db.tasks.unique
  rw [perm_ext_iff_of_nodup hnodup (nodup_orderedTasks h.wellFormed)]
  intro task
  rw [mem_orderedTasks_iff h.wellFormed, mem_map]
  constructor
  · rintro ⟨row, hrow, rfl⟩
    obtain ⟨e, he, hmatches, hok⟩ := h.entry_of_mem hrow
    rw [hmatches.rowItem_eq hok]
    exact ⟨e, hmatches.id ▸ he, rfl⟩
  · rintro ⟨e, he, rfl⟩
    obtain ⟨row, hrow, hmatches⟩ := h.mem_of_entry he
    exact ⟨row, hrow, by rw [hmatches.rowItem_eq (h.entries _ _ he)]; rfl⟩

theorem countP_taskListFilter (h : SameTasks pg codec memory db) (hcontext : IsText pg request.contextId) :
    db.tasks.rows.countP (taskListFilter request) = memory.orderedTasks.countP (matchesListFilters · request) := by
  rw [← (tasks_perm h).countP_eq, countP_map]
  apply countP_congr
  intro row hrow
  obtain ⟨e, -, hmatches, hok⟩ := h.entry_of_mem hrow
  show taskListFilter request row ↔ matchesListFilters (rowItem codec row).1 request
  rw [hmatches.rowItem_eq hok, hmatches.taskListFilter hok hcontext]
  rfl

theorem countP_of_unfiltered
    (h : ¬ (¬ request.contextId.isEmpty ∨ request.statusFilter.isSome ∨ request.statusTimestampAfter.isSome))
    (tasks : List Task) : tasks.countP (matchesListFilters · request) = tasks.length := by
  rw [countP_eq_length]
  intro task _
  rw [not_or, not_or, not_not] at h
  obtain ⟨hcontext, hstatus, hcutoff⟩ := h
  rw [Option.not_isSome_iff_eq_none] at hstatus hcutoff
  rw [matchesListFilters_iff, hstatus, hcutoff]
  exact ⟨.inl (List.isEmpty_iff.mp hcontext), rfl, rfl⟩

/-! ## The whole operation -/

/-- The id in the token, if the token is one, is text for the server. -/
def TokenOk (pg : Postgres) (token : Bytes) : Prop :=
  ∀ cursor, parseListPageToken token = .ok (some cursor) → IsText pg cursor.taskId

/-- The page of the in-memory store: the entries that match, in their order. -/
theorem memory_list_eq (h : memory.WellFormed) (hparse : parseListPageToken request.pageToken = .ok boundary) :
    memory.list request = .ok (listedPage request ((memory.matchingAfter request boundary).map itemOf)
      (memory.orderedTasks.countP (matchesListFilters · request))) := by
  have hentries : ∀ e ∈ memory.entriesAfter boundary, memory.taskAt e.task.id = e.task :=
    fun e he => taskAt_of_entryOf h ((mem_entriesAfter h).mp he).1
  have htotal : (if (¬ request.contextId.isEmpty ∨ request.statusFilter.isSome ∨
        request.statusTimestampAfter.isSome) ∧ request.includeTotalSize then
        memory.orderedTasks.countP (matchesListFilters · request)
      else if request.includeTotalSize then memory.orderedTasks.length else 0) =
      if request.includeTotalSize then
        memory.orderedTasks.countP (matchesListFilters · request) else 0 := by
    by_cases htotal : request.includeTotalSize
    · by_cases hfiltered : ¬ request.contextId.isEmpty ∨ request.statusFilter.isSome ∨
          request.statusTimestampAfter.isSome
      · rw [if_pos ⟨hfiltered, htotal⟩, if_pos htotal]
      · rw [if_neg (fun hboth => hfiltered hboth.1), if_pos htotal, if_pos htotal, countP_of_unfiltered hfiltered]
    · rw [if_neg (fun hboth => htotal hboth.2), if_neg htotal, if_neg htotal]
  simp only [list, hparse, ← cursors_entriesAfter h, listFrom_eq_fillPage hentries, htotal]
  rfl

theorem listedRows_eq :
    db.listedRows request boundary =
      if request.pageSize ≠ 0 then (sortedRows db request boundary).take (min request.pageSize intMax + 1)
      else sortedRows db request boundary := rfl

theorem mem_rows_of_listedRows (hrow : row ∈ db.listedRows request boundary) : row ∈ db.tasks.rows := by
  rw [listedRows_eq] at hrow
  split_ifs at hrow
  · exact (mem_sortedRows.mp (mem_of_mem_take hrow)).1
  · exact (mem_sortedRows.mp hrow).1

theorem fillPage_listedRows (hpage : request.pageSize ≤ intMax ∨ db.tasks.rows.length ≤ intMax) (totalSize : Nat) :
    fillPage request ((db.listedRows request boundary).map (rowItem codec)) { totalSize } =
      fillPage request ((sortedRows db request boundary).map (rowItem codec)) { totalSize } := by
  rw [listedRows_eq]
  split_ifs with hsize
  · rw [map_take]
    by_cases hsmall : request.pageSize ≤ intMax
    · apply fillPage_take hsize
      · exact Nat.zero_le _
      · rw [min_eq_left hsmall]
        exact Nat.le_refl _
    · have hfew := hpage.resolve_left hsmall
      have hlength : (sortedRows db request boundary).length ≤ _ := length_sortedRows_le
      rw [take_of_length_le]
      rw [length_map, min_eq_right (not_le.mp hsmall).le]
      omega
  · rfl

theorem filterAccepted_of_isText (hcontext : IsText pg request.contextId) : filterAccepted pg request := by
  rw [filterAccepted, hcontext.valid_cString, Bool.or_true]

theorem boundaryAccepted_of_isText (htexts : ∀ cursor ∈ boundary, IsText pg cursor.taskId) :
    boundaryAccepted pg boundary := by
  cases boundary with
  | none => rfl
  | some cursor => exact (htexts cursor rfl).valid_cString

section

variable (h : SameTasks pg codec memory db) (hcontext : IsText pg request.contextId)
  {telemetrySnapshot : HistoryTelemetrySnapshot}

include h hcontext

/-- The page statement succeeds: parameters are text, update times `BIGINT`s. -/
theorem selectTaskList_eq (htexts : ∀ cursor ∈ boundary, IsText pg cursor.taskId) :
    db.selectTaskList pg request boundary =
      .ok ((db.listedRows request boundary).map fun row => (row.taskProto, Int64.ofInt row.updatedAt)) := by
  have hrange : ((db.listedRows request boundary).any fun row =>
      decide ((bigintMax : Int) < row.updatedAt)) = false := by
    rw [any_eq_false]
    intro row hrow
    obtain ⟨e, -, hmatches, -⟩ := h.entry_of_mem (mem_rows_of_listedRows hrow)
    have hlt := e.updatedAt.toInt_lt
    rw [hmatches.updatedAt, decide_eq_true_eq, not_lt]
    show e.updatedAt.toInt ≤ ((2 ^ 63 - 1 : Nat) : Int)
    omega
  rw [Database.selectTaskList, filterAccepted_of_isText hcontext, boundaryAccepted_of_isText htexts, if_neg (by simp)]
  simp only [hrange]
  rfl

/-- The page of the database: the rows that match, in their order. -/
theorem postgres_list_eq (hparse : parseListPageToken request.pageToken = .ok boundary)
    (htexts : ∀ cursor ∈ boundary, IsText pg cursor.taskId)
    (hpage : request.pageSize ≤ intMax ∨ db.tasks.rows.length ≤ intMax) :
    PostgresTaskStore.list pg codec ⟨db, telemetrySnapshot⟩ request =
      .ok (listedPage request ((sortedRows db request boundary).map (rowItem codec))
        (db.tasks.rows.countP (taskListFilter request))) := by
  have hcount : (if request.includeTotalSize then
        checked pg "count postgres tasks" (db.countTaskList pg request) else .ok 0) =
      .ok (if request.includeTotalSize then db.tasks.rows.countP (taskListFilter request) else 0) := by
    split_ifs
    · rw [Database.countTaskList, filterAccepted_of_isText hcontext, if_neg (by simp)]
      rfl
    · rfl
  have hrows : ∀ row ∈ db.listedRows request boundary, ∃ task : Task,
      codec.parse row.taskProto = some task ∧ task.id = row.id := by
    intro row hrow
    obtain ⟨e, -, hmatches, hok⟩ := h.entry_of_mem (mem_rows_of_listedRows hrow)
    exact ⟨e.task, hmatches.parse hok, hmatches.id.symm⟩
  have hselect : checked pg "list postgres tasks" (db.selectTaskList pg request boundary) =
      .ok ((db.listedRows request boundary).map fun row => (row.taskProto, Int64.ofInt row.updatedAt)) := by
    rw [selectTaskList_eq h hcontext htexts]
    rfl
  simp only [PostgresTaskStore.list, hparse, hcount, hselect, readTaskListPage,
    readTaskListRows_eq_fillPage hrows, fillPage_listedRows hpage]
  rfl

theorem list_eq (htoken : TokenOk pg request.pageToken)
    (hpage : request.pageSize ≤ intMax ∨ db.tasks.rows.length ≤ intMax) :
    PostgresTaskStore.list pg codec ⟨db, telemetrySnapshot⟩ request = memory.list request := by
  cases hparse : parseListPageToken request.pageToken with
  | error e => rw [PostgresTaskStore.list, list, hparse]
  | ok boundary =>
    have htexts : ∀ cursor ∈ boundary, IsText pg cursor.taskId := by
      intro cursor hcursor
      obtain rfl : boundary = some cursor := hcursor
      exact htoken cursor hparse
    rw [postgres_list_eq h hcontext hparse htexts hpage, memory_list_eq h.wellFormed hparse,
      sortedRows_items h hcontext htexts, countP_taskListFilter h hcontext]

end

/-- A token that `List` hands out names a stored task, and so may be handed back. -/
theorem tokenOk_of_list (h : SameTasks pg codec memory db) {page : ListTasksResponse}
    (hpage : memory.list request = .ok page) : TokenOk pg page.nextPageToken := by
  cases hparse : parseListPageToken request.pageToken with
  | error e =>
    rw [list, hparse] at hpage
    cases hpage
  | ok boundary =>
    rw [memory_list_eq h.wellFormed hparse] at hpage
    cases hpage
    intro cursor hcursor
    rcases @listedPage_token request ((memory.matchingAfter request boundary).map itemOf)
        (memory.orderedTasks.countP (matchesListFilters · request)) with hempty | ⟨item, hitem, htoken⟩
    · rw [hempty, parseListPageToken_nil] at hcursor
      cases hcursor
    · obtain ⟨e, he, rfl⟩ := mem_map.mp hitem
      obtain ⟨hentry, -, -⟩ := (mem_matchingAfter h.wellFormed).mp he
      have hstored := h.wellFormed.entryOf_ok hentry
      have hread := @parse_encode_listPageToken e.cursor (Int64.le_iff_toInt_le.mpr hstored.time_nonneg) hstored.id_ne
      rw [htoken] at hcursor
      have hsame : e.cursor = cursor := Option.some.inj (Except.ok.inj (hread.symm.trans hcursor))
      rw [← hsame]
      exact (h.entries _ _ hentry).id

end Items

end A2A.Server.Stores
