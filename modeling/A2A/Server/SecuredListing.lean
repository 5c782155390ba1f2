/-
# One page of `DispatchSecurity::ListTasks` over an in-memory store.
-/
import A2A.Server.SecurityPolicy
import A2A.Server.Tasks.Pagination
import Mathlib.Data.List.Induction

namespace A2A.Server.Dispatch

open A2A.Foundation A2A.Core A2A.Server.Tasks Traced List
open A2A.Server.Tasks.InMemoryTaskStore hiding run

variable {τ : Type}

/-! ## The world -/

/-- The task store, the number of its calls, and what else a policy looks at. -/
structure MemoryWorld (τ : Type) where
  store : InMemoryTaskStore
  calls : Nat
  own : τ

/-- What the other clients do before the `k`-th call. -/
abbrev Writes := Nat → List (StoreCall × Int64)

namespace MemoryWorld

/-- The others write, and a call is counted. -/
def arrive (writes : Writes) (w : MemoryWorld τ) : MemoryWorld τ :=
  { w with store := w.store.run (writes w.calls), calls := w.calls + 1 }

/-- What the others have written between two worlds. -/
def spent (writes : Writes) (w w' : MemoryWorld τ) : List (StoreCall × Int64) :=
  (List.range' w.calls (w'.calls - w.calls)).flatMap writes

/-- `w'` comes from `w` by calls of the store and the writes before them. -/
structure Later (writes : Writes) (w w' : MemoryWorld τ) : Prop where
  calls : w.calls ≤ w'.calls
  store : w'.store = w.store.run (spent writes w w')

variable {writes : Writes} {w w' w'' : MemoryWorld τ}

theorem spent_self : spent writes w w = [] := by
  unfold spent
  rw [Nat.sub_self]
  rfl

theorem later_refl : Later writes w w := by
  refine ⟨le_refl _, ?_⟩
  rw [spent_self]
  rfl

theorem spent_of_quiet (h : ∀ k, writes k = []) : spent writes w w' = [] := by
  unfold spent
  rw [flatMap_eq_nil_iff]
  intro k _
  exact h k

theorem spent_arrive : spent writes w (w.arrive writes) = writes w.calls := by
  unfold spent arrive
  simp

theorem later_arrive (writes : Writes) (w : MemoryWorld τ) : Later writes w (w.arrive writes) := by
  refine ⟨Nat.le_succ _, ?_⟩
  rw [spent_arrive]
  rfl

section

variable (h : Later writes w w')

include h

theorem Later.spent_append (h' : Later writes w' w'') :
    spent writes w w'' = spent writes w w' ++ spent writes w' w'' := by
  obtain ⟨hcalls, -⟩ := h
  obtain ⟨hcalls', -⟩ := h'
  unfold spent
  rw [← flatMap_append]
  congr 1
  have hsum : w''.calls - w.calls = (w'.calls - w.calls) + (w''.calls - w'.calls) := by omega
  have hmiddle : w'.calls = w.calls + 1 * (w'.calls - w.calls) := by omega
  rw [hsum, ← range'_append, ← hmiddle]

theorem Later.trans (h' : Later writes w' w'') : Later writes w w'' := by
  refine ⟨h.calls.trans h'.calls, ?_⟩
  rw [h.spent_append h', run_append, ← h.store]
  exact h'.store

theorem Later.wellFormed (hw : w.store.WellFormed) : w'.store.WellFormed := by
  rw [h.store]
  exact run_wellFormed hw _

theorem Later.entryOf_mono (hw : w.store.WellFormed) {id : Bytes} {e : Entry}
    (he : w.store.entryOf id = some e) : ∃ e', w'.store.entryOf id = some e' ∧ e.updatedAt ≤ e'.updatedAt := by
  rw [h.store]
  exact run_entryOf_mono hw _ he

theorem Later.store_of_quiet (hquiet : ∀ k, writes k = []) : w'.store = w.store := by
  rw [h.store, spent_of_quiet hquiet]
  rfl

end

/-- The ids that were written between two worlds. -/
def written (writes : Writes) (w w' : MemoryWorld τ) : List Bytes :=
  w.store.writtenIds (spent writes w w')

theorem written_of_quiet (h : ∀ k, writes k = []) : written writes w w' = [] := by
  unfold written
  rw [spent_of_quiet h]
  rfl

theorem Later.written_append (h : Later writes w w') (h' : Later writes w' w'') :
    written writes w w'' = written writes w w' ++ written writes w' w'' := by
  unfold written
  rw [h.spent_append h', writtenIds_append, ← h.store]

theorem Later.entryOf_of_not_written (h : Later writes w w') (hw : w.store.WellFormed) {id : Bytes}
    (hid : id ∉ written writes w w') : w'.store.entryOf id = w.store.entryOf id := by
  rw [h.store]
  exact run_entryOf_of_not_written hw hid

end MemoryWorld

open MemoryWorld

/-- The in-memory store as the dispatcher's `TaskStore`. -/
def memoryTaskStore (writes : Writes) : TaskStore (MemoryWorld τ) where
  get := fun id w => ((w.arrive writes).store.get id, w.arrive writes)
  list := fun query w => ((w.arrive writes).store.list query, w.arrive writes)

/-! ## The selection -/

namespace DispatchSecurity

/-- Strictly past the caller's cursor. -/
def pastCursor (cursor : Option ListTaskCursor) (boundary : ListTaskCursor) : Bool :=
  cursor.all fun cursor => listCursorPrecedes cursor boundary

variable {cursor : Option ListTaskCursor} {pageSize : Nat} {selection : Selection} {task : Task}
    {boundary : ListTaskCursor}

theorem pastCursor_iff : pastCursor cursor boundary ↔ After cursor boundary := by
  cases cursor with
  | none => simp [pastCursor, After]
  | some cursor => simp [pastCursor, After, CursorOrder]

/-- Add visible tasks one after the other. -/
def Selection.addAll (cursor : Option ListTaskCursor) (pageSize : Nat) (selection : Selection)
    (shown : List (Task × ListTaskCursor)) : Selection :=
  shown.foldl (fun selection entry => selection.add cursor pageSize entry.1 entry.2) selection

theorem Selection.add_of_not_past (h : pastCursor cursor boundary = false) :
    selection.add cursor pageSize task boundary = { selection with
        page := { selection.page with totalSize := selection.page.totalSize + 1 } } := by
  have hskip : (cursor.any fun cursor => !listCursorPrecedes cursor boundary) := by
    cases cursor with
    | none => nomatch h
    | some cursor => simpa [pastCursor] using h
  simp only [Selection.add, hskip, if_true]

theorem Selection.add_of_past (h : pastCursor cursor boundary) :
    selection.add cursor pageSize task boundary =
      let page := { selection.page with totalSize := selection.page.totalSize + 1 }
      if page.taskIds.length < pageSize then
        { page := { page with taskIds := page.taskIds ++ [task.id] }, lastSelected := boundary }
      else if page.nextPageToken.isEmpty then
        { selection with
          page := { page with nextPageToken := encodeListPageToken selection.lastSelected } }
      else { selection with page } := by
  have hkeep : (cursor.any fun cursor => !listCursorPrecedes cursor boundary) = false := by
    cases cursor with
    | none => rfl
    | some cursor => simpa [pastCursor] using h
  simp only [Selection.add, hkeep, Bool.false_eq_true, if_false]

/-- After a scan of `shown` all are counted, the first `pageSize` past the cursor are selected, and there is a token,
that of the last selected one, exactly if more were left. -/
structure Selected (cursor : Option ListTaskCursor) (pageSize : Nat)
    (shown : List (Task × ListTaskCursor)) (selection : Selection) : Prop where
  totalSize : selection.page.totalSize = shown.length
  taskIds : selection.page.taskIds =
    ((shown.filter (pastCursor cursor ·.2)).take pageSize).map (·.1.id)
  lastSelected : selection.lastSelected =
    (((shown.filter (pastCursor cursor ·.2)).take pageSize).getLast?.map (·.2)).getD {}
  nextPageToken : selection.page.nextPageToken =
    if (shown.filter (pastCursor cursor ·.2)).length ≤ pageSize then []
    else encodeListPageToken selection.lastSelected

/-- A task is counted and not selected. -/
theorem Selected.skip {shown : List (Task × ListTaskCursor)} {entry : Task × ListTaskCursor} {token : Bytes}
    (h : Selected cursor pageSize shown selection)
    (htake : ((shown ++ [entry]).filter (pastCursor cursor ·.2)).take pageSize =
      (shown.filter (pastCursor cursor ·.2)).take pageSize)
    (htoken : token = if ((shown ++ [entry]).filter (pastCursor cursor ·.2)).length ≤ pageSize then []
      else encodeListPageToken selection.lastSelected) :
    Selected cursor pageSize (shown ++ [entry]) { selection with
      page := { selection.page with totalSize := selection.page.totalSize + 1, nextPageToken := token } } :=
  ⟨by simp [h.totalSize], htake ▸ h.taskIds, htake ▸ h.lastSelected, htoken⟩

/-- `Add` keeps the selection in step with the visible tasks seen so far. -/
theorem Selected.add {shown : List (Task × ListTaskCursor)} (h : Selected cursor pageSize shown selection)
    (task : Task) (boundary : ListTaskCursor) :
    Selected cursor pageSize (shown ++ [(task, boundary)]) (selection.add cursor pageSize task boundary) := by
  have htoken := h.nextPageToken
  cases hpast : pastCursor cursor boundary with
  | false =>
    rw [Selection.add_of_not_past hpast]
    have hfilter : (shown ++ [(task, boundary)]).filter (pastCursor cursor ·.2) =
        shown.filter (pastCursor cursor ·.2) := by
      simp [filter_append, hpast]
    exact h.skip (by rw [hfilter]) (by rw [hfilter, htoken])
  | true =>
    have hfilter : (shown ++ [(task, boundary)]).filter (pastCursor cursor ·.2) =
        shown.filter (pastCursor cursor ·.2) ++ [(task, boundary)] := by
      simp [filter_append, hpast]
    have hids := h.taskIds
    generalize hafter : shown.filter (pastCursor cursor ·.2) = after at hfilter hids htoken
    have hlength : selection.page.taskIds.length = min pageSize after.length := by
      rw [hids, length_map, length_take]
    have hmore : (after ++ [(task, boundary)]).length = after.length + 1 := length_append
    rw [Selection.add_of_past hpast]
    dsimp only
    split_ifs with hroom hempty
    · -- There is room, so the task is selected.
      have htake : (after ++ [(task, boundary)]).take pageSize = after ++ [(task, boundary)] :=
        take_of_length_le (by omega)
      refine ⟨?_, ?_, ?_, ?_⟩
      · simp [h.totalSize]
      · rw [hfilter, htake, hids, take_of_length_le (by omega), map_append]
        rfl
      · rw [hfilter, htake, List.getLast?_append]
        rfl
      · rw [hfilter, hmore, if_pos (by omega), htoken, if_pos (by omega)]
    · -- The first task without room makes the token.
      refine h.skip (by rw [hfilter, hafter, take_append_of_le_length (by omega)]) ?_
      rw [hfilter, hmore, if_neg (by omega)]
    · -- Later ones leave it alone.
      refine h.skip (by rw [hfilter, hafter, take_append_of_le_length (by omega)]) ?_
      rw [hfilter, hmore, if_neg (by omega), htoken, if_neg]
      intro hle
      rw [htoken, if_pos hle] at hempty
      exact hempty rfl

theorem Selection.addAll_spec (cursor : Option ListTaskCursor) (pageSize : Nat) (shown : List (Task × ListTaskCursor)) :
    Selected cursor pageSize shown (Selection.addAll cursor pageSize {} shown) := by
  induction shown using List.reverseRecOn with
  | nil => exact ⟨rfl, by simp [addAll], by simp [addAll], by simp [addAll]⟩
  | append_singleton shown entry ih =>
    unfold addAll
    rw [foldl_append]
    exact ih.add entry.1 entry.2

theorem Selection.addAll_append (cursor : Option ListTaskCursor) (pageSize : Nat)
    (selection : Selection) (shown shown' : List (Task × ListTaskCursor)) :
    selection.addAll cursor pageSize (shown ++ shown') =
      (selection.addAll cursor pageSize shown).addAll cursor pageSize shown' :=
  foldl_append

/-! ## The scan -/

/-- The policy's decisions for `context` are a fixed predicate. -/
def Judges (policy : SecurityPolicy (MemoryWorld τ)) (context : RequestContext)
    (allowed : Task → Bool) : Prop :=
  ∀ task w, policy.canAccessTask task context w = (allowed task, w)

/-- What a scan with `query` shows of the entries to the selection. -/
def shownOf (allowed : Task → Bool) (query : ListTasksRequest) (entries : List Entry) :
    List (Task × ListTaskCursor) :=
  (entries.map fun e => (projected query e, e.cursor)).filter fun entry => allowed entry.1

theorem shownOf_append (allowed : Task → Bool) (query : ListTasksRequest) (entries entries' : List Entry) :
    shownOf allowed query (entries ++ entries') =
      shownOf allowed query entries ++ shownOf allowed query entries' := by
  unfold shownOf
  rw [map_append, filter_append]

section Scan

variable {policy : SecurityPolicy (MemoryWorld τ)} {context : RequestContext} {allowed : Task → Bool}
  (hpolicy : Judges policy context allowed) (writes : Writes) (cursor : Option ListTaskCursor)
  (pageSize : Nat)

variable {query request : ListTasksRequest} {rounds : Nat} {w w' w'' : MemoryWorld τ} {id : Bytes}
  {store : InMemoryTaskStore} {t : Traversal} {entries scanned returned : List Entry}

include hpolicy in
/-- The call of the policy. -/
theorem callCanAccessTask_gives (task : Task) (w : MemoryWorld τ) :
    Gives (policy.callCanAccessTask task context) w (allowed task) w := by
  unfold Gives SecurityPolicy.callCanAccessTask
  rw [run_call, hpolicy]
  exact ⟨rfl, rfl⟩

include hpolicy in
theorem selectBatch_gives (batch : List (Task × ListTaskCursor)) (selection : Selection) (w : MemoryWorld τ) :
    Gives (selectBatch policy context cursor pageSize selection batch) w
      (selection.addAll cursor pageSize (batch.filter fun entry => allowed entry.1)) w := by
  induction batch generalizing selection with
  | nil => exact gives_pure
  | cons entry batch ih =>
    refine gives_bind (callCanAccessTask_gives hpolicy entry.1 w) ?_
    rw [filter_cons]
    cases allowed entry.1 with
    | true => exact ih (selection.add cursor pageSize entry.1 entry.2)
    | false => exact ih selection

include hpolicy in
/-- The batch is added, and the loop ends or goes on with the store's token. -/
theorem selectLoop_round (rounds : Nat) (selection : Selection)
    {page : ListTasksResponse} {held : List Entry} (hpage : (w.arrive writes).store.list query = .ok page)
    (htasks : page.tasks = held.map (projected query)) (hcursors : page.taskCursors = held.map Entry.cursor) :
    let selection' := selection.addAll cursor pageSize (shownOf allowed query held)
    let loop := selectLoop policy (memoryTaskStore writes) context cursor pageSize
    (page.nextPageToken = [] → Gives (loop (rounds + 1) query selection) w (.ok selection'.page) (w.arrive writes)) ∧
    (page.nextPageToken ≠ [] →
      (∀ result w', Gives (loop rounds { query with pageToken := page.nextPageToken } selection')
          (w.arrive writes) result w' → Gives (loop (rounds + 1) query selection) w result w') ∧
      ((run (loop rounds { query with pageToken := page.nextPageToken } selection')
          (w.arrive writes)).value = none → (run (loop (rounds + 1) query selection) w).value = none)) := by
  intro selection' loop
  have hlist : Gives ((memoryTaskStore writes : TaskStore (MemoryWorld τ)).callList query) w
      (.ok page) (w.arrive writes) := ⟨congrArg some hpage, rfl⟩
  have hlength : ¬ page.tasks.length ≠ page.taskCursors.length := by simp [htasks, hcursors]
  have hshown : (page.tasks.zip page.taskCursors).filter (fun entry => allowed entry.1) =
      shownOf allowed query held := by
    rw [htasks, hcursors, zip_map']
    rfl
  have hbatch := selectBatch_gives hpolicy cursor pageSize (page.tasks.zip page.taskCursors) selection
    (w.arrive writes)
  rw [hshown] at hbatch
  have hgo {result : Result VisibleTaskPage} {w' : MemoryWorld τ} (hrest : Gives
      (if page.nextPageToken.isEmpty then pure (.ok selection'.page)
        else loop rounds { query with pageToken := page.nextPageToken } selection') (w.arrive writes) result w') :
      Gives (loop (rounds + 1) query selection) w result w' := by
    refine gives_bind hlist ?_
    show Gives (if page.tasks.length ≠ page.taskCursors.length then _ else _) _ _ _
    rw [if_neg hlength]
    exact gives_bind hbatch hrest
  refine ⟨fun hend => hgo ?_, fun hmore => ?_⟩
  · rw [if_pos (by rw [hend]; rfl)]
    exact gives_pure
  · have hnot : ¬ page.nextPageToken.isEmpty := fun h => hmore (List.isEmpty_iff.mp h)
    refine ⟨fun result w' hrest => hgo (by rwa [if_neg hnot]), fun hnone => ?_⟩
    refine (value_bind_of_gives hlist).trans ?_
    show (run (if page.tasks.length ≠ page.taskCursors.length then _ else _) _).value = none
    rw [if_neg hlength]
    refine (value_bind_of_gives hbatch).trans ?_
    rw [if_neg hnot]
    exact hnone

/-- Every entry is in the world, in the version of the list or a later one. -/
def Known (entries : List Entry) (w : MemoryWorld τ) : Prop :=
  ∀ e ∈ entries, ∃ e', w.store.entryOf e.task.id = some e' ∧ e.updatedAt ≤ e'.updatedAt

theorem Known.later (h : Known entries w)
    (hlater : Later writes w w') (hw : w.store.WellFormed) : Known entries w' := by
  intro e he
  obtain ⟨e', he', hle⟩ := h e he
  obtain ⟨e'', he'', hle'⟩ := hlater.entryOf_mono hw he'
  exact ⟨e'', he'', hle.trans hle'⟩

/-- A scan from the boundary `b` in the world `w`: a traversal, the selection on it, and the world it leaves. It is cut
short only when it has seen more entries than it had rounds. -/
structure Scan (query : ListTasksRequest) (b : Option ListTaskCursor) (rounds : Nat)
    (w w' : MemoryWorld τ) (t : Traversal) (returned : List Entry) : Prop where
  traversal : TraversalSpec query w.store b t returned
  later : Later writes w w'
  writes : spent writes w w' = t.writes
  known : Known returned w'
  valid : ∀ e ∈ returned, ValidBoundary (some e.cursor)
  rounds : t.nextToken ≠ [] → rounds < returned.length

theorem scan_single (hsize : 1 ≤ query.pageSize) (hw : w.store.WellFormed) {b : Option ListTaskCursor}
    {page : ListTasksResponse} (hpage : PageOf w.store query b page)
    (hrounds : page.nextPageToken ≠ [] → rounds = 0) :
    Scan writes query b rounds w w ⟨[page], [], page.nextPageToken⟩ (w.store.pageEntries query b) := by
  refine ⟨traversalSpec_single hw hsize hpage, later_refl, spent_self, ?_, ?_, fun hmore => ?_⟩
  · exact fun e he => ⟨e, (mem_pageEntries hw he).1, le_refl _⟩
  · exact fun e he => validBoundary_of_entryOf hw (mem_pageEntries hw he).1
  · rw [hrounds hmore]
    rcases hpage.token_cases hw hsize with ⟨hend, -⟩ | ⟨last, hlast, -⟩
    · exact absurd hend hmore
    · exact length_pos_of_mem hlast.mem

/-- One more page in front of a scan. -/
theorem Scan.cons (hw : w.store.WellFormed) {b : Option ListTaskCursor} {page : ListTasksResponse} {last : Entry}
    (hpage : PageOf w.store query b page) (hlast : LastOf query.pageSize (w.store.matchingAfter query b) last)
    (hrest : Scan writes query (some last.cursor) rounds (w.arrive writes) w' t returned) :
    Scan writes query b (rounds + 1) w w' ⟨page :: t.pages, writes w.calls ++ t.writes, t.nextToken⟩
      (w.store.pageEntries query b ++ returned) := by
  have harrive := later_arrive writes w
  refine ⟨hrest.traversal.cons hw hpage hlast, harrive.trans hrest.later, ?_, ?_, ?_, fun hmore => ?_⟩
  · rw [harrive.spent_append hrest.later, spent_arrive, hrest.writes]
  · refine forall_mem_append.mpr ⟨fun e he => ?_, hrest.known⟩
    exact (harrive.trans hrest.later).entryOf_mono hw (mem_pageEntries hw he).1
  · refine forall_mem_append.mpr ⟨fun e he => ?_, hrest.valid⟩
    exact validBoundary_of_entryOf hw (mem_pageEntries hw he).1
  · have htail := hrest.rounds hmore
    have hhead : 0 < (w.store.pageEntries query b).length := length_pos_of_mem hlast.mem
    rw [length_append]
    omega

include hpolicy in
/-- `SelectTaskIds` scans the store, whatever is written between its batches. -/
theorem selectLoop_scan (query : ListTasksRequest) (hsize : 1 ≤ query.pageSize) (rounds : Nat)
    (hw : w.store.WellFormed) {b : Option ListTaskCursor} (hb : ValidBoundary b) (selection : Selection) :
    ∃ t returned w', Scan writes query b rounds (w.arrive writes) w' t returned ∧ (t.nextToken = [] →
        Gives (selectLoop policy (memoryTaskStore writes) context cursor pageSize (rounds + 1)
            { query with pageToken := boundaryToken b } selection) w
          (.ok (selection.addAll cursor pageSize (shownOf allowed query returned)).page) w') ∧
      (t.nextToken ≠ [] → (run (selectLoop policy (memoryTaskStore writes) context cursor pageSize (rounds + 1)
            { query with pageToken := boundaryToken b } selection) w).value = none) := by
  have hstore {w : MemoryWorld τ} : w.store.WellFormed → (w.arrive writes).store.WellFormed :=
    (later_arrive writes w).wellFormed
  induction rounds generalizing w b selection with
  | zero =>
    obtain ⟨page, hlist, hpage⟩ := list_spec (hstore hw) hsize hb
    have hround := selectLoop_round hpolicy writes cursor pageSize 0 selection hlist hpage.tasks hpage.cursors
    exact ⟨_, _, _, scan_single writes hsize (hstore hw) hpage fun _ => rfl, hround.1,
      fun hmore => (hround.2 hmore).2 rfl⟩
  | succ rounds ih =>
    obtain ⟨page, hlist, hpage⟩ := list_spec (hstore hw) hsize hb
    have hround := selectLoop_round hpolicy writes cursor pageSize (rounds + 1) selection hlist hpage.tasks
      hpage.cursors
    rcases hpage.token_cases (hstore hw) hsize with ⟨hend, -⟩ | ⟨last, hlast, htoken, hmore⟩
    · exact ⟨_, _, _, scan_single writes hsize (hstore hw) hpage (absurd hend), hround.1, absurd hend⟩
    · obtain ⟨hgo, hstop⟩ := hround.2 hmore
      rw [htoken] at hgo hstop
      obtain ⟨t, returned, w', hscan, hgives, hnone⟩ := ih (hstore hw)
        (validBoundary_of_entryOf (hstore hw) (mem_pageEntries (hstore hw) hlast.mem).1)
        (selection.addAll cursor pageSize (shownOf allowed query ((w.arrive writes).store.pageEntries query b)))
      refine ⟨_, _, w', hscan.cons writes (hstore hw) hpage hlast, fun hend => ?_, fun hopen => hstop (hnone hopen)⟩
      rw [shownOf_append, Selection.addAll_append]
      exact hgo _ _ (hgives hend)

/-! ## The second look -/

/-- The answer of a lookup in the store `store`. -/
def lookupAnswer (allowed : Task → Bool) (store : InMemoryTaskStore) (id : Bytes) : Result Task :=
  match store.get id with
  | .error error => .error (hideStoreError error)
  | .ok task => if allowed task then .ok task else .error ProtocolErrors.taskNotFound

include hpolicy in
theorem getAuthorizedTask_gives (id : Bytes) (w : MemoryWorld τ) :
    Gives (getAuthorizedTask (memoryTaskStore writes) policy context id) w
      (lookupAnswer allowed (w.arrive writes).store id) (w.arrive writes) := by
  have hget : Gives ((memoryTaskStore writes : TaskStore (MemoryWorld τ)).callGet id) w
      ((w.arrive writes).store.get id) (w.arrive writes) := ⟨rfl, rfl⟩
  refine gives_bind hget ?_
  unfold lookupAnswer
  cases (w.arrive writes).store.get id with
  | error error => exact gives_pure
  | ok task =>
    refine gives_bind (callCanAccessTask_gives hpolicy task _) ?_
    dsimp only
    cases allowed task with
    | true | false => exact gives_pure

theorem lookupAnswer_ok (hstore : store.WellFormed)
    (h : lookupAnswer allowed store id = .ok task) : task.id = id ∧ ∀ e, store.entryOf id = some e → task = e.task := by
  have hid : id ≠ [] := by
    rintro rfl
    cases h
  unfold lookupAnswer at h
  rw [get_eq hstore hid] at h
  cases he : store.entryOf id with
  | none =>
    rw [he] at h
    cases h
  | some e =>
    rw [he] at h
    dsimp only at h
    split at h
    · cases h
      refine ⟨hstore.entryOf_id he, ?_⟩
      intro e' he'
      rw [Option.some.inj he']
    · cases h

theorem lookupAnswer_of_entryOf (hstore : store.WellFormed) {e : Entry} (he : store.entryOf id = some e)
    (hallowed : allowed e.task) : lookupAnswer allowed store id = .ok e.task := by
  have hid : id ≠ [] := by
    rw [← hstore.entryOf_id he]
    exact (hstore.entryOf_ok he).id_ne
  unfold lookupAnswer
  rw [get_eq hstore hid, he]
  exact if_pos hallowed

theorem lookupAnswer_of_hidden (hstore : store.WellFormed)
    (hid : id ≠ []) (hhidden : ¬ ∃ e, store.entryOf id = some e ∧ allowed e.task) :
    lookupAnswer allowed store id = .error ProtocolErrors.taskNotFound := by
  unfold lookupAnswer
  rw [get_eq hstore hid]
  cases he : store.entryOf id with
  | none => rfl
  | some e =>
    have hdenied : ¬ allowed e.task := fun hallowed => hhidden ⟨e, he, hallowed⟩
    exact if_neg hdenied

/-- What came back for `id`: a task of that id, the one of the world `w` unless written since. -/
def ReadBack (request : ListTasksRequest) (w w' : MemoryWorld τ) (id : Bytes) (task : Task) : Prop :=
  task.id = id ∧ (id ∉ written writes w w' → ∀ e, w.store.entryOf id = some e →
    task = projected request e)

theorem ReadBack.earlier (hw : w.store.WellFormed) (hlater : Later writes w w') (hlater' : Later writes w' w'')
    (h : ReadBack writes request w' w'' id task) : ReadBack writes request w w'' id task := by
  refine ⟨h.1, ?_⟩
  intro hid e he
  rw [hlater.written_append hlater', mem_append, not_or] at hid
  exact h.2 hid.2 e ((hlater.entryOf_of_not_written hw hid.1).trans he)

theorem ReadBack.until (hlater : Later writes w w') (hlater' : Later writes w' w'')
    (h : ReadBack writes request w w' id task) : ReadBack writes request w w'' id task := by
  refine ⟨h.1, ?_⟩
  intro hid e he
  rw [hlater.written_append hlater', mem_append, not_or] at hid
  exact h.2 hid.1 e he

/-- The id has been there, allowed and unwritten, all the time. -/
def Steady (allowed : Task → Bool) (w w' : MemoryWorld τ) (id : Bytes) : Prop :=
  id ∉ written writes w w' ∧ ∃ e, w.store.entryOf id = some e ∧ allowed e.task = true

theorem Steady.split (hw : w.store.WellFormed) (hlater : Later writes w w') (hlater' : Later writes w' w'')
    (h : Steady writes allowed w w'' id) : Steady writes allowed w w' id ∧ Steady writes allowed w' w'' id := by
  obtain ⟨hid, e, he, hallowed⟩ := h
  rw [hlater.written_append hlater', mem_append, not_or] at hid
  exact ⟨⟨hid.1, e, he, hallowed⟩, hid.2, e, (hlater.entryOf_of_not_written hw hid.1).trans he, hallowed⟩

include hpolicy in
/-- The second look returns what it reads, and succeeds if no selected task changes meanwhile. -/
theorem readSelected_gives (request : ListTasksRequest) (ids : List Bytes) (hw : w.store.WellFormed) :
    ∃ result w', Gives (readSelected policy (memoryTaskStore writes) request context ids) w result w' ∧
      Later writes w w' ∧
      (∀ tasks, result = .ok tasks → List.Forall₂ (ReadBack writes request w w') ids tasks) ∧
      ((∀ id ∈ ids, Steady writes allowed w w' id) → ∃ tasks, result = .ok tasks) := by
  induction ids generalizing w with
  | nil =>
    refine ⟨.ok [], w, gives_pure, later_refl, ?_, fun _ => ⟨[], rfl⟩⟩
    intro tasks htasks
    cases htasks
    exact .nil
  | cons id ids ih =>
    have harrive := later_arrive writes w
    have hstore : (w.arrive writes).store.WellFormed := harrive.wellFormed hw
    have hlookup := getAuthorizedTask_gives hpolicy writes id w
    cases hanswer : lookupAnswer allowed (w.arrive writes).store id with
    | error error =>
      rw [hanswer] at hlookup
      refine ⟨.error error, w.arrive writes, gives_bind hlookup gives_pure, harrive,
        nofun, ?_⟩
      intro hsteady
      -- A task that stayed accessible would have been found.
      obtain ⟨hid, e, he, hallowed⟩ := hsteady id mem_cons_self
      have hsame := (harrive.entryOf_of_not_written hw hid).trans he
      cases hanswer.symm.trans (lookupAnswer_of_entryOf hstore hsame hallowed)
    | ok task =>
      rw [hanswer] at hlookup
      obtain ⟨htaskId, htask⟩ := lookupAnswer_ok hstore hanswer
      obtain ⟨rest, w', hgives, hlater, hread, hsucceeds⟩ := ih hstore
      refine ⟨rest.map (projectTaskForList task request.includeArtifacts request.historyLength :: ·), w',
        gives_bind hlookup (gives_bind hgives gives_pure), harrive.trans hlater, ?_, ?_⟩
      · intro tasks htasks
        cases rest with
        | error error => nomatch htasks
        | ok tail =>
          cases htasks
          refine .cons ⟨(projectTaskForList_id _ _ _).trans htaskId, ?_⟩ ?_
          · intro hid e he
            rw [harrive.written_append hlater, mem_append, not_or] at hid
            rw [htask e ((harrive.entryOf_of_not_written hw hid.1).trans he)]
            rfl
          · exact (hread tail rfl).imp fun _ _ h => h.earlier writes hw harrive hlater
      · intro hsteady
        obtain ⟨tail, htail⟩ := hsucceeds fun id' hid' =>
          (Steady.split writes hw harrive hlater (hsteady id' (mem_cons_of_mem id hid'))).2
        rw [htail]
        exact ⟨_, rfl⟩

/-! ## One page -/

/-- The page size, with its default. -/
def requestedSize (request : ListTasksRequest) : Nat :=
  if request.pageSize = 0 then kDefaultListTasksPageSize else request.pageSize

/-- A task that a scan in the scope counts. -/
def visibleIn (allowed : Task → Bool) (scope : Option ListTasksRequest) (task : Task) : Bool :=
  scope.any fun query => matchesListFilters task query &&
    allowed (projectTaskForList task query.includeArtifacts query.historyLength)

/-- The entries past the cursor. -/
def past (cursor : Option ListTaskCursor) (scanned : List Entry) : List Entry :=
  scanned.filter fun e => pastCursor cursor e.cursor

/-- The boundary that a page of `size` tasks leaves behind. -/
def leftBoundary (size : Nat) (entries : List Entry) : Option ListTaskCursor :=
  nextBoundary { pageSize := size } entries

/-- The visible entries that a scan between `w` and `w'` has come across. -/
structure ScanSpec (visible : Task → Bool) (w w' : MemoryWorld τ) (scanned : List Entry) : Prop where
  later : Later writes w w'
  sorted : scanned.Pairwise fun e e' => CursorOrder e.cursor e'.cursor
  ids : (scanned.map fun e => e.task.id).Nodup
  shown : ∀ e ∈ scanned, visible e.task = true
  recent : ∀ e ∈ scanned, ∀ e', w.store.entryOf e.task.id = some e' → e'.updatedAt ≤ e.updatedAt
  known : Known scanned w'
  valid : ∀ e ∈ scanned, ValidBoundary (some e.cursor)
  complete : ∀ e, w.store.entryOf e.task.id = some e → visible e.task = true →
    e.task.id ∉ written writes w w' → e ∈ scanned
  sound : written writes w w' = [] → ∀ e ∈ scanned, w.store.entryOf e.task.id = some e

theorem scanSpec_nil (w : MemoryWorld τ) : ScanSpec writes (fun _ => false) w w [] := by
  have hnone {P : Entry → Prop} : ∀ e ∈ [], P e := forall_mem_nil P
  refine ⟨later_refl, .nil, nodup_nil, hnone, hnone, hnone, hnone, ?_, fun _ => hnone⟩
  exact fun e _ hvisible => absurd hvisible Bool.false_ne_true

/-- What a scan saw may be stated for a longer time. -/
theorem ScanSpec.widen {visible : Task → Bool} {v v' : MemoryWorld τ}
    (h : ScanSpec writes visible w w' scanned) (hv : v.store.WellFormed) (hbefore : Later writes v w)
    (hafter : Later writes w' v') : ScanSpec writes visible v v' scanned := by
  have hw : w.store.WellFormed := hbefore.wellFormed hv
  have hw' : w'.store.WellFormed := h.later.wellFormed hw
  have hwritten : written writes v v' = written writes v w ++ (written writes w w' ++ written writes w' v') := by
    rw [hbefore.written_append (h.later.trans hafter), h.later.written_append hafter]
  refine ⟨hbefore.trans (h.later.trans hafter), h.sorted, h.ids, h.shown, ?_,
    h.known.later writes hafter hw', h.valid, ?_, ?_⟩
  · intro e he e' he'
    obtain ⟨e'', he'', hle⟩ := hbefore.entryOf_mono hv he'
    exact hle.trans (h.recent e he e'' he'')
  · intro e he hvisible hid
    rw [hwritten, mem_append, mem_append, not_or, not_or] at hid
    exact h.complete e ((hbefore.entryOf_of_not_written hv hid.1).trans he) hvisible hid.2.1
  · intro hquiet e he
    rw [hwritten, append_eq_nil_iff, append_eq_nil_iff] at hquiet
    rw [← hbefore.entryOf_of_not_written hv (by rw [hquiet.1]; exact not_mem_nil)]
    exact h.sound hquiet.2.1 e he

/-- A scan that reached the end has seen every visible task. -/
theorem Scan.spec (h : Scan writes query none rounds w w' t returned) (hend : t.nextToken = []) :
    ScanSpec writes (visibleIn allowed (some query)) w w' (returned.filter fun e => allowed (projected query e)) := by
  have hwritten : written writes w w' = w.store.writtenIds t.writes := by
    unfold written
    rw [h.writes]
  refine ⟨h.later, h.traversal.sorted.filter _, h.traversal.ids.sublist (filter_sublist.map _),
    ?_, ?_, ?_, ?_, ?_, ?_⟩
  · intro e he
    obtain ⟨hmem, hallowed⟩ := mem_filter.mp he
    have hpasses : matchesListFilters e.task query := h.traversal.passes e hmem
    simp only [visibleIn, Option.any_some, hpasses, Bool.true_and]
    exact hallowed
  · intro e he
    exact h.traversal.recent e (mem_of_mem_filter he)
  · intro e he
    exact h.known e (mem_of_mem_filter he)
  · intro e he
    exact h.valid e (mem_of_mem_filter he)
  · intro e he hvisible hid
    simp only [visibleIn, Option.any_some, Bool.and_eq_true] at hvisible
    rw [hwritten] at hid
    refine mem_filter.mpr ⟨h.traversal.complete hend e he ?_ hvisible.1 hid, hvisible.2⟩
    intro b hb
    cases hb
  · intro hquiet e he
    exact h.traversal.sound (hwritten ▸ hquiet) e (mem_of_mem_filter he)

/-- Without writes, a scan cut short had fewer rounds than there are tasks. -/
theorem Scan.rounds_lt (hw : w.store.WellFormed) (h : Scan writes query none rounds w w' t returned)
    (hopen : t.nextToken ≠ []) (hquiet : ∀ k, writes k = []) : rounds < w.store.orderedTasks.length := by
  have hwritten : w.store.writtenIds t.writes = [] := by
    rw [← h.writes]
    exact written_of_quiet hquiet
  exact lt_of_lt_of_le (h.rounds hopen) (h.traversal.length_le hw hwritten)

/-- What the selection holds, in terms of the scanned entries. -/
structure SelectedEntries (cursor : Option ListTaskCursor) (size : Nat) (scanned : List Entry)
    (page : VisibleTaskPage) : Prop where
  totalSize : page.totalSize = scanned.length
  taskIds : page.taskIds = ((past cursor scanned).take size).map fun e => e.task.id
  nextPageToken : page.nextPageToken = boundaryToken (leftBoundary size (past cursor scanned))

variable {w₁ : MemoryWorld τ} {scope : Option ListTasksRequest}

/-- The selection, in terms of entries. -/
theorem Selected.toEntries {selection : Selection}
    (h : Selected cursor pageSize (shownOf allowed query returned) selection) :
    SelectedEntries cursor pageSize (returned.filter fun e => allowed (projected query e))
      selection.page := by
  have hshown : shownOf allowed query returned = (returned.filter fun e => allowed (projected query e)).map fun e =>
        (projected query e, e.cursor) := by
    unfold shownOf
    rw [filter_map]
    rfl
  generalize returned.filter (fun e => allowed (projected query e)) = scanned at hshown ⊢
  have hpast : (shownOf allowed query returned).filter (pastCursor cursor ·.2) =
      (past cursor scanned).map fun e => (projected query e, e.cursor) := by
    rw [hshown, filter_map]
    rfl
  obtain ⟨htotal, hids, hlast, htoken⟩ := h
  rw [hpast] at hids hlast htoken
  refine ⟨?_, ?_, ?_⟩
  · rw [htotal, hshown, length_map]
  · rw [hids, ← map_take, map_map]
    apply map_congr_left
    intro e _
    exact projectTaskForList_id _ _ _
  · rw [htoken, length_map]
    unfold leftBoundary nextBoundary
    dsimp only
    split
    · rfl
    · rw [hlast, ← map_take, List.getLast?_map, List.getLast?_map, Option.map_map]
      rfl

include hpolicy in
/-- The scan ends with the visible tasks, or its rounds run out. -/
theorem selectTaskIds_gives (query : ListTasksRequest) (rounds : Nat) (hw : w.store.WellFormed) :
    (∃ selected w' scanned,
      Gives (selectTaskIds policy (memoryTaskStore writes) (rounds + 1) query context cursor pageSize) w
        (.ok selected) w' ∧
      ScanSpec writes (visibleIn allowed (some query)) w w' scanned ∧
      SelectedEntries cursor pageSize scanned selected) ∨
    ((run (selectTaskIds policy (memoryTaskStore writes) (rounds + 1) query context cursor pageSize) w).value = none ∧
      ((∀ k, writes k = []) → rounds < w.store.orderedTasks.length)) := by
  have harrive := later_arrive writes w
  have hstore : (w.arrive writes).store.WellFormed := harrive.wellFormed hw
  obtain ⟨t, returned, w', hscan, hgives, hnone⟩ := selectLoop_scan hpolicy writes cursor pageSize
    { query with pageSize := kMaxListTasksPageSize, includeTotalSize := false }
    (by decide : 1 ≤ kMaxListTasksPageSize) rounds hw validBoundary_none {}
  by_cases hend : t.nextToken = []
  · refine .inl ⟨_, w', _, hgives hend, ?_, (Selection.addAll_spec cursor pageSize _).toEntries⟩
    exact (hscan.spec writes hend).widen writes hw harrive later_refl
  · refine .inr ⟨hnone hend, ?_⟩
    intro hquiet
    rw [← harrive.store_of_quiet hquiet]
    exact hscan.rounds_lt writes hstore hend hquiet

include hpolicy in
/-- The page is selected from the visible tasks of the scope, or the rounds run out. -/
theorem selectPage_gives (request : ListTasksRequest) (rounds : Nat) (hw : w.store.WellFormed)
    (hscope : policy.scopeTaskList { request with historyLength := none, includeArtifacts := true } context w =
      (scope, w₁))
    (hlater : Later writes w w₁) :
    (∃ selected w' scanned,
      Gives (selectPage policy (memoryTaskStore writes) (rounds + 1) request context cursor pageSize) w
        (.ok selected) w' ∧
      ScanSpec writes (visibleIn allowed scope) w w' scanned ∧
      SelectedEntries cursor pageSize scanned selected) ∨
    ((run (selectPage policy (memoryTaskStore writes) (rounds + 1) request context cursor pageSize) w).value = none ∧
      ((∀ k, writes k = []) → rounds < w.store.orderedTasks.length)) := by
  have hw₁ : w₁.store.WellFormed := hlater.wellFormed hw
  have hcall : Gives (policy.callScopeTaskList
      { request with historyLength := none, includeArtifacts := true } context) w scope w₁ := by
    unfold Gives SecurityPolicy.callScopeTaskList
    rw [run_call, hscope]
    exact ⟨rfl, rfl⟩
  cases scope with
  | none =>
    refine .inl ⟨{}, w₁, [], gives_bind hcall gives_pure, ?_, ?_⟩
    · exact (scanSpec_nil writes w₁).widen writes hw hlater later_refl
    · exact ⟨rfl, by simp [past], by simp [past, leftBoundary, nextBoundary, boundaryToken]⟩
  | some query =>
    rcases selectTaskIds_gives hpolicy writes cursor pageSize query rounds hw₁ with
      ⟨selected, w', scanned, hgives, hspec, hselected⟩ | ⟨hnone, hrounds⟩
    · exact .inl ⟨selected, w', scanned, gives_bind hcall hgives,
        hspec.widen writes hw hlater later_refl, hselected⟩
    · refine .inr ⟨(value_bind_of_gives hcall).trans hnone, fun hquiet => ?_⟩
      rw [← hlater.store_of_quiet hquiet]
      exact hrounds hquiet

/-- A page: a window on what its scan came across, read a second time. -/
structure PageSpec (visible : Task → Bool) (request : ListTasksRequest)
    (cursor : Option ListTaskCursor) (w w' : MemoryWorld τ) (page : ListTasksResponse)
    (scanned : List Entry) : Prop extends ScanSpec writes visible w w' scanned where
  pageSize : page.pageSize = requestedSize request
  totalSize : page.totalSize = scanned.length
  tasks : List.Forall₂ (fun e task => ReadBack writes request w w' e.task.id task)
    ((past cursor scanned).take (requestedSize request)) page.tasks
  nextPageToken : page.nextPageToken =
    boundaryToken (leftBoundary (requestedSize request) (past cursor scanned))
  taskCursors : page.taskCursors = []

include hpolicy in
/-- A call with a readable token returns or runs out of rounds. It fails only on a write, or on a scope that counts a
task which its second look refuses. -/
theorem listTasks_gives {token : Bytes}
    (hsize : request.pageSize ≤ kMaxListTasksPageSize) (htoken : parseListPageToken token = .ok cursor)
    (rounds : Nat) (hw : w.store.WellFormed)
    (hscope : policy.scopeTaskList
      { request with pageToken := token, historyLength := none, includeArtifacts := true } context w = (scope, w₁))
    (hlater₁ : Later writes w w₁) :
    (∃ result w', Gives (listTasks ⟨some policy, some (memoryTaskStore writes)⟩ (rounds + 1)
        { request with pageToken := token } context) w result w' ∧
      (∀ payload, result = .ok payload → ∃ page scanned, payload = .listTasks page ∧
        PageSpec writes (visibleIn allowed scope) request cursor w w' page scanned) ∧
      (written writes w w' = [] → (∀ e, w.store.entryOf e.task.id = some e → visibleIn allowed scope e.task →
          allowed e.task) → ∃ payload, result = .ok payload)) ∨
    ((run (listTasks ⟨some policy, some (memoryTaskStore writes)⟩ (rounds + 1)
        { request with pageToken := token } context) w).value = none ∧
      ((∀ k, writes k = []) → rounds < w.store.orderedTasks.length)) := by
  have hlarge : ¬ request.pageSize > kMaxListTasksPageSize := by omega
  unfold listTasks configuration
  dsimp only
  rw [if_neg hlarge, htoken]
  dsimp only
  rcases selectPage_gives hpolicy writes cursor (requestedSize request)
      { request with pageToken := token } rounds hw hscope hlater₁ with
    ⟨selected, w', scanned, hgives, hspec, hselected⟩ | ⟨hnone, hrounds⟩
  · have hw' : w'.store.WellFormed := hspec.later.wellFormed hw
    obtain ⟨result, w'', hread, hlater, htasks, hsucceeds⟩ :=
      readSelected_gives hpolicy writes { request with pageToken := token } selected.taskIds hw'
    refine .inl ⟨_, w'', gives_bind hgives (gives_bind hread gives_pure), ?_, ?_⟩
    · intro payload hpayload
      cases result with
      | error error => nomatch hpayload
      | ok tasks =>
        cases hpayload
        have hback := htasks tasks rfl
        rw [hselected.taskIds, forall₂_map_left_iff] at hback
        refine ⟨_, scanned, rfl, hspec.widen writes hw later_refl hlater, rfl,
          hselected.totalSize, ?_, hselected.nextPageToken, rfl⟩
        exact hback.imp fun _ _ h => h.earlier writes hw hspec.later hlater
    · intro hquiet hvisible
      rw [hspec.later.written_append hlater, append_eq_nil_iff] at hquiet
      have hsteady : ∀ id ∈ selected.taskIds, Steady writes allowed w' w'' id := by
        intro id hid
        rw [hselected.taskIds] at hid
        obtain ⟨e, he, rfl⟩ := mem_map.mp hid
        have hscanned : e ∈ scanned := mem_of_mem_filter (mem_of_mem_take he)
        have hstored := hspec.sound hquiet.1 e hscanned
        refine ⟨by rw [hquiet.2]; exact not_mem_nil, e, ?_, hvisible e hstored (hspec.shown e hscanned)⟩
        rw [hspec.later.entryOf_of_not_written hw (by rw [hquiet.1]; exact not_mem_nil)]
        exact hstored
      obtain ⟨tasks, rfl⟩ := hsucceeds hsteady
      exact ⟨_, rfl⟩
  · exact .inr ⟨congrArg Outcome.value (run_bind_none hnone), hrounds⟩

end Scan

end DispatchSecurity

end A2A.Server.Dispatch
