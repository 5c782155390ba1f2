/-
# What a client sees who walks the list page by page.
-/
import A2A.Server.Tasks.StoreOperations

namespace A2A.Server.Tasks.InMemoryTaskStore

open A2A.Foundation A2A.Core List

/-! ## Traversals -/

/-- The pages, the writes of others between them, and the token of the last page. -/
structure Traversal where
  pages : List ListTasksResponse
  writes : List (StoreCall × Int64)
  nextToken : Bytes

/-- The tasks of all pages. -/
def Traversal.tasks (t : Traversal) : List Task := t.pages.flatMap ListTasksResponse.tasks

/-- The cursors of all pages. -/
def Traversal.cursors (t : Traversal) : List ListTaskCursor :=
  t.pages.flatMap ListTasksResponse.taskCursors

/-- Fetch pages while there is a token and the client goes on, with a batch of writes between them. -/
def traverse (request : ListTasksRequest) :
    InMemoryTaskStore → Bytes → List (List (StoreCall × Int64)) → Result Traversal
  | store, token, [] =>
    match store.list { request with pageToken := token } with
    | .error e => .error e
    | .ok page => .ok ⟨[page], [], page.nextPageToken⟩
  | store, token, batch :: batches =>
    match store.list { request with pageToken := token } with
    | .error e => .error e
    | .ok page =>
      if page.nextPageToken.isEmpty then .ok ⟨[page], [], page.nextPageToken⟩
      else
        match traverse request (store.run batch) page.nextPageToken batches with
        | .error e => .error e
        | .ok rest => .ok ⟨page :: rest.pages, batch ++ rest.writes, rest.nextToken⟩

/-! ## One page -/

/-- The token of a boundary; a traversal starts without one. -/
def boundaryToken : Option ListTaskCursor → Bytes
  | none => []
  | some cursor => encodeListPageToken cursor

/-- A boundary that a page left behind belongs to a stored task. -/
def ValidBoundary (boundary : Option ListTaskCursor) : Prop :=
  ∀ b ∈ boundary, 0 ≤ b.updatedAt ∧ b.taskId ≠ []

theorem validBoundary_none : ValidBoundary none := fun _ hb => nomatch hb

theorem parse_boundaryToken {boundary : Option ListTaskCursor} (h : ValidBoundary boundary) :
    parseListPageToken (boundaryToken boundary) = .ok boundary := by
  cases boundary with
  | none => rfl
  | some b => exact parse_encode_listPageToken (h b rfl).1 (h b rfl).2

/-- Strictly past the boundary. -/
def After (boundary : Option ListTaskCursor) (cursor : ListTaskCursor) : Prop :=
  ∀ b ∈ boundary, CursorOrder b cursor

/-- The entries that a page with this boundary walks over, in the order it walks them. -/
def entriesAfter (store : InMemoryTaskStore) (boundary : Option ListTaskCursor) : List Entry :=
  (store.rangeAfter boundary).filterMap fun cursor => store.entryOf cursor.taskId

/-- The entry passes the filters of the request. -/
def Entry.passes (request : ListTasksRequest) (e : Entry) : Bool := matchesListFilters e.task request

/-- The entries past a boundary that pass the filters. -/
def matchingAfter (store : InMemoryTaskStore) (request : ListTasksRequest)
    (boundary : Option ListTaskCursor) : List Entry :=
  (store.entriesAfter boundary).filter (Entry.passes request)

/-- The task as the request wants it shown. -/
def projected (request : ListTasksRequest) (e : Entry) : Task :=
  projectTaskForList e.task request.includeArtifacts request.historyLength

open Entry

section Page

variable {store : InMemoryTaskStore} (h : store.WellFormed)

include h

variable {boundary : Option ListTaskCursor} {e : Entry}

omit h in
theorem mem_rangeAfter {cursor : ListTaskCursor} :
    cursor ∈ store.rangeAfter boundary ↔ cursor ∈ store.updateOrder ∧ After boundary cursor := by
  cases boundary with
  | none => simp [rangeAfter, After, OrderedSet.mem_def]
  | some b => simp [rangeAfter, After, OrderedSet.mem_upperBound]

theorem cursors_entriesAfter (boundary : Option ListTaskCursor) :
    (store.entriesAfter boundary).map Entry.cursor = store.rangeAfter boundary := by
  have hwalk : ∀ cursors : List ListTaskCursor, (∀ c ∈ cursors, c ∈ store.updateOrder) →
      (cursors.filterMap fun c => store.entryOf c.taskId).map cursor = cursors := by
    intro cursors
    induction cursors with
    | nil =>
      intro _
      rfl
    | cons c cursors ih =>
      intro hmem
      obtain ⟨e, he, hcursor⟩ := (h.mem_updateOrder_iff c).mp (hmem c mem_cons_self)
      rw [filterMap_cons, he]
      dsimp only
      rw [map_cons, hcursor, ih fun c' hc' => hmem c' (mem_cons_of_mem c hc')]
  apply hwalk
  intro c hc
  exact (mem_rangeAfter.mp hc).1

theorem mem_entriesAfter :
    e ∈ store.entriesAfter boundary ↔ store.entryOf e.task.id = some e ∧ After boundary e.cursor := by
  unfold entriesAfter
  rw [mem_filterMap]
  constructor
  · rintro ⟨c, hc, he⟩
    obtain ⟨hstored, hafter⟩ := mem_rangeAfter.mp hc
    obtain ⟨e', he', rfl⟩ := (h.mem_updateOrder_iff c).mp hstored
    cases he'.symm.trans he
    exact ⟨he, hafter⟩
  · rintro ⟨he, hafter⟩
    exact ⟨e.cursor, mem_rangeAfter.mpr ⟨(h.mem_updateOrder_iff _).mpr ⟨e, he, rfl⟩, hafter⟩, he⟩

theorem mem_matchingAfter {request : ListTasksRequest} :
    e ∈ store.matchingAfter request boundary ↔ store.entryOf e.task.id = some e ∧
      After boundary e.cursor ∧ e.passes request := by
  rw [matchingAfter, mem_filter, mem_entriesAfter h, and_assoc]

theorem pairwise_entriesAfter (boundary : Option ListTaskCursor) :
    (store.entriesAfter boundary).Pairwise fun e e' => CursorOrder e.cursor e'.cursor := by
  rw [← pairwise_map, cursors_entriesAfter h]
  cases boundary with
  | none => exact store.updateOrder.sorted
  | some b => exact OrderedSet.pairwise_upperBound _ b

theorem pairwise_matchingAfter (request : ListTasksRequest) (boundary : Option ListTaskCursor) :
    (store.matchingAfter request boundary).Pairwise fun e e' => CursorOrder e.cursor e'.cursor :=
  (pairwise_entriesAfter h boundary).filter _

theorem taskAt_of_entryOf (he : store.entryOf e.task.id = some e) : store.taskAt e.task.id = e.task := by
  obtain ⟨index, hrow, _⟩ := (h.entryOf_eq_some_iff _ e).mp he
  have hindex : store.taskIndices.lookup e.task.id = some index :=
    (h.index_iff_row _ _).mpr ⟨e, hrow, rfl⟩
  rw [taskAt, hindex, Option.bind_some, (rowAt_eq_some.mp hrow).1, Option.getD_some]

omit h in
/-- The loop of `List` over entries: it fills the page, and gives a token only if a matching entry is left. -/
theorem listFrom_spec (request : ListTasksRequest) (hsize : 1 ≤ request.pageSize) (entries : List Entry)
    (hentries : ∀ e ∈ entries, store.taskAt e.task.id = e.task) (response : ListTasksResponse)
    (hlen : response.taskCursors.length = response.tasks.length) (hroom : response.tasks.length ≤ request.pageSize) :
    let matching := entries.filter (passes request)
    let taken := matching.take (request.pageSize - response.tasks.length)
    let result := store.listFrom request (entries.map cursor) response
    result.tasks = response.tasks ++ taken.map (projected request) ∧
    result.taskCursors = response.taskCursors ++ taken.map cursor ∧
    result.nextPageToken =
      if response.tasks.length + matching.length ≤ request.pageSize then response.nextPageToken
      else encodeListPageToken ((response.taskCursors ++ taken.map cursor).getLast?.getD {}) := by
  induction entries generalizing response with
  | nil =>
    simp [listFrom, hroom]
  | cons e entries ih =>
    have htask : store.taskAt e.task.id = e.task := hentries e mem_cons_self
    have hrest : ∀ e' ∈ entries, store.taskAt e'.task.id = e'.task :=
      fun e' he' => hentries e' (mem_cons_of_mem e he')
    have hcursor : store.taskAt e.cursor.taskId = e.task := htask
    rw [map_cons]
    simp only [listFrom, hcursor]
    by_cases hmatch : matchesListFilters e.task request
    · have hkeep : (e :: entries).filter (passes request) =
          e :: entries.filter (passes request) := filter_cons_of_pos hmatch
      rw [if_neg (by simp [hmatch]), hkeep]
      by_cases hfull : response.tasks.length = request.pageSize
      · rw [if_pos ⟨by omega, hfull⟩]
        have hnone : request.pageSize - response.tasks.length = 0 := by omega
        have hover : ¬ response.tasks.length + (e :: entries.filter (passes request)).length ≤ request.pageSize := by
          rw [length_cons]
          omega
        rw [if_neg hover, hnone]
        simp
      · rw [if_neg fun hboth => hfull hboth.2]
        have hroom' : response.tasks.length + 1 ≤ request.pageSize := by omega
        obtain ⟨htasks, hcursors, htoken⟩ := ih hrest { response with
            tasks := response.tasks ++ [projectTaskForList e.task request.includeArtifacts request.historyLength]
            taskCursors := response.taskCursors ++ [e.cursor] }
          (by simp [hlen]) (by simpa using hroom')
        have hone : request.pageSize - response.tasks.length =
            (request.pageSize - (response.tasks.length + 1)) + 1 := by omega
        have hcount : ∀ n : Nat, response.tasks.length + (n + 1) ≤ request.pageSize ↔
            response.tasks.length + 1 + n ≤ request.pageSize := by omega
        simp only [length_append, length_cons, length_nil, Nat.zero_add,
          append_assoc, cons_append, nil_append] at htasks hcursors htoken
        simp only [hone, take_succ_cons, map_cons, length_cons, hcount]
        exact ⟨htasks, hcursors, htoken⟩
    · have hskip : (e :: entries).filter (passes request) =
          entries.filter (passes request) := filter_cons_of_neg hmatch
      rw [if_pos (by simp [hmatch]), hskip]
      exact ih hrest response hlen hroom

/-- The boundary a page leaves: its last cursor, when a matching entry is left over. -/
def nextBoundary (request : ListTasksRequest) (matching : List Entry) : Option ListTaskCursor :=
  if matching.length ≤ request.pageSize then none
  else some (((matching.take request.pageSize).map Entry.cursor).getLast?.getD {})

/-- The entries of the page past a boundary. -/
def pageEntries (store : InMemoryTaskStore) (request : ListTasksRequest) (boundary : Option ListTaskCursor) :
    List Entry := (store.matchingAfter request boundary).take request.pageSize

/-- A page holds the first `pageSize` matching entries past its boundary, and the token of the boundary it leaves. -/
structure PageOf (store : InMemoryTaskStore) (request : ListTasksRequest) (boundary : Option ListTaskCursor)
    (page : ListTasksResponse) : Prop where
  tasks : page.tasks = (store.pageEntries request boundary).map (projected request)
  cursors : page.taskCursors = (store.pageEntries request boundary).map cursor
  token : page.nextPageToken = boundaryToken (nextBoundary request (store.matchingAfter request boundary))

variable {request : ListTasksRequest} {page : ListTasksResponse}

theorem list_spec (hsize : 1 ≤ request.pageSize) (hboundary : ValidBoundary boundary) :
    ∃ page, store.list { request with pageToken := boundaryToken boundary } = .ok page ∧
      PageOf store request boundary page := by
  have hentries : ∀ e ∈ store.entriesAfter boundary, store.taskAt e.task.id = e.task :=
    fun e he => taskAt_of_entryOf h ((mem_entriesAfter h).mp he).1
  simp only [list, parse_boundaryToken hboundary, ← cursors_entriesAfter h]
  -- The loop starts from an empty page, whatever total size the page reports.
  have hloop := fun totalSize : Nat =>
    listFrom_spec { request with pageToken := boundaryToken boundary } hsize
      (store.entriesAfter boundary) hentries { totalSize } rfl (Nat.zero_le _)
  refine ⟨_, rfl, (hloop _).1, (hloop _).2.1, (hloop _).2.2.trans ?_⟩
  simp only [length_nil, Nat.zero_add, nil_append, Nat.sub_zero]
  rw [nextBoundary, apply_ite boundaryToken]
  rfl

/-- The last entry of a page of a sorted list that goes on behind it. -/
structure LastOf (size : Nat) (entries : List Entry) (last : Entry) : Prop where
  mem : last ∈ entries.take size
  getLast : (entries.take size).getLast? = some last
  long : size < entries.length
  before : ∀ e ∈ entries.take size, e = last ∨ CursorOrder e.cursor last.cursor
  left : ∀ e ∈ entries, e ∉ entries.take size → CursorOrder last.cursor e.cursor

omit h in
/-- There is no boundary if the page holds all entries; else it is the cursor of the last one. -/
theorem nextBoundary_of_pairwise (request : ListTasksRequest) (hsize : 1 ≤ request.pageSize)
    {entries : List Entry} (hsorted : entries.Pairwise fun e e' => CursorOrder e.cursor e'.cursor) :
    (nextBoundary request entries = none ∧ entries.take request.pageSize = entries) ∨
    ∃ last, LastOf request.pageSize entries last ∧ nextBoundary request entries = some last.cursor := by
  by_cases hfits : entries.length ≤ request.pageSize
  · exact .inl ⟨if_pos hfits, take_of_length_le hfits⟩
  · have hlt : request.pageSize < entries.length := by omega
    obtain ⟨last, hmem, hlast, hheld, hleft⟩ := exists_last_of_pairwise_take
      (fun e e' : Entry => CursorOrder e.cursor e'.cursor) hsorted hsize hlt
    refine .inr ⟨last, ⟨hmem, hlast, hlt, hheld, fun e he hnot => ?_⟩, ?_⟩
    · rw [← take_append_drop request.pageSize entries] at he
      exact hleft e ((mem_append.mp he).resolve_left hnot)
    · rw [nextBoundary, if_neg hfits, List.getLast?_map, hlast, Option.map_some, Option.getD_some]

/-- A page without a token holds all matching entries past its boundary; a token is that of its last entry. -/
theorem PageOf.token_cases (hpage : PageOf store request boundary page) (hsize : 1 ≤ request.pageSize) :
    (page.nextPageToken = [] ∧ store.pageEntries request boundary = store.matchingAfter request boundary) ∨
    ∃ last, LastOf request.pageSize (store.matchingAfter request boundary) last ∧
      page.nextPageToken = boundaryToken (some last.cursor) ∧ page.nextPageToken ≠ [] := by
  rcases nextBoundary_of_pairwise request hsize (pairwise_matchingAfter h request boundary) with
    ⟨hnone, hall⟩ | ⟨last, hlast, hnext⟩
  · exact .inl ⟨hpage.token.trans (congrArg _ hnone), hall⟩
  · have htoken := hpage.token.trans (congrArg _ hnext)
    exact .inr ⟨last, hlast, htoken, htoken ▸ encodeListPageToken_ne_nil _⟩

theorem nodup_ids_matchingAfter (request : ListTasksRequest) (boundary : Option ListTaskCursor) :
    ((store.matchingAfter request boundary).map fun e => e.task.id).Nodup := by
  refine List.Nodup.map_on ?_ ?_
  · intro e he e' he' hid
    have h1 := ((mem_matchingAfter h).mp he).1
    have h2 := ((mem_matchingAfter h).mp he').1
    rw [hid] at h1
    exact Option.some.inj (h1.symm.trans h2)
  · refine (pairwise_matchingAfter h request boundary).imp ?_
    intro e e' hlt hEq
    exact irrefl_of CursorOrder e.cursor (hEq ▸ hlt)

theorem mem_pageEntries (he : e ∈ store.pageEntries request boundary) :
    store.entryOf e.task.id = some e ∧ After boundary e.cursor ∧ e.passes request :=
  (mem_matchingAfter h).mp (mem_of_mem_take he)

theorem pairwise_pageEntries :
    (store.pageEntries request boundary).Pairwise fun e e' => CursorOrder e.cursor e'.cursor :=
  (pairwise_matchingAfter h request boundary).sublist (take_sublist _ _)

theorem nodup_ids_pageEntries : ((store.pageEntries request boundary).map fun e => e.task.id).Nodup :=
  (nodup_ids_matchingAfter h request boundary).sublist ((take_sublist _ _).map _)

end Page

/-! ## A whole traversal -/

/-- What a traversal from `store` and `boundary` has returned, as entries of the stores it met. -/
structure TraversalSpec (request : ListTasksRequest) (store : InMemoryTaskStore)
    (boundary : Option ListTaskCursor) (t : Traversal) (returned : List Entry) : Prop where
  tasks : t.tasks = returned.map (projected request)
  cursors : t.cursors = returned.map Entry.cursor
  passes : ∀ e ∈ returned, e.passes request = true
  after : ∀ e ∈ returned, After boundary e.cursor
  sorted : returned.Pairwise fun e e' => CursorOrder e.cursor e'.cursor
  /-- A returned entry is at least as recent as what the store held at the start. -/
  recent : ∀ e ∈ returned, ∀ e', store.entryOf e.task.id = some e' → e'.updatedAt ≤ e.updatedAt
  ids : (returned.map fun e => e.task.id).Nodup
  complete : t.nextToken = [] → ∀ e, store.entryOf e.task.id = some e → After boundary e.cursor →
    e.passes request = true → e.task.id ∉ store.writtenIds t.writes → e ∈ returned
  sound : store.writtenIds t.writes = [] → ∀ e ∈ returned, store.entryOf e.task.id = some e

variable {boundary : Option ListTaskCursor} {store : InMemoryTaskStore} {request : ListTasksRequest}
    {page : ListTasksResponse} {t : Traversal} {held returned : List Entry} {last : Entry}

theorem After.of_last {last cursor : ListTaskCursor} (hlast : After boundary last)
    (hcursor : CursorOrder last cursor) : After boundary cursor :=
  fun b hb => trans_of CursorOrder (hlast b hb) hcursor

/-- A page comes before the entries past its last one. -/
theorem LastOf.cross {size : Nat} (hlast : LastOf size held last)
    (hpast : ∀ e ∈ returned, After (some last.cursor) e.cursor) :
    ∀ e ∈ held.take size, ∀ e' ∈ returned, CursorOrder e.cursor e'.cursor := by
  intro e he e' he'
  rcases hlast.before e he with rfl | hlt
  · exact hpast e' he' _ rfl
  · exact trans_of CursorOrder hlt (hpast e' he' _ rfl)

/-- Entries further down the list that are not older have other ids. -/
theorem nodup_ids_append (hheld : (held.map fun e => e.task.id).Nodup)
    (hreturned : (returned.map fun e => e.task.id).Nodup)
    (hcross : ∀ e ∈ held, ∀ e' ∈ returned, CursorOrder e.cursor e'.cursor)
    (hrecent : ∀ e ∈ held, ∀ e' ∈ returned, e.task.id = e'.task.id → e.updatedAt ≤ e'.updatedAt) :
    ((held ++ returned).map fun e => e.task.id).Nodup := by
  rw [map_append, nodup_append]
  refine ⟨hheld, hreturned, ?_⟩
  intro x hx y hy hxy
  obtain ⟨e, he, rfl⟩ := mem_map.mp hx
  obtain ⟨e', he', rfl⟩ := mem_map.mp hy
  rcases cursorOrder_iff.mp (hcross e he e' he') with hlt | ⟨_, hlt⟩
  · exact absurd hlt (not_lt.mpr (hrecent e he e' he' hxy))
  · exact absurd hxy (ne_of_gt hlt)

theorem traversalSpec_single (h : store.WellFormed) (hsize : 1 ≤ request.pageSize)
    (hpage : PageOf store request boundary page) :
    TraversalSpec request store boundary ⟨[page], [], page.nextPageToken⟩ (store.pageEntries request boundary) where
  tasks := by simp [Traversal.tasks, hpage.tasks]
  cursors := by simp [Traversal.cursors, hpage.cursors]
  passes e he := (mem_pageEntries h he).2.2
  after e he := (mem_pageEntries h he).2.1
  sorted := pairwise_pageEntries h
  recent e he e' he' := by
    cases (mem_pageEntries h he).1.symm.trans he'
    exact le_refl _
  ids := nodup_ids_pageEntries h
  complete hend e he hafter hpasses _ := by
    rcases hpage.token_cases h hsize with ⟨-, hall⟩ | ⟨last, -, -, hmore⟩
    · rw [hall]
      exact (mem_matchingAfter h).mpr ⟨he, hafter, hpasses⟩
    · exact absurd hend hmore
  sound _ e he := (mem_pageEntries h he).1

/-- One more page in front, the writes after it, and the rest from the last cursor of the page. -/
theorem TraversalSpec.cons (h : store.WellFormed) {batch : List (StoreCall × Int64)}
    (hpage : PageOf store request boundary page)
    (hlast : LastOf request.pageSize (store.matchingAfter request boundary) last)
    (hrest : TraversalSpec request (store.run batch) (some last.cursor) t returned) :
    TraversalSpec request store boundary ⟨page :: t.pages, batch ++ t.writes, t.nextToken⟩
      (store.pageEntries request boundary ++ returned) := by
  have hcross := hlast.cross hrest.after
  have hrecent : ∀ e ∈ returned, ∀ e', store.entryOf e.task.id = some e' → e'.updatedAt ≤ e.updatedAt := by
    intro e he e' he'
    obtain ⟨e'', he'', hle⟩ := run_entryOf_mono h batch he'
    exact hle.trans (hrest.recent e he e'' he'')
  constructor
  case tasks =>
    show page.tasks ++ t.tasks = _
    rw [hpage.tasks, hrest.tasks, map_append]
  case cursors =>
    show page.taskCursors ++ t.cursors = _
    rw [hpage.cursors, hrest.cursors, map_append]
  case passes => exact forall_mem_append.mpr ⟨fun e he => (mem_pageEntries h he).2.2, hrest.passes⟩
  case after =>
    refine forall_mem_append.mpr ⟨fun e he => (mem_pageEntries h he).2.1, fun e he => ?_⟩
    exact (mem_pageEntries h hlast.mem).2.1.of_last (hrest.after e he _ rfl)
  case sorted => exact pairwise_append.mpr ⟨pairwise_pageEntries h, hrest.sorted, hcross⟩
  case recent =>
    refine forall_mem_append.mpr ⟨fun e he e' he' => ?_, hrecent⟩
    cases (mem_pageEntries h he).1.symm.trans he'
    exact le_refl _
  case ids =>
    -- A task returned before would have to come back at an EARLIER time, and times only grow.
    refine nodup_ids_append (nodup_ids_pageEntries h) hrest.ids hcross fun e he e' he' hid => ?_
    exact hrecent e' he' e (hid ▸ (mem_pageEntries h he).1)
  case complete =>
    intro hend e he hafter hpasses hnot
    rw [writtenIds_append, mem_append, not_or] at hnot
    by_cases hmem : e ∈ store.pageEntries request boundary
    · exact mem_append_left _ hmem
    · refine mem_append_right _ (hrest.complete hend e ?_ ?_ hpasses hnot.2)
      · rw [run_entryOf_of_not_written h hnot.1, he]
      · rintro _ ⟨⟩
        exact hlast.left e ((mem_matchingAfter h).mpr ⟨he, hafter, hpasses⟩) hmem
  case sound =>
    intro hnone
    rw [writtenIds_append, append_eq_nil_iff] at hnone
    refine forall_mem_append.mpr ⟨fun e he => (mem_pageEntries h he).1, fun e he => ?_⟩
    rw [← run_entryOf_of_not_written h (by rw [hnone.1]; exact not_mem_nil)]
    exact hrest.sound hnone.2 e he

theorem validBoundary_of_entryOf (h : store.WellFormed) {e : Entry} (he : store.entryOf e.task.id = some e) :
    ValidBoundary (some e.cursor) := by
  rintro _ ⟨⟩
  obtain ⟨index, hrow, _⟩ := (h.entryOf_eq_some_iff _ e).mp he
  have hok := h.rows_ok index e hrow
  exact ⟨Int64.le_iff_toInt_le.mpr hok.time_nonneg, hok.id_ne⟩

/-- Every traversal succeeds and meets its specification; one cut short has a full page for each batch and one more. -/
theorem traverse_spec (request : ListTasksRequest) (hsize : 1 ≤ request.pageSize) (h : store.WellFormed)
    (hboundary : ValidBoundary boundary) (batches : List (List (StoreCall × Int64))) :
    ∃ t returned, traverse request store (boundaryToken boundary) batches = .ok t ∧
      TraversalSpec request store boundary t returned ∧
      (t.nextToken ≠ [] → batches.length < returned.length) := by
  induction batches generalizing store boundary with
  | nil =>
    obtain ⟨page, hlist, hpage⟩ := list_spec h hsize hboundary
    refine ⟨⟨[page], [], page.nextPageToken⟩, _, by simp only [traverse, hlist],
      traversalSpec_single h hsize hpage, fun hmore => ?_⟩
    rcases hpage.token_cases h hsize with ⟨hend, -⟩ | ⟨last, hlast, -⟩
    · exact absurd hend hmore
    · exact length_pos_of_mem hlast.mem
  | cons batch batches ih =>
    obtain ⟨page, hlist, hpage⟩ := list_spec h hsize hboundary
    rcases hpage.token_cases h hsize with ⟨hend, -⟩ | ⟨last, hlast, htoken, hmore⟩
    · refine ⟨⟨[page], [], page.nextPageToken⟩, _, ?_, traversalSpec_single h hsize hpage, absurd hend⟩
      simp only [traverse, hlist, hend, isEmpty_nil, if_true]
    · obtain ⟨t, returned, hrun, hspec, hpages⟩ :=
        ih (run_wellFormed h batch) (validBoundary_of_entryOf h (mem_pageEntries h hlast.mem).1)
      refine ⟨_, _, ?_, hspec.cons h hpage hlast, fun hopen => ?_⟩
      · simp only [traverse, hlist, if_neg (mt List.isEmpty_iff.mp hmore)]
        rw [htoken, hrun]
      · have htail := hpages hopen
        have hhead : 0 < (store.pageEntries request boundary).length := length_pos_of_mem hlast.mem
        rw [length_append, length_cons]
        omega

/-! ## What the client can rely on -/

theorem TraversalSpec.task_ids (hspec : TraversalSpec request store boundary t returned) :
    t.tasks.map Task.id = returned.map fun e => e.task.id := by
  rw [hspec.tasks, map_map]
  apply map_congr_left
  intro e _
  exact projectTaskForList_id _ _ _

/-- Distinct stored entries are at most as many as the store has tasks. -/
theorem length_le_of_stored (h : store.WellFormed) {entries : List Entry}
    (hids : (entries.map fun e => e.task.id).Nodup) (hstored : ∀ e ∈ entries, store.entryOf e.task.id = some e) :
    entries.length ≤ store.orderedTasks.length := by
  have hsubset : (entries.map fun e => e.task.id) ⊆ store.orderedTasks.map Task.id := by
    intro id hid
    obtain ⟨e, he, rfl⟩ := mem_map.mp hid
    obtain ⟨index, hrow, _⟩ := (h.entryOf_eq_some_iff _ e).mp (hstored e he)
    exact mem_map_of_mem (mem_of_getElem? (rowAt_eq_some.mp hrow).1)
  have hlength := (subperm_of_subset hids hsubset).length_le
  simpa using hlength

theorem TraversalSpec.length_le (h : store.WellFormed) (hspec : TraversalSpec request store boundary t returned)
    (hquiet : store.writtenIds t.writes = []) : returned.length ≤ store.orderedTasks.length :=
  length_le_of_stored h hspec.ids (hspec.sound hquiet)

/-- No id comes up twice, whatever is written between the pages; a finished traversal has returned
every task that matched at its start and was not written since, exactly once; and without writes
the traversal finishes and has returned exactly the matching tasks, newest first. -/
theorem traversal_returns_each_task_once (store : ConsistentStore) (request : ListTasksRequest)
    (hsize : 1 ≤ request.pageSize) (batches : List (List (StoreCall × Int64))) :
    ∃ t, traverse request store.raw [] batches = .ok t ∧ (t.tasks.map Task.id).Nodup ∧
      (t.nextToken = [] → ∀ id e, store.raw.entryOf id = some e →
        matchesListFilters e.task request = true → id ∉ store.raw.writtenIds t.writes →
        (t.tasks.map Task.id).count id = 1 ∧
          projectTaskForList e.task request.includeArtifacts request.historyLength ∈ t.tasks) ∧
      (store.raw.writtenIds t.writes = [] → (store.raw.orderedTasks.length ≤ batches.length → t.nextToken = []) ∧
        (t.nextToken = [] → ∃ entries : List Entry, (entries.Pairwise fun e e' => CursorOrder e.cursor e'.cursor) ∧
          (∀ e, e ∈ entries ↔ store.raw.entryOf e.task.id = some e ∧ matchesListFilters e.task request = true) ∧
          t.cursors = entries.map Entry.cursor ∧
          t.tasks = entries.map fun e =>
            projectTaskForList e.task request.includeArtifacts request.historyLength)) := by
  have h := store.wellFormed
  have hany : ∀ c : ListTaskCursor, After none c := fun c b hb => nomatch hb
  obtain ⟨t, returned, hrun, hspec, hpages⟩ := traverse_spec request hsize h validBoundary_none batches
  have hids : (t.tasks.map Task.id).Nodup := by
    rw [hspec.task_ids]
    exact hspec.ids
  refine ⟨t, hrun, hids, ?_, ?_⟩
  · intro hend id e he hmatch hnot
    obtain rfl : e.task.id = id := h.entryOf_id he
    have hmem : e ∈ returned := hspec.complete hend e he (hany _) hmatch hnot
    refine ⟨?_, ?_⟩
    · apply List.count_eq_one_of_mem hids
      rw [hspec.task_ids]
      exact List.mem_map_of_mem hmem
    · rw [hspec.tasks]
      exact List.mem_map_of_mem hmem
  · intro hquiet
    refine ⟨?_, ?_⟩
    · intro henough
      by_contra hopen
      have hmany := hpages hopen
      have hfew := hspec.length_le h hquiet
      omega
    · intro hend
      refine ⟨returned, hspec.sorted, ?_, hspec.cursors, hspec.tasks⟩
      intro e
      constructor
      · intro he
        exact ⟨hspec.sound hquiet e he, hspec.passes e he⟩
      · rintro ⟨he, hmatch⟩
        exact hspec.complete hend e he (hany _) hmatch (by rw [hquiet]; exact List.not_mem_nil)

/-- Two stored tasks, read one a page while the first one is canceled in between. -/
theorem traversal_of_two_tasks_with_cancel :
    1 ≤ ({ pageSize := 1 } : ListTasksRequest).pageSize ∧ ∃ t, traverse { pageSize := 1 }
        (ConsistentStore.empty.run [(.createOrUpdate { id := "a" }, 5),
          (.createOrUpdate { id := "b" }, 3)]).raw [] [[(.cancel "a", 9)]] = .ok t ∧
        (t.tasks.map Task.id).Nodup := by
  refine ⟨by decide, ?_⟩
  obtain ⟨t, hrun, hids, _⟩ := traversal_returns_each_task_once
    (ConsistentStore.empty.run [(.createOrUpdate { id := "a" }, 5),
      (.createOrUpdate { id := "b" }, 3)]) { pageSize := 1 } (by decide) [[(.cancel "a", 9)]]
  exact ⟨t, hrun, hids⟩

-- The same run, evaluated: both tasks come up, and no token is left.
example : (traverse { pageSize := 1 }
    (run {} [(.createOrUpdate { id := "a" }, 5), (.createOrUpdate { id := "b" }, 3)]) []
    [[(.cancel "a", 9)]]).toOption.map (fun t => (t.tasks.map Task.id, t.nextToken)) =
      some ([bytes "a", bytes "b"], []) := by
  decide

end A2A.Server.Tasks.InMemoryTaskStore
