/-
# Walking the list of the PostgreSQL store page by page.
-/
import A2A.Server.Stores.StoreEquivalence

namespace A2A.Server.Stores

open A2A.Foundation A2A.Core A2A.Server.Tasks InMemoryTaskStore List

variable {P : Type}

/-- A write call, as one of the calls that every store takes. -/
def TaskStoreCall.ofWrite : StoreCall → TaskStoreCall
  | .createOrUpdate task => .createOrUpdate task
  | .createOrUpdateIfRevision task expectedRevision => .createOrUpdateIfRevision task expectedRevision
  | .cancel id => .cancel id
  | .appendTaskHistory taskId message policy serialize => .appendTaskHistory taskId message policy serialize

namespace PostgresTaskStore

variable (pg : Postgres) (codec : TaskCodec P)

def runWrites (store : PostgresTaskStore P) (calls : List (StoreCall × Int64)) : PostgresTaskStore P :=
  (store.run pg codec (calls.map fun timed => (.ofWrite timed.1, timed.2.toInt))).2

/-- Fetch pages while there is a token and the client goes on, with a batch of writes between them. -/
def traverse (request : ListTasksRequest) :
    PostgresTaskStore P → Bytes → List (List (StoreCall × Int64)) → Result Traversal
  | store, token, [] =>
    match store.list pg codec { request with pageToken := token } with
    | .error e => .error e
    | .ok page => .ok ⟨[page], [], page.nextPageToken⟩
  | store, token, batch :: batches =>
    match store.list pg codec { request with pageToken := token } with
    | .error e => .error e
    | .ok page =>
      if page.nextPageToken.isEmpty then .ok ⟨[page], [], page.nextPageToken⟩
      else
        match traverse request (store.runWrites pg codec batch) page.nextPageToken batches with
        | .error e => .error e
        | .ok rest => .ok ⟨page :: rest.pages, batch ++ rest.writes, rest.nextToken⟩

end PostgresTaskStore

open PostgresTaskStore

section Agreement

variable {pg : Postgres} {codec : TaskCodec P} {wire : WireFormat codec} {total left : Nat}
  {memory : InMemoryTaskStore} {store : PostgresTaskStore P} {calls : List (StoreCall × Int64)}

/-- The writes are calls on which the stores agree. -/
def Admissible (pg : Postgres) (wire : WireFormat codec) (total : Nat) (calls : List (StoreCall × Int64)) : Prop :=
  ∀ timed ∈ calls, (TaskStoreCall.ofWrite timed.1).Admissible pg wire total ∧ ClockOk total timed.2

theorem perform_ofWrite (memory : InMemoryTaskStore) (c : StoreCall) (now : Int64) :
    (memory.perform (.ofWrite c) now).2 = (memory.call c now).2 := by
  cases c <;> rfl

theorem runWrites_agrees (h : Agree pg wire total (left + calls.length) memory store.database)
    (hcalls : Admissible pg wire total calls) :
    Agree pg wire total left (memory.run calls) (store.runWrites pg codec calls).database := by
  induction calls generalizing memory store with
  | nil => exact h
  | cons timed calls ih =>
    obtain ⟨c, now⟩ := timed
    obtain ⟨⟨hcall, hnow⟩, hcalls⟩ := forall_mem_cons.mp hcalls
    have hagree := (perform_agrees h hcall hnow).2
    rw [perform_ofWrite] at hagree
    exact ih hagree hcalls

theorem list_agrees (h : Agree pg wire total left memory store.database) {request : ListTasksRequest}
    (hcontext : IsText pg request.contextId) (hfits : request.pageSize ≤ intMax)
    {token : Bytes} (htoken : TokenOk pg token) :
    store.list pg codec { request with pageToken := token } = memory.list { request with pageToken := token } := by
  refine list_eq h.toSameTasks ?_ htoken (.inl hfits)
  exact hcontext

/-- Both walks return the same pages. -/
theorem traverse_agrees {request : ListTasksRequest} (hcontext : IsText pg request.contextId)
    (hfits : request.pageSize ≤ intMax) {token : Bytes} (htoken : TokenOk pg token)
    {batches : List (List (StoreCall × Int64))} (h : Agree pg wire total batches.flatten.length memory store.database)
    (hbatches : Admissible pg wire total batches.flatten) :
    store.traverse pg codec request token batches = InMemoryTaskStore.traverse request memory token batches := by
  induction batches generalizing memory store token with
  | nil =>
    have hlist := list_agrees h hcontext hfits htoken
    cases hpage : memory.list { request with pageToken := token } <;>
      simp only [PostgresTaskStore.traverse, InMemoryTaskStore.traverse, hlist, hpage]
  | cons batch batches ih =>
    have hlist := list_agrees h hcontext hfits htoken
    cases hpage : memory.list { request with pageToken := token } with
    | error e => simp only [PostgresTaskStore.traverse, InMemoryTaskStore.traverse, hlist, hpage]
    | ok page =>
      -- the token of the page names a stored task, so the next page may be asked for with it
      have hnext : TokenOk pg page.nextPageToken := tokenOk_of_list h.toSameTasks hpage
      obtain ⟨hbatch, hrest⟩ := forall_mem_append.mp hbatches
      rw [flatten_cons, length_append, Nat.add_comm] at h
      have hsame := ih hnext (runWrites_agrees h hbatch) hrest
      cases hwalk : InMemoryTaskStore.traverse request (memory.run batch) page.nextPageToken batches <;>
        simp only [PostgresTaskStore.traverse, InMemoryTaskStore.traverse, hlist, hpage, hsame, hwalk]

theorem mem_of_mem_writtenIds {id : Bytes} (hid : id ∈ memory.writtenIds calls) :
    ∃ timed ∈ calls, timed.1.taskId = id := by
  induction calls generalizing memory with
  | nil => cases hid
  | cons timed calls ih =>
    obtain ⟨c, now⟩ := timed
    have hcases : id = c.taskId ∨ id ∈ (memory.call c now).2.writtenIds calls := by
      rw [writtenIds] at hid
      split_ifs at hid
      · exact mem_cons.mp hid
      · exact .inr hid
    rcases hcases with rfl | hrest
    · exact ⟨_, mem_cons_self, rfl⟩
    · obtain ⟨timed, htimed, heq⟩ := ih hrest
      exact ⟨timed, mem_cons_of_mem _ htimed, heq⟩

end Agreement

/-- A walk over the PostgreSQL store: no id comes up twice, whatever is written between the pages; one that reaches the
end has returned every matching row that no call named meanwhile, exactly once; and without writes it reaches the end. -/
theorem postgres_pages_return_each_task_once (pg : Postgres) (codec : TaskCodec P) (wire : WireFormat codec)
    (calls : List (StoreCall × Int64)) (batches : List (List (StoreCall × Int64))) {total : Nat}
    (htotal : total = batches.flatten.length + calls.length) (hcountable : total < 2 ^ 63)
    (hcalls : Admissible pg wire total (calls ++ batches.flatten)) (request : ListTasksRequest)
    (hsize : 1 ≤ request.pageSize ∧ request.pageSize ≤ intMax) (hcontext : IsText pg request.contextId) :
    let store := runWrites pg codec {} calls
    ∃ t, store.traverse pg codec request [] batches = .ok t ∧ (t.tasks.map Task.id).Nodup ∧
      (t.nextToken = [] → ∀ row ∈ store.database.tasks.rows, ∃ task, codec.parse row.taskProto = some task ∧
        (matchesListFilters task request → (∀ timed ∈ t.writes, timed.1.taskId ≠ task.id) →
          (t.tasks.map Task.id).count task.id = 1 ∧
            projectTaskForList task request.includeArtifacts request.historyLength ∈ t.tasks)) ∧
      (t.writes = [] → store.database.tasks.rows.length ≤ batches.length → t.nextToken = []) := by
  intro store
  obtain ⟨hbefore, hbetween⟩ := forall_mem_append.mp hcalls
  have hagree : Agree pg wire total batches.flatten.length (run {} calls) store.database := by
    apply runWrites_agrees _ hbefore
    rw [← htotal]
    exact agree_empty hcountable
  obtain ⟨t, returned, hrun, hspec, hpages⟩ := traverse_spec request hsize.1 hagree.wellFormed validBoundary_none batches
  have hids : (t.tasks.map Task.id).Nodup := by
    rw [hspec.task_ids]
    exact hspec.ids
  refine ⟨t, (traverse_agrees hcontext hsize.2 (by rintro c ⟨⟩) hagree hbetween).trans hrun, hids, ?_, ?_⟩
  · intro hend row hrow
    obtain ⟨e, he, hmatches, hok⟩ := hagree.toSameTasks.entry_of_mem hrow
    refine ⟨e.task, hmatches.parse hok, fun hmatch hnamed => ?_⟩
    have hmem : e ∈ returned := by
      refine hspec.complete hend e (hmatches.id ▸ he) (by rintro b ⟨⟩) hmatch fun hwritten => ?_
      obtain ⟨timed, htimed, heq⟩ := mem_of_mem_writtenIds hwritten
      exact hnamed timed htimed heq
    constructor
    · apply count_eq_one_of_mem hids
      rw [hspec.task_ids]
      exact mem_map_of_mem hmem
    · rw [hspec.tasks]
      exact mem_map_of_mem hmem
  · intro hquiet henough
    by_contra hopen
    have hmany := hpages hopen
    have hfew := hspec.length_le hagree.wellFormed (by rw [hquiet]; rfl)
    have hrows := (tasks_perm hagree.toSameTasks).length_eq
    rw [length_map] at hrows
    omega

/-- Two tasks, one a page, of which the first is canceled once it has been returned. -/
theorem two_pages_around_cancel :
    let calls : List (StoreCall × Int64) := [(.createOrUpdate { id := [97] }, 5), (.createOrUpdate { id := [98] }, 3)]
    ∃ t, (runWrites .permissive .identity {} calls).traverse .permissive .identity { pageSize := 1 } []
      [[(.cancel [97], 9)]] = .ok t ∧ (t.tasks.map Task.id).Nodup := by
  intro calls
  have hclock : ∀ timed ∈ calls ++ [[(.cancel [97], 9)]].flatten, ClockOk 3 timed.2 := by
    unfold ClockOk
    decide
  have hcalls : ∀ timed ∈ calls ++ [[(.cancel [97], 9)]].flatten,
      (TaskStoreCall.ofWrite timed.1).Admissible .permissive WireFormat.identity 3 := by
    have htask : ∀ id, 0 ∉ id → TaskOk .permissive WireFormat.identity { id } :=
      fun _ hid => ⟨isText_permissive hid, isText_permissive not_mem_nil, trivial⟩
    simp only [calls, flatten_cons, flatten_nil, append_nil, cons_append, nil_append,
      forall_mem_cons]
    exact ⟨htask _ (by decide), htask _ (by decide), isText_permissive (by decide), by simp⟩
  obtain ⟨t, hrun, hids, -⟩ := postgres_pages_return_each_task_once .permissive .identity WireFormat.identity calls
    [[(.cancel [97], 9)]] rfl (by decide) (fun timed htimed => ⟨hcalls timed htimed, hclock timed htimed⟩)
    { pageSize := 1 } ⟨le_rfl, by decide⟩ (isText_permissive (by decide))
  exact ⟨t, hrun, hids⟩

end A2A.Server.Stores
