/-
# What a caller learns about tasks that it cannot access.
-/
import A2A.Server.SecuredPages

namespace A2A.Server.Dispatch.DispatchSecurity

open A2A.Foundation A2A.Core A2A.Server.Tasks Traced List
open A2A.Server.Tasks.InMemoryTaskStore hiding run
open MemoryWorld

variable {τ : Type} {policy : SecurityPolicy τ} {allowed : RequestContext → Task → Bool} {context : RequestContext}
  {store store' : InMemoryTaskStore} {w : MemoryWorld τ} {calls calls' : Nat} {own : τ} {id : Bytes} {e : Entry}
  {cursor : Option ListTaskCursor} {scanned : List Entry} {rounds : Nat}

/-! ## Policies that do not read the store -/

/-- Run a function of the policy's own state in the world. -/
def onOwn {α : Type} (f : τ → α × τ) (w : MemoryWorld τ) : α × MemoryWorld τ :=
  ((f w.own).1, { w with own := (f w.own).2 })

/-- A policy over its own state, put next to a store. -/
def overStore (policy : SecurityPolicy τ) : SecurityPolicy (MemoryWorld τ) where
  authenticate := fun context => onOwn (policy.authenticate context)
  authorizeOperation := fun request context => onOwn (policy.authorizeOperation request context)
  canAccessTask := fun task context => onOwn (policy.canAccessTask task context)
  scopeTaskList := fun query context => onOwn (policy.scopeTaskList query context)

/-- `CanAccessTask` is a predicate. -/
def Decides (policy : SecurityPolicy τ) (allowed : RequestContext → Task → Bool) : Prop :=
  ∀ task context own, policy.canAccessTask task context own = (allowed context task, own)

/-- No scope asks for a projection in which an inaccessible task looks accessible. -/
def Suffices (policy : SecurityPolicy τ) (allowed : RequestContext → Task → Bool)
    (context : RequestContext) : Prop :=
  ∀ query own scope, (policy.scopeTaskList (wholeTasks query) context own).1 = some scope →
    ∀ task, allowed context (projectTaskForList task scope.includeArtifacts scope.historyLength) = true →
      allowed context task = true

theorem Suffices.accessible (h : Suffices policy allowed context) {query : ListTasksRequest} {task : Task}
    (hvisible : visibleIn (allowed context) (policy.scopeTaskList (wholeTasks query) context own).1 task) :
    allowed context task := by
  cases hscope : (policy.scopeTaskList (wholeTasks query) context own).1 with
  | none =>
    rw [hscope] at hvisible
    cases hvisible
  | some scope =>
    rw [hscope, visibleIn, Option.any_some, Bool.and_eq_true] at hvisible
    exact h query own scope hscope task hvisible.2

/-- The stores hold the same accessible tasks, with the same update times. -/
def Agree (accessible : Task → Bool) (store store' : InMemoryTaskStore) : Prop :=
  ∀ id task updatedAt, accessible task = true →
    ((∃ revision, store.entryOf id = some ⟨task, revision, updatedAt⟩) ↔
      ∃ revision, store'.entryOf id = some ⟨task, revision, updatedAt⟩)

variable {accessible : Task → Bool}

theorem Agree.symm (h : Agree accessible store store') : Agree accessible store' store :=
  fun id task updatedAt haccessible => (h id task updatedAt haccessible).symm

theorem Agree.entry (h : Agree accessible store store') (he : store.entryOf id = some e)
    (haccessible : accessible e.task) :
    ∃ e', store'.entryOf id = some e' ∧ e'.task = e.task ∧ e'.updatedAt = e.updatedAt := by
  obtain ⟨revision, he'⟩ := (h id e.task e.updatedAt haccessible).mp ⟨e.revision, he⟩
  exact ⟨_, he', rfl, rfl⟩

theorem Decides.judges (h : Decides policy allowed) (context : RequestContext) :
    Judges (overStore policy) context (allowed context) := by
  intro task w
  show onOwn (policy.canAccessTask task context) w = _
  unfold onOwn
  rw [h]

/-! ## `Authorize` -/

section Authorize

/-- What the check of a task answers; a request without a task passes. -/
def taskAnswer (accessible : Task → Bool) (store : InMemoryTaskStore) (id : Bytes) : Result Unit :=
  if id.isEmpty then .ok () else (lookupAnswer accessible store id).map fun _ => ()

variable (hdecides : Decides policy allowed)

include hdecides

theorem checkTask_gives :
    ∃ w', Gives (checkTask (memoryTaskStore quiet) (overStore policy) context id) w
        (taskAnswer (allowed context) w.store id) w' ∧ w'.own = w.own := by
  unfold checkTask taskAnswer
  by_cases hid : id.isEmpty
  · rw [if_pos hid, if_pos hid]
    exact ⟨w, gives_pure, rfl⟩
  · rw [if_neg hid, if_neg hid]
    have hlookup := getAuthorizedTask_gives (hdecides.judges context) quiet id w
    exact ⟨w.arrive quiet, gives_bind hlookup gives_pure, rfl⟩

/-- What `Authorize` answers, given the outcome of the check and the policy. -/
theorem authorizeAs_value {request : DispatchRequest} :
    (run (authorizeAs (overStore policy) (memoryTaskStore quiet) request context) w).value =
      some (match taskAnswer (allowed context) w.store (taskId request) with
        | .error error => .error error
        | .ok () =>
          if (policy.authorizeOperation request context w.own).1 then .ok ()
          else .error ProtocolErrors.permissionDenied) := by
  obtain ⟨w', hcheck, hown⟩ := checkTask_gives hdecides
  refine (value_bind_of_gives hcheck).trans ?_
  generalize taskAnswer (allowed context) w.store (taskId request) = answer
  cases answer with
  | error error => rfl
  | ok _ =>
    rw [← hown]
    rfl

omit hdecides

variable (hstore : store.WellFormed) (hstore' : store'.WellFormed)

include hstore hstore'

/-- A lookup cannot tell such stores apart. -/
theorem lookupAnswer_eq_of_agree (h : Agree accessible store store') :
    lookupAnswer accessible store id = lookupAnswer accessible store' id := by
  have hfound : ∀ {s s' : InMemoryTaskStore}, s.WellFormed → s'.WellFormed → Agree accessible s s' →
      ∀ e, s.entryOf id = some e → accessible e.task →
        lookupAnswer accessible s id = lookupAnswer accessible s' id := by
    intro s s' hs hs' hagree e he haccessible
    obtain ⟨e', he', htask, -⟩ := hagree.entry he haccessible
    rw [lookupAnswer_of_entryOf hs he haccessible,
      lookupAnswer_of_entryOf hs' he' (by rw [htask]; exact haccessible), htask]
  by_cases hid : id = []
  · subst hid
    rfl
  · by_cases hhere : ∃ e, store.entryOf id = some e ∧ accessible e.task
    · obtain ⟨e, he, haccessible⟩ := hhere
      exact hfound hstore hstore' h e he haccessible
    · by_cases hthere : ∃ e, store'.entryOf id = some e ∧ accessible e.task
      · obtain ⟨e, he, haccessible⟩ := hthere
        exact (hfound hstore' hstore h.symm e he haccessible).symm
      · rw [lookupAnswer_of_hidden hstore hid hhere, lookupAnswer_of_hidden hstore' hid hthere]

include hdecides

/-- Stores that agree on what the caller may see authorize it alike. -/
theorem authorize_eq_of_agree {request : DispatchRequest}
    (hagree : ∀ identity, (policy.authenticate { context with principal := [] } own).1 = .ok identity →
      Agree (allowed { context with principal := identity }) store store') :
    (run (authorize (securedMemory (overStore policy) quiet) request context) ⟨store, calls, own⟩).value =
      (run (authorize (securedMemory (overStore policy) quiet) request context) ⟨store', calls', own⟩).value := by
  have hcall : ∀ (s : InMemoryTaskStore) (n : Nat),
      Gives ((overStore policy).callAuthenticate { context with principal := [] }) ⟨s, n, own⟩
        (policy.authenticate { context with principal := [] } own).1
        ⟨s, n, (policy.authenticate { context with principal := [] } own).2⟩ := fun _ _ => ⟨rfl, rfl⟩
  unfold authorize securedMemory configuration
  dsimp only
  rw [value_bind_of_gives (hcall store calls), value_bind_of_gives (hcall store' calls')]
  cases hidentity : (policy.authenticate { context with principal := [] } own).1 with
  | error error => rfl
  | ok identity =>
    dsimp only
    split
    · rfl
    · rw [run_bind_some (authorizeAs_value hdecides), run_bind_some (authorizeAs_value hdecides)]
      dsimp only
      rw [taskAnswer, lookupAnswer_eq_of_agree hstore hstore' (hagree identity hidentity)]
      rfl

end Authorize

/-! ## `ListTasks` -/

/-- An entry without its revision, which no answer contains. -/
def unrevised (e : Entry) : Entry := { e with revision := 0 }

/-- The page that a scan makes in a world that nobody writes. -/
def pageOf (request : ListTasksRequest) (cursor : Option ListTaskCursor) (scanned : List Entry) :
    ListTasksResponse :=
  { tasks := (held request cursor scanned).map (projected request)
    pageSize := requestedSize request
    totalSize := scanned.length
    nextPageToken := boundaryToken (leftBoundary (requestedSize request) (past cursor scanned)) }

theorem past_map_unrevised : past cursor (scanned.map unrevised) = (past cursor scanned).map unrevised := by
  unfold past
  rw [filter_map]
  rfl

variable {request : ListTasksRequest}

theorem pageOf_map_unrevised : pageOf request cursor (scanned.map unrevised) = pageOf request cursor scanned := by
  unfold pageOf held leftBoundary nextBoundary
  rw [past_map_unrevised, length_map, length_map, ← map_take, map_map, map_map]
  rfl

theorem PageSpec.page_eq {visible : Task → Bool} {w' : MemoryWorld τ} {page : ListTasksResponse}
    (h : PageSpec quiet visible request cursor w w' page scanned) : page = pageOf request cursor scanned := by
  have hquiet : written quiet w w' = [] := written_quiet w w'
  have htasks : page.tasks = (held request cursor scanned).map (projected request) := by
    refine eq_map_of_readBack h.tasks ?_ hquiet
    intro e he
    exact h.sound hquiet e (mem_of_mem_held he).1
  obtain ⟨tasks, pageSize, totalSize, nextPageToken, taskCursors⟩ := page
  rw [pageOf, ListTasksResponse.mk.injEq]
  exact ⟨htasks, h.pageSize, h.totalSize, h.nextPageToken, h.taskCursors⟩

section ListTasks

variable {visible : Task → Bool} {w₁ v v₁ : MemoryWorld τ} {scanned' : List Entry}

section

variable (hagree : Agree accessible w.store v.store)
  (hvisible : ∀ task, visible task = true → accessible task = true)
  (h : ScanSpec quiet visible w w₁ scanned) (h' : ScanSpec quiet visible v v₁ scanned')

include hagree hvisible h h'

theorem mem_map_unrevised_of_agree (he : e ∈ scanned.map unrevised) : e ∈ scanned'.map unrevised := by
  obtain ⟨seen, hseen, rfl⟩ := mem_map.mp he
  have hstored := h.sound (written_quiet w w₁) seen hseen
  have hshown := h.shown seen hseen
  obtain ⟨other, hother, htask, hupdated⟩ := hagree.entry hstored (hvisible _ hshown)
  have hmem : other ∈ scanned' := by
    apply h'.complete other
    · rw [htask]
      exact hother
    · rw [htask]
      exact hshown
    · rw [written_quiet v v₁]
      exact not_mem_nil
  refine mem_map.mpr ⟨other, hmem, ?_⟩
  unfold unrevised
  rw [htask, hupdated]

theorem map_unrevised_eq_of_agree : scanned.map unrevised = scanned'.map unrevised := by
  have hsorted : ∀ {x x' : MemoryWorld τ} {entries : List Entry}, ScanSpec quiet visible x x' entries →
      (entries.map unrevised).Pairwise fun e e' => CursorOrder e.cursor e'.cursor := by
    intro x x' entries hspec
    rw [pairwise_map]
    exact hspec.sorted
  refine List.Pairwise.eq_of_mem_iff (hsorted h) (hsorted h') ?_
  intro e
  constructor
  · exact mem_map_unrevised_of_agree hagree hvisible h h'
  · exact mem_map_unrevised_of_agree hagree.symm hvisible h' h

end

end ListTasks

theorem later_own {writes : Writes} : Later writes w { w with own } := by
  refine ⟨le_refl _, ?_⟩
  show w.store = w.store.run (spent writes w w)
  rw [spent_self]
  rfl

/-- A listing whose token can be read answers with the page of a quiet scan. -/
theorem listTasks_pageOf (hdecides : Decides policy allowed) (hsuffices : Suffices policy allowed context)
    (hsize : request.pageSize ≤ kMaxListTasksPageSize) (htoken : parseListPageToken request.pageToken = .ok cursor)
    (hw : w.store.WellFormed) (hrounds : w.store.orderedTasks.length ≤ rounds) :
    ∃ w' scanned, (run ((securedMemory (overStore policy) quiet).listTasks (rounds + 1) request context) w).value =
        some (.ok (.listTasks (pageOf request cursor scanned))) ∧
      ScanSpec quiet (visibleIn (allowed context) (policy.scopeTaskList (wholeTasks request) context w.own).1) w w'
        scanned := by
  rcases listTasks_gives (hdecides.judges context) quiet cursor hsize htoken rounds hw
      (rfl : (overStore policy).scopeTaskList (wholeTasks request) context w = _) later_own with
    ⟨result, w', hgives, hpage, hsucceeds⟩ | ⟨-, hlt⟩
  · obtain ⟨payload, rfl⟩ := hsucceeds (written_quiet w w') fun e _ => hsuffices.accessible
    obtain ⟨page, scanned, rfl, hspec⟩ := hpage payload rfl
    obtain rfl := hspec.page_eq
    exact ⟨w', scanned, hgives.1, hspec.toScanSpec⟩
  · have hmore := hlt fun _ => rfl
    omega

/-- Stores that agree on what the caller may see give it the same listing. -/
theorem listTasks_eq_of_agree (hdecides : Decides policy allowed) (hsuffices : Suffices policy allowed context)
    (hstore : store.WellFormed) (hstore' : store'.WellFormed)
    (hagree : Agree (allowed context) store store') (hrounds : store.orderedTasks.length ≤ rounds)
    (hrounds' : store'.orderedTasks.length ≤ rounds) :
    ∃ answer, (run ((securedMemory (overStore policy) quiet).listTasks (rounds + 1) request context)
        ⟨store, calls, own⟩).value = some answer ∧
      (run ((securedMemory (overStore policy) quiet).listTasks (rounds + 1) request context)
        ⟨store', calls', own⟩).value = some answer := by
  by_cases hsize : request.pageSize ≤ kMaxListTasksPageSize
  · cases htoken : parseListPageToken request.pageToken with
    | error error =>
      have hrefused : ∀ w : MemoryWorld τ, (run ((securedMemory (overStore policy) quiet).listTasks
          (rounds + 1) request context) w).value = some (.error error) := by
        intro w
        unfold securedMemory listTasks configuration
        dsimp only
        rw [if_neg (by omega), htoken]
        rfl
      exact ⟨_, hrefused _, hrefused _⟩
    | ok cursor =>
      obtain ⟨w, scanned, hvalue, hscan⟩ := listTasks_pageOf hdecides hsuffices hsize htoken
        (w := ⟨store, calls, own⟩) hstore hrounds
      obtain ⟨w', scanned', hvalue', hscan'⟩ := listTasks_pageOf hdecides hsuffices hsize htoken
        (w := ⟨store', calls', own⟩) hstore' hrounds'
      have hsame : scanned.map unrevised = scanned'.map unrevised := map_unrevised_eq_of_agree hagree
        (fun _ hvisible => hsuffices.accessible hvisible) hscan hscan'
      refine ⟨_, hvalue, ?_⟩
      rw [hvalue', ← pageOf_map_unrevised, ← hsame, pageOf_map_unrevised]
  · have hrefused : ∀ w : MemoryWorld τ, (run ((securedMemory (overStore policy) quiet).listTasks
        (rounds + 1) request context) w).value = some (.error (.validation kInvalidPageSize)) := by
      intro w
      unfold securedMemory listTasks configuration
      dsimp only
      rw [if_pos (by omega)]
      rfl
    exact ⟨_, hrefused _, hrefused _⟩

/-- Two stores that agree on the contents and update times of the tasks accessible to a caller answer
it alike: every request that authenticates as this caller has the same outcome of `Authorize`, and
every `ListTasks` has the same response or the same error. -/
theorem hidden_tasks_do_not_interfere (policy : SecurityPolicy τ) (allowed : RequestContext → Task → Bool)
    (hdecides : Decides policy allowed) (context : RequestContext) (hsuffices : Suffices policy allowed context)
    (store store' : ConsistentStore) (hagree : Agree (allowed context) store.raw store'.raw) (calls calls' : Nat)
    (own : τ) :
    (∀ request asked, (∀ identity, (policy.authenticate { asked with principal := [] } own).1 = .ok identity →
        { asked with principal := identity } = context) →
      (run (authorize (securedMemory (overStore policy) quiet) request asked) ⟨store.raw, calls, own⟩).value =
        (run (authorize (securedMemory (overStore policy) quiet) request asked) ⟨store'.raw, calls', own⟩).value) ∧
    ∀ request rounds, store.raw.orderedTasks.length ≤ rounds → store'.raw.orderedTasks.length ≤ rounds → ∃ answer,
        (run ((securedMemory (overStore policy) quiet).listTasks (rounds + 1) request context)
          ⟨store.raw, calls, own⟩).value = some answer ∧
        (run ((securedMemory (overStore policy) quiet).listTasks (rounds + 1) request context)
          ⟨store'.raw, calls', own⟩).value = some answer := by
  refine ⟨?_, ?_⟩
  · intro request asked hasked
    refine authorize_eq_of_agree hdecides store.wellFormed store'.wellFormed ?_
    intro identity hidentity
    rw [hasked identity hidentity]
    exact hagree
  · intro request rounds hrounds hrounds'
    exact listTasks_eq_of_agree hdecides hsuffices store.wellFormed store'.wellFormed hagree hrounds hrounds'

namespace Runs

/-- A policy by which tasks without artifacts are accessible. -/
def withoutArtifacts : SecurityPolicy Unit where
  authenticate := fun _ own => (.ok "alice", own)
  authorizeOperation := fun _ _ own => (true, own)
  canAccessTask := fun task _ own => (task.artifacts.isEmpty, own)
  scopeTaskList := fun query _ own => (some query, own)

/-- The same policy, whose scope strips what the decision is made on. -/
def strippingScope : SecurityPolicy Unit :=
  { withoutArtifacts with
    scopeTaskList := fun query _ own => (some { query with includeArtifacts := false }, own) }

/-- A store with one task, which has an artifact. -/
def hiddenTask : ConsistentStore :=
  ConsistentStore.empty.run [(.createOrUpdate { id := "h", artifacts := [{}] }, 5)]

theorem agree_hiddenTask : Agree (fun task => task.artifacts.isEmpty) hiddenTask.raw ConsistentStore.empty.raw := by
  have hnone : ∀ id, ConsistentStore.empty.raw.entryOf id = none := fun _ => rfl
  intro id task updatedAt haccessible
  rw [hnone]
  constructor
  · rintro ⟨revision, he⟩
    by_cases hid : id = bytes "h"
    · have hstored : hiddenTask.raw.entryOf (bytes "h") = some ⟨{ id := "h", artifacts := [{}] }, 1, 5⟩ := rfl
      rw [hid, hstored] at he
      obtain ⟨rfl, -, -⟩ := Entry.mk.inj (Option.some.inj he)
      cases haccessible
    · have hkept : hiddenTask.raw.entryOf id = ConsistentStore.empty.raw.entryOf id := by
        apply run_entryOf_of_not_written ConsistentStore.empty.wellFormed
        show id ∉ [bytes "h"]
        simpa using hid
      rw [hkept, hnone] at he
      cases he
  · rintro ⟨revision, he⟩
    cases he

end Runs

open DispatchSecurity.Runs in
theorem hidden_task_does_not_show :
    Agree (fun task => task.artifacts.isEmpty) hiddenTask.raw ConsistentStore.empty.raw ∧
    ∃ answer, (run ((securedMemory (overStore withoutArtifacts) quiet).listTasks 2 {} alice)
        ⟨hiddenTask.raw, 0, ()⟩).value = some answer ∧
      (run ((securedMemory (overStore withoutArtifacts) quiet).listTasks 2 {} alice)
        ⟨ConsistentStore.empty.raw, 0, ()⟩).value = some answer := by
  have hsuffices : Suffices withoutArtifacts (fun _ task => task.artifacts.isEmpty) alice := by
    intro query own scope hscope task htask
    cases hscope
    exact htask
  exact ⟨agree_hiddenTask, (hidden_tasks_do_not_interfere withoutArtifacts
    (fun _ task => task.artifacts.isEmpty) (fun _ _ _ => rfl) alice hsuffices hiddenTask
    ConsistentStore.empty agree_hiddenTask 0 0 ()).2 {} 1 (by decide) (by decide)⟩

open DispatchSecurity.Runs in
/-- With a scope that strips the artifacts, the scan counts the hidden task, the second look refuses
it, and the caller gets an error that it does not get without the task. -/
theorem hidden_task_betrayed_by_scope :
    Decides strippingScope (fun _ task => task.artifacts.isEmpty) ∧
    Agree (fun task => task.artifacts.isEmpty) hiddenTask.raw ConsistentStore.empty.raw ∧
    (run ((securedMemory (overStore strippingScope) quiet).listTasks 2 {} alice)
      ⟨hiddenTask.raw, 0, ()⟩).value = some (.error ProtocolErrors.taskNotFound) ∧
    (run ((securedMemory (overStore strippingScope) quiet).listTasks 2 {} alice)
      ⟨ConsistentStore.empty.raw, 0, ()⟩).value = some (.ok (.listTasks { pageSize := kDefaultListTasksPageSize })) :=
  ⟨fun _ _ _ => rfl, agree_hiddenTask, rfl, rfl⟩

end A2A.Server.Dispatch.DispatchSecurity
