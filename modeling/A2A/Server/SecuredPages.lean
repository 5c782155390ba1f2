/-
# A caller who follows the tokens of the secured `ListTasks`.
-/
import A2A.Server.SecuredListing
import Mathlib.Data.List.Sort

namespace A2A.Server.Dispatch.DispatchSecurity

open A2A.Foundation A2A.Core A2A.Server.Tasks Traced ListTasksResponse List
open A2A.Server.Tasks.InMemoryTaskStore hiding run
open MemoryWorld

variable {σ τ : Type}

/-! ## The caller and the policy -/

/-- Follow the tokens, one context a page, until there is none or the caller stops. The last branch is never taken. -/
def securedTraverse (security : DispatchSecurity σ) (rounds : Nat) (request : ListTasksRequest) :
    Bytes → RequestContext → List RequestContext → Program σ (Result (List ListTasksResponse))
  | token, context, contexts => do
    match ← security.listTasks rounds { request with pageToken := token } context with
    | .error error => pure (.error error)
    | .ok (.listTasks page) =>
      if page.nextPageToken.isEmpty then pure (.ok [page])
      else
        match contexts with
        | [] => pure (.ok [page])
        | next :: contexts => do
          let rest ← securedTraverse security rounds request page.nextPageToken next contexts
          pure (rest.map (page :: ·))
    | .ok _ => pure (.ok [])

/-- The scope matches nothing that the query does not, drops only inaccessible tasks, and its projection suffices. -/
def Narrows (allowed : Task → Bool) (query : ListTasksRequest) (task : Task) :
    Option ListTasksRequest → Prop
  | none => matchesListFilters task query = true → allowed task = false
  | some scope =>
    (matchesListFilters task scope = true → matchesListFilters task query = true) ∧
    (matchesListFilters task query = true → matchesListFilters task scope = false →
      allowed task = false) ∧
    (matchesListFilters task scope = true →
      allowed (projectTaskForList task scope.includeArtifacts scope.historyLength) = allowed task)

/-- The query that a listing puts to its policy: it reads whole tasks. -/
def wholeTasks (query : ListTasksRequest) : ListTasksRequest :=
  { query with historyLength := none, includeArtifacts := true }

variable {allowed : Task → Bool}

theorem narrows_self (allowed : Task → Bool) (query : ListTasksRequest) (task : Task) :
    Narrows allowed (wholeTasks query) task (some (wholeTasks query)) := by
  refine ⟨fun h => h, ?_, fun _ => rfl⟩
  intro hmatch hnot
  rw [hmatch] at hnot
  exact absurd hnot (by decide)

theorem Narrows.visibleIn_eq {query : ListTasksRequest} {task : Task} {scope : Option ListTasksRequest}
    (h : Narrows allowed query task scope) :
    visibleIn allowed scope task = (matchesListFilters task query && allowed task) := by
  cases scope with
  | none =>
    show false = _
    cases hmatch : matchesListFilters task query with
    | false => rfl
    | true =>
      rw [h hmatch]
      rfl
  | some scope =>
    obtain ⟨hsub, hdrop, hproject⟩ := h
    show (matchesListFilters task scope && _) = _
    cases hscope : matchesListFilters task scope with
    | true => rw [hsub hscope, hproject hscope]
    | false =>
      cases hmatch : matchesListFilters task query with
      | false => rfl
      | true =>
        rw [hdrop hmatch hscope]
        rfl

/-- The policy decides by a fixed predicate, and its scopes narrow a listing for `stored` only. -/
structure FixedPolicy (policy : SecurityPolicy (MemoryWorld τ)) (context : RequestContext)
    (allowed : Task → Bool) (stored : Task → Prop) : Prop where
  judges : Judges policy context allowed
  scopes : ∀ query w, ∃ scope, policy.scopeTaskList (wholeTasks query) context w = (scope, w) ∧
    ∀ task, stored task → Narrows allowed (wholeTasks query) task scope

theorem fixedPolicy_of_identity {policy : SecurityPolicy (MemoryWorld τ)} {context : RequestContext}
    (hjudges : Judges policy context allowed)
    (hscope : ∀ query w, policy.scopeTaskList query context w = (some query, w)) (stored : Task → Prop) :
    FixedPolicy policy context allowed stored := by
  refine ⟨hjudges, ?_⟩
  intro query w
  exact ⟨_, hscope _ w, fun task _ => narrows_self allowed query task⟩

/-- The task is in the store. -/
def Stored (store : InMemoryTaskStore) (task : Task) : Prop :=
  ∃ e, store.entryOf task.id = some e ∧ e.task = task

theorem stored_of_entryOf {store : InMemoryTaskStore} {e : Entry}
    (he : store.entryOf e.task.id = some e) : Stored store e.task := ⟨e, he, rfl⟩

/-- The tasks that a caller asks for and may see. -/
def wanted (allowed : Task → Bool) (request : ListTasksRequest) (task : Task) : Bool :=
  matchesListFilters task request && allowed task

theorem requestedSize_pos (request : ListTasksRequest) : 1 ≤ requestedSize request := by
  unfold requestedSize
  split
  · decide
  · omega

/-! ## Pages, whatever is written -/

section Pages

variable {policy : SecurityPolicy (MemoryWorld τ)} {allowed : Task → Bool} {stored : Task → Prop}
  (writes : Writes) (rounds : Nat) (request : ListTasksRequest)

/-- A dispatcher with this policy over the in-memory store. -/
def securedMemory (policy : SecurityPolicy (MemoryWorld τ)) (writes : Writes) :
    DispatchSecurity (MemoryWorld τ) := ⟨some policy, some (memoryTaskStore writes)⟩

variable {cursor : Option ListTaskCursor} {scanned : List Entry} {e : Entry}

/-- A call that returns a page meets `PageSpec`. -/
theorem listTasks_page {context : RequestContext} (hfixed : FixedPolicy policy context allowed stored)
    (hcursor : ValidBoundary cursor) {w : MemoryWorld τ} (hw : w.store.WellFormed)
    {payload : DispatchPayload (MemoryWorld τ)}
    (hvalue : (run ((securedMemory policy writes).listTasks (rounds + 1)
      { request with pageToken := boundaryToken cursor } context) w).value = some (.ok payload)) :
    ∃ page scanned visible, payload = .listTasks page ∧
      (∀ task, stored task → visible task = wanted allowed request task) ∧
      PageSpec writes visible request cursor w (run ((securedMemory policy writes).listTasks (rounds + 1)
          { request with pageToken := boundaryToken cursor } context) w).world page scanned := by
  have hsize : request.pageSize ≤ kMaxListTasksPageSize := by
    by_contra hlarge
    have hrefused : (run ((securedMemory policy writes).listTasks (rounds + 1)
        { request with pageToken := boundaryToken cursor } context) w).value =
        some (.error (.validation kInvalidPageSize)) := by
      unfold securedMemory listTasks configuration
      dsimp only
      rw [if_pos (by omega)]
      rfl
    cases Option.some.inj (hrefused.symm.trans hvalue)
  obtain ⟨scope, hscope, hnarrows⟩ := hfixed.scopes { request with pageToken := boundaryToken cursor } w
  rcases listTasks_gives hfixed.judges writes cursor hsize (parse_boundaryToken hcursor) rounds hw hscope
      later_refl with
    ⟨result, w', hgives, hpage, -⟩ | ⟨hnone, -⟩
  · obtain rfl : result = .ok payload := Option.some.inj (hgives.1.symm.trans hvalue)
    obtain ⟨page, scanned, rfl, hspec⟩ := hpage payload rfl
    refine ⟨page, scanned, visibleIn allowed scope, rfl, ?_, ?_⟩
    · intro task htask
      exact (hnarrows task htask).visibleIn_eq
    · rw [← hgives.2] at hspec
      exact hspec
  · cases hnone.symm.trans hvalue

/-- What a caller has gathered who started at `cursor` in the world `w`. -/
structure SecuredTraversal (allowed : Task → Bool) (stored : Task → Prop)
    (cursor : Option ListTaskCursor) (w w' : MemoryWorld τ) (pages : List ListTasksResponse)
    (returned : List Entry) : Prop where
  later : Later writes w w'
  after : ∀ e ∈ returned, After cursor e.cursor
  recent : ∀ e ∈ returned, ∀ e', w.store.entryOf e.task.id = some e' → e'.updatedAt ≤ e.updatedAt
  ids : (returned.map fun e => e.task.id).Nodup
  tasks : List.Forall₂ (fun e task => ReadBack writes request w w' e.task.id task) returned
    (pages.flatMap ListTasksResponse.tasks)
  complete : (∀ last, pages.getLast? = some last → last.nextPageToken = []) →
    ∀ e, w.store.entryOf e.task.id = some e → stored e.task → wanted allowed request e.task = true →
      After cursor e.cursor → e.task.id ∉ written writes w w' → e ∈ returned

/-- The entries of a page. -/
def held (request : ListTasksRequest) (cursor : Option ListTaskCursor) (scanned : List Entry) :
    List Entry := (past cursor scanned).take (requestedSize request)

theorem mem_past : e ∈ past cursor scanned ↔ e ∈ scanned ∧ After cursor e.cursor := by
  unfold past
  rw [mem_filter, pastCursor_iff]

theorem mem_of_mem_held {request : ListTasksRequest} (he : e ∈ held request cursor scanned) :
    e ∈ scanned ∧ After cursor e.cursor :=
  mem_past.mp (mem_of_mem_take he)

section Spec

variable {writes} {request} {visible : Task → Bool} {cursor : Option ListTaskCursor}
  {w w' : MemoryWorld τ} {page : ListTasksResponse} {scanned : List Entry}
  (hpage : PageSpec writes visible request cursor w w' page scanned)

include hpage

theorem PageSpec.ids_held : ((held request cursor scanned).map fun e => e.task.id).Nodup :=
  hpage.ids.sublist (((take_sublist _ _).trans filter_sublist).map _)

/-- The page holds everything past the cursor and no token, or its token is the cursor of its last entry. -/
theorem PageSpec.boundary :
    (page.nextPageToken = [] ∧ held request cursor scanned = past cursor scanned) ∨
    ∃ last, LastOf (requestedSize request) (past cursor scanned) last ∧
      page.nextPageToken = boundaryToken (some last.cursor) ∧ page.nextPageToken ≠ [] := by
  have htoken := hpage.nextPageToken
  rcases nextBoundary_of_pairwise { pageSize := requestedSize request } (requestedSize_pos request)
      (hpage.sorted.filter _) with ⟨hnone, hall⟩ | ⟨last, hlast, hnext⟩
  · exact .inl ⟨htoken.trans (congrArg boundaryToken hnone), hall⟩
  · replace htoken := htoken.trans (congrArg boundaryToken hnext)
    exact .inr ⟨last, hlast, htoken, htoken ▸ encodeListPageToken_ne_nil _⟩

/-- What is wanted and not written was scanned. -/
theorem PageSpec.mem_scanned (hvisible : ∀ task, stored task → visible task = wanted allowed request task)
    (he : w.store.entryOf e.task.id = some e) (hstored : stored e.task)
    (hwanted : wanted allowed request e.task = true) (hid : e.task.id ∉ written writes w w') : e ∈ scanned :=
  hpage.complete e he ((hvisible e.task hstored).trans hwanted) hid

theorem PageSpec.traversal (hvisible : ∀ task, stored task → visible task = wanted allowed request task) :
    SecuredTraversal writes request allowed stored cursor w w' [page] (held request cursor scanned) := by
  refine ⟨hpage.later, fun e he => (mem_of_mem_held he).2, ?_, hpage.ids_held, ?_, ?_⟩
  · exact fun e he => hpage.recent e (mem_of_mem_held he).1
  · rw [flatMap_singleton]
    exact hpage.tasks
  · intro hend e he hstored hwanted hafter hid
    rcases hpage.boundary with ⟨-, hall⟩ | ⟨last, -, -, hmore⟩
    · rw [hall]
      exact mem_past.mpr ⟨hpage.mem_scanned hvisible he hstored hwanted hid, hafter⟩
    · exact absurd (hend page rfl) hmore

/-- One more page in front: what it holds can only have moved ahead since, so the rest does not return it. -/
theorem PageSpec.cons_traversal {last : Entry} {w'' : MemoryWorld τ} {pages : List ListTasksResponse}
    {returned : List Entry} (hw : w.store.WellFormed)
    (hvisible : ∀ task, stored task → visible task = wanted allowed request task)
    (hlast : LastOf (requestedSize request) (past cursor scanned) last)
    (hrest : SecuredTraversal writes request allowed stored (some last.cursor) w' w'' pages returned) :
    SecuredTraversal writes request allowed stored cursor w w'' (page :: pages)
      (held request cursor scanned ++ returned) := by
  refine ⟨hpage.later.trans hrest.later, ?_, ?_, ?_, ?_, ?_⟩
  · refine forall_mem_append.mpr ⟨fun e he => (mem_of_mem_held he).2, fun e he => ?_⟩
    exact (mem_of_mem_held hlast.mem).2.of_last (hrest.after e he _ rfl)
  · refine forall_mem_append.mpr ⟨fun e he => hpage.recent e (mem_of_mem_held he).1, fun e he e' he' => ?_⟩
    obtain ⟨e'', he'', hle⟩ := hpage.later.entryOf_mono hw he'
    exact hle.trans (hrest.recent e he e'' he'')
  · refine nodup_ids_append hpage.ids_held hrest.ids (hlast.cross hrest.after) fun e he e' he' hid => ?_
    obtain ⟨e'', he'', hle⟩ := hpage.known e (mem_of_mem_held he).1
    exact hle.trans (hrest.recent e' he' e'' (hid ▸ he''))
  · rw [flatMap_cons]
    refine rel_append ?_ ?_
    · exact hpage.tasks.imp fun _ _ h => h.until writes hpage.later hrest.later
    · exact hrest.tasks.imp fun _ _ h => h.earlier writes hw hpage.later hrest.later
  · intro hend e he hstored hwanted hafter hid
    rw [hpage.later.written_append hrest.later, mem_append, not_or] at hid
    by_cases hheld : e ∈ held request cursor scanned
    · exact mem_append_left _ hheld
    · have hscanned := hpage.mem_scanned hvisible he hstored hwanted hid.1
      refine mem_append_right _ (hrest.complete ?_ e ?_ hstored hwanted ?_ hid.2)
      · intro final hfinal
        apply hend final
        rw [List.getLast?_cons, hfinal]
        rfl
      · rw [hpage.later.entryOf_of_not_written hw hid.1]
        exact he
      · rintro _ ⟨⟩
        exact hlast.left e (mem_past.mpr ⟨hscanned, hafter⟩) hheld

end Spec

variable {contexts : List RequestContext} {context : RequestContext} {cursor : Option ListTaskCursor}
    {w w' : MemoryWorld τ} {pages : List ListTasksResponse}

/-- How a traversal that returns pages goes: a page, and then nothing or the rest. -/
theorem securedTraverse_cases (hfixed : FixedPolicy policy context allowed stored)
    (hcursor : ValidBoundary cursor) (hw : w.store.WellFormed)
    (hpages : Gives (securedTraverse (securedMemory policy writes) (rounds + 1) request (boundaryToken cursor) context
      contexts) w (.ok pages) w') :
    ∃ page scanned visible w₁, (∀ task, stored task → visible task = wanted allowed request task) ∧
      PageSpec writes visible request cursor w w₁ page scanned ∧
      ((pages = [page] ∧ w' = w₁) ∨ ∃ next rest pages', contexts = next :: rest ∧ page.nextPageToken ≠ [] ∧
          pages = page :: pages' ∧
          Gives (securedTraverse (securedMemory policy writes) (rounds + 1) request
            page.nextPageToken next rest) w₁ (.ok pages') w') := by
  obtain ⟨hpages, rfl⟩ := hpages
  rw [securedTraverse] at hpages ⊢
  cases hlist : (run ((securedMemory policy writes).listTasks (rounds + 1)
      { request with pageToken := boundaryToken cursor } context) w).value with
  | none =>
    rw [run_bind_none hlist] at hpages
    cases hpages
  | some result =>
    rw [run_bind_some hlist] at hpages ⊢
    cases result with
    | error error => nomatch hpages
    | ok payload =>
      obtain ⟨page, scanned, visible, rfl, hvisible, hpage⟩ :=
        listTasks_page writes rounds request hfixed hcursor hw hlist
      refine ⟨page, scanned, visible, _, hvisible, hpage, ?_⟩
      dsimp only at hpages ⊢
      by_cases hend : page.nextPageToken.isEmpty
      · rw [if_pos hend] at hpages ⊢
        obtain rfl : [page] = pages := Except.ok.inj (Option.some.inj hpages)
        exact .inl ⟨rfl, rfl⟩
      · rw [if_neg hend] at hpages ⊢
        cases contexts with
        | nil =>
          obtain rfl : [page] = pages := Except.ok.inj (Option.some.inj hpages)
          exact .inl ⟨rfl, rfl⟩
        | cons next rest =>
          dsimp only at hpages ⊢
          generalize (run ((securedMemory policy writes).listTasks (rounds + 1)
            { request with pageToken := boundaryToken cursor } context) w).world = w₁
            at hpages ⊢
          refine .inr ⟨next, rest, ?_⟩
          cases hrest : (run (securedTraverse (securedMemory policy writes) (rounds + 1) request
              page.nextPageToken next rest) w₁).value with
          | none =>
            rw [run_bind_none hrest] at hpages
            cases hpages
          | some result =>
            rw [run_bind_some hrest] at hpages ⊢
            cases result with
            | error error => nomatch hpages
            | ok pages' =>
              refine ⟨pages', rfl, fun h => hend (by rw [h]; rfl), ?_, hrest, rfl⟩
              exact (Except.ok.inj (Option.some.inj hpages)).symm

/-- A traversal that returns pages meets its specification, whatever is written meanwhile. -/
theorem securedTraverse_spec (hfixed : ∀ c ∈ context :: contexts, FixedPolicy policy c allowed stored)
    (hcursor : ValidBoundary cursor) (hw : w.store.WellFormed)
    (hpages : Gives (securedTraverse (securedMemory policy writes) (rounds + 1) request (boundaryToken cursor) context
      contexts) w (.ok pages) w') :
    ∃ returned, SecuredTraversal writes request allowed stored cursor w w' pages returned := by
  induction contexts generalizing context cursor w pages with
  | nil =>
    obtain ⟨page, scanned, visible, w₁, hvisible, hpage, hcase⟩ := securedTraverse_cases writes rounds
      request (hfixed context mem_cons_self) hcursor hw hpages
    rcases hcase with ⟨rfl, rfl⟩ | ⟨next, rest, _, hcontexts, _⟩
    · exact ⟨_, hpage.traversal hvisible⟩
    · cases hcontexts
  | cons next contexts ih =>
    obtain ⟨page, scanned, visible, w₁, hvisible, hpage, hcase⟩ := securedTraverse_cases writes rounds
      request (hfixed context mem_cons_self) hcursor hw hpages
    rcases hcase with ⟨rfl, rfl⟩ | ⟨next', rest, pages', hcontexts, hmore, rfl, hrest⟩
    · exact ⟨_, hpage.traversal hvisible⟩
    · obtain ⟨rfl, rfl⟩ := List.cons.inj hcontexts
      -- The page has a token, so it is the token of its last entry, from which the rest goes on.
      rcases hpage.boundary with ⟨hend, -⟩ | ⟨last, hlast, htoken, -⟩
      · exact absurd hend hmore
      · rw [htoken] at hrest
        obtain ⟨returned, hspec⟩ := ih (fun c hc => hfixed c (mem_cons_of_mem context hc))
          (hpage.valid last (mem_of_mem_held hlast.mem).1) (hpage.later.wellFormed hw) hrest
        exact ⟨_, hpage.cons_traversal hw hvisible hlast hspec⟩

section Tasks

variable {writes} {request} {w w' : MemoryWorld τ} {entries : List Entry} {tasks : List Task}
  (h : List.Forall₂ (fun e task => ReadBack writes request w w' e.task.id task) entries tasks)

include h

theorem map_id_of_readBack : tasks.map Task.id = entries.map fun e => e.task.id := by
  induction h with
  | nil => rfl
  | cons hhead _ ih =>
    rw [map_cons, map_cons, ih, hhead.1]

theorem projected_mem_of_readBack {e : Entry} (he : e ∈ entries) (hstored : w.store.entryOf e.task.id = some e)
    (hid : e.task.id ∉ written writes w w') : projected request e ∈ tasks := by
  induction h with
  | nil => nomatch he
  | cons hhead _ ih =>
    rcases mem_cons.mp he with rfl | he
    · rw [hhead.2 hid e hstored]
      exact mem_cons_self
    · exact mem_cons_of_mem _ (ih he)

theorem eq_map_of_readBack (hstored : ∀ e ∈ entries, w.store.entryOf e.task.id = some e)
    (hquiet : written writes w w' = []) : tasks = entries.map (projected request) := by
  induction h with
  | nil => rfl
  | @cons e task entries tasks hhead _ ih =>
    have hid : e.task.id ∉ written writes w w' := by
      rw [hquiet]
      exact not_mem_nil
    rw [map_cons, hhead.2 hid e (hstored e mem_cons_self), ih fun e' he' => hstored e' (mem_cons_of_mem e he')]

end Tasks

/-- Whatever is written between the pages and between the calls inside a page: a secured traversal
whose calls succeed returns no id twice, and if it was followed to its end, it has returned each
accessible matching task of its start that was not written since, once and as it was. -/
theorem secured_traversal_returns_each_task_once (store : ConsistentStore) (own : τ) (writes : Writes)
    (rounds : Nat) (policy : SecurityPolicy (MemoryWorld τ)) (allowed : Task → Bool)
    (request : ListTasksRequest) (context : RequestContext) (contexts : List RequestContext)
    (hfixed : ∀ c ∈ context :: contexts, FixedPolicy policy c allowed (Stored store.raw))
    (pages : List ListTasksResponse) (w' : MemoryWorld τ)
    (hpages : Gives (securedTraverse (securedMemory policy writes) (rounds + 1) request [] context
      contexts) ⟨store.raw, 0, own⟩ (.ok pages) w') :
    ((pages.flatMap ListTasksResponse.tasks).map Task.id).Nodup ∧
    ((∀ last, pages.getLast? = some last → last.nextPageToken = []) →
      ∀ id e, store.raw.entryOf id = some e → matchesListFilters e.task request = true →
        allowed e.task = true → id ∉ written writes ⟨store.raw, 0, own⟩ w' →
        ((pages.flatMap ListTasksResponse.tasks).map Task.id).count id = 1 ∧
          projectTaskForList e.task request.includeArtifacts request.historyLength ∈
            pages.flatMap ListTasksResponse.tasks) := by
  obtain ⟨returned, hspec⟩ :=
    securedTraverse_spec writes rounds request hfixed validBoundary_none store.wellFormed hpages
  have hids := map_id_of_readBack hspec.tasks
  have hnodup : ((pages.flatMap tasks).map Task.id).Nodup := by
    rw [hids]
    exact hspec.ids
  refine ⟨hnodup, ?_⟩
  intro hend id e he hmatch hallowed hid
  obtain rfl : e.task.id = id := store.wellFormed.entryOf_id he
  have hwanted : wanted allowed request e.task = true := by
    unfold wanted
    rw [hmatch, hallowed]
    rfl
  have hmem : e ∈ returned := hspec.complete hend e he (stored_of_entryOf he) hwanted (fun b hb => nomatch hb) hid
  refine ⟨?_, projected_mem_of_readBack hspec.tasks hmem he hid⟩
  apply List.count_eq_one_of_mem hnodup
  rw [hids]
  exact List.mem_map_of_mem hmem

namespace Runs

/-- Everybody sees the tasks of their own context. -/
def ownTasks : SecurityPolicy (MemoryWorld Unit) where
  authenticate := fun _ w => (.ok "alice", w)
  authorizeOperation := fun _ _ w => (true, w)
  canAccessTask := fun task context w => (task.contextId == context.principal, w)
  scopeTaskList := fun query _ w => (some query, w)

/-- The caller. -/
def alice : RequestContext := { principal := "alice" }

/-- Two tasks of one principal, with somebody else's between them. -/
def threeTasks : ConsistentStore :=
  ConsistentStore.empty.run [(.createOrUpdate { id := "a", contextId := "alice" }, 5),
    (.createOrUpdate { id := "b", contextId := "bob" }, 4),
    (.createOrUpdate { id := "c", contextId := "alice" }, 3)]

/-- While the first page is put together, its task is canceled. -/
def cancelFirst : Writes := fun k => if k = 1 then [(.cancel "a", 9)] else []

/-- The ids that were returned. -/
def idsOf (value : Option (Result (List ListTasksResponse))) : Option (List Bytes) :=
  match value with
  | some (.ok pages) => some ((pages.flatMap ListTasksResponse.tasks).map Task.id)
  | _ => none

theorem exists_pages {p : Program σ (Result (List ListTasksResponse))} {w : σ} {l : List Bytes}
    (h : idsOf (run p w).value = some l) :
    ∃ pages, (run p w).value = some (.ok pages) ∧ (pages.flatMap ListTasksResponse.tasks).map Task.id = l := by
  unfold idsOf at h
  split at h
  · exact ⟨_, by assumption, Option.some.inj h⟩
  · cases h

theorem ownTasks_fixed (stored : Task → Prop) :
    FixedPolicy ownTasks alice (fun task => task.contextId == bytes "alice") stored :=
  fixedPolicy_of_identity (fun _ _ => rfl) (fun _ _ => rfl) stored

end Runs

open DispatchSecurity.Runs in
theorem traversal_while_first_is_canceled :
    ∃ pages w', Gives (securedTraverse (securedMemory ownTasks cancelFirst) 1 { pageSize := 1 } [] alice
        [alice]) ⟨threeTasks.raw, 0, ()⟩ (.ok pages) w' ∧
      (pages.flatMap tasks).map Task.id = [bytes "a", bytes "c"] ∧
      ((pages.flatMap tasks).map Task.id).Nodup := by
  have hfixed : ∀ c ∈ [alice, alice],
      FixedPolicy ownTasks c (fun task => task.contextId == bytes "alice") (Stored threeTasks.raw) := by
    intro c hc
    obtain rfl : c = alice := by simpa using hc
    exact ownTasks_fixed _
  obtain ⟨pages, hvalue, hids⟩ := exists_pages (p := securedTraverse
    (securedMemory ownTasks cancelFirst) 1 { pageSize := 1 } [] alice [alice])
    (w := ⟨threeTasks.raw, 0, ()⟩) (l := [bytes "a", bytes "c"]) (by decide +kernel)
  refine ⟨pages, _, ⟨hvalue, rfl⟩, hids, ?_⟩
  exact (secured_traversal_returns_each_task_once threeTasks () cancelFirst 0 ownTasks _
    { pageSize := 1 } alice [alice] hfixed pages _ ⟨hvalue, rfl⟩).1

end Pages

/-! ## Pages of a store that nobody writes -/

section Quiet

variable {policy : SecurityPolicy (MemoryWorld τ)} {allowed : Task → Bool} {rounds : Nat} {request : ListTasksRequest}
  {store : InMemoryTaskStore} {contexts : List RequestContext} {context : RequestContext} {w : MemoryWorld τ}
  {page : ListTasksResponse} {e : Entry}

/-- Nobody writes. -/
def quiet : Writes := fun _ => []

theorem written_quiet (w w' : MemoryWorld τ) : written quiet w w' = [] :=
  written_of_quiet fun _ => rfl

/-- The accessible matching entries, in the order of the list. -/
def visibleEntries (allowed : Task → Bool) (request : ListTasksRequest) (store : InMemoryTaskStore) :
    List Entry :=
  (store.matchingAfter request none).filter fun e => allowed e.task

theorem mem_visibleEntries (h : store.WellFormed) :
    e ∈ visibleEntries allowed request store ↔
      store.entryOf e.task.id = some e ∧ wanted allowed request e.task := by
  unfold visibleEntries wanted
  rw [mem_filter, mem_matchingAfter h, Bool.and_eq_true]
  constructor
  · rintro ⟨⟨he, -, hmatch⟩, hallowed⟩
    exact ⟨he, hmatch, hallowed⟩
  · rintro ⟨he, hmatch, hallowed⟩
    exact ⟨⟨he, fun b hb => absurd hb (by simp), hmatch⟩, hallowed⟩

theorem pairwise_visibleEntries (h : store.WellFormed) :
    (visibleEntries allowed request store).Pairwise fun e e' => CursorOrder e.cursor e'.cursor :=
  (pairwise_matchingAfter h request none).filter _

instance : Std.Asymm fun e e' : Entry => CursorOrder e.cursor e'.cursor where
  asymm := fun _ _ h h' => irrefl_of CursorOrder _ (trans_of CursorOrder h h')

theorem ScanSpec.eq_visibleEntries {visible : Task → Bool} {w' : MemoryWorld τ}
    {scanned : List Entry} (h : ScanSpec quiet visible w w' scanned) (hw : w.store.WellFormed)
    (hvisible : ∀ task, Stored w.store task → visible task = wanted allowed request task) :
    scanned = visibleEntries allowed request w.store := by
  have hquiet : written quiet w w' = [] := written_quiet w w'
  refine List.Pairwise.eq_of_mem_iff h.sorted (pairwise_visibleEntries hw) ?_
  intro e
  rw [mem_visibleEntries hw]
  constructor
  · intro he
    have hstored := h.sound hquiet e he
    refine ⟨hstored, ?_⟩
    rw [← hvisible e.task (stored_of_entryOf hstored)]
    exact h.shown e he
  · rintro ⟨he, hwanted⟩
    refine h.complete e he ?_ (by rw [hquiet]; exact not_mem_nil)
    rw [hvisible e.task (stored_of_entryOf he)]
    exact hwanted

/-- With more rounds than the store has tasks, a page comes back: its scan ends. -/
theorem quiet_page (hw : w.store.WellFormed)
    (hfixed : FixedPolicy policy context allowed (Stored w.store)) (hsize : request.pageSize ≤ kMaxListTasksPageSize)
    (hrounds : w.store.orderedTasks.length ≤ rounds) {cursor : Option ListTaskCursor} (hcursor : ValidBoundary cursor) :
    ∃ page w' visible, Gives ((securedMemory policy quiet).listTasks (rounds + 1)
        { request with pageToken := boundaryToken cursor } context) w (.ok (.listTasks page)) w' ∧
      w'.store = w.store ∧
      page.tasks = (held request cursor (visibleEntries allowed request w.store)).map (projected request) ∧
      PageSpec quiet visible request cursor w w' page (visibleEntries allowed request w.store) := by
  obtain ⟨scope, hscope, hnarrows⟩ := hfixed.scopes { request with pageToken := boundaryToken cursor } w
  have hvisible : ∀ task, Stored w.store task → visibleIn allowed scope task = wanted allowed request task :=
    fun task htask => (hnarrows task htask).visibleIn_eq
  rcases listTasks_gives hfixed.judges quiet cursor hsize (parse_boundaryToken hcursor) rounds hw hscope
      later_refl with
    ⟨result, w', hgives, hpage, hsucceeds⟩ | ⟨-, hlt⟩
  · have hquiet : written quiet w w' = [] := written_quiet w w'
    obtain ⟨payload, rfl⟩ := hsucceeds hquiet fun e he hshown => by
      rw [hvisible e.task (stored_of_entryOf he), wanted, Bool.and_eq_true] at hshown
      exact hshown.2
    obtain ⟨page, scanned, rfl, hspec⟩ := hpage payload rfl
    obtain rfl := hspec.toScanSpec.eq_visibleEntries hw hvisible
    refine ⟨page, w', _, hgives, ?_, ?_, hspec⟩
    · exact hspec.later.store_of_quiet fun _ => rfl
    · refine eq_map_of_readBack hspec.tasks ?_ hquiet
      intro e he
      exact hspec.sound hquiet e (mem_of_mem_held he).1
  · have hmore := hlt fun _ => rfl
    omega

/-- The pages cut a list into slices; each knows the total, and has a token unless it is the last. -/
inductive Slices (request : ListTasksRequest) (total : Nat) :
    List Entry → List ListTasksResponse → Prop
  | last {rest : List Entry} {page : ListTasksResponse} :
      rest.length ≤ requestedSize request → page.tasks = rest.map (projected request) →
      page.totalSize = total → page.pageSize = requestedSize request → page.nextPageToken = [] →
      Slices request total rest [page]
  | more {rest : List Entry} {page : ListTasksResponse} {pages : List ListTasksResponse} :
      requestedSize request < rest.length →
      page.tasks = (rest.take (requestedSize request)).map (projected request) →
      page.totalSize = total → page.pageSize = requestedSize request → page.nextPageToken ≠ [] →
      Slices request total (rest.drop (requestedSize request)) pages →
      Slices request total rest (page :: pages)

namespace Slices

variable {total : Nat} {rest : List Entry} {pages : List ListTasksResponse} (h : Slices request total rest pages)

include h

theorem tasks : pages.flatMap ListTasksResponse.tasks = rest.map (projected request) := by
  induction h with
  | last _ htasks =>
    rw [flatMap_singleton]
    exact htasks
  | more _ htasks _ _ _ _ ih =>
    rw [flatMap_cons, htasks, ih, ← map_append, take_append_drop]

theorem length_pos : 0 < pages.length := by
  cases h with
  | last => exact Nat.one_pos
  | more => exact Nat.succ_pos _

theorem sizes (hpage : page ∈ pages) : page.totalSize = total ∧ page.pageSize = requestedSize request := by
  induction h with
  | last _ _ htotal hsize _ =>
    obtain rfl := mem_singleton.mp hpage
    exact ⟨htotal, hsize⟩
  | more _ _ htotal hsize _ _ ih =>
    rcases mem_cons.mp hpage with rfl | hpage
    · exact ⟨htotal, hsize⟩
    · exact ih hpage

/-- Only the last page has no token, and only the last page may be short. -/
theorem token {i : Nat} (hpage : pages[i]? = some page) :
    (page.nextPageToken = [] ↔ i + 1 = pages.length) ∧
      (i + 1 < pages.length → page.tasks.length = requestedSize request) := by
  induction h generalizing i with
  | @last rest page' _ _ _ _ hend =>
    cases i with
    | zero =>
      cases hpage
      refine ⟨⟨fun _ => rfl, fun _ => hend⟩, ?_⟩
      intro hlt
      exact absurd hlt (lt_irrefl _)
    | succ i => nomatch hpage
  | @more rest page' pages hlong htasks _ _ hmore hrest ih =>
    have hpos := hrest.length_pos
    cases i with
    | zero =>
      cases hpage
      rw [length_cons]
      refine ⟨⟨fun hend => absurd hend hmore, fun heq => ?_⟩, fun _ => ?_⟩
      · omega
      · rw [htasks, length_map, length_take]
        omega
    | succ i =>
      obtain ⟨hiff, hfull⟩ := ih (i := i) hpage
      rw [length_cons]
      refine ⟨hiff.trans (by omega), fun hlt => hfull (by omega)⟩

end Slices

theorem past_last {entries front rest : List Entry} {last : Entry} {size : Nat}
    (hsorted : entries.Pairwise fun e e' => CursorOrder e.cursor e'.cursor)
    (hentries : entries = front ++ rest) (hlast : (rest.take size).getLast? = some last) :
    ∃ front', entries = front' ++ rest.drop size ∧ past (some last.cursor) entries = rest.drop size := by
  obtain ⟨init, hinit⟩ := List.getLast?_eq_some_iff.mp hlast
  have hsplit : entries = (front ++ init) ++ last :: rest.drop size := by
    conv_lhs => rw [hentries, ← take_append_drop size rest, hinit]
    simp
  refine ⟨front ++ init ++ [last], by rw [hsplit]; simp, ?_⟩
  have hafter := filter_lt_of_pairwise (fun e e' : Entry => CursorOrder e.cursor e'.cursor) (hsplit ▸ hsorted)
  rw [← hsplit] at hafter
  rw [← hafter]
  apply filter_congr
  intro e _
  rw [Bool.eq_iff_iff, pastCursor_iff, decide_eq_true_iff]
  constructor
  · intro h
    exact h _ rfl
  · intro h b hb
    cases hb
    exact h

/-- What a traversal does after a page: it ends with it, or goes on from its token. -/
theorem securedTraverse_gives {security : DispatchSecurity σ} {w w' : σ} {token : Bytes}
    (hpage : Gives (security.listTasks rounds { request with pageToken := token } context) w
      (.ok (.listTasks page)) w') :
    (page.nextPageToken = [] → ∀ contexts,
      Gives (securedTraverse security rounds request token context contexts) w (.ok [page]) w') ∧
    (page.nextPageToken ≠ [] → ∀ next contexts pages w'',
      Gives (securedTraverse security rounds request page.nextPageToken next contexts) w' (.ok pages) w'' →
      Gives (securedTraverse security rounds request token context (next :: contexts)) w
        (.ok (page :: pages)) w'') := by
  refine ⟨?_, ?_⟩
  · intro hend contexts
    rw [securedTraverse]
    refine gives_bind hpage ?_
    dsimp only
    rw [if_pos (by rw [hend]; rfl)]
    exact gives_pure
  · intro hmore next contexts pages w'' hrest
    rw [securedTraverse]
    refine gives_bind hpage ?_
    dsimp only
    rw [if_neg fun h => hmore (List.isEmpty_iff.mp h)]
    exact gives_bind hrest gives_pure

/-- From any page on, the walk cuts what is left of the visible tasks into full pages. -/
theorem securedTraverse_slices (hstore : store.WellFormed)
    (hsize : request.pageSize ≤ kMaxListTasksPageSize) (hrounds : store.orderedTasks.length ≤ rounds)
    (hfixed : ∀ c ∈ context :: contexts, FixedPolicy policy c allowed (Stored store))
    (hw : w.store = store) {cursor : Option ListTaskCursor} (hcursor : ValidBoundary cursor) {front rest : List Entry}
    (hsplit : visibleEntries allowed request store = front ++ rest)
    (hpast : past cursor (visibleEntries allowed request store) = rest)
    (henough : rest.length ≤ (contexts.length + 1) * requestedSize request) :
    ∃ pages w', Gives (securedTraverse (securedMemory policy quiet) (rounds + 1) request
        (boundaryToken cursor) context contexts) w (.ok pages) w' ∧
      Slices request (visibleEntries allowed request store).length rest pages := by
  induction contexts generalizing context w cursor front rest with
  | nil =>
    subst hw
    obtain ⟨page, w', visible, hgives, -, htasks, hpage⟩ := quiet_page hstore
      (hfixed context mem_cons_self) hsize hrounds hcursor
    rcases hpage.boundary with ⟨hend, hall⟩ | ⟨last, hlast, -⟩
    · rw [hall, hpast] at htasks
      refine ⟨[page], w', (securedTraverse_gives hgives).1 hend [], ?_⟩
      exact .last (by simpa using henough) htasks hpage.totalSize hpage.pageSize hend
    · have hlong := hlast.long
      rw [hpast] at hlong
      rw [length_nil] at henough
      omega
  | cons next contexts ih =>
    subst hw
    obtain ⟨page, w', visible, hgives, hsame, htasks, hpage⟩ := quiet_page hstore
      (hfixed context mem_cons_self) hsize hrounds hcursor
    rcases hpage.boundary with ⟨hend, hall⟩ | ⟨last, hlast, htoken, hmore⟩
    · have hshort : rest.length ≤ requestedSize request := by
        rw [← hpast, ← hall]
        exact length_take_le _ _
      rw [hall, hpast] at htasks
      refine ⟨[page], w', (securedTraverse_gives hgives).1 hend _, ?_⟩
      exact .last hshort htasks hpage.totalSize hpage.pageSize hend
    · rw [held, hpast] at htasks
      rw [hpast] at hlast
      obtain ⟨front', hsplit', hpast'⟩ := past_last (pairwise_visibleEntries hstore) hsplit hlast.getLast
      have hleft : (rest.drop (requestedSize request)).length ≤ (contexts.length + 1) * requestedSize request := by
        rw [length_drop]
        rw [length_cons, Nat.succ_mul] at henough
        omega
      obtain ⟨pages, w'', hrest, hslices⟩ := ih (fun c hc => hfixed c (mem_cons_of_mem context hc)) hsame
        (hpage.valid last (mem_of_mem_held (hpast ▸ hlast.mem)).1) hsplit' hpast' hleft
      rw [← htoken] at hrest
      refine ⟨page :: pages, w'', (securedTraverse_gives hgives).2 hmore next contexts pages w'' hrest, ?_⟩
      exact .more hlast.long htasks hpage.totalSize hpage.pageSize hmore hslices

/-- A secured listing of a store that is not written: for every filter, page size up to the limit and
projection, the scan of each page ends, and the pages that a caller gets by following the tokens are
the slices of the accessible matching tasks, newest first, each in the requested projection. Every page
counts all of them, and only the last one has no token. -/
theorem secured_pages_slice_the_visible_tasks (store : ConsistentStore) (calls : Nat) (own : τ)
    (policy : SecurityPolicy (MemoryWorld τ)) (allowed : Task → Bool) (request : ListTasksRequest)
    (hsize : request.pageSize ≤ kMaxListTasksPageSize) (rounds : Nat)
    (hrounds : store.raw.orderedTasks.length ≤ rounds) (context : RequestContext)
    (contexts : List RequestContext) (hcontexts : store.raw.orderedTasks.length ≤ contexts.length)
    (hfixed : ∀ c ∈ context :: contexts, FixedPolicy policy c allowed (Stored store.raw)) :
    ∃ visible : List Entry, (visible.Pairwise fun e e' => CursorOrder e.cursor e'.cursor) ∧
      (∀ e, e ∈ visible ↔ store.raw.entryOf e.task.id = some e ∧
        matchesListFilters e.task request = true ∧ allowed e.task = true) ∧
      ∃ pages w', Gives (securedTraverse (securedMemory policy quiet) (rounds + 1) request [] context
          contexts) ⟨store.raw, calls, own⟩ (.ok pages) w' ∧
        pages.flatMap ListTasksResponse.tasks = visible.map (fun e =>
          projectTaskForList e.task request.includeArtifacts request.historyLength) ∧
        (∀ page ∈ pages, page.totalSize = visible.length ∧ page.pageSize = requestedSize request) ∧
        ∀ i page, pages[i]? = some page → (page.nextPageToken = [] ↔ i + 1 = pages.length) ∧
          (i + 1 < pages.length → page.tasks.length = requestedSize request) := by
  have h := store.wellFormed
  have hpast : past none (visibleEntries allowed request store.raw) =
      visibleEntries allowed request store.raw := List.filter_true _
  have hfew : (visibleEntries allowed request store.raw).length ≤ store.raw.orderedTasks.length := by
    refine length_le_of_stored h ?_ fun e he => ((mem_visibleEntries h).mp he).1
    exact (nodup_ids_matchingAfter h request none).sublist (List.filter_sublist.map _)
  have henough : (visibleEntries allowed request store.raw).length ≤
      (contexts.length + 1) * requestedSize request := by
    have hone := Nat.le_mul_of_pos_right (contexts.length + 1) (requestedSize_pos request)
    omega
  obtain ⟨pages, w', hgives, hslices⟩ := securedTraverse_slices h hsize hrounds hfixed
    (w := ⟨store.raw, calls, own⟩) rfl validBoundary_none (List.nil_append _).symm hpast henough
  refine ⟨visibleEntries allowed request store.raw, pairwise_visibleEntries h, ?_, pages, w', hgives,
    hslices.tasks, fun page hpage => hslices.sizes hpage, fun i page hpage => hslices.token hpage⟩
  intro e
  rw [mem_visibleEntries h, wanted, Bool.and_eq_true]

namespace Runs

/-- The same policy, with a scope that narrows the query to the principal's context. -/
def scopedTasks : SecurityPolicy (MemoryWorld Unit) :=
  { ownTasks with
    scopeTaskList := fun query context w =>
      (if query.contextId = [] ∨ query.contextId = context.principal then
        some { query with contextId := context.principal, includeArtifacts := false }
      else none, w) }

theorem projectTaskForList_contextId (task : Task) (includeArtifacts : Bool) (historyLength : Option Nat) :
    (projectTaskForList task includeArtifacts historyLength).contextId = task.contextId := by
  unfold projectTaskForList
  split_ifs <;> rfl

theorem scopedTasks_fixed (stored : Task → Prop) :
    FixedPolicy scopedTasks alice (fun task => task.contextId == bytes "alice") stored := by
  refine ⟨fun _ _ => rfl, ?_⟩
  intro query w
  refine ⟨_, rfl, ?_⟩
  intro task _
  show Narrows _ _ _ (if query.contextId = [] ∨ query.contextId = bytes "alice" then _ else _)
  split_ifs with hcontext
  · refine ⟨?_, ?_, ?_⟩
    · intro hmatch
      rw [matchesListFilters_iff] at hmatch ⊢
      obtain ⟨hempty | hsame, hrest⟩ := hmatch
      · exact absurd hempty (by decide : bytes "alice" ≠ [])
      · refine ⟨hcontext.imp_right fun halice => ?_, hrest⟩
        exact hsame.trans halice.symm
    · intro hmatch hdropped
      rw [matchesListFilters_iff] at hmatch
      rw [← Bool.not_eq_true, matchesListFilters_iff, not_and'] at hdropped
      exact beq_eq_false_iff_ne.mpr fun halice => hdropped hmatch.2 (.inr halice)
    · intro _
      dsimp only
      rw [projectTaskForList_contextId]
  · intro hmatch
    rw [matchesListFilters_iff] at hmatch
    rw [not_or] at hcontext
    obtain ⟨hempty | hsame, -⟩ := hmatch
    · exact absurd hempty hcontext.1
    · refine beq_eq_false_iff_ne.mpr fun halice => hcontext.2 ?_
      exact hsame.symm.trans halice

end Runs

open DispatchSecurity.Runs in
theorem pages_of_narrowed_scope :
    ∃ (visible : List Entry) (pages : List ListTasksResponse) (w' : MemoryWorld Unit),
      Gives (securedTraverse (securedMemory scopedTasks quiet) 4 { pageSize := 1 } []
        alice [alice, alice, alice]) ⟨threeTasks.raw, 0, ()⟩ (.ok pages) w' ∧
      pages.flatMap tasks = visible.map (fun e =>
        projectTaskForList e.task false none) ∧
      ∀ page ∈ pages, page.totalSize = visible.length ∧ page.pageSize = 1 := by
  have hfixed : ∀ c ∈ [alice, alice, alice, alice], FixedPolicy scopedTasks c
      (fun task => task.contextId == bytes "alice") (Stored threeTasks.raw) := by
    intro c hc
    obtain rfl : c = alice := by simpa using hc
    exact scopedTasks_fixed _
  obtain ⟨visible, -, -, pages, w', hgives, htasks, hsizes, -⟩ :=
    secured_pages_slice_the_visible_tasks threeTasks 0 () scopedTasks _ { pageSize := 1 } (by decide) 3
      (by decide) alice [alice, alice, alice] (by decide) hfixed
  exact ⟨visible, pages, w', hgives, htasks, hsizes⟩

open DispatchSecurity.Runs in
-- The same pages, evaluated.
example : idsOf (run (securedTraverse (securedMemory scopedTasks quiet) 4 { pageSize := 1 } [] alice
    [alice, alice, alice]) ⟨threeTasks.raw, 0, ()⟩).value = some [bytes "a", bytes "c"] := by
  decide +kernel

end Quiet

end A2A.Server.Dispatch.DispatchSecurity
