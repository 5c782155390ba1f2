/-
# The calls that `DispatchSecurity` makes.
-/
import A2A.Server.SecurityPolicy

namespace A2A.Server.Dispatch

open A2A.Foundation A2A.Core A2A.Server.Tasks Traced List

variable {σ : Type}

/-! ## Kinds of calls -/

/-- A call to the policy, the store or the underlying stream on behalf of `context`. -/
def Event.Within (context : RequestContext) : Event σ → Prop
  | .canAccessTask _ asked _ => asked = context
  | .authorizeOperation _ asked _ => asked = context
  | .scopeTaskList _ asked _ => asked = context
  | .storeGet _ _ | .storeList _ _ | .streamRead _ _ => True
  | .authenticate _ _ | .beforeDispatch _ _ _ | .executor _ _ _ | .agentCard _ _
  | .afterDispatch _ _ _ => False

/-- The store had `task` under `id`, and the policy, asked right after, allowed it. -/
def Shown (context : RequestContext) (id : Bytes) (task : Task) : List (Event σ) :=
  [.storeGet id (.ok task), .canAccessTask task context true]

/-- The events contain a check of `id` that went well. -/
def Checked (context : RequestContext) (events : List (Event σ)) (id : Bytes) : Prop :=
  ∃ task, Shown context id task <:+: events

variable {context : RequestContext} {events : List (Event σ)} {id : Bytes}

theorem Checked.append_left (h : Checked context events id) (earlier : List (Event σ)) :
    Checked context (earlier ++ events) id := by
  obtain ⟨task, htask⟩ := h
  exact ⟨task, htask.trans (suffix_append earlier events).isInfix⟩

theorem Checked.append_right (h : Checked context events id) (later : List (Event σ)) :
    Checked context (events ++ later) id := by
  obtain ⟨task, htask⟩ := h
  exact ⟨task, htask.trans (prefix_append events later).isInfix⟩

/-! ## One task -/

section

variable (store : TaskStore σ) (policy : SecurityPolicy σ) (context : RequestContext)

/-- `E` admits the two calls of a lookup. -/
def AdmitsLookup (E : Event σ → Prop) : Prop :=
  (∀ id answer, E (.storeGet id answer)) ∧ ∀ task allowed, E (.canAccessTask task context allowed)

variable {store policy context} {id : Bytes}

theorem within_admitsLookup : AdmitsLookup (σ := σ) context (Event.Within context) :=
  ⟨fun _ _ => trivial, fun _ _ => rfl⟩

variable {E : Event σ → Prop} (hE : AdmitsLookup context E)

include hE

theorem getAuthorizedTask_emits :
    Emits (getAuthorizedTask store policy context id) E
      fun result events => ∀ task, result = .ok task → events = Shown context id task := by
  refine emits_bind (P := fun answer events => events = [.storeGet id answer]) (emits_call (hE.1 id) fun _ => rfl) ?_
  rintro answer _ rfl
  cases answer with
  | error error => exact emits_pure fun _ h => nomatch h
  | ok task =>
    refine emits_bind (P := fun allowed events => events = [.canAccessTask task context allowed])
      (emits_call (hE.2 task) fun _ => rfl) ?_
    rintro allowed _ rfl
    cases allowed with
    | false => exact emits_pure fun _ h => nomatch h
    | true =>
      refine emits_pure fun task' h => ?_
      obtain rfl : task = task' := by injection h
      rfl

/-- A lookup whose task is not used: its success has the lookup behind it. -/
theorem lookup_emits :
    Emits (do
        let task ← getAuthorizedTask store policy context id
        pure (task.map fun _ => ())) E
      fun result events => result = .ok () → ∃ task, events = Shown context id task := by
  refine emits_bind (getAuthorizedTask_emits hE) ?_
  intro answer events hanswer
  cases answer with
  | error error => exact emits_pure nofun
  | ok task =>
    refine emits_pure fun _ => ⟨task, ?_⟩
    rw [append_nil]
    exact hanswer task rfl

theorem checkTask_emits :
    Emits (checkTask store policy context id) E fun result events =>
        (id = [] ∧ result = .ok () ∧ events = []) ∨
          (id ≠ [] ∧ (result = .ok () → ∃ task, events = Shown context id task)) := by
  unfold checkTask
  split
  · next hempty => exact emits_pure (.inl ⟨List.isEmpty_iff.mp hempty, rfl, rfl⟩)
  · next hempty =>
      refine Emits.weaken (lookup_emits hE) (fun _ he => he) ?_
      intro result events hresult
      exact .inr ⟨fun hnil => hempty (List.isEmpty_iff.mpr hnil), hresult⟩

omit hE

variable {s : σ}

theorem getAuthorizedTask_returns : Returns (getAuthorizedTask store policy context id) := by
  refine returns_bind returns_call ?_
  intro answer
  cases answer with
  | error error => exact returns_pure
  | ok task =>
    refine returns_bind returns_call ?_
    intro allowed
    cases allowed with
    | false | true => exact returns_pure

theorem checkTask_returns : Returns (checkTask store policy context id) := by
  unfold checkTask
  split
  · exact returns_pure
  · exact returns_bind getAuthorizedTask_returns fun _ => returns_pure

variable (store policy) in
/-- In the world `s` the store has no task `id`, or the policy refuses the one it has. -/
def Inaccessible (context : RequestContext) (id : Bytes) (s : σ) : Prop :=
  match (store.get id s).1 with
  | .error error =>
    error.code = .remoteProtocol ∧ error.protocolCode = some ProtocolCodes.taskNotFound
  | .ok task => (policy.canAccessTask task context (store.get id s).2).1 = false

theorem getAuthorizedTask_of_inaccessible (h : Inaccessible store policy context id s) :
    (run (getAuthorizedTask store policy context id) s).value = some (.error ProtocolErrors.taskNotFound) := by
  unfold Inaccessible at h
  unfold getAuthorizedTask TaskStore.callGet SecurityPolicy.callCanAccessTask
  rw [run_call_bind]
  cases hget : (store.get id s).1 with
  | error error =>
    rw [hget] at h
    show some (Except.error (hideStoreError error)) = _
    rw [hideStoreError, if_pos h]
  | ok task =>
    rw [hget] at h
    simp only [run_call_bind, h, Bool.false_eq_true, if_false, run_pure]

theorem checkTask_of_inaccessible (hid : id ≠ []) (h : Inaccessible store policy context id s) :
    (run (checkTask store policy context id) s).value = some (.error ProtocolErrors.taskNotFound) := by
  unfold checkTask
  rw [if_neg fun hempty => hid (List.isEmpty_iff.mp hempty),
    run_bind_some (getAuthorizedTask_of_inaccessible h)]
  rfl

end

/-! ## Requests -/

namespace DispatchSecurity

theorem authorizeAs_emits {policy : SecurityPolicy σ} {store : TaskStore σ} {request : DispatchRequest} :
    Emits (authorizeAs policy store request context) (Event.Within context) fun result events => result = .ok () →
        .authorizeOperation request context true ∈ events ∧
          (taskId request ≠ [] → Checked context events (taskId request)) := by
  refine emits_bind (checkTask_emits within_admitsLookup) ?_
  intro checked events hchecked
  cases checked with
  | error error => exact emits_pure nofun
  | ok _ =>
    refine emits_bind (P := fun allowed later => later = [.authorizeOperation request context allowed])
      (emits_call (fun _ => rfl) fun _ => rfl) ?_
    rintro allowed _ rfl
    cases allowed with
    | false => exact emits_pure nofun
    | true =>
      refine emits_pure fun _ => ⟨by simp, ?_⟩
      intro hid
      obtain ⟨hnil, -⟩ | ⟨-, hshown⟩ := hchecked
      · exact absurd hnil hid
      · obtain ⟨task, rfl⟩ := hshown rfl
        exact ⟨task, (prefix_append _ _).isInfix⟩

end DispatchSecurity

/-! ## Responses -/

namespace ResponseAuthorizer

variable (authorizer : ResponseAuthorizer σ)

theorem authorizeId_emits :
    Emits (authorizer.authorizeId id) (Event.Within authorizer.context)
      fun result events => result = .ok () → Checked authorizer.context events id := by
  unfold authorizeId
  split
  · exact emits_pure nofun
  · refine Emits.weaken (lookup_emits within_admitsLookup) (fun _ he => he) ?_
    intro result events hresult hok
    obtain ⟨task, rfl⟩ := hresult hok
    exact ⟨task, infix_refl _⟩

theorem authorizeTask_emits {task : Task} :
    Emits (authorizer.authorizeTask task) (Event.Within authorizer.context) fun result events => result = .ok () →
        task.id ≠ [] ∧ events = [.canAccessTask task authorizer.context true] := by
  unfold authorizeTask
  split
  · exact emits_pure nofun
  · next hid =>
      refine emits_bind (P := fun allowed events => events = [.canAccessTask task authorizer.context allowed])
        (emits_call (fun _ => rfl) fun _ => rfl) ?_
      rintro allowed _ rfl
      cases allowed with
      | false => exact emits_pure nofun
      | true => exact emits_pure fun _ => ⟨fun hnil => hid (List.isEmpty_iff.mpr hnil), rfl⟩

theorem authorizeConfigs_emits {configs : List TaskPushNotificationConfig} :
    Emits (authorizer.authorizeConfigs configs) (Event.Within authorizer.context)
      fun result events => result = .ok () → ∀ config ∈ configs, Checked authorizer.context events config.taskId := by
  induction configs with
  | nil => exact emits_pure fun _ _ h => absurd h not_mem_nil
  | cons config configs ih =>
    refine emits_bind authorizer.authorizeId_emits ?_
    intro answer events hanswer
    cases answer with
    | error error => exact emits_pure nofun
    | ok _ =>
      refine Emits.weaken ih (fun _ he => he) ?_
      intro result later hresult hok config' hmem
      rcases mem_cons.mp hmem with rfl | hmem
      · exact (hanswer rfl).append_right later
      · exact (hresult hok config' hmem).append_left events

/-- What the acceptance of a response rests on. -/
def Rests (context : RequestContext) (events : List (Event σ)) : DispatchPayload σ → Prop
  | .task task => task.id ≠ [] ∧ events = [.canAccessTask task context true]
  | .sendMessage (.task task) => task.id ≠ [] ∧ events = [.canAccessTask task context true]
  | .sendMessage (.message message) => message.taskId ≠ [] → Checked context events message.taskId
  | .sendMessage .unset => True
  | .pushConfig config => Checked context events config.taskId
  | .pushConfigs response => ∀ config ∈ response.configs, Checked context events config.taskId
  | .listTasks _ | .agentCard _ | .stream _ | .monostate => True

theorem visit_emits {payload : DispatchPayload σ} :
    Emits (authorizer.visit payload) (Event.Within authorizer.context)
      fun result events => result = .ok () → Rests authorizer.context events payload := by
  cases payload with
  | task task => exact authorizer.authorizeTask_emits
  | sendMessage response =>
    cases response with
    | task task => exact authorizer.authorizeTask_emits
    | unset => exact emits_pure fun _ => trivial
    | message message =>
      show Emits (if message.taskId.isEmpty then _ else _) _ _
      split
      · next hempty => exact emits_pure fun _ hid => absurd (List.isEmpty_iff.mp hempty) hid
      · exact Emits.weaken authorizer.authorizeId_emits (fun _ he => he) fun _ _ hresult hok _ => hresult hok
  | pushConfig config => exact authorizer.authorizeId_emits
  | pushConfigs response => exact authorizer.authorizeConfigs_emits
  | listTasks | agentCard | stream | monostate => exact emits_pure fun _ => trivial

end ResponseAuthorizer

theorem DispatchSecurity.authorizeResponse_emits {security : DispatchSecurity σ} {payload : DispatchPayload σ} :
    Emits (security.authorizeResponse payload context) (Event.Within context)
      fun result events => result = .ok () → ResponseAuthorizer.Rests context events payload := by
  unfold authorizeResponse
  cases security.configuration with
  | error error => exact emits_pure nofun
  | ok configured =>
    exact ResponseAuthorizer.visit_emits ⟨configured.1, configured.2, context⟩

/-! ## Lists -/

namespace DispatchSecurity

variable {policy : SecurityPolicy σ} {store : TaskStore σ} {cursor : Option ListTaskCursor} {pageSize rounds : Nat}
  {selection : Selection} {query request : ListTasksRequest}

theorem selectBatch_emits {batch : List (Task × ListTaskCursor)} :
    Emits (selectBatch policy context cursor pageSize selection batch) (Event.Within context) fun _ _ => True := by
  induction batch generalizing selection with
  | nil => exact emits_pure trivial
  | cons entry batch ih =>
    refine emits_bind (P := fun _ _ => True) (emits_call (fun _ => rfl) fun _ => trivial) ?_
    intro allowed _ _
    cases allowed with
    | false | true => exact ih

theorem selectLoop_emits :
    Emits (selectLoop policy store context cursor pageSize rounds query selection)
      (Event.Within context) fun _ _ => True := by
  induction rounds generalizing query selection with
  | zero => exact emits_diverge
  | succ rounds ih =>
    refine emits_bind (P := fun _ _ => True) (emits_call (fun _ => trivial) fun _ => trivial) ?_
    intro answer _ _
    cases answer with
    | error error => exact emits_pure trivial
    | ok listed =>
      show Emits (if listed.tasks.length ≠ listed.taskCursors.length then _ else _) _ _
      split
      · exact emits_pure trivial
      · refine emits_bind selectBatch_emits ?_
        intro selection' _ _
        split
        · exact emits_pure trivial
        · exact ih

theorem selectPage_emits :
    Emits (selectPage policy store rounds request context cursor pageSize) (Event.Within context) fun _ _ => True := by
  refine emits_bind (P := fun _ _ => True) (emits_call (fun _ => rfl) fun _ => trivial) ?_
  intro scope _ _
  cases scope with
  | none => exact emits_pure trivial
  | some query => exact selectLoop_emits

/-- A task of a list is the projection of a task that was read and allowed. -/
def Listed (context : RequestContext) (request : ListTasksRequest) (events : List (Event σ)) (task : Task) : Prop :=
  ∃ id stored, Shown context id stored <:+: events ∧
    task = projectTaskForList stored request.includeArtifacts request.historyLength

/-- Each task of the answer was read and allowed just before. -/
theorem readSelected_emits {ids : List Bytes} :
    Emits (readSelected policy store request context ids) (Event.Within context)
      fun result events => ∀ tasks, result = .ok tasks → ∀ task ∈ tasks, Listed context request events task := by
  induction ids with
  | nil =>
    refine emits_pure fun tasks htasks task hmem => ?_
    obtain rfl : [] = tasks := by injection htasks
    cases hmem
  | cons id ids ih =>
    refine emits_bind (getAuthorizedTask_emits within_admitsLookup) ?_
    intro answer events hanswer
    cases answer with
    | error error => exact emits_pure fun _ h => nomatch h
    | ok stored =>
      refine emits_bind ih ?_
      intro rest later hrest
      cases rest with
      | error error => exact emits_pure fun _ h => nomatch h
      | ok tail =>
        refine emits_pure fun tasks htasks task hmem => ?_
        obtain rfl : projectTaskForList stored _ _ :: tail = tasks := by injection htasks
        rw [append_nil]
        rcases mem_cons.mp hmem with rfl | hmem
        · refine ⟨id, stored, ?_, rfl⟩
          rw [hanswer stored rfl]
          exact (prefix_append _ later).isInfix
        · obtain ⟨id', stored', hshown, htask⟩ := hrest tail rfl task hmem
          exact ⟨id', stored', hshown.trans (suffix_append events later).isInfix, htask⟩

theorem listTasks_emits {security : DispatchSecurity σ} :
    Emits (security.listTasks rounds request context) (Event.Within context)
      fun result events => ∀ payload, result = .ok payload → ∃ response, payload = .listTasks response ∧
          ∀ task ∈ response.tasks, Listed context request events task := by
  unfold listTasks
  cases security.configuration with
  | error error => exact emits_pure fun _ h => nomatch h
  | ok configured =>
    obtain ⟨policy, store⟩ := configured
    show Emits (if request.pageSize > kMaxListTasksPageSize then _ else _) _ _
    split
    · exact emits_pure fun _ h => nomatch h
    · cases parseListPageToken request.pageToken with
      | error error => exact emits_pure fun _ h => nomatch h
      | ok cursor =>
        refine emits_bind selectPage_emits ?_
        intro selected events _
        cases selected with
        | error error => exact emits_pure fun _ h => nomatch h
        | ok selected =>
          refine emits_bind readSelected_emits ?_
          intro read later hread
          cases read with
          | error error => exact emits_pure fun _ h => nomatch h
          | ok tasks =>
            refine emits_pure fun payload hpayload => ?_
            cases hpayload
            refine ⟨_, rfl, ?_⟩
            intro task hmem
            rw [append_nil]
            obtain ⟨id, stored, hshown, htask⟩ := hread tasks rfl task hmem
            exact ⟨id, stored, hshown.trans (suffix_append events later).isInfix, htask⟩

end DispatchSecurity

end A2A.Server.Dispatch
