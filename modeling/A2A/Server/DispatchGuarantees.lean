/-
# Complete mediation of a secured dispatcher.
-/
import A2A.Server.AuthorizedStreams
import A2A.Server.Dispatcher

namespace A2A.Server.Dispatch

open A2A.Foundation A2A.Core A2A.Server.Tasks Traced List

variable {σ : Type}

/-! ## Kinds of events -/

namespace Event

/-- The principal that a decision of the policy is taken for. -/
def decidesFor : Event σ → Option Bytes
  | .canAccessTask _ context _ => some context.principal
  | .authorizeOperation _ context _ => some context.principal
  | _ => none

/-- What `Authenticate` returned. -/
def identity : Event σ → Option (Result Bytes)
  | .authenticate _ identity => some identity
  | _ => none

/-- The request was let in: a hook, the executor or the card provider is called. -/
def Entered : Event σ → Prop
  | .beforeDispatch _ _ _ | .executor _ _ _ | .agentCard _ _ => True
  | _ => False

/-- Neither an authentication nor a decision. -/
def Neutral (e : Event σ) : Prop := e.identity = none ∧ e.decidesFor = none

/-- An event that may follow an authentication as `principal`. -/
def OkFor (principal : Bytes) (e : Event σ) : Prop :=
  e.identity = none ∧ ∀ asked, e.decidesFor = some asked → asked = principal

variable {e : Event σ} {context : RequestContext}

theorem Neutral.okFor (h : e.Neutral) (principal : Bytes) : e.OkFor principal := by
  refine ⟨h.1, ?_⟩
  intro asked hasked
  rw [h.2] at hasked
  cases hasked

theorem Within.okFor (h : e.Within context) : e.OkFor context.principal := by
  cases e with
  | canAccessTask _ asked | authorizeOperation _ asked =>
    obtain rfl : asked = context := h
    exact ⟨rfl, fun _ hasked => (Option.some.inj hasked).symm⟩
  | scopeTaskList | storeGet | storeList | streamRead => exact ⟨rfl, nofun⟩
  | _ => exact h.elim

theorem Within.not_entered (h : e.Within context) : ¬ e.Entered := by
  intro hentered
  cases e with
  | beforeDispatch | executor | agentCard => exact h
  | _ => exact hentered

end Event

/-! ## Traces -/

/-- Everything that `Authenticate` returned, in order. -/
def authenticatedAs (events : List (Event σ)) : List (Result Bytes) := events.filterMap Event.identity

/-- Decisions come after exactly one authentication, for the principal it returned. -/
def Mediated (events : List (Event σ)) : Prop :=
  EachEvent (fun earlier e => ∀ principal, e.decidesFor = some principal →
    authenticatedAs earlier = [.ok principal]) events

variable {events later : List (Event σ)}

theorem authenticatedAs_append (h : ∀ e ∈ later, e.identity = none) :
    authenticatedAs (events ++ later) = authenticatedAs events := by
  unfold authenticatedAs
  rw [filterMap_append, filterMap_eq_nil_iff.mpr h, append_nil]

/-- Decisions for the authenticated principal keep a trace mediated. -/
theorem Mediated.append {principal : Bytes} (h : Mediated events)
    (hprincipal : authenticatedAs events = [.ok principal]) (hlater : ∀ e ∈ later, e.OkFor principal) :
    Mediated (events ++ later) := by
  refine EachEvent.append h ?_
  rintro before e after rfl asked hasked
  have hbefore : ∀ e ∈ before, e.identity = none :=
    fun e he => (hlater e (mem_append_left _ he)).1
  obtain rfl := (hlater e (by simp)).2 asked hasked
  rw [authenticatedAs_append hbefore]
  exact hprincipal

theorem Mediated.append_neutral (h : Mediated events) (hlater : ∀ e ∈ later, e.Neutral) :
    Mediated (events ++ later) := by
  refine EachEvent.append h ?_
  rintro before e after rfl asked hasked
  rw [(hlater e (by simp)).2] at hasked
  cases hasked

/-! ## Authorization of the request -/

/-- What `Authorize` leaves behind. -/
structure AuthorizeTrace (answer : InContext Unit) (events : List (Event σ)) : Prop where
  mediated : Mediated events
  notEntered : ∀ e ∈ events, ¬ e.Entered
  principal : answer.1 = .ok () → authenticatedAs events = [.ok answer.2.principal]

/-- The principal is read off the authentication, never off the caller's context. -/
theorem DispatchSecurity.authorize_spec (security : DispatchSecurity σ) (request : DispatchRequest)
    (context : RequestContext) : Spec (security.authorize request context) Mediated AuthorizeTrace := by
  have hnone : Mediated ([] : List (Event σ)) := eachEvent_nil _
  unfold authorize
  cases security.configuration with
  | error error => exact spec_pure ⟨hnone, fun _ he => absurd he not_mem_nil, nofun⟩
  | ok configured =>
    obtain ⟨policy, store⟩ := configured
    refine spec_bind (C := fun _ => False)
      (P := fun answer events => events = [.authenticate { context with principal := [] } answer])
      (spec_call fun _ => rfl) (fun _ h => h.elim) ?_
    rintro answer _ rfl
    have hone : Mediated [Event.authenticate (σ := σ) { context with principal := [] } answer] :=
      eachEvent_cons nofun (eachEvent_nil _)
    have hout : ∀ e ∈ [Event.authenticate (σ := σ) { context with principal := [] } answer], ¬ e.Entered := by
      intro e he
      obtain rfl := mem_singleton.mp he
      exact fun h => h
    cases answer with
    | error error => exact spec_pure ⟨hone, hout, nofun⟩
    | ok identity =>
      show Spec (if identity.isEmpty then _ else _) _ _
      split
      · exact spec_pure ⟨hone, hout, nofun⟩
      · refine spec_bind authorizeAs_emits
          (fun _ hevents => hone.append rfl fun e he => (hevents e he).okFor) ?_
        rintro authorized events ⟨hevents, -⟩
        refine spec_pure ?_
        rw [append_nil]
        have hlater : ∀ e ∈ events, e.OkFor identity := fun e he => (hevents e he).okFor
        refine ⟨hone.append rfl hlater, ?_, fun _ => ?_⟩
        · intro e he
          rcases mem_append.mp he with he | he
          · exact hout e he
          · exact (hevents e he).not_entered
        · exact authenticatedAs_append fun e he => (hlater e he).1

/-! ## The hooks -/

@[simp] theorem restorePrincipal_some (context : RequestContext) (principal : Bytes) :
    (restorePrincipal context (some principal)).principal = principal := rfl

/-- The event is an `AfterDispatch` call. -/
def Event.IsAfterDispatch : Event σ → Prop
  | .afterDispatch _ _ _ => True
  | _ => False

theorem Event.IsAfterDispatch.neutral {e : Event σ} (h : e.IsAfterDispatch) : e.Neutral ∧ ¬ e.Entered := by
  cases e with
  | afterDispatch interceptor context result => exact ⟨⟨rfl, rfl⟩, fun h => h⟩
  | _ => exact h.elim

namespace Dispatcher

variable (d : Dispatcher σ)

section

variable {request : DispatchRequest} {context : RequestContext} {result : Result (DispatchPayload σ)}
  {interceptors : List (Option (ServerInterceptor σ))} {principal : Bytes} {restored : Option Bytes}

theorem runAfterLoop_emits :
    Emits (runAfterLoop request result restored interceptors context) Event.IsAfterDispatch fun _ _ => True := by
  induction interceptors generalizing context with
  | nil => exact emits_pure trivial
  | cons interceptor interceptors ih =>
    cases interceptor with
    | none => exact ih
    | some interceptor =>
      refine emits_bind (P := fun _ _ => True) (emits_call (fun _ => trivial) fun _ => trivial) ?_
      intro context _ _
      exact ih

theorem runAfterInterceptors_emits :
    Emits (d.runAfterInterceptors request context result restored) Event.IsAfterDispatch fun _ _ => True := by
  refine emits_bind (P := fun _ _ => True) (emits_observe fun _ => trivial) ?_
  intro interceptors _ _
  exact runAfterLoop_emits

theorem refuse_emits {error : Error} :
    Emits (d.refuse request context error restored) Event.IsAfterDispatch fun answer _ => answer.1 = .error error := by
  refine emits_bind d.runAfterInterceptors_emits ?_
  intro context _ _
  exact emits_pure rfl

/-- The hooks may rewrite the principal; it is put back after each of them. -/
theorem runBeforeInterceptors_emits (hcontext : context.principal = principal) :
    Emits (runBeforeInterceptors request (some principal) interceptors context) Event.Neutral
      fun answer _ => answer.2.principal = principal := by
  induction interceptors generalizing context with
  | nil => exact emits_pure hcontext
  | cons interceptor interceptors ih =>
    cases interceptor with
    | none => exact ih hcontext
    | some interceptor =>
      refine emits_bind (P := fun _ _ => True) (emits_call (fun _ => ⟨rfl, rfl⟩) fun _ => trivial) ?_
      rintro ⟨result, after⟩ _ _
      cases result with
      | error error => exact emits_pure rfl
      | ok _ => exact ih rfl

end

/-! ## The request itself -/

end Dispatcher

/-- The limit that a request sets for the history. -/
def RequestPayload.historyLength : RequestPayload → Option Int32
  | .sendMessage request => request.configurationOr.historyLength
  | .getTask request => request.historyLength
  | _ => none

/-- What a successful answer of the executor or of the card provider rests on. -/
inductive Returned : DispatchPayload σ → List (Event σ) → Prop
  /-- A direct answer, to a request that did not limit the history. -/
  | answered {payload : DispatchPayload σ} (call : DispatchRequest) (seen : RequestContext)
      (hlist : ∀ response, payload ≠ .listTasks response)
      (hstream : ∀ session, payload ≠ .stream session) (hfull : call.payload.historyLength = none) :
      Returned payload [.executor call seen (.ok payload)]
  /-- A session of the executor, or none. -/
  | streaming (call : DispatchRequest) (seen : RequestContext)
      (session : Option (ServerStreamSession σ)) :
      Returned (.stream (session.map .executor))
        [.executor call seen (.ok (.stream (session.map .executor)))]
  /-- The provider's card. -/
  | card (seen : AgentCardRequestContext) (card : AgentCard) :
      Returned (.agentCard card) [.agentCard seen (.ok card)]

/-- The program makes neutral calls only, and a success of it is `Returned`. -/
def Asks (p : Program σ (InContext (DispatchPayload σ))) : Prop :=
  Emits p Event.Neutral fun answer events => ∀ payload, answer.1 = .ok payload → Returned payload events

theorem asks_error {error : Error} {context : RequestContext} :
    Asks (pure (.error error, context) : Program σ (InContext (DispatchPayload σ))) :=
  emits_pure nofun

section

variable {ρ α : Type} {method : Method σ ρ α} {argument : ρ} {call : DispatchRequest} {context : RequestContext}
    {wrap : α → DispatchPayload σ}

theorem callExecutor_asks
    (h : ∀ a, Returned (wrap a) [.executor call context (.ok (wrap a))]) :
    Asks (callExecutor method argument call context wrap) := by
  intro s
  refine ⟨?_, nofun⟩
  intro answer hanswer
  cases hanswer
  refine ⟨?_, ?_⟩
  · intro e he
    obtain rfl := mem_singleton.mp he
    exact ⟨rfl, rfl⟩
  · intro payload hpayload
    replace hpayload : (method argument context s).1.1.map wrap = .ok payload := hpayload
    cases hresult : (method argument context s).1.1 with
    | error error =>
      rw [hresult] at hpayload
      cases hpayload
    | ok a =>
      rw [hresult] at hpayload
      obtain rfl : wrap a = payload := Except.ok.inj hpayload
      have hevents : (run (callExecutor method argument call context wrap) s).events =
          [.executor call context (.ok (wrap a))] := by
        show [Event.executor call context ((method argument context s).1.1.map wrap)] = _
        rw [hresult]
        rfl
      rw [hevents]
      exact h a

theorem callExecutor_answers (hlist : ∀ a response, wrap a ≠ .listTasks response)
    (hstream : ∀ a session, wrap a ≠ .stream session) (hfull : call.payload.historyLength = none) :
    Asks (callExecutor method argument call context wrap) :=
  callExecutor_asks fun a => .answered call context (hlist a) (hstream a) hfull

end

/-- With `require_full_task` the executor is asked for the whole history. -/
theorem fullSendQuery_historyLength (payload : SendMessageRequest) :
    (fullSendQuery payload true).configurationOr.historyLength = none := by
  unfold fullSendQuery
  split_ifs with h
  · rfl
  · simpa using h

theorem fullGetQuery_historyLength (payload : GetTaskRequest) : (fullGetQuery payload true).historyLength = none := by
  unfold fullGetQuery
  split_ifs with h
  · rfl
  · simpa using h

section

variable (executor : AgentExecutor σ) (request : DispatchRequest) (context : RequestContext)

theorem dispatchPushToExecutor_asks : Asks (dispatchPushToExecutor executor request context) := by
  obtain ⟨operation, payload⟩ := request
  unfold dispatchPushToExecutor
  cases operation with
  | createTaskPushNotificationConfig =>
    cases payload with
    | createPushConfig payload => exact callExecutor_answers (fun _ _ h => nomatch h) (fun _ _ h => nomatch h) rfl
    | _ => exact asks_error
  | getTaskPushNotificationConfig =>
    cases payload with
    | getPushConfig payload => exact callExecutor_answers (fun _ _ h => nomatch h) (fun _ _ h => nomatch h) rfl
    | _ => exact asks_error
  | listTaskPushNotificationConfigs =>
    cases payload with
    | listPushConfigs payload => exact callExecutor_answers (fun _ _ h => nomatch h) (fun _ _ h => nomatch h) rfl
    | _ => exact asks_error
  | deleteTaskPushNotificationConfig =>
    cases payload with
    | deletePushConfig payload => exact callExecutor_answers (fun _ _ h => nomatch h) (fun _ _ h => nomatch h) rfl
    | _ => exact asks_error
  | _ => exact asks_error

/-- Every operation but the listing asks the executor, or the card provider, once. -/
theorem dispatchToExecutor_asks (provider : Option (AgentCardProvider σ))
    (hlist : ∀ list, ¬ (request.operation = .listTasks ∧ request.payload = .listTasks list)) :
    Asks (dispatchToExecutor executor request context provider true) := by
  have hpush := dispatchPushToExecutor_asks executor request context
  obtain ⟨operation, payload⟩ := request
  cases operation with
  | createTaskPushNotificationConfig | getTaskPushNotificationConfig | listTaskPushNotificationConfigs
  | deleteTaskPushNotificationConfig => exact hpush
  | sendMessage =>
    cases payload with
    | sendMessage payload =>
      exact callExecutor_answers (fun _ _ h => nomatch h) (fun _ _ h => nomatch h) (fullSendQuery_historyLength payload)
    | _ => exact asks_error
  | sendStreamingMessage =>
    cases payload with
    | sendMessage payload => exact callExecutor_asks fun _ => .streaming _ _ _
    | _ => exact asks_error
  | getTask =>
    cases payload with
    | getTask payload =>
      exact callExecutor_answers (fun _ _ h => nomatch h) (fun _ _ h => nomatch h) (fullGetQuery_historyLength payload)
    | _ => exact asks_error
  | subscribeTask =>
    cases payload with
    | getTask payload => exact callExecutor_asks fun _ => .streaming _ _ _
    | _ => exact asks_error
  | listTasks =>
    cases payload with
    | listTasks list => exact absurd ⟨rfl, rfl⟩ (hlist list)
    | _ => exact asks_error
  | cancelTask =>
    cases payload with
    | cancelTask payload => exact callExecutor_answers (fun _ _ h => nomatch h) (fun _ _ h => nomatch h) rfl
    | _ => exact asks_error
  | getExtendedAgentCard =>
    cases payload with
    | getExtendedAgentCard payload =>
      cases provider with
      | none => exact asks_error
      | some provider =>
        refine emits_bind (P := fun card events => events =
            [.agentCard (toAgentCardRequestContext context payload.tenant) card])
          (emits_call (fun _ => ⟨rfl, rfl⟩) fun _ => rfl) ?_
        rintro answer _ rfl
        cases answer with
        | error error => exact emits_pure nofun
        | ok card =>
          refine emits_pure fun payload hpayload => ?_
          cases hpayload
          exact .card _ card
    | _ => exact asks_error

end

/-! ## Responses -/

/-- The executor, asked for the whole history, returned `payload`, and `P` holds of the later calls. -/
def AfterAnswer (payload : DispatchPayload σ) (P : List (Event σ) → Prop) (events : List (Event σ)) :
    Prop :=
  ∃ earlier call seen later, events = earlier ++ .executor call seen (.ok payload) :: later ∧
    call.payload.historyLength = none ∧ P later

/-- The next call asks the policy about `task`, for `principal`, and is allowed. -/
def AllowedNext (principal : Bytes) (task : Task) (later : List (Event σ)) : Prop :=
  ∃ context : RequestContext, context.principal = principal ∧
    [.canAccessTask task context true] <+: later

/-- The task `id` is looked up in the store, and the policy allows it for `principal`. -/
def OwnerChecked (principal id : Bytes) (later : List (Event σ)) : Prop :=
  ∃ context : RequestContext, context.principal = principal ∧ Checked context later id

/-- What a response rests on: the decision about the task it shows, or the one that owns what it shows. -/
def Accepted (principal : Bytes) (request : DispatchRequest) (events : List (Event σ)) :
    DispatchPayload σ → Prop
  | .task task =>
    task.id ≠ [] ∧ AfterAnswer (.task task) (AllowedNext principal task) events
  | .sendMessage (.task task) =>
    task.id ≠ [] ∧ AfterAnswer (.sendMessage (.task task)) (AllowedNext principal task) events
  | .sendMessage (.message message) =>
    message.taskId ≠ [] →
      AfterAnswer (.sendMessage (.message message)) (OwnerChecked principal message.taskId) events
  | .pushConfig config =>
    AfterAnswer (.pushConfig config) (OwnerChecked principal config.taskId) events
  | .pushConfigs response =>
    ∀ config ∈ response.configs,
      AfterAnswer (.pushConfigs response) (OwnerChecked principal config.taskId) events
  | .listTasks response =>
    ∃ list, request.payload = .listTasks list ∧ ∀ task ∈ response.tasks,
      ∃ context : RequestContext, context.principal = principal ∧
        DispatchSecurity.Listed context list events task
  | .sendMessage .unset | .agentCard _ | .stream _ | .monostate => True

/-- A session in the response reads on behalf of `principal`. -/
def Protected (principal : Bytes) (payload : DispatchPayload σ) : Prop :=
  ∀ session, payload = .stream (some session) →
    ∃ stream : AuthorizedStream σ, session = .authorized stream ∧ stream.context.principal = principal

variable {payload : DispatchPayload σ} {events : List (Event σ)} {principal : Bytes} {request : DispatchRequest}

theorem AfterAnswer.extend {P : List (Event σ) → Prop} (h : AfterAnswer payload P events)
    (hP : ∀ later more, P later → P (later ++ more)) (before after : List (Event σ)) :
    AfterAnswer payload P (before ++ (events ++ after)) := by
  obtain ⟨earlier, call, seen, later, rfl, hfull, hlater⟩ := h
  refine ⟨before ++ earlier, call, seen, later ++ after, ?_, hfull, hP later after hlater⟩
  simp only [append_assoc, cons_append]

theorem AllowedNext.append {task : Task} (later more : List (Event σ))
    (h : AllowedNext principal task later) : AllowedNext principal task (later ++ more) := by
  obtain ⟨context, hcontext, hnext⟩ := h
  exact ⟨context, hcontext, hnext.trans (prefix_append later more)⟩

theorem OwnerChecked.append {id : Bytes} (later more : List (Event σ)) (h : OwnerChecked principal id later) :
    OwnerChecked principal id (later ++ more) := by
  obtain ⟨context, hcontext, hchecked⟩ := h
  exact ⟨context, hcontext, hchecked.append_right more⟩

/-- What a response rests on stays in the trace, whatever stands around it. -/
theorem Accepted.extend (h : Accepted principal request events payload) (before after : List (Event σ)) :
    Accepted principal request (before ++ (events ++ after)) payload := by
  cases payload with
  | task task => exact ⟨h.1, h.2.extend AllowedNext.append before after⟩
  | sendMessage response =>
    cases response with
    | task task => exact ⟨h.1, h.2.extend AllowedNext.append before after⟩
    | message message => exact fun hid => (h hid).extend OwnerChecked.append before after
    | unset => trivial
  | pushConfig config => exact AfterAnswer.extend h OwnerChecked.append before after
  | pushConfigs response =>
    exact fun config hmem => (h config hmem).extend OwnerChecked.append before after
  | listTasks response =>
    obtain ⟨list, hlist, htasks⟩ := h
    refine ⟨list, hlist, ?_⟩
    intro task hmem
    obtain ⟨context, hcontext, id, stored, hshown, htask⟩ := htasks task hmem
    refine ⟨context, hcontext, id, stored, hshown.trans ?_, htask⟩
    exact (prefix_append events after).isInfix.trans (suffix_append before _).isInfix
  | agentCard | stream | monostate => trivial

/-- An executor's answer and what its authorization rests on, put together. -/
theorem accepted_of_returned {context : RequestContext} {later : List (Event σ)}
    (hreturned : Returned payload events) (hrests : ResponseAuthorizer.Rests context later payload) :
    Accepted context.principal request (events ++ later) payload := by
  cases hreturned with
  | streaming | card => trivial
  | answered call seen hlist hstream hfull =>
    have hafter : ∀ P : List (Event σ) → Prop, P later →
        AfterAnswer payload P ([.executor call seen (.ok payload)] ++ later) :=
      fun P hP => ⟨[], call, seen, later, rfl, hfull, hP⟩
    cases payload with
    | task task =>
      obtain ⟨hid, rfl⟩ := hrests
      exact ⟨hid, hafter _ ⟨context, rfl, prefix_rfl⟩⟩
    | sendMessage response =>
      cases response with
      | task task =>
        obtain ⟨hid, rfl⟩ := hrests
        exact ⟨hid, hafter _ ⟨context, rfl, prefix_rfl⟩⟩
      | message message => exact fun hid => hafter _ ⟨context, rfl, hrests hid⟩
      | unset => trivial
    | pushConfig config => exact hafter _ ⟨context, rfl, hrests⟩
    | pushConfigs response => exact fun config hmem => hafter _ ⟨context, rfl, hrests config hmem⟩
    | listTasks response => exact absurd rfl (hlist response)
    | stream session => exact absurd rfl (hstream session)
    | agentCard | monostate => trivial

/-! ## The whole dispatch -/

namespace Dispatcher

variable (d : Dispatcher σ)

/-- What a successful answer of the request itself rests on. -/
inductive Performed (request : DispatchRequest) (context : RequestContext) :
    DispatchPayload σ → List (Event σ) → Prop
  | returned {payload : DispatchPayload σ} {events : List (Event σ)} (h : Returned payload events) :
      Performed request context payload events
  | listed {response : ListTasksResponse} {events : List (Event σ)} (list : ListTasksRequest)
      (hlist : request.payload = .listTasks list)
      (htasks : ∀ task ∈ response.tasks, DispatchSecurity.Listed context list events task) :
      Performed request context (.listTasks response) events

variable {executor : AgentExecutor σ} {security : DispatchSecurity σ} {rounds : Nat} {request : DispatchRequest}
  {asked context : RequestContext} {payload full : DispatchPayload σ} {events : List (Event σ)}
  {interceptors : List (Option (ServerInterceptor σ))} {principal : Bytes}

/-- The executor is asked for everything but lists, which security collects itself. -/
theorem perform_emits :
    Emits (d.perform executor (some security) rounds request context) (Event.OkFor context.principal)
      fun answer events => ∀ payload, answer.1 = .ok payload → Performed request context payload events := by
  unfold perform
  split
  · next secured list hsecured _ hpayload =>
      cases hsecured
      refine emits_bind (Emits.weaken DispatchSecurity.listTasks_emits
        (fun _ he => he.okFor) fun _ _ h => h) ?_
      intro result events hresult
      refine emits_pure fun payload hok => ?_
      obtain ⟨response, rfl, htasks⟩ := hresult payload hok
      rw [append_nil]
      exact .listed list hpayload htasks
  · next hnotList =>
      refine Emits.weaken (dispatchToExecutor_asks executor request context d.agentCardProvider ?_)
        (fun _ he => he.okFor _) fun _ _ h payload hok => .returned (h payload hok)
      rintro list ⟨hoperation, hpayload⟩
      exact hnotList security list rfl hoperation hpayload

theorem secureResponse_emits {result : Result (DispatchPayload σ)} :
    Emits (secureResponse (some security) request context result) (Event.OkFor context.principal)
      fun secured events => ∀ full, secured = .ok full →
        ∃ payload, result = .ok payload ∧ ResponseAuthorizer.Rests context events payload ∧
          security.protectStream request context payload = .ok full := by
  cases result with
  | error error => exact emits_pure nofun
  | ok payload =>
    refine emits_bind (Emits.weaken DispatchSecurity.authorizeResponse_emits
      (fun _ he => he.okFor) fun _ _ h => h) ?_
    intro authorized events hauthorized
    cases authorized with
    | error error => exact emits_pure nofun
    | ok _ =>
      refine emits_pure fun full hfull => ⟨payload, rfl, ?_, hfull⟩
      rw [append_nil]
      exact hauthorized rfl

/-- Protection changes streams only, and leaves none of them unprotected. -/
theorem protectStream_ok (hperformed : Performed request asked payload events)
    (h : security.protectStream request context payload = .ok full) :
    Protected context.principal full ∧
      (full = payload ∨ ∃ session, payload = .stream (some (.executor session))) := by
  unfold DispatchSecurity.protectStream at h
  split at h
  · cases h
  · split at h
    · next session =>
        cases h
        refine ⟨?_, .inr ⟨session, rfl⟩⟩
        rintro _ ⟨rfl⟩
        exact ⟨_, rfl, rfl⟩
    · next hother =>
        cases h
        refine ⟨?_, .inl rfl⟩
        rintro session rfl
        -- Only the executor makes streams, and its sessions were the case before.
        cases hperformed with
        | returned hreturned =>
          generalize hpayload : DispatchPayload.stream (some session) = payload at hreturned
          cases hreturned with
          | answered call seen hlist hstream hfull => exact absurd hpayload.symm (hstream _)
          | card seen card => nomatch hpayload
          | streaming call seen inner =>
            cases inner with
            | none => nomatch hpayload
            | some inner =>
              cases DispatchPayload.stream.inj hpayload
              exact absurd rfl (hother inner)

/-- The answer of a dispatch, relative to the authenticated principal. -/
def Answered (principal : Bytes) (request : DispatchRequest) (answer : InContext (DispatchPayload σ))
    (events : List (Event σ)) : Prop :=
  ∀ payload, answer.1 = .ok payload →
    ∃ full, projectTaskResponse request full = payload ∧
      Accepted principal request events full ∧ Protected principal full

theorem Answered.prepend {answer : InContext (DispatchPayload σ)} {later : List (Event σ)}
    (h : Answered principal request answer later) (earlier : List (Event σ)) :
    Answered principal request answer (earlier ++ later) := by
  intro payload hok
  obtain ⟨full, hproject, haccepted, hprotected⟩ := h payload hok
  have hextended := haccepted.extend earlier []
  rw [append_nil] at hextended
  exact ⟨full, hproject, hextended, hprotected⟩

theorem accepted_of_performed {later : List (Event σ)} (hprincipal : asked.principal = context.principal)
    (hperformed : Performed request asked payload events) (hrests : ResponseAuthorizer.Rests context later payload)
    (hfull : full = payload ∨ ∃ session, payload = .stream (some (.executor session)))
    (hprotect : security.protectStream request context payload = .ok full) :
    Accepted context.principal request (events ++ later) full := by
  rcases hfull with rfl | ⟨session, rfl⟩
  · cases hperformed with
    | returned hreturned => exact accepted_of_returned hreturned hrests
    | listed list hlist htasks =>
      refine ⟨list, hlist, ?_⟩
      intro task hmem
      obtain ⟨id, stored, hshown, htask⟩ := htasks task hmem
      exact ⟨asked, hprincipal, id, stored, hshown.trans (prefix_append events later).isInfix, htask⟩
  · unfold DispatchSecurity.protectStream at hprotect
    split at hprotect
    · cases hprotect
    · cases hprotect
      trivial

/-- An answer is authorized and protected after the executor returned it. -/
theorem respond_emits (hcontext : context.principal = principal) :
    Emits (d.respond executor (some security) rounds request (some principal) context)
      (Event.OkFor principal) (Answered principal request) := by
  subst hcontext
  refine emits_bind d.perform_emits ?_
  rintro ⟨result, after⟩ events hperformed
  refine emits_bind secureResponse_emits ?_
  intro secured later hsecured
  refine emits_bind (Emits.weaken d.runAfterInterceptors_emits
    (fun _ he => he.neutral.1.okFor _) fun _ _ h => h) ?_
  intro _ last _
  refine emits_pure ?_
  rintro _ hok
  cases secured with
  | error error => nomatch hok
  | ok full =>
    cases hok
    obtain ⟨payload, hresult, hrests, hprotect⟩ := hsecured full rfl
    have hfrom := hperformed payload hresult
    obtain ⟨hprotected, hfull⟩ := protectStream_ok hfrom hprotect
    refine ⟨full, rfl, ?_, hprotected⟩
    have haccepted := accepted_of_performed
      (restorePrincipal_some after context.principal).symm hfrom hrests hfull hprotect
    have hextended := haccepted.extend [] last
    simpa only [nil_append, append_assoc, append_nil, restorePrincipal_some] using hextended

theorem proceed_emits (hcontext : context.principal = principal) :
    Emits (d.proceed executor (some security) interceptors rounds request (some principal) context)
      (Event.OkFor principal) (Answered principal request) := by
  refine emits_bind (Emits.weaken (runBeforeInterceptors_emits hcontext)
    (fun _ he => he.okFor _) fun _ _ h => h) ?_
  rintro ⟨before, after⟩ events hafter
  cases before with
  | error error =>
    refine Emits.weaken d.refuse_emits (fun _ he => he.neutral.1.okFor _) ?_
    rintro answer later hanswer payload hok
    cases hanswer.symm.trans hok
  | ok _ =>
    exact Emits.weaken (d.respond_emits hafter) (fun _ he => he)
      fun _ _ hanswer => hanswer.prepend events

/-- What a run of a secured dispatcher leaves behind. -/
def Secured (request : DispatchRequest) (answer : InContext (DispatchPayload σ))
    (events : List (Event σ)) : Prop :=
  Mediated events ∧ ∀ payload, answer.1 = .ok payload →
    ∃ principal, authenticatedAs events = [.ok principal] ∧ Answered principal request answer events

/-- The whole dispatch: authorization, then the hooks and the executor for that principal. -/
theorem dispatchLocked_spec :
    Spec (d.dispatchLocked executor (some security) interceptors rounds request context) Mediated (Secured request) := by
  refine spec_bind (security.authorize_spec request context) (fun _ h => h) ?_
  rintro ⟨authorized, after⟩ events htrace
  cases authorized with
  | error error =>
    have hquiet : ∀ later : List (Event σ), (∀ e ∈ later, e.IsAfterDispatch) → Mediated (events ++ later) :=
      fun later hlater => htrace.mediated.append_neutral fun e he => (hlater e he).neutral.1
    refine Spec.weaken d.refuse_emits hquiet ?_
    rintro answer later ⟨hlater, hanswer⟩
    refine ⟨hquiet later hlater, ?_⟩
    intro payload hok
    cases hanswer.symm.trans hok
  | ok _ =>
    have hprincipal := htrace.principal rfl
    refine Spec.weaken (d.proceed_emits rfl) (fun later hlater => htrace.mediated.append hprincipal hlater) ?_
    rintro answer later ⟨hlater, hanswer⟩
    refine ⟨htrace.mediated.append hprincipal hlater, ?_⟩
    intro payload hok
    refine ⟨after.principal, ?_, hanswer.prepend events⟩
    rw [authenticatedAs_append fun e he => (hlater e he).1]
    exact hprincipal

variable {s : σ}

theorem run_dispatch (hexecutor : d.executor = some executor) :
    run (d.dispatch rounds request context) s =
      run (d.dispatchLocked executor (d.security s) (d.interceptors s) rounds request context) s := by
  unfold dispatch
  rw [hexecutor]
  simp only [run_observe_bind]

theorem run_dispatch_unconfigured (hexecutor : d.executor = none) :
    run (d.dispatch rounds request context) s =
      ⟨some (.error (.internal "Server dispatcher executor is not configured"), context), s, []⟩ := by
  unfold dispatch
  rw [hexecutor]
  rfl

/-- A refused request reaches no hook, no executor and no card provider. -/
theorem dispatchLocked_refused {after : RequestContext} {error : Error}
    (h : (run (security.authorize request context) s).value = some (.error error, after)) :
    ∀ e ∈ (run (d.dispatchLocked executor (some security) interceptors rounds request context) s).events,
      ¬ e.Entered := by
  have htrace := (security.authorize_spec request context s).1 _ h
  unfold dispatchLocked
  rw [run_bind_some (p := authorizeRequest (some security) request context) h]
  intro e he
  rcases mem_append.mp he with he | he
  · exact htrace.notEntered e he
  · exact (Spec.events d.refuse_emits (fun _ _ h => h.1) _ e he).neutral.2

end Dispatcher

/-- The reads of a protected stream decide for the principal of its context. -/
theorem AuthorizedStream.readAll_decides (stream : AuthorizedStream σ) (calls : List (σ × Option Int64)) :
    ∀ read ∈ stream.readAll calls, ∀ e ∈ read.events, ∀ asked, e.decidesFor = some asked →
      asked = stream.context.principal := by
  intro read hmem e he asked hasked
  obtain ⟨earlier, later, hsplit⟩ := append_of_mem hmem
  obtain ⟨after, hvalue, hevents⟩ := stream.readAll_did calls earlier read later hsplit
  rw [← hevents] at he
  have hwithin := ((AuthorizedStream.read_emits _ read.timeout read.start).1 _ hvalue).1 e he
  exact hwithin.okFor.2 asked hasked

namespace Dispatcher

/-- Complete mediation, for every dispatcher with a security object, every request, every list of
hooks and every executor, whatever they do to the context and to the world. -/
theorem secured_dispatch_is_mediated (d : Dispatcher σ) (security : DispatchSecurity σ) (rounds : Nat)
    (request : DispatchRequest) (context : RequestContext) (s : σ) (hsecurity : d.security s = some security) :
    (∀ error after, (run (security.authorize request context) s).value = some (.error error, after) →
        ∀ e ∈ (run (d.dispatch rounds request context) s).events, ¬ e.Entered) ∧
    Mediated (run (d.dispatch rounds request context) s).events ∧
    ∀ payload after, (run (d.dispatch rounds request context) s).value = some (.ok payload, after) → ∃ principal,
          authenticatedAs (run (d.dispatch rounds request context) s).events = [.ok principal] ∧
          (∃ full, projectTaskResponse request full = payload ∧
            Accepted principal request (run (d.dispatch rounds request context) s).events full) ∧
          ∀ session, payload = .stream (some session) → ∃ stream : AuthorizedStream σ, session = .authorized stream ∧
              ∀ id calls, ∀ read ∈ ({ stream with taskId := id } : AuthorizedStream σ).readAll calls,
                ∀ e ∈ read.events, ∀ asked, e.decidesFor = some asked → asked = principal := by
  cases hexecutor : d.executor with
  | none =>
    rw [d.run_dispatch_unconfigured hexecutor]
    refine ⟨fun _ _ _ e he => absurd he List.not_mem_nil, eachEvent_nil _, ?_⟩
    intro payload after hvalue
    cases hvalue
  | some executor =>
    rw [d.run_dispatch hexecutor, hsecurity]
    have hspec : Spec (d.dispatchLocked executor (some security) (d.interceptors s) rounds request context) Mediated
        (Secured request) := d.dispatchLocked_spec
    refine ⟨fun error after h => d.dispatchLocked_refused h, hspec.events (fun _ _ h => h.1) s, ?_⟩
    intro payload after hvalue
    obtain ⟨principal, hprincipal, hanswered⟩ := ((hspec s).1 _ hvalue).2 payload rfl
    obtain ⟨full, hproject, haccepted, hprotected⟩ := hanswered payload rfl
    refine ⟨principal, hprincipal, ⟨full, hproject, haccepted⟩, ?_⟩
    rintro session rfl
    -- The projection leaves streams alone, so the session is the protected one.
    have hfull : full = .stream (some session) := by
      unfold projectTaskResponse at hproject
      split at hproject
      · cases hproject
      · cases hproject
      · exact hproject
    obtain ⟨stream, hstream, hcontext⟩ := hprotected session hfull
    refine ⟨stream, hstream, ?_⟩
    intro id calls read hmem e he asked hasked
    rw [← hcontext]
    exact AuthorizedStream.readAll_decides _ calls read hmem e he asked hasked

end Dispatcher

/-! ### A hook that overwrites the principal -/

namespace Runs

/-- A refusal of everything a run does not need. -/
def refused {ρ α : Type} : Method Unit ρ α :=
  fun _ context s => ((.error ProtocolErrors.unsupportedOperation, context), s)

/-- An executor that knows one task, with two messages in its history. -/
def executor : AgentExecutor Unit where
  sendMessage := refused
  sendStreamingMessage := refused
  getTask := fun request context s =>
    ((.ok { id := request.id, contextId := "alice", history := [{}, {}] }, context), s)
  subscribeTask := refused
  listTasks := refused
  cancelTask := refused
  createTaskPushNotificationConfig := refused
  getTaskPushNotificationConfig := refused
  listTaskPushNotificationConfigs := refused
  deleteTaskPushNotificationConfig := refused

/-- A policy under which a principal sees the tasks of its own context. -/
def policy : SecurityPolicy Unit where
  authenticate := fun _ s => (.ok "alice", s)
  authorizeOperation := fun _ context s => (!context.principal.isEmpty, s)
  canAccessTask := fun task context s => (task.contextId == context.principal, s)
  scopeTaskList := fun query _ s => (some query, s)

/-- A store in which every task is `alice`'s. -/
def store : TaskStore Unit where
  get := fun id s => (.ok { id, contextId := "alice" }, s)
  list := fun _ s => (.ok {}, s)

/-- A hook that signs the request over to somebody else. -/
def overwriting : ServerInterceptor Unit where
  beforeDispatch := fun _ context s => ((.ok (), { context with principal := "mallory" }), s)
  afterDispatch := fun _ context _ s => (context, s)

/-- A secured dispatcher with that hook, and one that is not set. -/
def dispatcher : Dispatcher Unit where
  executor := some executor
  agentCardProvider := none
  security := fun _ => some ⟨some policy, some store⟩
  interceptors := fun _ => [some overwriting, none]

/-- A request for the last message only. -/
def getOne : DispatchRequest :=
  { operation := .getTask, payload := .getTask { id := "t", historyLength := some 1 } }

end Runs

open Runs in
theorem dispatch_survives_overwriting_hook :
    (∃ task after, (run (dispatcher.dispatch 1 getOne {}) ()).value = some (.ok (.task task), after) ∧
      task.history.length = 1) ∧
    Mediated (run (dispatcher.dispatch 1 getOne {}) ()).events ∧
    authenticatedAs (run (dispatcher.dispatch 1 getOne {}) ()).events = [.ok (bytes "alice")] :=
  ⟨⟨_, _, rfl, rfl⟩, (Dispatcher.secured_dispatch_is_mediated dispatcher _ 1 getOne {} () rfl).2.1, rfl⟩

end A2A.Server.Dispatch
