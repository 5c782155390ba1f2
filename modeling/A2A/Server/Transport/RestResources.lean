/-
# What a request below `/tasks` is executed on.
-/
import A2A.Server.Transport.RestBasePath
import A2A.Server.Transport.RestQueries

namespace A2A.Server.Transport

open A2A.Foundation A2A.Core A2A.Server.Dispatch RestEndpointPaths List

/-! ## Addresses -/

structure Address where
  operation : DispatcherOperation
  taskId : Bytes := []
  configId : Bytes := []
  deriving DecidableEq

/-- The address of a request to the dispatcher. -/
def addressOf (dispatch : DispatchRequest) : Address :=
  match dispatch.payload with
  | .getTask request => { operation := dispatch.operation, taskId := request.id }
  | .cancelTask request => { operation := dispatch.operation, taskId := request.id }
  | .createPushConfig request => { operation := dispatch.operation, taskId := request.taskId, configId := request.id }
  | .getPushConfig request => { operation := dispatch.operation, taskId := request.taskId, configId := request.id }
  | .listPushConfigs request => { operation := dispatch.operation, taskId := request.taskId }
  | .deletePushConfig request => { operation := dispatch.operation, taskId := request.taskId, configId := request.id }
  | .sendMessage _ | .listTasks _ | .getExtendedAgentCard _ => { operation := dispatch.operation }

def pageTokenOf (dispatch : DispatchRequest) : Bytes :=
  match dispatch.payload with
  | .listTasks request => request.pageToken
  | .listPushConfigs request => request.pageToken
  | _ => []

namespace Address

variable (address : Address)

/-- The path of an operation; a slash is written 47. -/
def path : Bytes :=
  match address.operation with
  | .listTasks => kTaskCollection
  | .getTask => kTaskResourcePrefix ++ address.taskId
  | .subscribeTask => kTaskResourcePrefix ++ (address.taskId ++ kTaskSubscribeSuffix)
  | .cancelTask => kTaskResourcePrefix ++ (address.taskId ++ kTaskCancelSuffix)
  | .createTaskPushNotificationConfig | .listTaskPushNotificationConfigs =>
    kTaskResourcePrefix ++ (address.taskId ++ kPushNotificationConfigsSegment)
  | .getTaskPushNotificationConfig | .deleteTaskPushNotificationConfig =>
    kTaskResourcePrefix ++ (address.taskId ++ (kPushNotificationConfigsSegment ++ 47 :: address.configId))
  | .sendMessage => kSendMessage
  | .sendStreamingMessage => kSendStreamingMessage
  | .getExtendedAgentCard => kExtendedAgentCardPath

/-- The method of an operation; a subscription may also be asked for with `POST`. -/
def method : Bytes :=
  match address.operation with
  | .cancelTask | .createTaskPushNotificationConfig | .sendMessage | .sendStreamingMessage => kMethodPost
  | .deleteTaskPushNotificationConfig => kMethodDelete
  | _ => kMethodGet

/-- The ids cannot be mistaken in the path; 63 is a question mark. -/
def Plain : Prop :=
  match address.operation with
  | .getTask => 63 ∉ address.taskId ∧ 47 ∉ address.taskId ∧ ¬ kTaskSubscribeSuffix <:+ address.taskId ∧
      address.taskId ≠ bytes "extendedAgentCard"
  | .subscribeTask | .listTaskPushNotificationConfigs => 63 ∉ address.taskId ∧ 47 ∉ address.taskId
  | .cancelTask | .createTaskPushNotificationConfig => 63 ∉ address.taskId
  | .getTaskPushNotificationConfig | .deleteTaskPushNotificationConfig => 63 ∉ address.taskId ∧ 63 ∉ address.configId
  | .listTasks | .sendMessage | .sendStreamingMessage | .getExtendedAgentCard => True

/-- What the router makes sure of before it executes an operation below `/tasks/`. -/
def Routed : Prop :=
  match address.operation with
  | .getTask => 47 ∉ address.taskId ∧ ¬ kTaskSubscribeSuffix <:+ address.taskId ∧ address.configId = []
  | .subscribeTask | .cancelTask | .listTaskPushNotificationConfigs => 47 ∉ address.taskId ∧ address.configId = []
  | .createTaskPushNotificationConfig => 47 ∉ address.taskId
  | .getTaskPushNotificationConfig | .deleteTaskPushNotificationConfig => 47 ∉ address.taskId ∧ 47 ∉ address.configId
  | .listTasks | .sendMessage | .sendStreamingMessage | .getExtendedAgentCard => False

/-- The id of a configuration stands in the path, or else in the body of the request. -/
def ConfigIn (bodies : RequestBodies) (body : Bytes) : Prop :=
  match address.operation with
  | .createTaskPushNotificationConfig => ∀ config, bodies.pushConfig body = .ok config → config.id = address.configId
  | .getTaskPushNotificationConfig | .deleteTaskPushNotificationConfig => True
  | .getTask | .subscribeTask | .cancelTask | .listTaskPushNotificationConfigs => address.configId = []
  | .listTasks | .sendMessage | .sendStreamingMessage | .getExtendedAgentCard => False

end Address

/-! ## Paths -/

section Paths

variable {taskId id taskId' id' : Bytes}

theorem mem_configs (taskId : Bytes) : 47 ∈ taskId ++ kPushNotificationConfigsSegment :=
  mem_append_right _ (by decide)

theorem configs_ne_subscribe (taskId id : Bytes) :
    taskId ++ kPushNotificationConfigsSegment ≠ id ++ kTaskSubscribeSuffix := by
  apply append_ne_of_getLast (by decide)
  rw [List.getLast?_append_of_ne_nil id (by decide)]
  decide

theorem configs_ne_cancel (taskId id : Bytes) :
    taskId ++ kPushNotificationConfigsSegment ≠ id ++ kTaskCancelSuffix := by
  apply append_ne_of_getLast (by decide)
  rw [List.getLast?_append_of_ne_nil id (by decide)]
  decide

/-- The path of a configuration has one slash more than the path of the collection. -/
theorem config_ne_configs (h : 47 ∉ taskId') :
    taskId ++ (kPushNotificationConfigsSegment ++ 47 :: id) ≠ taskId' ++ kPushNotificationConfigsSegment := by
  intro heq
  have hcount := congrArg (List.count 47) heq
  have hsegment : kPushNotificationConfigsSegment.count 47 = 1 := by decide
  rw [count_append, count_append, count_append, count_cons_self, hsegment,
    count_eq_zero.mpr h] at hcount
  omega

theorem config_inj (htask : 47 ∉ taskId') (hid : 47 ∉ id')
    (h : taskId ++ (kPushNotificationConfigsSegment ++ 47 :: id) =
      taskId' ++ (kPushNotificationConfigsSegment ++ 47 :: id')) : taskId = taskId' ∧ id = id' := by
  have hcount := congrArg (List.count 47) h
  rw [count_append, count_append, count_append, count_append, count_cons_self,
    count_cons_self, count_eq_zero.mpr htask, count_eq_zero.mpr hid] at hcount
  have htask' : 47 ∉ taskId := count_eq_zero.mp (by omega)
  have hbreak := congrArg (breakOn kPushNotificationConfigsSegment) h
  have hleft : breakOn kPushNotificationConfigsSegment (taskId ++ (kPushNotificationConfigsSegment ++ 47 :: id)) =
      some (taskId, 47 :: id) := breakOn_of_notMem htask' _
  have hright : breakOn kPushNotificationConfigsSegment (taskId' ++ (kPushNotificationConfigsSegment ++ 47 :: id')) =
      some (taskId', 47 :: id') := breakOn_of_notMem htask _
  rw [hleft, hright] at hbreak
  obtain ⟨htasks, hids⟩ := Prod.mk.inj (Option.some.inj hbreak)
  exact ⟨htasks, (List.cons.inj hids).2⟩

end Paths

variable {b : UInt8} {id : Bytes} {address : Address}

theorem notMem_config {taskId : Bytes} (hsegment : b ∉ kPushNotificationConfigsSegment) (hb : b ≠ 47)
    (h : b ∉ taskId ∧ b ∉ id) : b ∉ taskId ++ (kPushNotificationConfigsSegment ++ 47 :: id) := by
  simp only [mem_append, mem_cons, not_or]
  exact ⟨h.1, hsegment, hb, h.2⟩

theorem notMem_append {action : Bytes} (haction : b ∉ action) (h : b ∉ id) : b ∉ id ++ action := by
  rw [mem_append, not_or]
  exact ⟨h, haction⟩

/-- The path of a plain address has no query. -/
theorem Address.Plain.notMem_path (h : address.Plain) : 63 ∉ address.path := by
  have hlead : 63 ∉ kTaskResourcePrefix := by decide
  have hsegment : 63 ∉ kPushNotificationConfigsSegment := by decide
  obtain ⟨operation, taskId, configId⟩ := address
  cases operation with
  | getTask => exact notMem_append h.1 hlead
  | subscribeTask => exact notMem_append (notMem_append (by decide) h.1) hlead
  | cancelTask => exact notMem_append (notMem_append (by decide) h) hlead
  | createTaskPushNotificationConfig => exact notMem_append (notMem_append hsegment h) hlead
  | listTaskPushNotificationConfigs => exact notMem_append (notMem_append hsegment h.1) hlead
  | getTaskPushNotificationConfig | deleteTaskPushNotificationConfig =>
    exact notMem_append (notMem_config hsegment (by decide) h) hlead
  | listTasks => exact (show 63 ∉ kTaskCollection by decide)
  | sendMessage => exact (show 63 ∉ kSendMessage by decide)
  | sendStreamingMessage => exact (show 63 ∉ kSendStreamingMessage by decide)
  | getExtendedAgentCard => exact (show 63 ∉ kExtendedAgentCardPath by decide)

/-- No plain address has the path of the agent card. -/
theorem Address.Plain.path_ne_card (h : address.Plain) : address.path ≠ kTenantTasksCardPath := by
  have hslash {rest : Bytes} (hrest : 47 ∈ rest) : kTaskResourcePrefix ++ rest ≠ kTenantTasksCardPath := by
    intro heq
    rw [show kTenantTasksCardPath = kTaskResourcePrefix ++ bytes "extendedAgentCard" from rfl] at heq
    rw [append_cancel_left heq] at hrest
    exact absurd hrest (by decide)
  have hlast (action : Bytes) (hne : action ≠ []) (h : action.getLast? ≠ kTenantTasksCardPath.getLast?) :
      kTaskResourcePrefix ++ (address.taskId ++ action) ≠ kTenantTasksCardPath :=
    append_assoc .. ▸ append_ne_of_getLast hne h
  obtain ⟨operation, taskId, configId⟩ := address
  cases operation with
  | getTask => exact fun heq => h.2.2.2 (append_cancel_left heq)
  | subscribeTask => exact hlast kTaskSubscribeSuffix (by decide) (by decide)
  | cancelTask => exact hlast kTaskCancelSuffix (by decide) (by decide)
  | createTaskPushNotificationConfig | listTaskPushNotificationConfigs => exact hslash (mem_configs taskId)
  | getTaskPushNotificationConfig | deleteTaskPushNotificationConfig =>
    exact hslash (mem_segment taskId (47 :: configId))
  | listTasks => exact (show kTaskCollection ≠ kTenantTasksCardPath by decide)
  | sendMessage => exact (show kSendMessage ≠ kTenantTasksCardPath by decide)
  | sendStreamingMessage => exact (show kSendStreamingMessage ≠ kTenantTasksCardPath by decide)
  | getExtendedAgentCard => exact (show kExtendedAgentCardPath ≠ kTenantTasksCardPath by decide)

/-! ## Executed requests -/

section Executed

variable {bodies : RequestBodies} {request : RestRequest} {dispatch : DispatchRequest}

theorem id_of_applyHistoryLengthQuery {payload payload' : GetTaskRequest}
    (h : applyHistoryLengthQuery request payload = some payload') : payload'.id = payload.id := by
  unfold applyHistoryLengthQuery at h
  cases hraw : lookupQuery request "historyLength" with
  | none =>
    rw [hraw] at h
    exact congrArg GetTaskRequest.id (Option.some.inj h).symm
  | some raw =>
    rw [hraw] at h
    dsimp only at h
    split_ifs at h
    rw [← Option.some.inj h]

theorem method_ne :
    kMethodGet ≠ kMethodPost ∧ kMethodGet ≠ kMethodDelete ∧ kMethodPost ≠ kMethodDelete := by decide

variable {taskId id rest : Bytes}

/-- The dispatched request has the address of the HTTP request. -/
theorem Executes.routed (h : Executes bodies request dispatch) :
    request.path = (addressOf dispatch).path ∧ (addressOf dispatch).Routed ∧
      (request.method = (addressOf dispatch).method ∨
        (addressOf dispatch).operation = .subscribeTask ∧ request.method = kMethodPost) ∧
      ((addressOf dispatch).operation = .createTaskPushNotificationConfig →
        ∃ config, bodies.pushConfig request.body = .ok config ∧ config.id = (addressOf dispatch).configId) := by
  cases h with
  | @subscribe id payload hmethod hsegment hpath hpayload =>
    obtain rfl : payload.id = id := id_of_applyHistoryLengthQuery hpayload
    exact ⟨hpath, ⟨hsegment.2, rfl⟩, hmethod.imp_right fun hpost => ⟨rfl, hpost⟩, nofun⟩
  | create hmethod hsegment hpath _ hbody => exact ⟨hpath, hsegment.2, .inl hmethod, fun _ => ⟨_, hbody, rfl⟩⟩
  | list hmethod hsegment hpath | cancel hmethod hsegment hpath =>
    exact ⟨hpath, ⟨hsegment.2, rfl⟩, .inl hmethod, nofun⟩
  | get hmethod hsegment hid hpath | delete hmethod hsegment hid hpath =>
    exact ⟨hpath, ⟨hsegment.2, hid.2⟩, .inl hmethod, nofun⟩
  | @task id payload hmethod hsegment _ hsubscribe hpath hpayload =>
    obtain rfl : payload.id = id := id_of_applyHistoryLengthQuery hpayload
    exact ⟨hpath, ⟨hsegment.2, hsubscribe, rfl⟩, .inl hmethod, nofun⟩

/-- The body of an executed `POST` may be JSON, except for a subscription. -/
theorem Executes.hasJsonContent_of_post (h : Executes bodies request dispatch) (hmethod : request.method = kMethodPost)
    (hoperation : (addressOf dispatch).operation ≠ .subscribeTask) : hasJsonContent request.headers = true := by
  cases h with
  | subscribe => exact absurd rfl hoperation
  | create _ _ _ hjson | cancel _ _ _ hjson => exact hjson
  | list hget | get hget | task hget => exact absurd (hget.symm.trans hmethod) method_ne.1
  | delete hdelete => exact absurd (hmethod.symm.trans hdelete) method_ne.2.2

end Executed

/-! ## One address per operation

The path of a request ends at the first question mark. So if an id contains one, what is left is not the path that was
meant: `cut` is the path below `/tasks/`, and it is the whole path of the address if there is no question mark in it. -/

section Addresses

variable {bodies : RequestBodies} {request : RestRequest} {dispatch : DispatchRequest} {taskId id cut : Bytes}
  {a b : Address}

theorem notMem_of_config {b : UInt8} (h : b ∉ taskId ++ (kPushNotificationConfigsSegment ++ 47 :: id)) :
    b ∉ taskId ∧ b ∉ id := by
  simp only [mem_append, mem_cons, not_or] at h
  exact ⟨h.1, h.2.2.2⟩

theorem config_ne_subscribe (h : 47 ∉ id) (taskId configId : Bytes) :
    taskId ++ (kPushNotificationConfigsSegment ++ 47 :: configId) ≠ id ++ kTaskSubscribeSuffix := by
  intro heq
  rcases mem_append.mp (heq ▸ mem_segment taskId (47 :: configId)) with hid | hsuffix
  · exact h hid
  · exact absurd hsuffix (by decide)

theorem Address.Routed.plain (h : a.Routed) (hpath : a.path = kTaskResourcePrefix ++ cut) (hcut : 63 ∉ cut)
    (hcard : cut ≠ bytes "extendedAgentCard") : a.Plain := by
  obtain ⟨operation, taskId, configId⟩ := a
  cases operation with
  | getTask =>
    obtain rfl : taskId = cut := append_cancel_left hpath
    exact ⟨hcut, h.1, h.2.1, hcard⟩
  | subscribeTask =>
    obtain rfl : taskId ++ kTaskSubscribeSuffix = cut := append_cancel_left hpath
    exact ⟨fun hquery => hcut (mem_append_left _ hquery), h.1⟩
  | cancelTask =>
    obtain rfl : taskId ++ kTaskCancelSuffix = cut := append_cancel_left hpath
    exact fun hquery => hcut (mem_append_left _ hquery)
  | createTaskPushNotificationConfig =>
    obtain rfl : taskId ++ kPushNotificationConfigsSegment = cut := append_cancel_left hpath
    exact fun hquery => hcut (mem_append_left _ hquery)
  | listTaskPushNotificationConfigs =>
    obtain rfl : taskId ++ kPushNotificationConfigsSegment = cut := append_cancel_left hpath
    exact ⟨fun hquery => hcut (mem_append_left _ hquery), h.1⟩
  | getTaskPushNotificationConfig | deleteTaskPushNotificationConfig =>
    exact notMem_of_config (append_cancel_left hpath ▸ hcut)
  | _ => exact h.elim

/-- The method and the path determine a plain address. -/
theorem Address.Routed.eq_of_path {body : Bytes} (ha : a.Routed) (hb : b.Plain) (hin : b.ConfigIn bodies body)
    (hmethod : b.method = a.method ∨ a.operation = .subscribeTask ∧ b.method = kMethodPost)
    (hbody : a.operation = .createTaskPushNotificationConfig →
      ∃ config, bodies.pushConfig body = .ok config ∧ config.id = a.configId)
    (hpath : a.path = b.path) : a = b := by
  obtain ⟨operation, taskId, configId⟩ := a
  obtain ⟨operation', taskId', configId'⟩ := b
  have hmethods := method_ne
  have hsame {rest rest' : Bytes} (h : kTaskResourcePrefix ++ rest = kTaskResourcePrefix ++ rest') : rest = rest' :=
    append_cancel_left h
  have heq {operation : DispatcherOperation} (htask : taskId = taskId') (hconfig : configId = configId') :
      (⟨operation, taskId, configId⟩ : Address) = ⟨operation, taskId', configId'⟩ := by rw [htask, hconfig]
  cases operation with
  | getTask =>
    cases operation' with
    | getTask => exact heq (hsame hpath) (ha.2.2.trans (Eq.symm hin))
    | subscribeTask => exact absurd ⟨taskId', (hsame hpath).symm⟩ ha.2.1
    | listTaskPushNotificationConfigs => exact absurd (hsame hpath ▸ mem_configs taskId') ha.1
    | getTaskPushNotificationConfig => exact absurd (hsame hpath ▸ mem_segment taskId' (47 :: configId')) ha.1
    | _ => first | exact hin.elim | grind [Address.method]
  | subscribeTask =>
    cases operation' with
    | getTask => exact absurd ⟨taskId, hsame hpath⟩ hb.2.2.1
    | subscribeTask => exact heq (append_cancel_right (hsame hpath)) (ha.2.trans (Eq.symm hin))
    | cancelTask => exact absurd (hsame hpath).symm (cancel_ne_subscribe taskId' taskId)
    | createTaskPushNotificationConfig | listTaskPushNotificationConfigs =>
      exact absurd (hsame hpath).symm (configs_ne_subscribe taskId' taskId)
    | getTaskPushNotificationConfig => exact absurd (hsame hpath).symm (config_ne_subscribe ha.1 taskId' configId')
    | _ => first | exact hin.elim | grind [Address.method]
  | cancelTask =>
    cases operation' with
    | cancelTask => exact heq (append_cancel_right (hsame hpath)) (ha.2.trans (Eq.symm hin))
    | createTaskPushNotificationConfig => exact absurd (hsame hpath).symm (configs_ne_cancel taskId' taskId)
    | _ => first | exact hin.elim | grind [Address.method]
  | createTaskPushNotificationConfig =>
    cases operation' with
    | cancelTask => exact absurd (hsame hpath) (configs_ne_cancel taskId taskId')
    | createTaskPushNotificationConfig =>
      obtain ⟨config, hread, hid⟩ := hbody rfl
      exact heq (append_cancel_right (hsame hpath)) (hid.symm.trans (hin config hread))
    | _ => first | exact hin.elim | grind [Address.method]
  | listTaskPushNotificationConfigs =>
    cases operation' with
    | getTask => exact absurd (hsame hpath ▸ mem_configs taskId) hb.2.1
    | subscribeTask => exact absurd (hsame hpath) (configs_ne_subscribe taskId taskId')
    | listTaskPushNotificationConfigs => exact heq (append_cancel_right (hsame hpath)) (ha.2.trans (Eq.symm hin))
    | getTaskPushNotificationConfig => exact absurd (hsame hpath).symm (config_ne_configs ha.1)
    | _ => first | exact hin.elim | grind [Address.method]
  | getTaskPushNotificationConfig =>
    cases operation' with
    | getTask => exact absurd (hsame hpath ▸ mem_segment taskId (47 :: configId)) hb.2.1
    | subscribeTask => exact absurd (hsame hpath) (config_ne_subscribe hb.2 taskId configId)
    | listTaskPushNotificationConfigs => exact absurd (hsame hpath) (config_ne_configs hb.2)
    | getTaskPushNotificationConfig =>
      obtain ⟨rfl, rfl⟩ := config_inj ha.1 ha.2 (hsame hpath).symm
      rfl
    | _ => first | exact hin.elim | grind [Address.method]
  | deleteTaskPushNotificationConfig =>
    cases operation' with
    | deleteTaskPushNotificationConfig =>
      obtain ⟨rfl, rfl⟩ := config_inj ha.1 ha.2 (hsame hpath).symm
      rfl
    | _ => first | exact hin.elim | grind [Address.method]
  | _ => exact ha.elim

/-- A request is executed for the address meant exactly if that is plain. -/
theorem Executes.address_eq_iff (h : Executes bodies request dispatch) (hmethod : request.method = b.method)
    (hpath : request.path = kTaskResourcePrefix ++ cut) (hcut : 63 ∉ cut) (hcard : cut ≠ bytes "extendedAgentCard")
    (hwhole : 63 ∉ b.path → request.path = b.path) (hin : b.ConfigIn bodies request.body) :
    addressOf dispatch = b ↔ b.Plain := by
  obtain ⟨hexecuted, hrouted, hroute, hbody⟩ := h.routed
  constructor
  · rintro rfl
    exact hrouted.plain (hexecuted.symm.trans hpath) hcut hcard
  · intro hplain
    rw [hmethod] at hroute
    exact hrouted.eq_of_path hplain hin hroute hbody (hexecuted.symm.trans (hwhole hplain.notMem_path))

end Addresses

/-! ## Answered requests -/

/-- The last history length of a query, if there is one, is a number. -/
def HistoryReadable (query : Bytes) : Prop :=
  ∀ value, LastAssigned (splitOn [38] query) (bytes "historyLength") value → ReadsAsInt value

/-- The last page size of a query, if any, is a number in its range. -/
def PageSizeReadable (query : Bytes) : Prop :=
  ∀ value, LastAssigned (splitOn [38] query) (bytes "pageSize") value → ReadsAsInt value ∧
    1 ≤ decimalValue value % sizeValues ∧ decimalValue value % sizeValues ≤ Tasks.kMaxListTasksPageSize

/-- The paths and queries for which the router has an operation. -/
inductive HasRoute (bodies : RequestBodies) (request : HttpServerRequest) : Bytes → Bytes → Prop
  | listTasks {query : Bytes} :
      request.method = kMethodGet → PageSizeReadable query → HistoryReadable query →
      HasRoute bodies request kTaskCollection query
  | subscribe {id query : Bytes} :
      request.method = kMethodGet ∨ request.method = kMethodPost → Segment id → HistoryReadable query →
      HasRoute bodies request (kTaskResourcePrefix ++ (id ++ kTaskSubscribeSuffix)) query
  | create {taskId query : Bytes} {config : TaskPushNotificationConfig} :
      request.method = kMethodPost → Segment taskId → hasJsonContent request.headers = true →
      bodies.pushConfig request.body = .ok config →
      HasRoute bodies request (kTaskResourcePrefix ++ (taskId ++ kPushNotificationConfigsSegment)) query
  | list {taskId query : Bytes} :
      request.method = kMethodGet → Segment taskId →
      HasRoute bodies request (kTaskResourcePrefix ++ (taskId ++ kPushNotificationConfigsSegment)) query
  | item {taskId id query : Bytes} :
      request.method = kMethodGet ∨ request.method = kMethodDelete → Segment taskId → Segment id →
      HasRoute bodies request (kTaskResourcePrefix ++ (taskId ++ (kPushNotificationConfigsSegment ++ 47 :: id))) query
  | task {id query : Bytes} :
      request.method = kMethodGet → Segment id → ¬ kTaskCancelSuffix <:+ id → ¬ kTaskSubscribeSuffix <:+ id →
      HistoryReadable query → HasRoute bodies request (kTaskResourcePrefix ++ id) query
  | cancel {id query : Bytes} :
      request.method = kMethodPost → Segment id → hasJsonContent request.headers = true →
      HasRoute bodies request (kTaskResourcePrefix ++ (id ++ kTaskCancelSuffix)) query

/-- The requests below `/tasks` that are dispatched: for the card of a tenant named `tasks`, and those with an
operation. -/
def Answered (bodies : RequestBodies) (request : HttpServerRequest) (path query : Bytes) : Prop :=
  (path = kTenantTasksCardPath ∧ request.method = kMethodGet) ∨
    (path ≠ kTenantTasksCardPath ∧ WellEscaped query ∧ HasRoute bodies request path query)

section Answers

variable {bodies : RequestBodies} {request : HttpServerRequest} {path query : Bytes} {params : QueryParams}

section

variable (hparams : parseQueryString query = .ok params)

include hparams

theorem lookupQuery_routed (path name value : Bytes) :
    lookupQuery (request.routed path params) name = some value ↔ LastAssigned (splitOn [38] query) name value :=
  lookup_parseQueryString hparams name value

/-- What is said of the value assigned last is said of the value that is found. -/
theorem forall_lastAssigned_iff (path name : Bytes) (P : Bytes → Prop) :
    (∀ value, LastAssigned (splitOn [38] query) name value → P value) ↔
      ∀ value, lookupQuery (request.routed path params) name = some value → P value :=
  forall_congr' fun value => by rw [lookupQuery_routed hparams]

theorem historyReadable_iff (path : Bytes) :
    HistoryReadable query ↔
      ∀ raw, lookupQuery (request.routed path params) (bytes "historyLength") = some raw → 0 ≤ parsePageSize raw := by
  rw [HistoryReadable, forall_lastAssigned_iff hparams path]
  exact forall_congr' fun raw => by rw [parsePageSize_nonneg_iff]

/-- Something is made of the history length exactly if it can be read. -/
theorem exists_historyLength_iff {α : Type} (path : Bytes) (absent : α) (read : Bytes → α) :
    (∃ x, (match lookupQuery (request.routed path params) (bytes "historyLength") with
      | none => some absent
      | some raw => if parsePageSize raw < 0 then none else some (read raw)) = some x) ↔ HistoryReadable query := by
  rw [historyReadable_iff hparams path]
  cases lookupQuery (request.routed path params) (bytes "historyLength") with
  | none => exact iff_of_true ⟨absent, rfl⟩ nofun
  | some raw =>
    dsimp only
    split_ifs with hneg
    · exact iff_of_false nofun fun h => absurd (h raw rfl) (Int.not_le.mpr hneg)
    · refine iff_of_true ⟨_, rfl⟩ fun value hvalue => ?_
      cases hvalue
      exact Int.not_lt.mp hneg

theorem exists_applyHistoryLengthQuery_iff (path : Bytes) (payload : GetTaskRequest) :
    (∃ payload', applyHistoryLengthQuery (request.routed path params) payload = some payload') ↔
      HistoryReadable query :=
  exists_historyLength_iff hparams path payload _

theorem exists_listTasksHistoryLength_iff (path : Bytes) :
    (∃ length, listTasksHistoryLength (request.routed path params) = some length) ↔ HistoryReadable query :=
  exists_historyLength_iff hparams path none _

/-- The page size can be read exactly if the last one given is a number in range. -/
theorem exists_listTasksPageSize_iff (path : Bytes) :
    (∃ size, listTasksPageSize (request.routed path params) = some size) ↔ PageSizeReadable query := by
  rw [PageSizeReadable, forall_lastAssigned_iff hparams path, listTasksPageSize]
  cases lookupQuery (request.routed path params) (bytes "pageSize") with
  | none => exact iff_of_true ⟨_, rfl⟩ (by simp)
  | some raw =>
    dsimp only
    simp only [Option.some.injEq, forall_eq']
    by_cases hreads : ReadsAsInt raw
    · have hsize : (Int64.ofInt (parsePageSize raw)).toInt = (decimalValue raw % sizeValues : Nat) := by
        rw [parsePageSize_eq hreads]
        have := hreads.2
        exact Int64.toInt_ofInt_of_le (by omega) (by omega)
      rw [if_neg (Int.not_lt.mpr (parsePageSize_nonneg_iff.mpr hreads)), normalizeListTasksPageSize_toOption, hsize]
      by_cases hrange : 1 ≤ decimalValue raw % sizeValues ∧ decimalValue raw % sizeValues ≤ Tasks.kMaxListTasksPageSize
      · rw [if_pos (by omega)]
        exact iff_of_true ⟨_, rfl⟩ ⟨hreads, hrange⟩
      · rw [if_neg (by omega)]
        exact iff_of_false (by simp) fun h => hrange h.2
    · rw [parsePageSize_of_not hreads, if_pos (by decide)]
      exact iff_of_false (by simp) fun h => hreads h.1

/-- A request below `/tasks/` is dispatched exactly if it has a route. -/
theorem exists_executes_iff {rest : Bytes} (hpath : path = kTaskResourcePrefix ++ rest) :
    (∃ dispatch, Executes bodies (request.routed path params) dispatch) ↔ HasRoute bodies request path query := by
  have hhistory := @exists_applyHistoryLengthQuery_iff request query params hparams path
  have hto {routed : Bytes} (hroute : path = routed) (h : HasRoute bodies request routed query) :
      HasRoute bodies request path query := hroute ▸ h
  constructor
  · rintro ⟨dispatch, h⟩
    cases h with
    | @subscribe id payload hmethod hsegment hroute hpayload =>
      exact hto hroute (.subscribe hmethod hsegment ((hhistory _).mp ⟨_, hpayload⟩))
    | create hmethod hsegment hroute hjson hbody => exact hto hroute (.create hmethod hsegment hjson hbody)
    | list hmethod hsegment hroute => exact hto hroute (.list hmethod hsegment)
    | get hmethod hsegment hid hroute => exact hto hroute (.item (.inl hmethod) hsegment hid)
    | delete hmethod hsegment hid hroute => exact hto hroute (.item (.inr hmethod) hsegment hid)
    | task hmethod hsegment hcancel hsubscribe hroute hpayload =>
      exact hto hroute (.task hmethod hsegment hcancel hsubscribe ((hhistory _).mp ⟨_, hpayload⟩))
    | cancel hmethod hsegment hroute hjson => exact hto hroute (.cancel hmethod hsegment hjson)
  · intro h
    cases h with
    | listTasks => exact absurd hpath.symm ne_taskCollection
    | @subscribe id _ hmethod hsegment hreadable =>
      obtain ⟨payload, hpayload⟩ := (hhistory { id }).mpr hreadable
      exact ⟨_, .subscribe hmethod hsegment rfl hpayload⟩
    | create hmethod hsegment hjson hbody => exact ⟨_, .create hmethod hsegment rfl hjson hbody⟩
    | list hmethod hsegment => exact ⟨_, .list hmethod hsegment rfl⟩
    | item hmethod hsegment hid =>
      rcases hmethod with hget | hdelete
      · exact ⟨_, .get hget hsegment hid rfl⟩
      · exact ⟨_, .delete hdelete hsegment hid rfl⟩
    | @task id _ hmethod hsegment hcancel hsubscribe hreadable =>
      obtain ⟨payload, hpayload⟩ := (hhistory { id }).mpr hreadable
      exact ⟨_, .task hmethod hsegment hcancel hsubscribe rfl hpayload⟩
    | cancel hmethod hsegment hjson => exact ⟨_, .cancel hmethod hsegment rfl hjson⟩

/-- A `GET` of the collection is answered if its two numbers can be read. -/
theorem exists_listTasks_iff (hmethod : request.method = kMethodGet) :
    (∃ dispatch, buildListTasksDispatchRequest (request.routed kTaskCollection params) = some dispatch) ↔
      HasRoute bodies request kTaskCollection query := by
  have hroute : HasRoute bodies request kTaskCollection query ↔ PageSizeReadable query ∧ HistoryReadable query := by
    constructor
    · intro h
      generalize hpath : kTaskCollection = path at h
      cases h with
      | listTasks _ hsize hhistory => exact ⟨hsize, hhistory⟩
      | _ => exact absurd hpath.symm ne_taskCollection
    · exact fun h => .listTasks hmethod h.1 h.2
  rw [hroute, ← exists_listTasksPageSize_iff hparams kTaskCollection,
    ← exists_listTasksHistoryLength_iff hparams kTaskCollection, buildListTasksDispatchRequest,
    if_neg (by simpa [HttpServerRequest.routed] using hmethod)]
  cases listTasksPageSize (request.routed kTaskCollection params) with
  | none => simp
  | some size =>
    cases listTasksHistoryLength (request.routed kTaskCollection params) with
    | none | some => simp

end

end Answers

section Dispatched

variable {base : BasePath} {options : RestServerTransportOptions} {bodies : RequestBodies}
  {request : HttpServerRequest} {path : Bytes} {query : Option Bytes}

theorem toOption_eq_some_iff {ε α : Type} {x : Except ε α} {a : α} : x.toOption = some a ↔ x = .ok a := by
  cases x with
  | error e => exact iff_of_false nofun nofun
  | ok b => exact ⟨fun h => congrArg Except.ok (Option.some.inj h), fun h => congrArg some (Except.ok.inj h)⟩

/-- The dispatcher is called exactly for the requests that are answered. -/
theorem exists_dispatched_iff (h : Below base options path query request)
    (hcollection : path = kTaskCollection → request.method = kMethodGet) :
    (∃ dispatch, (RestServerTransport.handle options bodies request).dispatched = some dispatch) ↔
      HeadersAccepted options request.headers ∧ Answered bodies request path (query.getD []) := by
  simp only [dispatched_below h, exists_and_left, Answered]
  apply and_congr_right
  intro _
  split_ifs with hcard
  · constructor
    · rintro ⟨dispatch, hmethod, -⟩
      exact .inl ⟨hcard, hmethod⟩
    · rintro (⟨-, hmethod⟩ | ⟨hne, -⟩)
      · exact ⟨_, hmethod, rfl⟩
      · exact absurd hcard hne
  · have hroute {params : QueryParams} (hparams : parseQueryString (query.getD []) = .ok params) :
        (∃ dispatch, RestTransport.dispatchRequest bodies (request.routed path params) = .ok dispatch) ↔
          HasRoute bodies request path (query.getD []) := by
      rcases h.taskPath with hpath | ⟨rest, hpath⟩
      · have hmethod := hcollection hpath
        subst hpath
        rw [← exists_listTasks_iff hparams hmethod, ← dispatchRequest_collection bodies hmethod rfl]
        exact exists_congr fun dispatch => toOption_eq_some_iff.symm
      · rw [← exists_executes_iff hparams hpath]
        exact exists_congr fun dispatch => dispatchRequest_eq_ok_iff hpath
    constructor
    · rintro ⟨dispatch, params, hparams, hdispatch⟩
      exact .inr ⟨hcard, exists_parseQueryString_iff.mp ⟨params, hparams⟩, (hroute hparams).mp ⟨dispatch, hdispatch⟩⟩
    · rintro (⟨hpath, -⟩ | ⟨-, hescaped, hanswered⟩)
      · exact absurd hpath hcard
      · obtain ⟨params, hparams⟩ := exists_parseQueryString_iff.mpr hescaped
        obtain ⟨dispatch, hdispatch⟩ := (hroute hparams).mpr hanswered
        exact ⟨dispatch, params, hparams, hdispatch⟩

end Dispatched

end A2A.Server.Transport
