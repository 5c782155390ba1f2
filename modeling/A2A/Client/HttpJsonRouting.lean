/-
# Where the requests of the HTTP+JSON client arrive.
-/
import A2A.Client.HttpJsonTransport
import A2A.Core.PushConfigJson
import A2A.Server.Transport.HttpAdapter
import A2A.Server.Transport.RestResources

namespace A2A.Client

open A2A.Foundation A2A.Core A2A.Server.Dispatch A2A.Server.Transport RestEndpointPaths List Option

/-! ## Calls -/

/-- The fields of a query for a page. -/
def pageFields (pageSize : Option Nat) (pageToken : Bytes) : Option Bytes :=
  match pageSize, pageToken with
  | none, [] => none
  | some size, [] => some (bytes "pageSize" ++ 61 :: decimal size)
  | none, token => some (bytes "pageToken" ++ 61 :: token)
  | some size, token => some ((bytes "pageSize" ++ 61 :: decimal size) ++ 38 :: (bytes "pageToken" ++ 61 :: token))

/-- The field of a query for a part of the history. -/
def historyField (request : GetTaskRequest) : Option Bytes :=
  request.historyLength.map fun length => bytes "historyLength" ++ 61 :: toDecimal length.toInt

/-- A token that the query parser reads as it is; the symbols are `+`, `%` and `&`. -/
def PlainToken (token : Bytes) : Prop := 43 ∉ token ∧ 37 ∉ token ∧ 38 ∉ token

namespace HttpJsonCall

/-- The operation that the caller invokes, with the ids that the caller supplies. -/
def address : HttpJsonCall → Address
  | .getTask request => { operation := .getTask, taskId := request.id }
  | .subscribeTask request => { operation := .subscribeTask, taskId := request.id }
  | .listTasks _ => { operation := .listTasks }
  | .cancelTask request => { operation := .cancelTask, taskId := request.id }
  | .createPushConfig request =>
    { operation := .createTaskPushNotificationConfig, taskId := request.taskId, configId := request.id }
  | .getPushConfig request =>
    { operation := .getTaskPushNotificationConfig, taskId := request.taskId, configId := request.id }
  | .listPushConfigs request => { operation := .listTaskPushNotificationConfigs, taskId := request.taskId }
  | .deletePushConfig request =>
    { operation := .deleteTaskPushNotificationConfig, taskId := request.taskId, configId := request.id }

/-- The page token that the caller supplies. -/
def pageToken : HttpJsonCall → Bytes
  | .listTasks request => request.pageToken
  | .listPushConfigs request => request.pageToken
  | _ => []

/-- The page size, if it is sent. -/
def pageSize : HttpJsonCall → Option Nat
  | .listTasks request => if request.pageSize > 0 then some request.pageSize.toNat else none
  | .listPushConfigs request => if request.pageSize > 0 then some request.pageSize.toInt.toNat else none
  | _ => none

/-- The query of the call, without its question mark. -/
def query : HttpJsonCall → Option Bytes
  | .getTask request | .subscribeTask request => historyField request
  | call => pageFields call.pageSize call.pageToken

/-- The path and the query of the call. -/
def endpoint (call : HttpJsonCall) : Bytes := targetOf call.address.path call.query

/-- The ids and the page token cannot be mistaken in the URL. -/
def Plain (call : HttpJsonCall) : Prop := call.address.Plain ∧ PlainToken call.pageToken

end HttpJsonCall

/-! ## Requests -/

theorem pageQuery_eq (pageSize : Option Nat) (pageToken : Bytes) :
    pageQuery pageSize pageToken = ((pageFields pageSize pageToken).map (63 :: ·)).getD [] := by
  cases pageSize with
  | none =>
    cases pageToken with
    | nil | cons => rfl
  | some size =>
    cases pageToken with
    | nil => rfl
    | cons first token =>
      show bytes "?pageSize=" ++ (decimal size ++ (bytes "&pageToken=" ++ first :: token)) =
        63 :: ((bytes "pageSize" ++ 61 :: decimal size) ++ 38 :: (bytes "pageToken" ++ 61 :: first :: token))
      rw [append_assoc, cons_append]
      rfl

theorem historyQuery_eq (request : GetTaskRequest) :
    historyQuery request = ((historyField request).map (63 :: ·)).getD [] := by
  unfold historyQuery historyField
  cases request.historyLength with
  | none | some => rfl

theorem buildTaskPushConfigPath_eq (taskId id : Bytes) :
    buildTaskPushConfigPath taskId id =
      kTaskResourcePrefix ++ (taskId ++ (kPushNotificationConfigsSegment ++ 47 :: id)) := by
  show kTaskResourcePrefix ++ (taskId ++ kPushNotificationConfigsSegment) ++ 47 :: id = _
  rw [append_assoc, append_assoc]

open HttpJsonCall

open HttpJsonTransport

section Sent

variable {transport : HttpJsonTransport} {options : CallOptions} {sent : HttpRequest}

variable (transport sent) in
/-- What a call sends: its method, its endpoint, and a configuration as printed. -/
def HttpJsonCall.Sends (call : HttpJsonCall) : Prop :=
  sent.method = call.address.method ∧ sent.url = joinUrl transport.resolvedInterface.url call.endpoint ∧
    ∀ config, call = .createPushConfig config → transport.messageToJson config = .ok sent.body

theorem sends_of_buildRequest {call : HttpJsonCall} {endpoint body : Bytes} {headers : HttpHeaders}
    (h : transport.buildRequest options ⟨call.address.method, endpoint⟩ body headers = .ok sent)
    (hendpoint : endpoint = call.endpoint)
    (hbody : ∀ config, call = .createPushConfig config → transport.messageToJson config = .ok body) :
    call.Sends transport sent := by
  unfold buildRequest at h
  split_ifs at h
  obtain ⟨headers, -, rfl⟩ := ok_of_map h
  exact ⟨rfl, congrArg (joinUrl _) hendpoint, hbody⟩

/-- What the client sends for a call that it accepts. -/
theorem send_spec {call : HttpJsonCall} (h : call.send transport options = .ok sent) :
    call.Sends transport sent := by
  cases call with
  | getTask request =>
    rw [send, HttpJsonTransport.getTask] at h
    split_ifs at h
    refine sends_of_buildRequest h ?_ nofun
    rw [historyQuery_eq]
    rfl
  | subscribeTask request =>
    rw [send, HttpJsonTransport.subscribeTask] at h
    split_ifs at h
    refine sends_of_buildRequest h ?_ nofun
    rw [historyQuery_eq]
    show kTaskResourcePrefix ++ request.id ++ (kTaskSubscribeSuffix ++ _) =
      kTaskResourcePrefix ++ (request.id ++ kTaskSubscribeSuffix) ++ _
    rw [append_assoc, append_assoc, append_assoc]
    rfl
  | listTasks request => exact sends_of_buildRequest h (congrArg _ (pageQuery_eq _ _)) nofun
  | cancelTask request =>
    rw [send, HttpJsonTransport.cancelTask] at h
    split_ifs at h
    exact sends_of_buildRequest h (append_nil _).symm nofun
  | createPushConfig request =>
    rw [send, createTaskPushNotificationConfig] at h
    split_ifs at h
    cases hbody : transport.messageToJson request with
    | error e =>
      rw [hbody] at h
      cases h
    | ok body =>
      rw [hbody] at h
      refine sends_of_buildRequest h (append_nil _).symm ?_
      rintro config ⟨⟩
      exact hbody
  | listPushConfigs request =>
    rw [send, listTaskPushNotificationConfigs] at h
    split at h
    · cases h
    · exact sends_of_buildRequest h (congrArg _ (pageQuery_eq _ _)) nofun
  | getPushConfig request =>
    rw [send, getTaskPushNotificationConfig] at h
    split_ifs at h
    exact sends_of_buildRequest h ((buildTaskPushConfigPath_eq _ _).trans (append_nil _).symm) nofun
  | deletePushConfig request =>
    rw [send, deleteTaskPushNotificationConfig] at h
    split_ifs at h
    exact sends_of_buildRequest h ((buildTaskPushConfigPath_eq _ _).trans (append_nil _).symm) nofun

end Sent

/-! ## Delivery -/

/-- A client and a server with one base path, with or without slashes at its end; scheme and authority end with none. -/
structure Deployed (origin : Bytes) (base : BasePath) (transport : HttpJsonTransport)
    (options : RestServerTransportOptions) : Prop where
  origin_ends : ∃ init last, origin = init ++ [last] ∧ last ≠ 47
  client : ∃ slashes, transport.resolvedInterface.url = origin ++ base.configured slashes
  server : ∃ slashes, options.restApiBasePath = base.configured slashes

/-- The request has its method, target and body; the target is the URL without scheme and authority. -/
structure Arrived (origin : Bytes) (sent : HttpRequest) (request : HttpServerRequest) : Prop where
  method : request.method = sent.method
  url : sent.url = origin ++ request.target
  body : request.body = sent.body

/-- The request arrives as it is. -/
structure Delivered (origin : Bytes) (sent : HttpRequest) (request : HttpServerRequest) : Prop extends
    Arrived origin sent request where
  headers : request.headers = sent.headers

/-- Escaped dots, as libcurl reads them in a path. -/
def unescapeDots : Bytes → Bytes
  | 37 :: 50 :: 101 :: rest | 37 :: 50 :: 69 :: rest => 46 :: unescapeDots rest
  | b :: rest => b :: unescapeDots rest
  | [] => []

/-- A target that libcurl does not change: a URL is a C string, its fragment is not sent, and dot segments
of its path are resolved. -/
structure PlainUrl (target : Bytes) : Prop where
  noNul : 0 ∉ target
  noFragment : 35 ∉ target
  noDots : ∀ segment ∈ splitOn [47] (RestServerTransport.splitTarget target).1,
    unescapeDots segment ∉ [bytes ".", bytes ".."]

/-- What libcurl says of the target that it sends for a URL, if it sends one. -/
def SendsPlainUrls (origin : Bytes) (requestTarget : Bytes → Option Bytes) : Prop :=
  ∀ target wire, PlainUrl target → requestTarget (origin ++ target) = some wire → wire = target

/-- The request as `ReadRequest` gives it to the server. -/
structure Received (requestTarget : Bytes → Option Bytes) (sent : HttpRequest)
    (request : HttpServerRequest) : Prop where
  method : request.method = sent.method
  target : ∃ wire, requestTarget sent.url = some wire ∧ request.target = normalizeRequestTarget wire
  body : request.body = sent.body

/-- A target that neither libcurl nor `NormalizeRequestTarget` changes. -/
def CleanTarget (target : Bytes) : Prop := PlainUrl target ∧ ¬ bytes "://" <:+: target

section Delivery

variable {origin : Bytes} {base : BasePath} {transport : HttpJsonTransport} {options : RestServerTransportOptions}
  {callOptions : CallOptions} {call : HttpJsonCall} {sent : HttpRequest} {request : HttpServerRequest}

theorem joinUrl_configured (horigin : ∃ init last, origin = init ++ [last] ∧ last ≠ 47) (slashes : Nat)
    (endpoint : Bytes) :
    joinUrl (origin ++ base.configured slashes) (47 :: endpoint) = origin ++ (base.text ++ 47 :: endpoint) := by
  have hends : ∃ init last, origin ++ base.text = init ++ [last] ∧ last ≠ 47 := by
    by_cases hbase : base.segments = []
    · rw [BasePath.text_eq_nil hbase, append_nil]
      exact horigin
    · obtain ⟨init, last, htext, hlast⟩ := BasePath.text_ends hbase
      exact ⟨origin ++ init, last, by rw [htext, append_assoc], hlast⟩
  rw [joinUrl, if_neg (by simp), List.head?_cons, if_pos rfl, BasePath.configured, ← append_assoc,
    BasePath.rdropWhile_append_slashes hends, append_assoc]

theorem taskPath_endpoint (call : HttpJsonCall) : ∃ rest, call.address.path = 47 :: rest := by
  cases call with
  | _ => exact ⟨_, rfl⟩

theorem url_of_sent (hdeployed : Deployed origin base transport options)
    (hsent : call.send transport callOptions = .ok sent) : sent.url = origin ++ (base.text ++ call.endpoint) := by
  obtain ⟨slashes, hurl⟩ := hdeployed.client
  obtain ⟨rest, hrest⟩ := taskPath_endpoint call
  have hendpoint : call.endpoint = 47 :: (rest ++ (call.query.map (63 :: ·)).getD []) := by
    rw [endpoint, targetOf, hrest, cons_append]
  rw [(send_spec hsent).2.1, hurl, hendpoint, joinUrl_configured hdeployed.origin_ends]

variable (origin base transport options callOptions call sent request) in
/-- A call of a deployed client that was sent and has arrived. -/
structure Reaches : Prop where
  deployed : Deployed origin base transport options
  issued : call.send transport callOptions = .ok sent
  arrived : Arrived origin sent request

/-- A clean target goes through libcurl and the adapter. -/
theorem Received.arrived {requestTarget : Bytes → Option Bytes} (hreceived : Received requestTarget sent request)
    (hcurl : SendsPlainUrls origin requestTarget) (hdeployed : Deployed origin base transport options)
    (hsent : call.send transport callOptions = .ok sent) (hclean : CleanTarget (base.text ++ call.endpoint)) :
    Arrived origin sent request := by
  have hurl := url_of_sent hdeployed hsent
  obtain ⟨wire, hwire, htarget⟩ := hreceived.target
  rw [hurl] at hwire
  have hne : base.text ++ call.endpoint ≠ [] := by
    obtain ⟨rest, hrest⟩ := taskPath_endpoint call
    simp [endpoint, targetOf, hrest]
  have hkept : request.target = base.text ++ call.endpoint := by
    rw [htarget, hcurl _ _ hclean.1 hwire, normalizeRequestTarget, if_neg (by simpa using hne),
      breakOn_eq_none_iff.mpr hclean.2]
  exact ⟨hreceived.method, hkept ▸ hurl, hreceived.body⟩

/-- The path of a call below `/tasks/`, up to its first question mark. -/
theorem splitTarget_endpoint {rest : Bytes} (hpath : call.address.path = kTaskResourcePrefix ++ rest) :
    ∃ cut, (RestServerTransport.splitTarget call.endpoint).1 = kTaskResourcePrefix ++ cut ∧ 63 ∉ cut ∧
      (63 ∉ rest → cut = rest ∧ (RestServerTransport.splitTarget call.endpoint).2 = call.query) := by
  have hendpoint : call.endpoint = kTaskResourcePrefix ++ targetOf rest call.query := by
    rw [endpoint, targetOf, hpath, append_assoc]
    rfl
  have hsplit := splitTarget_append (show 63 ∉ kTaskResourcePrefix by decide) (targetOf rest call.query)
  rw [hendpoint, hsplit]
  refine ⟨_, rfl, notMem_splitTarget _, fun hrest => ?_⟩
  rw [splitTarget_targetOf hrest]
  exact ⟨rfl, rfl⟩

theorem path_cases (call : HttpJsonCall) :
    (∃ request, call = .listTasks request) ∨ ∃ rest, call.address.path = kTaskResourcePrefix ++ rest := by
  cases call with
  | listTasks request => exact .inl ⟨request, rfl⟩
  | _ => exact .inr ⟨_, rfl⟩

theorem splitTarget_listTasks (request : ListTasksRequest) :
    RestServerTransport.splitTarget (HttpJsonCall.listTasks request).endpoint =
      (kTaskCollection, (HttpJsonCall.listTasks request).query) :=
  splitTarget_targetOf (show 63 ∉ kTaskCollection by decide)

namespace Reaches

variable (hreaches : Reaches origin base transport options callOptions call sent request)

include hreaches

theorem below :
    Below base options (RestServerTransport.splitTarget call.endpoint).1
      (RestServerTransport.splitTarget call.endpoint).2 request where
  configured := hreaches.deployed.server
  target := by
    have htarget := append_cancel_left (hreaches.arrived.url.symm.trans (url_of_sent hreaches.deployed hreaches.issued))
    rw [htarget, targetOf, append_assoc]
    exact congrArg _ (targetOf_splitTarget call.endpoint).symm
  taskPath := by
    rcases path_cases call with ⟨request, rfl⟩ | ⟨rest, hpath⟩
    · rw [splitTarget_listTasks]
      exact .inl rfl
    · obtain ⟨cut, hcut, -⟩ := splitTarget_endpoint hpath
      exact .inr ⟨cut, hcut⟩
  noQuery := notMem_splitTarget call.endpoint

theorem method : request.method = call.address.method :=
  hreaches.arrived.method.trans (send_spec hreaches.issued).1

theorem get_of_collection
    (h : (RestServerTransport.splitTarget call.endpoint).1 = kTaskCollection) : request.method = kMethodGet := by
  rw [hreaches.method]
  rcases path_cases call with ⟨list, rfl⟩ | ⟨rest, hrest⟩
  · rfl
  · obtain ⟨cut, hcut, -⟩ := splitTarget_endpoint hrest
    exact absurd (hcut.symm.trans h) ne_taskCollection

end Reaches

end Delivery

/-! ## Page tokens -/

section Tokens

variable {token value : Bytes}

/-- A part whose name is written without an escape assigns to this name only. -/
theorem name_of_assigns {key raw name : Bytes} (hkey : 43 ∉ key ∧ 37 ∉ key ∧ 61 ∉ key)
    (h : Assigns (key ++ 61 :: raw) name value) : name = key ∧ Spells raw value := by
  obtain ⟨-, hname, hvalue⟩ := h
  rw [splitParameter_of_notMem hkey.2.2] at hname hvalue
  exact ⟨hname.unique (.of_plain hkey.1 hkey.2.1), hvalue⟩

/-- A field whose value is a number has the symbols of its name, an equals sign and digits. -/
theorem notMem_decimalField {key : Bytes} {b : UInt8} (hkey : b ∉ key) (hequals : b ≠ 61)
    (hdigit : ¬ isDigitByte b) (n : Nat) : b ∉ key ++ 61 :: decimal n := by
  rw [mem_append, mem_cons, not_or, not_or]
  exact ⟨hkey, hequals, fun hmem => hdigit (isDigitByte_of_mem_decimal hmem)⟩

end Tokens

/-! ## A deployment -/

namespace SampleDeployment

/-- Scheme and authority of the server. -/
def origin : Bytes := "http://host"

/-- The base path `/api`. -/
def base : BasePath := ⟨["api"], by simpa using ⟨by decide, by decide, by decide, by decide⟩⟩

/-- A configuration with its two ids only. -/
def texts : PushConfigJson.PushConfigTexts where
  tenant := []
  id := "c".toList
  taskId := "t".toList
  url := []
  token := []
  authentication := none

/-- What it is printed as. -/
def configBody : Bytes := "\x7b\"id\":\"c\",\"taskId\":\"t\"\x7d"

/-- A printer of this configuration. -/
def messageToJson (config : TaskPushNotificationConfig) : Result Bytes :=
  if config.tenant = [] ∧ config.id = bytes "c" ∧ config.taskId = bytes "t" ∧ config.url = [] ∧ config.token = [] ∧
      config.authentication.isNone then .ok configBody
  else .error (.validation "no body")

/-- A reader of this text. -/
def simdjson : ProtoJson.Simdjson where
  dom json := if json = configBody then some (.object texts.members) else none
  ondemand json := if json = configBody then some (.object texts.members) else none

/-- The client. -/
def transport : HttpJsonTransport where
  resolvedInterface := { url := "http://host/api/" }
  messageToJson

/-- The server. -/
def options : RestServerTransportOptions := { restApiBasePath := "/api" }

/-- Its readers of request bodies. -/
def bodies : RequestBodies where
  sendMessage _ := .error (.validation "no body")
  pushConfig := PushConfigJson.jsonToPushConfig .refusing simdjson

/-- The HTTP layer between the client and the server. -/
def deliver (sent : HttpRequest) : HttpServerRequest where
  method := sent.method
  target := normalizeRequestTarget (sent.url.drop origin.length)
  headers := sent.headers
  body := sent.body
  remoteAddress := []

/-- The headers that the client sends. -/
def headers : HttpHeaders :=
  ((Table.empty.put (kContentTypeHeaderName, kContentTypeApplicationJson)).put
    (kAcceptHeaderName, kContentTypeApplicationJson)).put (kVersionHeaderName, "1.0")

theorem deployed : Deployed origin base transport options where
  origin_ends := ⟨"http://hos", 116, rfl, by decide⟩
  client := ⟨1, rfl⟩
  server := ⟨0, rfl⟩

theorem deliver_delivers {sent : HttpRequest} {target : Bytes} (h : sent.url = origin ++ target)
    (hkept : normalizeRequestTarget target = target) : Delivered origin sent (deliver sent) where
  method := rfl
  url := by
    show sent.url = origin ++ normalizeRequestTarget (sent.url.drop origin.length)
    rw [h, drop_left, hkept]
  headers := rfl
  body := rfl

/-- What libcurl sends for the URLs of the deployment. -/
def requestTarget (url : Bytes) : Option Bytes := some (url.drop origin.length)

theorem received (sent : HttpRequest) : Received requestTarget sent (deliver sent) :=
  ⟨rfl, ⟨_, rfl, rfl⟩, rfl⟩

theorem prints : PushConfigJson.Prints messageToJson simdjson := by
  rintro ⟨tenant, id, taskId, url, token, authentication⟩ body hbody
  unfold messageToJson at hbody
  split_ifs at hbody with hconfig
  obtain ⟨rfl, rfl, rfl, rfl, rfl, hauthentication⟩ := hconfig
  obtain rfl := isNone_iff_eq_none.mp hauthentication
  cases hbody
  have hread : simdjson.dom configBody = some (.object texts.members) := by
    simp only [simdjson, if_true]
  exact ⟨texts, rfl, hread, hread⟩

theorem pushConfig_bodies : bodies.pushConfig = PushConfigJson.jsonToPushConfig .refusing simdjson := rfl

theorem accepted : HeadersAccepted options headers := ⟨⟨(), by decide +kernel⟩, [], rfl⟩

end SampleDeployment

/-! ## Calls with arbitrary ids -/

section Kept

variable {origin : Bytes} {base : BasePath} {transport : HttpJsonTransport} {options : RestServerTransportOptions}
  {callOptions : CallOptions} {bodies : RequestBodies} {protobuf : ProtoJson.Protobuf} {simdjson : ProtoJson.Simdjson}
  {call : HttpJsonCall} {sent : HttpRequest} {request : HttpServerRequest} {dispatch : DispatchRequest}

variable {restRequest : RestRequest}

namespace Reaches

/-- The router reads a created configuration back, unless it is too long. -/
theorem pushConfig {config config' : TaskPushNotificationConfig}
    (hreaches : Reaches origin base transport options callOptions (.createPushConfig config) sent request)
    (hbodies : bodies.pushConfig = PushConfigJson.jsonToPushConfig protobuf simdjson)
    (hprints : PushConfigJson.Prints transport.messageToJson simdjson) :
    bodies.pushConfig request.body = .ok config' ↔
      request.body.length ≤ ProtoJson.kMaximumJsonBytes ∧ config' = config := by
  have hprinted := (send_spec hreaches.issued).2.2 config rfl
  rw [hbodies, hreaches.arrived.body]
  by_cases hlength : sent.body.length ≤ ProtoJson.kMaximumJsonBytes
  · rw [PushConfigJson.jsonToPushConfig_of_prints hprints hprinted hlength, Except.ok.injEq,
      and_iff_right hlength, eq_comm]
  · rw [PushConfigJson.jsonToPushConfig_of_long (Nat.lt_of_not_le hlength)]
    exact iff_of_false nofun fun h => hlength h.1

/-- A call below `/tasks/` that arrives is one of an agent card, or a rule of the router executes it. -/
theorem dispatched_cases {rest : Bytes}
    (hreaches : Reaches origin base transport options callOptions call sent request)
    (hpath : call.address.path = kTaskResourcePrefix ++ rest)
    (h : (RestServerTransport.handle options bodies request).dispatched = some dispatch) :
    ∃ cut, 63 ∉ cut ∧ (63 ∉ rest → cut = rest) ∧ ((cut = bytes "extendedAgentCard" ∧ request.method = kMethodGet ∧
          addressOf dispatch = { operation := .getExtendedAgentCard }) ∨
        (cut ≠ bytes "extendedAgentCard" ∧ ∃ params,
          parseQueryString ((RestServerTransport.splitTarget call.endpoint).2.getD []) = .ok params ∧
          Executes bodies (request.routed (kTaskResourcePrefix ++ cut) params) dispatch)) := by
  obtain ⟨cut, hcut, hquery, hwhole⟩ := splitTarget_endpoint hpath
  refine ⟨cut, hquery, fun hrest => (hwhole hrest).1, ?_⟩
  have hcard : kTaskResourcePrefix ++ cut = kTenantTasksCardPath ↔ cut = bytes "extendedAgentCard" :=
    append_right_inj kTaskResourcePrefix
  obtain ⟨-, hrouted⟩ := (dispatched_below hreaches.below).mp h
  rw [hcut] at hrouted
  split_ifs at hrouted with htenant
  · obtain ⟨hmethod, rfl⟩ := hrouted
    exact .inl ⟨hcard.mp htenant, hmethod, rfl⟩
  · obtain ⟨params, hparams, hdispatch⟩ := hrouted
    exact .inr ⟨mt hcard.mpr htenant, params, hparams, (dispatchRequest_eq_ok_iff rfl).mp hdispatch⟩

theorem listTasks_dispatched {list : ListTasksRequest}
    (hreaches : Reaches origin base transport options callOptions (.listTasks list) sent request)
    (h : (RestServerTransport.handle options bodies request).dispatched = some dispatch) :
    ∃ params, parseQueryString ((HttpJsonCall.listTasks list).query.getD []) = .ok params ∧
      buildListTasksDispatchRequest (request.routed kTaskCollection params) = some dispatch := by
  have hbelow : Below base options kTaskCollection (listTasks list).query request := by
    have hbelow := hreaches.below
    rwa [splitTarget_listTasks] at hbelow
  obtain ⟨-, hrouted⟩ := (dispatched_below hbelow).mp h
  rw [if_neg (by decide)] at hrouted
  obtain ⟨params, hparams, hdispatch⟩ := hrouted
  refine ⟨params, hparams, ?_⟩
  rw [← dispatchRequest_collection bodies hreaches.method rfl, hdispatch]
  rfl

theorem listTasks_spec (h : buildListTasksDispatchRequest restRequest = some dispatch) :
    addressOf dispatch = { operation := .listTasks } ∧
      pageTokenOf dispatch = (lookupQuery restRequest "pageToken").getD [] := by
  unfold buildListTasksDispatchRequest at h
  split_ifs at h
  generalize listTasksPageSize restRequest = size at h
  generalize listTasksHistoryLength restRequest = length at h
  match size, length with
  | none, _ | some _, none => cases h
  | some size, some length =>
    cases h
    exact ⟨rfl, rfl⟩

/-- A call that arrives has its own address exactly if the address is plain. -/
theorem address_iff_plain
    (hreaches : Reaches origin base transport options callOptions call sent request)
    (hbodies : bodies.pushConfig = PushConfigJson.jsonToPushConfig protobuf simdjson)
    (hprints : PushConfigJson.Prints transport.messageToJson simdjson)
    (h : (RestServerTransport.handle options bodies request).dispatched = some dispatch) :
    addressOf dispatch = call.address ↔ call.address.Plain := by
  rcases path_cases call with ⟨list, rfl⟩ | ⟨rest, hpath⟩
  · obtain ⟨params, -, hdispatch⟩ := hreaches.listTasks_dispatched h
    exact iff_of_true (listTasks_spec hdispatch).1 trivial
  · obtain ⟨cut, hquery, hwhole, ⟨hcut, -, hcard⟩ | ⟨hne, params, -, hexecutes⟩⟩ :=
      hreaches.dispatched_cases hpath h
    · rw [hcard]
      refine iff_of_false ?_ fun hplain => hplain.path_ne_card ?_
      · cases call with
        | _ => nofun
      · have hrest : 63 ∉ rest := fun hmem => hplain.notMem_path (hpath ▸ mem_append_right _ hmem)
        rw [hpath, ← hwhole hrest, hcut]
        rfl
    · refine hexecutes.address_eq_iff hreaches.method rfl hquery hne (fun hplain => ?_) ?_
      · have hrest : 63 ∉ rest := fun hmem => hplain (hpath ▸ mem_append_right _ hmem)
        rw [hpath, ← hwhole hrest]
        rfl
      · cases call with
        | listTasks list => exact absurd hpath.symm ne_taskCollection
        | createPushConfig config =>
          intro config' hread
          rw [((hreaches.pushConfig hbodies hprints).mp hread).2]
          rfl
        | getPushConfig | deletePushConfig => exact trivial
        | _ => exact rfl

end Reaches

end Kept

open SampleDeployment in
-- a page token with a URL in it makes another operation of the call, on its way to the router
example : ∃ sent dispatch, (listTasks { pageToken := bytes "x://h/api/tasks/t" }).send transport {} = .ok sent ∧
    (RestServerTransport.handle options bodies (deliver sent)).dispatched = some dispatch ∧
    addressOf dispatch = { operation := .getTask, taskId := bytes "t" } :=
  ⟨_, _, rfl, rfl, rfl⟩

/-! ## Calls with ordinary ids -/

namespace HttpJsonCall

/-- The history length, if there is one, is not negative. -/
def HistoryNonneg (request : GetTaskRequest) : Prop :=
  ∀ length, request.historyLength = some length → 0 ≤ length.toInt

/-- The calls about one task whose ids are ordinary segments, and look neither like an action nor like an agent card. -/
def Ordinary : HttpJsonCall → Prop
  | .getTask request => OrdinarySegment request.id ∧ ¬ kTaskCancelSuffix <:+ request.id ∧
      ¬ kTaskSubscribeSuffix <:+ request.id ∧ request.id ≠ bytes "extendedAgentCard" ∧ HistoryNonneg request
  | .subscribeTask request => OrdinarySegment request.id ∧ HistoryNonneg request
  | .listTasks _ => False
  | .cancelTask request => OrdinarySegment request.id
  | .createPushConfig request => OrdinarySegment request.taskId
  | .getPushConfig request => OrdinarySegment request.taskId ∧ OrdinarySegment request.id
  | .listPushConfigs request => OrdinarySegment request.taskId
  | .deletePushConfig request => OrdinarySegment request.taskId ∧ OrdinarySegment request.id

/-- The page token is well escaped, the body not too long, and its content type that of JSON. -/
def Readable (transport : HttpJsonTransport) (headers : HttpHeaders) : HttpJsonCall → Prop
  | .cancelTask _ => hasJsonContent headers = true
  | .createPushConfig request => hasJsonContent headers = true ∧
      ∀ body, transport.messageToJson request = .ok body → body.length ≤ ProtoJson.kMaximumJsonBytes
  | .listPushConfigs request => WellEscaped request.pageToken
  | _ => True

theorem Ordinary.plain {call : HttpJsonCall} (h : call.Ordinary) : call.address.Plain := by
  cases call with
  | getTask request => exact ⟨h.1.noQuery, h.1.noSlash, h.2.2.1, h.2.2.2.1⟩
  | subscribeTask request => exact ⟨h.1.noQuery, h.1.noSlash⟩
  | listTasks request => exact trivial
  | cancelTask | createPushConfig => exact h.noQuery
  | getPushConfig | deletePushConfig => exact ⟨h.1.noQuery, h.2.noQuery⟩
  | listPushConfigs request => exact ⟨h.noQuery, h.noSlash⟩

end HttpJsonCall

section History

variable {get : GetTaskRequest}

theorem notMem_historyField {b : UInt8} (hname : b ∉ bytes "historyLength") (hequals : b ≠ 61)
    (hdigit : ¬ isDigitByte b) {length : Int} (hlength : 0 ≤ length) :
    b ∉ bytes "historyLength" ++ 61 :: toDecimal length :=
  toDecimal_of_nonneg hlength ▸ notMem_decimalField hname hequals hdigit _

theorem wellEscaped_historyField (h : HttpJsonCall.HistoryNonneg get) :
    WellEscaped ((historyField get).getD []) := by
  unfold historyField
  cases hlength : get.historyLength with
  | none => exact .nil
  | some length => exact .of_plain (notMem_historyField (by decide) (by decide) (by decide) (h length hlength))

theorem historyReadable_historyField (h : HttpJsonCall.HistoryNonneg get) :
    HistoryReadable ((historyField get).getD []) := by
  unfold historyField
  cases hlength : get.historyLength with
  | none =>
    intro value hassigned
    exact absurd hassigned (not_lastAssigned_empty _ value)
  | some length =>
    intro value hassigned
    have hnonneg := h length hlength
    have hhigh := length.toInt_lt
    rw [map_some, getD_some, splitOn_of_notMem (notMem_historyField (by decide) (by decide) (by decide) hnonneg),
      lastAssigned_cons] at hassigned
    rcases hassigned with hnil | ⟨-, hpart⟩
    · exact absurd hnil (not_lastAssigned_nil _ value)
    · have hdigits {b : UInt8} (hb : ¬ isDigitByte b) : b ∉ toDecimal length.toInt := by
        rw [toDecimal_of_nonneg hnonneg]
        exact mt isDigitByte_of_mem_decimal hb
      have hspells := (name_of_assigns (by decide) hpart).2
      obtain rfl := hspells.unique (.of_plain (hdigits (by decide)) (hdigits (by decide)))
      rw [← parsePageSize_nonneg_iff, parsePageSize_toDecimal hnonneg (by omega)]
      exact hnonneg

end History

theorem wellEscaped_pageFields_iff {pageSize : Option Nat} {token : Bytes} :
    WellEscaped ((pageFields pageSize token).getD []) ↔ WellEscaped token := by
  have htoken : WellEscaped (bytes "pageToken" ++ 61 :: token) ↔ WellEscaped token := by
    rw [WellEscaped.append_cons_iff separatesEscapes_equals (by decide)]
    exact and_iff_right (.of_plain (by decide))
  have hsize (size : Nat) : WellEscaped (bytes "pageSize" ++ 61 :: decimal size) :=
    .of_plain (notMem_decimalField (by decide) (by decide) (by decide) size)
  cases token with
  | nil =>
    cases pageSize with
    | none => rfl
    | some size => exact iff_of_true (hsize size) .nil
  | cons first token =>
    cases pageSize with
    | none => exact htoken
    | some size =>
      rw [← htoken]
      show WellEscaped ((bytes "pageSize" ++ 61 :: decimal size) ++ 38 :: _) ↔ _
      rw [WellEscaped.append_cons_iff separatesEscapes_ampersand (by decide)]
      exact and_iff_right (hsize size)

section Arrives

variable {origin : Bytes} {base : BasePath} {transport : HttpJsonTransport} {options : RestServerTransportOptions}
  {callOptions : CallOptions} {bodies : RequestBodies} {protobuf : ProtoJson.Protobuf} {simdjson : ProtoJson.Simdjson}
  {call : HttpJsonCall} {sent : HttpRequest} {request : HttpServerRequest} {dispatch : DispatchRequest}

theorem splitTarget_of_plain (h : call.address.Plain) :
    RestServerTransport.splitTarget call.endpoint = (call.address.path, call.query) :=
  splitTarget_targetOf h.notMem_path

/-- A readable call with ordinary ids is one that the router has an operation for. -/
theorem Reaches.hasRoute
    (hreaches : Reaches origin base transport options callOptions call sent request)
    (hbodies : bodies.pushConfig = PushConfigJson.jsonToPushConfig protobuf simdjson)
    (hprints : PushConfigJson.Prints transport.messageToJson simdjson)
    (hordinary : call.Ordinary) (hreadable : call.Readable transport request.headers) :
    WellEscaped (call.query.getD []) ∧ HasRoute bodies request call.address.path (call.query.getD []) := by
  have hmethod := hreaches.method
  cases call with
  | getTask get =>
    obtain ⟨hid, hcancel, hsubscribe, -, hhistory⟩ := hordinary
    exact ⟨wellEscaped_historyField hhistory,
      .task hmethod hid.segment hcancel hsubscribe (historyReadable_historyField hhistory)⟩
  | subscribeTask get =>
    exact ⟨wellEscaped_historyField hordinary.2,
      .subscribe (.inl hmethod) hordinary.1.segment (historyReadable_historyField hordinary.2)⟩
  | listTasks list => exact hordinary.elim
  | cancelTask cancel => exact ⟨.nil, .cancel hmethod hordinary.segment hreadable⟩
  | createPushConfig config =>
    have hlength : request.body.length ≤ ProtoJson.kMaximumJsonBytes := by
      rw [hreaches.arrived.body]
      exact hreadable.2 _ ((send_spec hreaches.issued).2.2 config rfl)
    have hread := (hreaches.pushConfig hbodies hprints).mpr ⟨hlength, rfl⟩
    exact ⟨.nil, .create hmethod hordinary.segment hreadable.1 hread⟩
  | getPushConfig get => exact ⟨.nil, .item (.inl hmethod) hordinary.1.segment hordinary.2.segment⟩
  | listPushConfigs list =>
    exact ⟨wellEscaped_pageFields_iff.mpr hreadable, .list hmethod hordinary.segment⟩
  | deletePushConfig delete => exact ⟨.nil, .item (.inr hmethod) hordinary.1.segment hordinary.2.segment⟩

/-- A call with ordinary ids arrives at its operation with its ids exactly if it can be read. -/
theorem ordinary_call_arrives_iff (hdeployed : Deployed origin base transport options)
    (hbodies : bodies.pushConfig = PushConfigJson.jsonToPushConfig protobuf simdjson)
    (hprints : PushConfigJson.Prints transport.messageToJson simdjson)
    (hsent : call.send transport callOptions = .ok sent) (hdelivered : Delivered origin sent request)
    (hordinary : call.Ordinary) (haccepted : HeadersAccepted options request.headers) :
    (∃ dispatch, (RestServerTransport.handle options bodies request).dispatched = some dispatch ∧
        addressOf dispatch = call.address) ↔ call.Readable transport request.headers := by
  have hplain := hordinary.plain
  have hreaches : Reaches origin base transport options callOptions call sent request :=
    ⟨hdeployed, hsent, hdelivered.toArrived⟩
  constructor
  · rintro ⟨dispatch, hdispatch, haddress⟩
    have hoperation := congrArg Address.operation haddress
    cases call with
    | cancelTask cancel =>
      obtain ⟨cut, -, -, ⟨-, -, hcard⟩ | ⟨-, params, -, hexecutes⟩⟩ :=
        hreaches.dispatched_cases rfl hdispatch
      · cases haddress.symm.trans hcard
      · exact hexecutes.hasJsonContent_of_post hreaches.method (hoperation ▸ nofun)
    | createPushConfig config =>
      obtain ⟨cut, -, -, ⟨-, -, hcard⟩ | ⟨-, params, -, hexecutes⟩⟩ :=
        hreaches.dispatched_cases rfl hdispatch
      · cases haddress.symm.trans hcard
      · have hjson := hexecutes.hasJsonContent_of_post hreaches.method (hoperation ▸ nofun)
        obtain ⟨-, -, -, hcreated⟩ := hexecutes.routed
        obtain ⟨config', hread, -⟩ := hcreated hoperation
        refine ⟨hjson, fun body hbody => ?_⟩
        obtain rfl := Except.ok.inj (hbody.symm.trans ((send_spec hsent).2.2 config rfl))
        rw [← hreaches.arrived.body]
        exact ((hreaches.pushConfig hbodies hprints).mp hread).1
    | listPushConfigs list =>
      obtain ⟨cut, -, -, ⟨-, -, hcard⟩ | ⟨-, params, hparams, -⟩⟩ :=
        hreaches.dispatched_cases rfl hdispatch
      · cases haddress.symm.trans hcard
      · rw [splitTarget_of_plain hplain] at hparams
        exact wellEscaped_pageFields_iff.mp (exists_parseQueryString_iff.mp ⟨params, hparams⟩)
    | _ => exact trivial
  · intro hreadable
    obtain ⟨hescaped, hroute⟩ := hreaches.hasRoute hbodies hprints hordinary hreadable
    have hbelow := hreaches.below
    have hcollection := hreaches.get_of_collection
    rw [splitTarget_of_plain hplain] at hbelow hcollection
    have hanswered : Answered bodies request call.address.path (call.query.getD []) :=
      .inr ⟨hplain.path_ne_card, hescaped, hroute⟩
    obtain ⟨dispatch, hdispatch⟩ := (exists_dispatched_iff hbelow hcollection).mpr ⟨haccepted, hanswered⟩
    exact ⟨dispatch, hdispatch, (hreaches.address_iff_plain hbodies hprints hdispatch).mpr hplain⟩

end Arrives

open SampleDeployment in
/-- A created configuration arrives. -/
theorem created_config_arrives :
    ∃ dispatch, (RestServerTransport.handle options bodies (deliver
      { method := kMethodPost, url := "http://host/api/tasks/t/pushNotificationConfigs", headers
        body := configBody })).dispatched = some dispatch ∧
      addressOf dispatch = { operation := .createTaskPushNotificationConfig, taskId := bytes "t"
                             configId := bytes "c" } := by
  have hsent : (createPushConfig texts.config).send transport {} =
      .ok { method := kMethodPost, url := "http://host/api/tasks/t/pushNotificationConfigs", headers
            body := configBody } := rfl
  have hordinary : OrdinarySegment texts.config.taskId := ⟨by decide, by decide, by decide, by decide⟩
  have hbody : ∀ body, messageToJson texts.config = .ok body → body.length ≤ ProtoJson.kMaximumJsonBytes := by
    rintro body hbody
    obtain rfl : configBody = body := Except.ok.inj hbody
    decide +kernel
  exact (ordinary_call_arrives_iff deployed pushConfig_bodies prints hsent
    (deliver_delivers (show _ = origin ++ bytes "/api/tasks/t/pushNotificationConfigs" from rfl) rfl) hordinary
    accepted).mpr ⟨by decide +kernel, hbody⟩

open SampleDeployment in
/-- The page token `100%` of a list of configurations is put into the URL as it is, and the server refuses to decode
it. -/
theorem percent_token_is_refused :
    (HttpJsonCall.listPushConfigs { taskId := bytes "t", pageToken := bytes "100%" }).Ordinary ∧
    HeadersAccepted options headers ∧ ∃ sent, sent.headers = headers ∧
      (listPushConfigs { taskId := bytes "t", pageToken := bytes "100%" }).send transport {} = .ok sent ∧
      (RestServerTransport.handle options bodies (deliver sent)).dispatched = none :=
  ⟨⟨by decide, by decide, by decide, by decide⟩, accepted, _, rfl, rfl, rfl⟩

end A2A.Client
