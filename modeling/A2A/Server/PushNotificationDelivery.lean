/-
# The webhook request of a push configuration
(`push_notification_delivery.cpp`, `http_client_curl.cpp`).
-/
import A2A.Foundation.Search
import A2A.Server.Stores.PushNotificationStores

namespace A2A.Server

open A2A.Foundation A2A.Core A2A.Server.Stores List

/-! ## The delivery client -/

def kContentTypeHeader : Bytes := "Content-Type"
def kJsonContentType : Bytes := "application/json"
def kAuthorizationHeaderName : Bytes := "Authorization"
def kHeaderNameValueSeparator : Bytes := ": "

/-- `HttpPushNotificationDeliveryOptions`, the timeout in milliseconds. -/
structure HttpPushNotificationDeliveryOptions where
  timeout : Nat := 5000
  httpVersion : Bytes := "HTTP/2.0"
  fallbackHttpVersion : Bytes := "HTTP/1.1"

/-- `PushDeliveryRequest`. -/
structure PushDeliveryRequest where
  config : TaskPushNotificationConfig
  payload : StreamResponse

/-- `http::Request`, without the TLS options that a delivery leaves alone. -/
structure HttpRequest where
  method : Bytes
  url : Bytes
  headers : List (Bytes × Bytes)
  body : Bytes
  timeout : Nat
  httpVersion : Bytes

/-- `ValidateUrlScheme`. -/
def validateUrlScheme (url : Bytes) : Result Unit :=
  if (bytes "http://").isPrefixOf url ∨ (bytes "https://").isPrefixOf url then .ok ()
  else .error (.validation "push notification URL must use http or https")

/-- `ValidateHttpVersion`. -/
def validateHttpVersion (httpVersion : Bytes) : Result Unit :=
  if httpVersion ∈ [bytes "HTTP/1.1", bytes "HTTP/2.0", bytes "HTTP/3.0"] then .ok ()
  else .error (.validation "push notification delivery supports only HTTP/1.1, HTTP/2.0, or HTTP/3.0")

/-- `ValidateDeliveryOptions`. -/
def validateDeliveryOptions (options : HttpPushNotificationDeliveryOptions) : Result Unit := do
  validateHttpVersion options.httpVersion
  if options.fallbackHttpVersion = [] then .ok () else validateHttpVersion options.fallbackHttpVersion

/-- The accessor `authentication()`. -/
def authenticationOr (config : TaskPushNotificationConfig) : AuthenticationInfo :=
  config.authentication.getD {}

/-- `BuildAuthorizationValue`. -/
def buildAuthorizationValue (config : TaskPushNotificationConfig) : Bytes :=
  let authentication := authenticationOr config
  if authentication.credentials = [] then authentication.scheme
  else authentication.scheme ++ 32 :: authentication.credentials

/-- `BuildHeaders` of the delivery client. -/
def buildHeaders (config : TaskPushNotificationConfig) : List (Bytes × Bytes) :=
  (kContentTypeHeader, kJsonContentType) ::
    if (authenticationOr config).scheme = [] then []
    else [(kAuthorizationHeaderName, buildAuthorizationValue config)]

/-- `BuildHttpRequest`. -/
def buildHttpRequest (request : PushDeliveryRequest) (body httpVersion : Bytes) (timeout : Nat) :
    HttpRequest where
  method := "POST"
  url := request.config.url
  headers := buildHeaders request.config
  body := body
  timeout := timeout
  httpVersion := httpVersion

/-- `DeliverHttpRequest`: the status that the webhook has answered. -/
def deliverHttpRequest (sendRequest : HttpRequest → Result Int) (request : HttpRequest) :
    Result Int := do
  let status ← sendRequest request
  if status < 200 ∨ status > 299 then
    .error ((Error.remoteProtocol "webhook returned non-2xx status").withHttpStatus status)
  else .ok status

/-- `HttpPushNotificationDeliveryClient::Deliver`, and the requests that it hands to the HTTP
client. -/
def deliver (messageToJson : StreamResponse → Result Bytes) (sendRequest : HttpRequest → Result Int)
    (options : HttpPushNotificationDeliveryOptions) (request : PushDeliveryRequest) :
    Result Int × List HttpRequest :=
  let checked : Result Bytes := do
    validateUrlScheme request.config.url
    validateDeliveryOptions options
    messageToJson request.payload
  match checked with
  | .error e => (.error e, [])
  | .ok body =>
    let first := buildHttpRequest request body options.httpVersion options.timeout
    let result := deliverHttpRequest sendRequest first
    if result.isOk ∨ options.fallbackHttpVersion = [] ∨
        options.fallbackHttpVersion = options.httpVersion then (result, [first])
    else
      let second := buildHttpRequest request body options.fallbackHttpVersion options.timeout
      (deliverHttpRequest sendRequest second, [first, second])

/-! ## The lines that libcurl sends -/

/-- `BuildHeaderValue`. -/
def buildHeaderValue (header : Bytes × Bytes) : Bytes :=
  header.1 ++ kHeaderNameValueSeparator ++ header.2

/-- The list that `BuildHeaders` of the HTTP client hands to libcurl, as C strings. -/
def curlHeaderList (headers : List (Bytes × Bytes)) : List Bytes :=
  headers.map fun header => cString (buildHeaderValue header)

/-- The lines that libcurl sends for the list. -/
def sentLines (headers : List (Bytes × Bytes)) : List Bytes :=
  (curlHeaderList headers).flatMap (splitOn [10])

/-- One line with the content type, and at most one more, which is an authorization. -/
def OwnLines (lines : List Bytes) : Prop :=
  ∃ rest, lines = (kContentTypeHeader ++ kHeaderNameValueSeparator ++ kJsonContentType) :: rest ∧
    (rest = [] ∨ ∃ value, rest = [kAuthorizationHeaderName ++ kHeaderNameValueSeparator ++ value])

/-- There is no scheme, or there is no line feed in what is sent of scheme and credentials. -/
def OneLine (authentication : AuthenticationInfo) : Prop :=
  authentication.scheme = [] ∨ 10 ∉ cString authentication.scheme ∧
    (0 ∉ authentication.scheme → 10 ∉ cString authentication.credentials)

instance : DecidablePred OneLine := fun authentication => by
  unfold OneLine
  infer_instance

theorem cString_append {start : Bytes} (h : 0 ∉ start) (text : Bytes) :
    cString (start ++ text) = start ++ cString text := by
  unfold cString
  rw [takeWhile_append_of_pos]
  intro b hb
  simpa using fun hzero : b = 0 => h (hzero ▸ hb)

/-- What follows a NUL byte is not sent. -/
theorem cString_append_of_mem {start text : Bytes} (h : 0 ∈ start) :
    cString (start ++ text) = cString start := by
  obtain ⟨before, after, rfl, -⟩ := eq_append_cons_of_mem h
  simp [cString, takeWhile_append]

theorem oneLine_iff (config : TaskPushNotificationConfig) : OneLine (authenticationOr config) ↔
    (authenticationOr config).scheme = [] ∨ 10 ∉ cString (buildAuthorizationValue config) := by
  unfold OneLine buildAuthorizationValue
  refine or_congr_right ?_
  generalize authenticationOr config = authentication
  dsimp only
  split_ifs with hcredentials
  · simp [hcredentials, cString]
  · by_cases hzero : 0 ∈ authentication.scheme
    · simp [cString_append_of_mem hzero, hzero]
    · have hself : cString authentication.scheme = authentication.scheme := by
        simpa [cString] using cString_append hzero []
      have hrest : cString (32 :: authentication.credentials) =
          32 :: cString authentication.credentials := cString_append (show (0 : UInt8) ∉ [32] by decide) _
      simp [cString_append hzero, hself, hrest, hzero]

theorem length_splitOn_of_mem {text : Bytes} (h : 10 ∈ text) : 2 ≤ (splitOn [10] text).length := by
  obtain ⟨before, after, rfl, hbefore⟩ := eq_append_cons_of_mem h
  rw [show before ++ 10 :: after = before ++ ([10] ++ after) from rfl, splitOn_append hbefore,
    length_cons]
  have hne : splitOn [10] after ≠ [] := by
    rw [splitOn_eq]
    split <;> simp
  have := length_pos_iff.mpr hne
  omega

theorem sentLines_buildHeaders (config : TaskPushNotificationConfig) :
    sentLines (buildHeaders config) =
      (kContentTypeHeader ++ kHeaderNameValueSeparator ++ kJsonContentType) ::
        if (authenticationOr config).scheme = [] then []
        else splitOn [10] (kAuthorizationHeaderName ++ kHeaderNameValueSeparator ++
          cString (buildAuthorizationValue config)) := by
  have hcontent : splitOn [10] (cString (buildHeaderValue (kContentTypeHeader, kJsonContentType))) =
      [kContentTypeHeader ++ kHeaderNameValueSeparator ++ kJsonContentType] := by
    decide +kernel
  have hname : (0 : UInt8) ∉ kAuthorizationHeaderName ++ kHeaderNameValueSeparator := by
    decide +kernel
  unfold buildHeaders
  split_ifs
  · rw [sentLines, curlHeaderList, map_singleton, flatMap_singleton, hcontent]
  · rw [sentLines, curlHeaderList, map_cons, map_singleton, flatMap_cons, flatMap_singleton, hcontent,
      buildHeaderValue, cString_append hname]
    rfl

theorem ownLines_iff (config : TaskPushNotificationConfig) :
    OwnLines (sentLines (buildHeaders config)) ↔ OneLine (authenticationOr config) := by
  have hname : (10 : UInt8) ∉ kAuthorizationHeaderName ++ kHeaderNameValueSeparator := by
    decide +kernel
  rw [sentLines_buildHeaders, oneLine_iff]
  unfold OwnLines
  by_cases hscheme : (authenticationOr config).scheme = []
  · rw [if_pos hscheme]
    exact iff_of_true ⟨[], rfl, .inl rfl⟩ (.inl hscheme)
  · rw [if_neg hscheme]
    constructor
    · rintro ⟨rest, hlines, hrest⟩
      refine .inr fun hbreak => ?_
      have hlength := length_splitOn_of_mem
        (List.mem_append_right (kAuthorizationHeaderName ++ kHeaderNameValueSeparator) hbreak)
      rw [(List.cons.inj hlines).2] at hlength
      rcases hrest with rfl | ⟨value, rfl⟩ <;> nomatch hlength
    · intro hline
      have hnone := hline.resolve_left hscheme
      refine ⟨_, rfl, .inr ⟨cString (buildAuthorizationValue config), ?_⟩⟩
      exact splitOn_of_notMem fun hmem => (List.mem_append.mp hmem).elim hname hnone

/-- Whatever request is handed over, its headers are those of the configuration. -/
theorem headers_of_deliver {messageToJson : StreamResponse → Result Bytes}
    {sendRequest : HttpRequest → Result Int} {options : HttpPushNotificationDeliveryOptions}
    {request : PushDeliveryRequest} {sent : HttpRequest}
    (h : sent ∈ (deliver messageToJson sendRequest options request).2) :
    sent.headers = buildHeaders request.config := by
  unfold deliver at h
  dsimp only at h
  split at h
  · cases h
  · split_ifs at h <;> simp only [mem_cons, not_mem_nil, or_false] at h
    · exact h ▸ rfl
    · rcases h with rfl | rfl <;> rfl

/-- A request that is handed to libcurl has its own lines only, exactly if scheme and credentials
make up one line. -/
theorem webhook_has_own_lines_iff {messageToJson : StreamResponse → Result Bytes}
    {sendRequest : HttpRequest → Result Int} {options : HttpPushNotificationDeliveryOptions}
    {request : PushDeliveryRequest} {sent : HttpRequest}
    (h : sent ∈ (deliver messageToJson sendRequest options request).2) :
    OwnLines (sentLines sent.headers) ↔ OneLine (authenticationOr request.config) := by
  rw [headers_of_deliver h]
  exact ownLines_iff request.config

/-- A configuration with a scheme, and a delivery for it. -/
def schemeConfig (scheme : Bytes) : TaskPushNotificationConfig :=
  { taskId := "t", id := "c", url := "https://a", authentication := some { scheme, credentials := "k" } }

@[inherit_doc schemeConfig]
def schemeRequest (scheme : Bytes) : PushDeliveryRequest := ⟨schemeConfig scheme, .statusUpdate {}⟩

/-- The requests of a delivery to a webhook that answers with a status. -/
def answered (status : Int) (scheme : Bytes) : List HttpRequest :=
  (deliver (fun _ => .ok "{}") (fun _ => .ok status) {} (schemeRequest scheme)).2

/-- The webhook fails over HTTP/2.0, so a second request is sent. -/
theorem plain_scheme_has_own_lines : ∃ first second, answered 500 "Bearer" = [first, second] ∧
    OwnLines (sentLines first.headers) ∧ OwnLines (sentLines second.headers) := by
  have hline : OneLine (authenticationOr (schemeConfig "Bearer")) := by decide +kernel
  have hown : ∀ sent ∈ answered 500 "Bearer", OwnLines (sentLines sent.headers) := fun sent h =>
    (webhook_has_own_lines_iff h).mpr hline
  have hsent : ∃ first second, answered 500 "Bearer" = [first, second] := ⟨_, _, rfl⟩
  obtain ⟨first, second, hrequests⟩ := hsent
  rw [hrequests] at hown ⊢
  exact ⟨first, second, rfl, hown _ mem_cons_self, hown _ (mem_cons_of_mem _ mem_cons_self)⟩

/-- The store takes the configuration, and its scheme brings headers of its own. -/
theorem scheme_adds_header_line : ∃ sent,
    (InMemoryPushStore.createOrUpdate .empty (schemeConfig "Bearer\r\nX-Role: admin\r\nX-Rest:")).1 =
      .ok (.config (schemeConfig "Bearer\r\nX-Role: admin\r\nX-Rest:")) ∧
    answered 200 "Bearer\r\nX-Role: admin\r\nX-Rest:" = [sent] ∧
    sentLines sent.headers = [bytes "Content-Type: application/json", bytes "Authorization: Bearer\r",
      bytes "X-Role: admin\r", bytes "X-Rest: k"] ∧ ¬ OwnLines (sentLines sent.headers) := by
  have hsent : ∃ sent, answered 200 "Bearer\r\nX-Role: admin\r\nX-Rest:" = [sent] := ⟨_, rfl⟩
  obtain ⟨sent, hrequests⟩ := hsent
  have hheaders : sent.headers = buildHeaders (schemeConfig "Bearer\r\nX-Role: admin\r\nX-Rest:") :=
    headers_of_deliver (hrequests ▸ mem_cons_self)
  refine ⟨sent, rfl, hrequests, ?_, ?_⟩
  · rw [hheaders]
    decide +kernel
  · rw [hheaders, ownLines_iff]
    decide +kernel

end A2A.Server
