/-
# From an HTTP request to the dispatcher (`rest_server_transport.cpp`).
-/
import A2A.Foundation.FormUrlEncoded
import A2A.Server.Transport.RestTransport

namespace A2A.Server.Transport

open A2A.Foundation A2A.Core A2A.Server.Dispatch

/-! ## Queries -/

/-- The loop of `DecodeUrlComponent`; a plus sign is written 43 and a percent sign 37. -/
def decodeUrlLoop : Bytes → Result Bytes
  | [] => .ok []
  | 43 :: raw => (decodeUrlLoop raw).map (32 :: ·)
  | 37 :: hi :: lo :: raw =>
    match hexDigitValue hi, hexDigitValue lo with
    | some high, some low => (decodeUrlLoop raw).map (UInt8.ofNat (high * 16 + low) :: ·)
    | _, _ => .error (.validation "Malformed URL encoding")
  | ch :: raw =>
    if ch = 37 then .error (.validation "Malformed URL encoding")
    else (decodeUrlLoop raw).map (ch :: ·)

/-- `DecodeUrlComponent`. -/
def decodeUrlComponent (raw : Bytes) : Result Bytes :=
  if 43 ∉ raw ∧ 37 ∉ raw then .ok raw else decodeUrlLoop raw

/-- A part of a query, cut at its first `=`. -/
def splitParameter (part : Bytes) : Bytes × Bytes := (breakOn (bytes "=") part).getD (part, [])

/-- The loop of `ParseQueryStringImpl`. -/
def parseQueryParts : List Bytes → QueryParams → Result QueryParams
  | [], out => .ok out
  | part :: parts, out =>
    if part.isEmpty then parseQueryParts parts out
    else
      match decodeUrlComponent (splitParameter part).1 with
      | .error e => .error e
      | .ok key =>
        match decodeUrlComponent (splitParameter part).2 with
        | .error e => .error e
        | .ok value => parseQueryParts parts (out.put (key, value))

/-- `ParseQueryStringImpl`. -/
def parseQueryString (raw : Bytes) : Result QueryParams :=
  if raw.isEmpty then .ok .empty else parseQueryParts (splitOn (bytes "&") raw) .empty

/-! ## Agent cards -/

def kAgentCardPath : Bytes := "/.well-known/agent-card.json"
def kLegacyAgentCardPath : Bytes := "/.well-known/agent.json"
def kExtendedAgentCardPath : Bytes := "/extendedAgentCard"

/-- `HasExtendedAgentCardView`. -/
def hasExtendedAgentCardView (query : Bytes) : Result Bool :=
  (parseQueryString query).map fun params => (params.find "view").map Prod.snd = some (bytes "extended")

/-- `PathStartsWithBasePath`. -/
def pathStartsWithBasePath (path basePath : Bytes) : Bool :=
  !basePath.isEmpty && basePath ≠ bytes "/" && basePath.isPrefixOf path &&
    (path.length = basePath.length || (path.drop basePath.length).head? = some 47)

/-- `ExtractTenantFromRelativeExtendedAgentCardPath`; that a slash stands before the tenant's end cannot fail. -/
def extractTenantFromRelativeExtendedAgentCardPath (path : Bytes) : Option Bytes :=
  if path.head? ≠ some 47 ∨ ¬ kExtendedAgentCardPath.isSuffixOf path then none
  else
    let tenantEnd := path.length - kExtendedAgentCardPath.length
    if tenantEnd ≤ 1 then none
    else
      let tenant := (path.drop 1).take (tenantEnd - 1)
      if tenant.isEmpty ∨ 47 ∈ tenant then none else some tenant

/-- `ExtractTenantFromExtendedAgentCardPath`. -/
def extractTenantFromExtendedAgentCardPath (path basePath : Bytes) : Option Bytes :=
  match extractTenantFromRelativeExtendedAgentCardPath path with
  | some tenant => some tenant
  | none =>
    if ¬ pathStartsWithBasePath path basePath then none
    else extractTenantFromRelativeExtendedAgentCardPath (path.drop basePath.length)

/-! ## Handling -/

/-- `RestServerTransport::NormalizeBasePath`. -/
def normalizeBasePath (path : Bytes) : Bytes :=
  if path.isEmpty then "/"
  else
    let normalized := if path.head? = some 47 then path else 47 :: path
    match normalized.rdropWhile (· = 47) with
    | [] => "/"
    | trimmed => trimmed

/-- `RestServerTransportOptions`, as far as requests are routed by them. -/
structure RestServerTransportOptions where
  restApiBasePath : Bytes := "/"
  requireVersionHeader : Bool := true
  requiredExtensions : List Bytes := []

/-- What becomes of a request: a dispatch, the agent card, or an error. -/
inductive RestOutcome where
  | dispatch (request : DispatchRequest)
  | agentCard
  /-- `Handle` returns the error. -/
  | failure (error : Error)
  /-- The response of `ErrorBody`. -/
  | errorBody (statusCode : Int) (message reason : Bytes)
  /-- The response of `RestTransport::BuildErrorResponse`. -/
  | errorResponse (error : Error)

namespace RestServerTransport

variable (options : RestServerTransportOptions) (bodies : RequestBodies)

def basePath : Bytes := normalizeBasePath options.restApiBasePath

/-- A request in which a header check fails, or `next`. -/
def withValidHeaders (headers : HttpHeaders) (next : RestOutcome) : RestOutcome :=
  match validateVersion options.requireVersionHeader headers with
  | .error e => .errorBody 400 e.message "VERSION_NOT_SUPPORTED"
  | .ok _ =>
    match validateExtensions options.requiredExtensions headers with
    | .error e => .errorBody 400 e.message "EXTENSION_SUPPORT_REQUIRED"
    | .ok _ => next

def kNoMatchingRoute : Bytes := "No matching route or request was malformed"

/-- `RestServerTransport::HandleAgentCard`. -/
def handleAgentCard (request : HttpServerRequest) : RestOutcome :=
  if request.method ≠ kMethodGet then .errorBody 404 kNoMatchingRoute "UNSUPPORTED_OPERATION" else .agentCard

/-- `RestServerTransport::HandleExtendedAgentCard`. -/
def handleExtendedAgentCard (request : HttpServerRequest) (tenant : Bytes) : RestOutcome :=
  if request.method ≠ kMethodGet then .errorBody 404 kNoMatchingRoute "UNSUPPORTED_OPERATION"
  else
    withValidHeaders options request.headers <|
      .dispatch { operation := .getExtendedAgentCard, payload := .getExtendedAgentCard { tenant } }

def splitTarget (target : Bytes) : Bytes × Option Bytes :=
  match breakOn (bytes "?") target with
  | none => (target, none)
  | some (path, query) => (path, some query)

def stripBasePath (path : Bytes) : Result Bytes :=
  if basePath options ≠ [] ∧ basePath options ≠ bytes "/" then
    if ¬ (basePath options).isPrefixOf path then
      .error (.validation "Request path does not match configured REST API base path")
    else
      match path.drop (basePath options).length with
      | [] => .ok "/"
      | rest => .ok rest
  else .ok path

/-- `RestServerTransport::BuildRestRequest`. -/
def buildRestRequest (request : HttpServerRequest) : Result RestRequest := do
  let (path, query) := splitTarget request.target
  let path ← stripBasePath options path
  let queryParams ← parseQueryString (query.getD [])
  pure { method := request.method, path, queryParams, headers := request.headers, body := request.body }

/-- The end of `RestServerTransport::Handle`, for a path of no card. -/
def handleRest (request : HttpServerRequest) : RestOutcome :=
  withValidHeaders options request.headers <|
    match buildRestRequest options request with
    | .error _ => .errorBody 404 kNoMatchingRoute "UNSUPPORTED_OPERATION"
    | .ok restRequest =>
      match RestTransport.dispatchRequest bodies restRequest with
      | .ok dispatch => .dispatch dispatch
      | .error e => .errorResponse e

/-- `RestServerTransport::Handle`, up to the call of the dispatcher. -/
def handle (request : HttpServerRequest) : RestOutcome :=
  if request.target.head? ≠ some 47 then .failure (.validation "HTTP request target must start with '/'")
  else
    let path := (splitTarget request.target).1
    if path = kAgentCardPath then
      match hasExtendedAgentCardView ((splitTarget request.target).2.getD []) with
      | .error e => .failure e
      | .ok true => handleExtendedAgentCard options request []
      | .ok false => handleAgentCard request
    else if path = kLegacyAgentCardPath then handleAgentCard request
    else if path = kExtendedAgentCardPath ∨
        (basePath options ≠ bytes "/" ∧ path = basePath options ++ kExtendedAgentCardPath) then
      handleExtendedAgentCard options request []
    else
      match extractTenantFromExtendedAgentCardPath path (basePath options) with
      | some tenant => handleExtendedAgentCard options request tenant
      | none => handleRest options bodies request

end RestServerTransport

end A2A.Server.Transport
