/-
# One `ListTasks` call over three bindings.
-/
import A2A.Core.ProtoJsonOrder
import A2A.Server.Transport.ListTasksRequests
import A2A.Server.Transport.RestBasePath
import A2A.Server.Transport.RestQueries

namespace A2A.Server.Transport

open A2A.Foundation A2A.Core A2A.Server.Dispatch A2A.Server.Tasks RestEndpointPaths ProtoJson List Option
open A2A.Core.AgentCard (JsonValue)
open A2A.Core.ProtoJson (utf8)

/-! ## Parameters -/

/-- The parameters of a call, where one that is not given is `none`. -/
structure ListTasksParameters where
  pageSize : Option Int32 := none
  pageToken : Option Text := none
  contextId : Option Text := none
  status : Option TaskState := none
  statusTimestampAfter : Option Timestamp := none
  historyLength : Option Int32 := none
  includeArtifacts : Option Bool := none

namespace ListTasksParameters

variable (parameters : ListTasksParameters)

/-- The page size, if it is in range. -/
def meantPageSize : Option Nat :=
  match parameters.pageSize with
  | none => some kDefaultListTasksPageSize
  | some size => if 1 ≤ size.toInt ∧ size.toInt ≤ kMaxListTasksPageSize then some size.toInt.toNat else none

/-- The history length, if it is not negative. -/
def meantHistoryLength : Option (Option Nat) :=
  match parameters.historyLength with
  | none => some none
  | some length => if length.toInt < 0 then none else some (some length.toInt.toNat)

/-- The request for this page size and history length. -/
def requestWith (pageSize : Nat) (historyLength : Option Nat) : ListTasksRequest where
  pageSize
  pageToken := (parameters.pageToken.map utf8).getD []
  contextId := (parameters.contextId.map utf8).getD []
  statusFilter := parameters.status
  statusTimestampAfter := parameters.statusTimestampAfter
  historyLength
  includeArtifacts := parameters.includeArtifacts.getD false

/-- The request that is meant, or none. -/
def request : Option ListTasksRequest :=
  parameters.meantPageSize.bind fun pageSize => parameters.meantHistoryLength.map (parameters.requestWith pageSize)

/-- No request is meant: the page size is out of range, or the history length negative. -/
def Refused : Prop :=
  (∃ size, parameters.pageSize = some size ∧ ¬ (1 ≤ size.toInt ∧ size.toInt ≤ kMaxListTasksPageSize)) ∨
    ∃ length, parameters.historyLength = some length ∧ length.toInt < 0

variable {parameters}

theorem meantPageSize_eq_none_iff : parameters.meantPageSize = none ↔
    ∃ size, parameters.pageSize = some size ∧ ¬ (1 ≤ size.toInt ∧ size.toInt ≤ kMaxListTasksPageSize) := by
  unfold meantPageSize
  cases parameters.pageSize with
  | none => simp
  | some size => simp only [ite_eq_right_iff, reduceCtorEq, imp_false, Option.some.injEq, exists_eq_left']

theorem meantHistoryLength_eq_none_iff : parameters.meantHistoryLength = none ↔
    ∃ length, parameters.historyLength = some length ∧ length.toInt < 0 := by
  unfold meantHistoryLength
  cases parameters.historyLength with
  | none => simp
  | some length => simp only [ite_eq_left_iff, reduceCtorEq, imp_false, not_not, Option.some.injEq, exists_eq_left']

/-- `Refused` says when no request is meant. -/
theorem request_eq_none_iff : parameters.request = none ↔ parameters.Refused := by
  rw [Refused, ← meantPageSize_eq_none_iff, ← meantHistoryLength_eq_none_iff, request]
  cases parameters.meantPageSize with
  | none | some => simp

theorem exists_requestWith {request : ListTasksRequest} (h : parameters.request = some request) :
    ∃ pageSize historyLength, request = parameters.requestWith pageSize historyLength := by
  obtain ⟨pageSize, -, hrequest⟩ := bind_eq_some_iff.mp h
  obtain ⟨historyLength, -, rfl⟩ := map_eq_some_iff.mp hrequest
  exact ⟨pageSize, historyLength, rfl⟩

end ListTasksParameters

/-! ## Queries, objects and messages -/

section Expressed

variable (readers : ListTasksReaders)

/-- The JSON value is this integer. -/
def IsNumber (json : JsonValue) (n : Int32) : Prop := ∃ number, json = .number number ∧ number.integer = some n.toInt

/-- The members of a JSON object express the parameters. -/
structure ParamsExpress (members : List (Text × JsonValue)) (parameters : ListTasksParameters) : Prop where
  distinct : (members.map Prod.fst).Nodup
  pageSize : Option.Rel IsNumber (members.lookup "pageSize".toList) parameters.pageSize
  pageToken : members.lookup "pageToken".toList = parameters.pageToken.map .string
  contextId : members.lookup "contextId".toList = parameters.contextId.map .string
  noSnakeContextId : members.lookup "context_id".toList = none
  status : Option.Rel (fun json state => ∃ name, json = .string name ∧ readers.taskState (utf8 name) = some state)
    (members.lookup "status".toList) parameters.status
  statusTimestampAfter :
    Option.Rel (fun json time => ∃ text, json = .string text ∧ readers.timestamp (34 :: utf8 text ++ [34]) = some time)
      (members.lookup "statusTimestampAfter".toList) parameters.statusTimestampAfter
  historyLength : Option.Rel IsNumber (members.lookup "historyLength".toList) parameters.historyLength
  includeArtifacts : members.lookup "includeArtifacts".toList = parameters.includeArtifacts.map .bool

/-- The fields of a query express the parameters. -/
structure FieldsExpress (fields : List (Bytes × Bytes)) (parameters : ListTasksParameters) : Prop where
  distinct : (fields.map Prod.fst).Nodup
  pageSize : fields.lookup (bytes "pageSize") = parameters.pageSize.map fun size => toDecimal size.toInt
  pageToken : fields.lookup (bytes "pageToken") = parameters.pageToken.map utf8
  contextId : fields.lookup (bytes "contextId") = parameters.contextId.map utf8
  status : Option.Rel (fun name state => readers.taskState name = some state) (fields.lookup (bytes "status"))
    parameters.status
  statusTimestampAfter : Option.Rel (fun text time => readers.timestamp (34 :: text ++ [34]) = some time)
    (fields.lookup (bytes "statusTimestampAfter")) parameters.statusTimestampAfter
  historyLength : fields.lookup (bytes "historyLength") =
    parameters.historyLength.map fun length => toDecimal length.toInt
  includeArtifacts : fields.lookup (bytes "includeArtifacts") =
    parameters.includeArtifacts.map fun value => if value then bytes "true" else bytes "false"

/-- A query expresses the parameters, in one of their spellings. -/
def QueryExpresses (query : Bytes) (parameters : ListTasksParameters) : Prop :=
  ∃ raws fields, query = queryText raws ∧ List.Forall₂ SpellsField raws fields ∧ FieldsExpress readers fields parameters

end Expressed

/-- A protobuf message expresses the parameters; a status that is not given is `TASK_STATE_UNSPECIFIED`. -/
structure MessageExpresses (message : ListTasksMessage) (parameters : ListTasksParameters) : Prop where
  pageSize : message.pageSize = parameters.pageSize
  pageToken : message.pageToken = (parameters.pageToken.map utf8).getD []
  contextId : message.contextId = (parameters.contextId.map utf8).getD []
  status : message.status = parameters.status.getD .unspecified
  statusTimestampAfter : message.statusTimestampAfter = parameters.statusTimestampAfter
  historyLength : message.historyLength = parameters.historyLength
  includeArtifacts : message.includeArtifacts = parameters.includeArtifacts

/-- What the dispatcher is handed for a list request. -/
def listTasksDispatch (request : ListTasksRequest) : DispatchRequest :=
  { operation := .listTasks, payload := .listTasks request }

variable {parameters : ListTasksParameters}

theorem toOption_bind {ε α β : Type} (x : Except ε α) (f : α → Except ε β) :
    (x >>= f).toOption = x.toOption.bind fun a => (f a).toOption := by
  cases x with
  | error | ok => rfl

/-! ## gRPC -/

open ListTasksParameters

section Grpc

variable {message : ListTasksMessage}

section

variable (h : MessageExpresses message parameters)

include h

theorem grpcPageSize :
    (normalizeListTasksPageSize (message.pageSize.map Int32.toInt64)).toOption = parameters.meantPageSize := by
  rw [h.pageSize]
  unfold meantPageSize
  cases parameters.pageSize with
  | none => rfl
  | some size =>
    rw [map_some, normalizeListTasksPageSize_toOption, Int32.toInt_toInt64]

theorem grpcHistoryLength_toOption : (grpcHistoryLength message).toOption = parameters.meantHistoryLength := by
  unfold grpcHistoryLength meantHistoryLength
  rw [h.historyLength]
  cases parameters.historyLength with
  | none => rfl
  | some length =>
    have hzero : length < 0 ↔ length.toInt < 0 := Int32.lt_iff_toInt_lt
    by_cases hneg : length.toInt < 0
    · simp only [hzero, if_pos hneg]
      rfl
    · simp only [hzero, if_neg hneg]
      rfl

/-- gRPC hands over what is meant; `TASK_STATE_UNSPECIFIED` is no status. -/
theorem grpc_hands :
    (grpcListTasks message).toOption = parameters.request.map fun request =>
      listTasksDispatch { request with
          statusFilter := if parameters.status = some .unspecified then none else parameters.status } := by
  have hstatus : (if message.status = .unspecified then none else some message.status) =
      if parameters.status = some .unspecified then none else parameters.status := by
    rw [h.status]
    cases parameters.status with
    | none => rfl
    | some state => simp only [getD_some, Option.some.injEq]
  unfold grpcListTasks ListTasksParameters.request
  rw [toOption_bind, grpcPageSize h]
  cases parameters.meantPageSize with
  | none => rfl
  | some pageSize =>
    rw [bind_some, bind_some, toOption_bind, grpcHistoryLength_toOption h]
    cases parameters.meantHistoryLength with
    | none => rfl
    | some historyLength =>
      rw [bind_some, hstatus, h.pageToken, h.contextId, h.statusTimestampAfter, h.includeArtifacts]
      rfl

end

end Grpc

/-! ## JSON-RPC -/

section JsonRpc

variable {readers : ListTasksReaders} {members : List (Text × JsonValue)}

/-- The fields of the `Struct` that the members are read as. -/
abbrev paramsOf (members : List (Text × JsonValue)) : ProtoJson.Fields :=
  structFieldsOf (ProtoJson.jsonToValue (.object members))

/-- A parameter is found under the name of its member. -/
theorem findParam_structFields (hdistinct : (members.map Prod.fst).Nodup) (name : String) :
    findParam (paramsOf members) name = (members.lookup name.toList).map ProtoJson.jsonToValue := by
  show SortedAssoc.get name.toList (structFields members []) = _
  rw [structFields_eq]
  cases hfound : members.lookup name.toList with
  | none =>
    have hfresh : name.toList ∉ members.map Prod.fst := by
      intro hmem
      obtain ⟨member, hmember, heq⟩ := mem_map.mp hmem
      have hne := lookup_eq_none_iff.mp hfound member hmember
      exact bne_iff_ne.mp hne heq.symm
    rw [← names_written] at hfresh
    rw [SortedAssoc.get_setAll_of_not_mem hfresh]
    rfl
  | some value =>
    obtain ⟨before, after, rfl, -⟩ := lookup_eq_some_iff.mp hfound
    have hmem : (name.toList, value) ∈ before ++ (name.toList, value) :: after :=
      mem_append_right _ (mem_cons_self ..)
    rw [← names_written] at hdistinct
    exact (SortedAssoc.get_setAll_iff hdistinct).mpr (mem_map.mpr ⟨_, hmem, rfl⟩)

section

variable (h : ParamsExpress readers members parameters)

include h

theorem parsePageSize_params : (parseListTasksPageSize (paramsOf members)).toOption = parameters.meantPageSize := by
  have hsize := h.pageSize
  unfold parseListTasksPageSize meantPageSize
  rw [findParam_structFields h.distinct]
  generalize members.lookup "pageSize".toList = found at hsize ⊢
  generalize parameters.pageSize = given at hsize ⊢
  cases hsize with
  | none => rfl
  | @some json size hnumber =>
    obtain ⟨number, rfl, hinteger⟩ := hnumber
    rw [map_some, jsonToValue]
    simp only [hinteger]
    by_cases hrange : 1 ≤ size.toInt ∧ size.toInt ≤ kMaxListTasksPageSize
    · rw [if_pos hrange, if_neg (by omega)]
      rfl
    · rw [if_neg hrange, if_pos (by omega)]
      rfl

theorem parseHistoryLength_params :
    (parseListTasksHistoryLength (paramsOf members)).toOption = parameters.meantHistoryLength := by
  have hlength := h.historyLength
  unfold parseListTasksHistoryLength meantHistoryLength
  rw [findParam_structFields h.distinct]
  generalize members.lookup "historyLength".toList = found at hlength ⊢
  generalize parameters.historyLength = given at hlength ⊢
  cases hlength with
  | none => rfl
  | @some json length hnumber =>
    obtain ⟨number, rfl, hinteger⟩ := hnumber
    obtain ⟨hneg, hsize⟩ := AgentCard.JsonNumber.integer_spec hinteger
    rw [map_some, jsonToValue]
    by_cases hsign : length.toInt < 0
    · simp only [if_pos hsign, if_pos (hneg.mpr hsign)]
      rfl
    · simp only [if_neg hsign, if_neg (mt hneg.mp hsign), hsize (Int.not_lt.mp hsign)]
      rfl

theorem parseStatus_params : parseListTasksStatus readers (paramsOf members) = .ok parameters.status := by
  have hstatus := h.status
  unfold parseListTasksStatus
  rw [findParam_structFields h.distinct]
  generalize members.lookup "status".toList = found at hstatus ⊢
  generalize parameters.status = given at hstatus ⊢
  cases hstatus with
  | none => rfl
  | some hname =>
    obtain ⟨name, rfl, hstate⟩ := hname
    rw [map_some, jsonToValue]
    simp only [hstate]

theorem parseTimestampAfter_params :
    parseListTasksTimestampAfter readers (paramsOf members) = .ok parameters.statusTimestampAfter := by
  have htime := h.statusTimestampAfter
  unfold parseListTasksTimestampAfter
  rw [findParam_structFields h.distinct]
  generalize members.lookup "statusTimestampAfter".toList = found at htime ⊢
  generalize parameters.statusTimestampAfter = given at htime ⊢
  cases htime with
  | none => rfl
  | some htext =>
    obtain ⟨text, rfl, hread⟩ := htext
    rw [map_some, jsonToValue]
    simp only [hread]

theorem parsePageToken_params :
    parseListTasksPageToken (paramsOf members) = .ok ((parameters.pageToken.map utf8).getD []) := by
  unfold parseListTasksPageToken
  rw [findParam_structFields h.distinct, h.pageToken]
  cases parameters.pageToken with
  | none | some => rfl

theorem parseContextId_params :
    parseListTasksContextId (paramsOf members) = .ok ((parameters.contextId.map utf8).getD []) := by
  have hsnake (contextId : Bytes) : parseSnakeContextId (paramsOf members) contextId = .ok contextId := by
    rw [parseSnakeContextId, findParam_structFields h.distinct, h.noSnakeContextId]
    exact ite_self _
  unfold parseListTasksContextId
  rw [findParam_structFields h.distinct, h.contextId]
  cases parameters.contextId with
  | none | some => exact hsnake _

theorem parseIncludeArtifacts_params :
    parseListTasksIncludeArtifacts (paramsOf members) = .ok (parameters.includeArtifacts.getD false) := by
  unfold parseListTasksIncludeArtifacts
  rw [findParam_structFields h.distinct, h.includeArtifacts]
  cases parameters.includeArtifacts with
  | none | some => rfl

/-- The parsers of the parameters, one after the other, give the request that is meant. -/
theorem applyListTasksParsers_params :
    (applyListTasksParsers readers (paramsOf members)).toOption = parameters.request := by
  unfold applyListTasksParsers ListTasksParameters.request
  rw [toOption_bind, parsePageSize_params h]
  cases parameters.meantPageSize with
  | none => rfl
  | some pageSize =>
    rw [bind_some, bind_some, parseContextId_params h, parsePageToken_params h, parseStatus_params h,
      parseTimestampAfter_params h, parseIncludeArtifacts_params h]
    show ((parseListTasksHistoryLength _ >>= fun historyLength =>
      pure (parameters.requestWith pageSize historyLength)).toOption : Option ListTasksRequest) = _
    rw [toOption_bind, parseHistoryLength_params h]
    cases parameters.meantHistoryLength with
    | none | some => rfl

end

/-- JSON-RPC hands over the request that is meant, unless the text is too long. -/
theorem jsonRpc_hands {protobuf : ProtoJson.Protobuf} {simdjson : ProtoJson.Simdjson}
    {parsePayload : DispatcherOperation → Bytes → Result RequestPayload} {method params : Bytes}
    (hmethod : methodToOperation method = some .listTasks) (hparams : simdjson.dom params = some (.object members))
    (h : ParamsExpress readers members parameters) :
    (buildDispatchRequestFromMethod readers protobuf simdjson parsePayload method params).toOption =
      if params.length ≤ ProtoJson.kMaximumJsonBytes then parameters.request.map listTasksDispatch else none := by
  unfold buildDispatchRequestFromMethod
  simp only [hmethod]
  by_cases hlength : params.length ≤ kMaximumJsonBytes
  · have hmessage : jsonToMessage {} protobuf simdjson structDescriptor params =
        .ok (jsonToValue (.object members)) := by
      unfold jsonToMessage decodeDocument parseDocument
      rw [if_neg (Nat.not_lt.mpr hlength), hparams]
      rfl
    rw [if_pos hlength, ← applyListTasksParsers_params h, parseListTasksPayload, hmessage]
    dsimp only
    cases applyListTasksParsers readers (paramsOf members) with
    | error | ok => rfl
  · have hmessage : jsonToMessage {} protobuf simdjson structDescriptor params =
        .error (.serialization kJsonSizeError) := by
      unfold jsonToMessage decodeDocument parseDocument
      rw [if_pos (Nat.lt_of_not_le hlength)]
      rfl
    rw [if_neg hlength, parseListTasksPayload, hmessage]
    rfl

end JsonRpc

/-! ## HTTP+JSON -/

section Rest

variable {readers : ListTasksReaders} {fields : List (Bytes × Bytes)} {request : RestRequest}

section

variable (h : FieldsExpress readers fields parameters) (hlookup : ∀ name, lookupQuery request name = fields.lookup name)

include h hlookup

theorem listTasksPageSize_fields : listTasksPageSize request = parameters.meantPageSize := by
  unfold listTasksPageSize meantPageSize
  rw [hlookup, h.pageSize]
  cases parameters.pageSize with
  | none => rfl
  | some size =>
    have hhigh := size.toInt_lt
    rw [map_some]
    dsimp only
    by_cases hneg : size.toInt < 0
    · rw [parsePageSize_toDecimal_of_neg hneg, if_pos (by decide), if_neg (by omega)]
    · rw [parsePageSize_toDecimal (by omega) (by omega), if_neg hneg, normalizeListTasksPageSize_toOption,
        Int64.toInt_ofInt_of_le (by omega) (by omega)]

theorem listTasksHistoryLength_fields : listTasksHistoryLength request = parameters.meantHistoryLength := by
  unfold listTasksHistoryLength meantHistoryLength
  rw [hlookup, h.historyLength]
  cases parameters.historyLength with
  | none => rfl
  | some length =>
    have hhigh := length.toInt_lt
    rw [map_some]
    dsimp only
    by_cases hneg : length.toInt < 0
    · rw [parsePageSize_toDecimal_of_neg hneg, if_pos (by decide), if_pos hneg]
    · rw [parsePageSize_toDecimal (by omega) (by omega)]

end

/-- HTTP+JSON hands over the request that is meant without its status and its cutoff. -/
theorem rest_hands {base : BasePath} {options : RestServerTransportOptions} {bodies : RequestBodies}
    {query : Option Bytes} {request : HttpServerRequest} (hbelow : Below base options kTaskCollection query request)
    (hmethod : request.method = kMethodGet) (haccepted : HeadersAccepted options request.headers)
    (h : QueryExpresses readers (query.getD []) parameters) :
    (RestServerTransport.handle options bodies request).dispatched = parameters.request.map fun request =>
      listTasksDispatch { request with statusFilter := none, statusTimestampAfter := none } := by
  obtain ⟨raws, fields, hquery, hspells, hfields⟩ := h
  obtain ⟨params, hparams, hlookup⟩ := lookup_reverse_queryText hspells
  have hhandle : (RestServerTransport.handle options bodies request).dispatched =
      buildListTasksDispatchRequest (request.routed kTaskCollection params) := by
    rw [← dispatchRequest_collection bodies hmethod rfl]
    ext dispatch
    rw [dispatched_below hbelow, if_neg (by decide), hquery, hparams]
    simp only [haccepted, true_and, Except.ok.injEq, exists_eq_left']
    cases RestTransport.dispatchRequest bodies (request.routed kTaskCollection params) with
    | error | ok => simp [Except.toOption]
  have hlookup (name : Bytes) : lookupQuery (request.routed kTaskCollection params) name = fields.lookup name :=
    (hlookup name).trans (lookup_reverse hfields.distinct name)
  have hartifacts : decide (fields.lookup (bytes "includeArtifacts") = some (bytes "true")) =
      parameters.includeArtifacts.getD false := by
    rw [hfields.includeArtifacts]
    rcases parameters.includeArtifacts with _ | (_ | _)
    · rfl
    · rfl
    · rfl
  rw [hhandle, buildListTasksDispatchRequest, if_neg (by simpa [HttpServerRequest.routed] using hmethod),
    listTasksPageSize_fields hfields hlookup, listTasksHistoryLength_fields hfields hlookup, hlookup, hlookup, hlookup,
    hfields.pageToken, hfields.contextId, hartifacts, ListTasksParameters.request]
  cases parameters.meantPageSize with
  | none => rfl
  | some pageSize =>
    cases parameters.meantHistoryLength with
    | none | some => rfl

end Rest

/-! ## Agreement -/

section Agreement

variable {readers : ListTasksReaders} {protobuf : ProtoJson.Protobuf} {simdjson : ProtoJson.Simdjson}
  {parsePayload : DispatcherOperation → Bytes → Result RequestPayload} {base : BasePath}
  {options : RestServerTransportOptions} {bodies : RequestBodies} {query : Option Bytes} {request : HttpServerRequest}
  {method params : Bytes} {members : List (Text × JsonValue)} {message : ListTasksMessage}

/-- Three bindings hand the same request to the dispatcher, or all reject. -/
def Agree (rest : RestOutcome) (jsonRpc grpc : Result DispatchRequest) : Prop :=
  rest.dispatched = jsonRpc.toOption ∧ jsonRpc.toOption = grpc.toOption

/-- The three bindings agree exactly if all reject the parameters, or if neither a status nor a cutoff is given and
the JSON text is not too long. -/
theorem listTasks_bindings_agree_iff (hbelow : Below base options kTaskCollection query request)
    (hget : request.method = kMethodGet) (haccepted : HeadersAccepted options request.headers)
    (hquery : QueryExpresses readers (query.getD []) parameters)
    (hmethod : methodToOperation method = some .listTasks) (hparams : simdjson.dom params = some (.object members))
    (hmembers : ParamsExpress readers members parameters) (hmessage : MessageExpresses message parameters) :
    Agree (RestServerTransport.handle options bodies request)
        (buildDispatchRequestFromMethod readers protobuf simdjson parsePayload method params) (grpcListTasks message) ↔
      parameters.Refused ∨ (parameters.status = none ∧ parameters.statusTimestampAfter = none ∧
        params.length ≤ ProtoJson.kMaximumJsonBytes) := by
  rw [Agree, rest_hands hbelow hget haccepted hquery, jsonRpc_hands hmethod hparams hmembers, grpc_hands hmessage,
    ← request_eq_none_iff]
  cases hrequest : parameters.request with
  | none => simp
  | some request =>
    obtain ⟨pageSize, historyLength, rfl⟩ := exists_requestWith hrequest
    constructor
    · -- the query and the object are enough: the first never filters
      rintro ⟨hrest, -⟩
      split_ifs at hrest with hlength
      · have hsame := RequestPayload.listTasks.inj (congrArg DispatchRequest.payload (Option.some.inj hrest))
        have hstatus := congrArg ListTasksRequest.statusFilter hsame
        have hcutoff := congrArg ListTasksRequest.statusTimestampAfter hsame
        exact .inr ⟨hstatus.symm, hcutoff.symm, hlength⟩
      · cases hrest
    · rintro (hnone | ⟨hstatus, hcutoff, hlength⟩)
      · cases hnone
      · rw [if_pos hlength]
        simp [requestWith, hstatus, hcutoff]

end Agreement

/-! ## Two calls -/

namespace SampleCall

/-- Readers that know one status and no time. -/
def readers : ListTasksReaders where
  timestamp _ := none
  taskState name := if name = bytes "TASK_STATE_WORKING" then some .working else none

/-- A parser that knows one text. -/
def simdjson (text : Bytes) (members : List (Text × JsonValue)) : ProtoJson.Simdjson where
  dom json := if json = text then some (.object members) else none
  ondemand json := if json = text then some (.object members) else none

/-- The other methods are not called. -/
def parsePayload (_ : DispatcherOperation) (_ : Bytes) : Result RequestPayload := .ok (.listTasks {})

/-- Nor are bodies read. -/
def bodies : RequestBodies where
  sendMessage _ := .error (.validation "no body")
  pushConfig _ := .error (.validation "no body")

/-- The default options. -/
def options : RestServerTransportOptions := {}

/-- No base path. -/
def base : BasePath := ⟨[], by simp⟩

/-- The version header, which is required. -/
def headers : HttpHeaders := Table.empty.put (kVersionHeaderName, "1.0")

/-- A list request with this query. -/
def httpRequest (query : Bytes) : HttpServerRequest where
  method := kMethodGet
  target := targetOf kTaskCollection (some query)
  headers
  body := []
  remoteAddress := []

theorem below (query : Bytes) : Below base options kTaskCollection (some query) (httpRequest query) where
  configured := ⟨1, rfl⟩
  target := rfl
  taskPath := .inl rfl
  noQuery := by decide

theorem accepted : HeadersAccepted options headers := ⟨⟨(), by decide +kernel⟩, [], rfl⟩

theorem dom_simdjson (text : Bytes) (members : List (Text × JsonValue)) :
    (simdjson text members).dom text = some (.object members) := if_pos rfl

/-- Fields without reserved characters spell themselves. -/
theorem spellsFields {fields : List (Bytes × Bytes)}
    (h : ∀ field ∈ fields, ∀ part ∈ [field.1, field.2], 43 ∉ part ∧ 37 ∉ part ∧ 38 ∉ part ∧ 61 ∉ part) :
    List.Forall₂ SpellsField fields fields := by
  rw [forall₂_same]
  intro field hfield
  obtain ⟨hplus, hpercent, hand, heq⟩ := h field hfield field.1 (by simp)
  obtain ⟨hplus', hpercent', hand', -⟩ := h field hfield field.2 (by simp)
  exact ⟨.of_plain hplus hpercent, .of_plain hplus' hpercent', ⟨hand, heq⟩, hand'⟩

/-- A page of ten tasks of one context, with their artifacts. -/
def pageOfTen : ListTasksParameters :=
  { pageSize := some 10, contextId := some "c".toList, includeArtifacts := some true }

/-- That call as the fields of a query. -/
def tenFields : List (Bytes × Bytes) := [("includeArtifacts", "true"), ("pageSize", "10"), ("contextId", "c")]

/-- That call as the members of an object, in another order. -/
def tenMembers : List (Text × JsonValue) :=
  [("contextId".toList, .string "c".toList), ("pageSize".toList, .number .ten), ("includeArtifacts".toList, .bool true)]

/-- The text of that object. -/
def tenParams : Bytes := "\x7b\"contextId\":\"c\",\"pageSize\":10,\"includeArtifacts\":true\x7d"

/-- That call as a message. -/
def tenMessage : ListTasksMessage :=
  { pageSize := some 10, contextId := utf8 "c".toList, includeArtifacts := some true }

theorem tenFields_express : FieldsExpress readers tenFields pageOfTen where
  distinct := by decide +kernel
  pageSize := by decide +kernel
  pageToken := by decide +kernel
  contextId := by decide +kernel
  status := .none
  statusTimestampAfter := .none
  historyLength := by decide +kernel
  includeArtifacts := by decide +kernel

theorem tenMembers_express : ParamsExpress readers tenMembers pageOfTen where
  distinct := by decide
  pageSize := .some ⟨.ten, rfl, rfl⟩
  pageToken := rfl
  contextId := rfl
  noSnakeContextId := rfl
  status := .none
  statusTimestampAfter := .none
  historyLength := .none
  includeArtifacts := rfl

/-- The tasks that are being worked on. -/
def workingTasks : ListTasksParameters := { status := some .working }

/-- That call as the fields of a query. -/
def workingFields : List (Bytes × Bytes) := [("status", "TASK_STATE_WORKING")]

/-- That call as the members of an object. -/
def workingMembers : List (Text × JsonValue) := [("status".toList, .string "TASK_STATE_WORKING".toList)]

/-- The text of that object. -/
def workingParams : Bytes := "\x7b\"status\":\"TASK_STATE_WORKING\"\x7d"

/-- That call as a message. -/
def workingMessage : ListTasksMessage := { status := .working }

theorem workingFields_express : FieldsExpress readers workingFields workingTasks where
  distinct := by decide +kernel
  pageSize := rfl
  pageToken := rfl
  contextId := rfl
  status := .some (by decide +kernel)
  statusTimestampAfter := .none
  historyLength := rfl
  includeArtifacts := rfl

theorem workingMembers_express : ParamsExpress readers workingMembers workingTasks where
  distinct := by decide
  pageSize := .none
  pageToken := rfl
  contextId := rfl
  noSnakeContextId := rfl
  status := .some ⟨_, rfl, by decide +kernel⟩
  statusTimestampAfter := .none
  historyLength := .none
  includeArtifacts := rfl

end SampleCall

open SampleCall in
theorem page_of_ten_bindings_agree :
    Agree (RestServerTransport.handle options bodies (httpRequest (queryText tenFields)))
      (buildDispatchRequestFromMethod readers .refusing (simdjson tenParams tenMembers) parsePayload
        "ListTasks" tenParams)
      (grpcListTasks tenMessage) := by
  have hquery : QueryExpresses readers (queryText tenFields) pageOfTen :=
    ⟨tenFields, tenFields, rfl, spellsFields (by decide +kernel), tenFields_express⟩
  have hmessage : MessageExpresses tenMessage pageOfTen := ⟨rfl, rfl, rfl, rfl, rfl, rfl, rfl⟩
  exact (listTasks_bindings_agree_iff (below (queryText tenFields)) rfl accepted hquery (by decide +kernel)
    (dom_simdjson ..) tenMembers_express hmessage).mpr (.inr ⟨rfl, rfl, by decide +kernel⟩)

open SampleCall in
/-- A call for the tasks that are being worked on: the query, the object and the message all say so, but HTTP+JSON
hands over a request for all tasks. -/
theorem rest_drops_status :
    QueryExpresses readers (queryText workingFields) workingTasks ∧
    ParamsExpress readers workingMembers workingTasks ∧ MessageExpresses workingMessage workingTasks ∧
    ¬ Agree (RestServerTransport.handle options bodies (httpRequest (queryText workingFields)))
      (buildDispatchRequestFromMethod readers .refusing (simdjson workingParams workingMembers) parsePayload "ListTasks"
        workingParams) (grpcListTasks workingMessage) := by
  have hquery : QueryExpresses readers (queryText workingFields) workingTasks :=
    ⟨workingFields, workingFields, rfl, spellsFields (by decide +kernel), workingFields_express⟩
  refine ⟨hquery, workingMembers_express, ⟨rfl, rfl, rfl, rfl, rfl, rfl, rfl⟩, ?_⟩
  rintro ⟨hrest, -⟩
  rw [rest_hands (below (queryText workingFields)) rfl accepted hquery,
    jsonRpc_hands (by decide +kernel) (dom_simdjson ..) workingMembers_express, if_pos (by decide +kernel)] at hrest
  have hsame := RequestPayload.listTasks.inj (congrArg DispatchRequest.payload (Option.some.inj hrest))
  have hstatus : (none : Option TaskState) = some .working := congrArg ListTasksRequest.statusFilter hsame
  cases hstatus

end A2A.Server.Transport
