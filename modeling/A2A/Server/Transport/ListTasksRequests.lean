/-
# `ListTasks` over JSON-RPC and gRPC (`json_rpc_server_transport.cpp`,
`grpc_server_transport.cpp`).
-/
import A2A.Core.ProtoJson
import A2A.Server.DispatchTypes

/-! ## Numbers -/

namespace A2A.Core.AgentCard

/-- The digits as a number, without the point. -/
def Scientific.mantissa (value : Scientific) : Nat :=
  (value.first :: value.more).foldl (fun n d => n * 10 + d.val) 0

/-- The power of ten by which the mantissa is multiplied. -/
def Scientific.shift (value : Scientific) : Int := value.exponent - value.more.length

/-- The magnitude, rounded towards zero. -/
def Scientific.truncated (value : Scientific) : Nat :=
  if 0 ≤ value.shift then value.mantissa * 10 ^ value.shift.toNat else value.mantissa / 10 ^ (-value.shift).toNat

theorem Scientific.mantissa_pos (value : Scientific) : 0 < value.mantissa := by
  have hgrows : ∀ (digits : List (Fin 10)) (n : Nat), 0 < n → 0 < digits.foldl (fun n d => n * 10 + d.val) n := by
    intro digits
    induction digits with
    | nil => exact fun n hn => hn
    | cons d digits ih =>
      intro n hn
      apply ih
      show 0 < n * 10 + d.val
      omega
  have hfirst : value.first.val ≠ 0 := fun h => value.first_ne (Fin.ext h)
  show 0 < value.more.foldl (fun n d => n * 10 + d.val) (0 * 10 + value.first.val)
  apply hgrows
  omega

namespace JsonNumber

/-- The integer that a number is: the last digit of the mantissa is not zero. -/
def integer : JsonNumber → Option Int
  | .zero => some 0
  | .scientific value =>
    if 0 ≤ value.shift then some (if value.negative then -value.truncated else value.truncated) else none

def isNegative : JsonNumber → Bool
  | .zero => false
  | .scientific value => value.negative

/-- `static_cast<std::size_t>` for a number that is not negative, defined below 2^64 only. -/
def toSize : JsonNumber → Nat
  | .zero => 0
  | .scientific value => value.truncated

/-- An integer is negative if its number is, and else what the conversion gives. -/
theorem integer_spec {number : JsonNumber} {z : Int} (h : number.integer = some z) :
    (number.isNegative = true ↔ z < 0) ∧ (0 ≤ z → number.toSize = z.toNat) := by
  cases number with
  | zero =>
    cases h
    simp [isNegative, toSize]
  | scientific value =>
    simp only [integer] at h
    split_ifs at h with hshift hnegative
    all_goals cases h
    · have hpos : 0 < value.truncated := by
        rw [Scientific.truncated, if_pos hshift]
        exact Nat.mul_pos (Scientific.mantissa_pos value) (Nat.pow_pos (by omega))
      refine ⟨⟨fun _ => by omega, fun _ => hnegative⟩, fun h => ?_⟩
      omega
    · refine ⟨⟨fun h => absurd h hnegative, fun h => ?_⟩, fun _ => ?_⟩
      · omega
      · show value.truncated = (value.truncated : Int).toNat
        omega

end JsonNumber

end A2A.Core.AgentCard

namespace A2A.Server.Transport

open A2A.Foundation A2A.Core A2A.Server.Dispatch A2A.Server.Tasks
open A2A.Core.ProtoJson (utf8)

/-! ## JSON-RPC -/

/-- What is used of protobuf's readers. -/
structure ListTasksReaders where
  /-- `JsonToMessage` for the JSON text of a `google.protobuf.Timestamp`. -/
  timestamp : Bytes → Option Timestamp
  /-- `TaskState_Parse`. -/
  taskState : Bytes → Option TaskState

section JsonRpc

variable (readers : ListTasksReaders) (params : ProtoJson.Fields)

/-- `params.fields().find(name)`. -/
def findParam (name : String) : Option ProtoJson.Value := SortedAssoc.get name.toList params

/-- `ParseListTasksPageSize`. -/
def parseListTasksPageSize : Result Nat :=
  match findParam params "pageSize" with
  | none => normalizeListTasksPageSize none
  | some (.number number) =>
    match number.integer with
    | none => .error (.validation "ListTasksRequest.pageSize must be an integer between 1 and 100")
    | some size =>
      if size < 1 ∨ size > kMaxListTasksPageSize then
        .error (.validation "ListTasksRequest.pageSize must be an integer between 1 and 100")
      else .ok size.toNat
  | some _ => .error (.validation "ListTasksRequest.pageSize must be a number")

/-- The second half of `ParseListTasksContextId`. -/
def parseSnakeContextId (contextId : Bytes) : Result Bytes :=
  if ¬ contextId.isEmpty then .ok contextId
  else
    match findParam params "context_id" with
    | none => .ok contextId
    | some (.text text) => .ok (utf8 text)
    | some _ => .error (.validation "ListTasksRequest.context_id must be a string")

/-- `ParseListTasksContextId`. -/
def parseListTasksContextId : Result Bytes :=
  match findParam params "contextId" with
  | none => parseSnakeContextId params []
  | some (.text text) => parseSnakeContextId params (utf8 text)
  | some _ => .error (.validation "ListTasksRequest.contextId must be a string")

/-- `ParseListTasksPageToken`. -/
def parseListTasksPageToken : Result Bytes :=
  match findParam params "pageToken" with
  | none => .ok []
  | some (.text text) => .ok (utf8 text)
  | some _ => .error (.validation "ListTasksRequest.pageToken must be a string")

/-- `ParseListTasksStatus`. -/
def parseListTasksStatus : Result (Option TaskState) :=
  match findParam params "status" with
  | none => .ok none
  | some (.text text) =>
    match readers.taskState (utf8 text) with
    | none => .error (.validation "ListTasksRequest.status must be a valid TaskState value")
    | some state => .ok (some state)
  | some _ => .error (.validation "ListTasksRequest.status must be a string")

/-- `ParseListTasksTimestampAfter`; a quotation mark is written 34. -/
def parseListTasksTimestampAfter : Result (Option Timestamp) :=
  match findParam params "statusTimestampAfter" with
  | none => .ok none
  | some (.text text) =>
    match readers.timestamp (34 :: utf8 text ++ [34]) with
    | none => .error (.validation "ListTasksRequest.statusTimestampAfter must be an RFC3339 timestamp")
    | some timestamp => .ok (some timestamp)
  | some _ => .error (.validation "ListTasksRequest.statusTimestampAfter must be a string")

/-- `ParseListTasksHistoryLength`. -/
def parseListTasksHistoryLength : Result (Option Nat) :=
  match findParam params "historyLength" with
  | none => .ok none
  | some (.number number) =>
    if number.isNegative then .error (.validation "ListTasksRequest.historyLength must be non-negative")
    else .ok (some (number.toSize))
  | some _ => .error (.validation "ListTasksRequest.historyLength must be non-negative")

/-- `ParseListTasksIncludeArtifacts`. -/
def parseListTasksIncludeArtifacts : Result Bool :=
  match findParam params "includeArtifacts" with
  | none => .ok false
  | some (.bool value) => .ok value
  | some _ => .error (.validation "ListTasksRequest.includeArtifacts must be a boolean")

/-- `ApplyListTasksParsers`. -/
def applyListTasksParsers : Result ListTasksRequest := do
  let pageSize ← parseListTasksPageSize params
  let contextId ← parseListTasksContextId params
  let pageToken ← parseListTasksPageToken params
  let statusFilter ← parseListTasksStatus readers params
  let statusTimestampAfter ← parseListTasksTimestampAfter readers params
  let historyLength ← parseListTasksHistoryLength params
  let includeArtifacts ← parseListTasksIncludeArtifacts params
  pure { pageSize, pageToken, contextId, statusFilter, statusTimestampAfter, historyLength, includeArtifacts }

end JsonRpc

/-- `google.protobuf.Struct`. -/
def structDescriptor : ProtoJson.Descriptor := { wellKnownType := some .struct, fields := [] }

/-- The `fields` of a `Struct`. -/
def structFieldsOf : ProtoJson.Value → ProtoJson.Fields
  | .map entries => entries
  | _ => []

/-- `ParseListTasksPayload`. -/
def parseListTasksPayload (readers : ListTasksReaders) (protobuf : ProtoJson.Protobuf) (simdjson : ProtoJson.Simdjson)
    (json : Bytes) : Result ListTasksRequest :=
  match ProtoJson.jsonToMessage {} protobuf simdjson structDescriptor json with
  | .error e => .error e
  | .ok params => applyListTasksParsers readers (structFieldsOf params)

def isMethod (actual : Bytes) (names : List String) : Bool := (names.map bytes).contains actual

/-- The tests of `BuildDispatchRequestFromMethod` and `MethodToOperation`, in their order. -/
def methodToOperation (method : Bytes) : Option DispatcherOperation :=
  if isMethod method ["GetExtendedAgentCard", "a2a.getExtendedAgentCard"] then some .getExtendedAgentCard
  else if isMethod method ["CreateTaskPushNotificationConfig", "a2a.setTaskPushNotificationConfig"] then
    some .createTaskPushNotificationConfig
  else if isMethod method ["GetTaskPushNotificationConfig", "a2a.getTaskPushNotificationConfig"] then
    some .getTaskPushNotificationConfig
  else if isMethod method ["ListTaskPushNotificationConfigs", "a2a.listTaskPushNotificationConfigs"] then
    some .listTaskPushNotificationConfigs
  else if isMethod method ["DeleteTaskPushNotificationConfig", "a2a.deleteTaskPushNotificationConfig"] then
    some .deleteTaskPushNotificationConfig
  else if isMethod method ["SendMessage", "a2a.sendMessage", "tasks/send"] then some .sendMessage
  else if isMethod method ["SendStreamingMessage", "a2a.sendStreamingMessage"] then some .sendStreamingMessage
  else if isMethod method ["GetTask", "a2a.getTask", "tasks/get"] then some .getTask
  else if isMethod method ["SubscribeToTask", "a2a.subscribeToTask"] then some .subscribeTask
  else if isMethod method ["CancelTask", "a2a.cancelTask", "tasks/cancel"] then some .cancelTask
  else if isMethod method ["ListTasks", "a2a.listTasks", "tasks/list", "tasks.list"] then some .listTasks
  else none

/-- `BuildDispatchRequestFromMethod`; `parsePayload` is for other operations. -/
def buildDispatchRequestFromMethod (readers : ListTasksReaders) (protobuf : ProtoJson.Protobuf)
    (simdjson : ProtoJson.Simdjson) (parsePayload : DispatcherOperation → Bytes → Result RequestPayload)
    (method params : Bytes) : Result DispatchRequest :=
  match methodToOperation method with
  | none => .error ((Error.remoteProtocol "JSON-RPC method is not supported").withProtocolCode "-32601")
  | some .listTasks =>
    (parseListTasksPayload readers protobuf simdjson params).map fun payload =>
      { operation := .listTasks, payload := .listTasks payload }
  | some operation => (parsePayload operation params).map fun payload => { operation, payload }

/-! ## gRPC -/

/-- `lf.a2a.v1.ListTasksRequest`. -/
structure ListTasksMessage where
  tenant : Bytes := []
  contextId : Bytes := []
  status : TaskState := .unspecified
  pageSize : Option Int32 := none
  pageToken : Bytes := []
  historyLength : Option Int32 := none
  statusTimestampAfter : Option Timestamp := none
  includeArtifacts : Option Bool := none

/-- The history length in `GrpcServerTransport::ListTasks`. -/
def grpcHistoryLength (request : ListTasksMessage) : Result (Option Nat) :=
  match request.historyLength with
  | none => .ok none
  | some length =>
    if length < 0 then .error (.validation "ListTasksRequest.history_length must be non-negative")
    else .ok (some length.toInt.toNat)

/-- `GrpcServerTransport::ListTasks`, up to the dispatcher, in an accepted context. -/
def grpcListTasks (request : ListTasksMessage) : Result DispatchRequest := do
  let pageSize ← normalizeListTasksPageSize (request.pageSize.map Int32.toInt64)
  let historyLength ← grpcHistoryLength request
  pure
    { operation := .listTasks
      payload := .listTasks
        { pageSize
          pageToken := request.pageToken
          contextId := request.contextId
          statusFilter := if request.status = .unspecified then none else some request.status
          statusTimestampAfter := request.statusTimestampAfter
          historyLength
          includeArtifacts := request.includeArtifacts.getD false } }

end A2A.Server.Transport
