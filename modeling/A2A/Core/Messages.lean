/-
# The protocol messages (`proto/a2a/v1/a2a.proto`, `a2a/core/task_states.h`).
-/
import A2A.Foundation.Bytes

namespace A2A.Core

open A2A.Foundation

/-! ## `google.protobuf` values -/

/-- `google.protobuf.Value`; a number is kept as its 64 bits. -/
inductive Value where
  | nullValue
  | numberValue (bits : UInt64)
  | stringValue (value : Bytes)
  | boolValue (value : Bool)
  | structValue (fields : List (Bytes × Value))
  | listValue (values : List Value)

/-- The generated accessor `bool_value()`: false unless the value holds a Boolean. -/
def Value.boolOr : Value → Bool
  | .boolValue b => b
  | _ => false

/-- `google.protobuf.Struct`: the entries of its `fields` map. -/
structure Struct where
  fields : List (Bytes × Value) := []

namespace Struct

/-- `fields().find(key)`. -/
def find (s : Struct) (key : Bytes) : Option Value := s.fields.lookup key

/-- `(*mutable_fields())[key] = value`: replaces the entry or adds one. -/
def set (s : Struct) (key : Bytes) (value : Value) : Struct :=
  { fields := (key, value) :: s.fields.filter fun entry => entry.1 != key }

end Struct

/-- `google.protobuf.Timestamp`. -/
structure Timestamp where
  seconds : Int64 := 0
  nanos : Int32 := 0
  deriving DecidableEq

/-! ## Messages and parts -/

/-- The `content` oneof of `Part`. -/
inductive PartContent where
  | unset
  | text (value : Bytes)
  | raw (value : Bytes)
  | url (value : Bytes)
  | data (value : Value)

/-- `Part`. -/
structure Part where
  content : PartContent := .unset
  metadata : Option Struct := none
  filename : Bytes := []
  mediaType : Bytes := []

/-- `Role`. -/
inductive Role where
  | unspecified
  | user
  | agent
  | unrecognized (number : Int32)
  deriving DecidableEq

/-- `Message`. -/
structure Message where
  messageId : Bytes := []
  contextId : Bytes := []
  taskId : Bytes := []
  role : Role := .unspecified
  parts : List Part := []
  metadata : Option Struct := none
  extensions : List Bytes := []
  referenceTaskIds : List Bytes := []

/-- `Artifact`. -/
structure Artifact where
  artifactId : Bytes := []
  name : Bytes := []
  description : Bytes := []
  parts : List Part := []
  metadata : Option Struct := none
  extensions : List Bytes := []

/-! ## Tasks -/

/-- `TaskState`. -/
inductive TaskState where
  | unspecified
  | submitted
  | working
  | completed
  | failed
  | canceled
  | inputRequired
  | rejected
  | authRequired
  | unrecognized (number : Int32)
  deriving DecidableEq

/-- `core::IsTerminalTaskState`. -/
def isTerminalTaskState : TaskState → Bool
  | .completed | .failed | .canceled | .rejected => true
  | .unspecified | .submitted | .working | .inputRequired | .authRequired => false
  | .unrecognized _ => false

/-- `TaskStatus`. -/
structure TaskStatus where
  state : TaskState := .unspecified
  message : Option Message := none
  timestamp : Option Timestamp := none

/-- `Task`, with the unknown fields a parsed message carries. -/
structure Task where
  id : Bytes := []
  contextId : Bytes := []
  status : Option TaskStatus := none
  artifacts : List Artifact := []
  history : List Message := []
  metadata : Option Struct := none
  unknownFields : Bytes := []

namespace Task

/-- The accessor `status()`. -/
def statusOr (task : Task) : TaskStatus := task.status.getD {}

/-- The accessor chain `status().state()`. -/
def state (task : Task) : TaskState := task.statusOr.state

/-- The mutation `mutable_status()->set_state(state)`. -/
def setState (task : Task) (state : TaskState) : Task :=
  { task with status := some { task.statusOr with state } }

/-- The mutation `*add_history() = message`. -/
def addHistory (task : Task) (message : Message) : Task :=
  { task with history := task.history ++ [message] }

/-- The accessor `metadata()`. -/
def metadataOr (task : Task) : Struct := task.metadata.getD {}

@[simp] theorem setState_id (task : Task) (state : TaskState) : (task.setState state).id = task.id := rfl

@[simp] theorem addHistory_id (task : Task) (message : Message) : (task.addHistory message).id = task.id := rfl

end Task

/-! ## Stream events -/

/-- `TaskStatusUpdateEvent`. -/
structure TaskStatusUpdateEvent where
  taskId : Bytes := []
  contextId : Bytes := []
  status : Option TaskStatus := none
  metadata : Option Struct := none

/-- `TaskArtifactUpdateEvent`. -/
structure TaskArtifactUpdateEvent where
  taskId : Bytes := []
  contextId : Bytes := []
  artifact : Option Artifact := none
  append : Bool := false
  lastChunk : Bool := false
  metadata : Option Struct := none

/-- `StreamResponse`: its `payload` oneof. -/
inductive StreamResponse where
  | unset
  | task (task : Task)
  | message (message : Message)
  | statusUpdate (update : TaskStatusUpdateEvent)
  | artifactUpdate (update : TaskArtifactUpdateEvent)

namespace StreamResponse

/-- `has_status_update()`. -/
def hasStatusUpdate : StreamResponse → Bool
  | .statusUpdate _ => true
  | _ => false

/-- `has_message()`. -/
def hasMessage : StreamResponse → Bool
  | .message _ => true
  | _ => false

end StreamResponse

/-! ## Requests and responses -/

/-- `AuthenticationInfo`. -/
structure AuthenticationInfo where
  scheme : Bytes := []
  credentials : Bytes := []

/-- `TaskPushNotificationConfig`. -/
structure TaskPushNotificationConfig where
  tenant : Bytes := []
  id : Bytes := []
  taskId : Bytes := []
  url : Bytes := []
  token : Bytes := []
  authentication : Option AuthenticationInfo := none

/-- `SendMessageConfiguration`. -/
structure SendMessageConfiguration where
  acceptedOutputModes : List Bytes := []
  taskPushNotificationConfig : Option TaskPushNotificationConfig := none
  historyLength : Option Int32 := none
  returnImmediately : Bool := false

/-- `SendMessageRequest`. -/
structure SendMessageRequest where
  tenant : Bytes := []
  message : Option Message := none
  configuration : Option SendMessageConfiguration := none
  metadata : Option Struct := none

/-- The accessor `message()`. -/
def SendMessageRequest.messageOr (request : SendMessageRequest) : Message := request.message.getD {}

/-- The accessor `configuration()`. -/
def SendMessageRequest.configurationOr (request : SendMessageRequest) : SendMessageConfiguration :=
  request.configuration.getD {}

/-- `SendMessageResponse`: its `payload` oneof. -/
inductive SendMessageResponse where
  | unset
  | task (task : Task)
  | message (message : Message)

/-- `GetTaskRequest`. -/
structure GetTaskRequest where
  tenant : Bytes := []
  id : Bytes := []
  historyLength : Option Int32 := none

/-- `CancelTaskRequest`. -/
structure CancelTaskRequest where
  tenant : Bytes := []
  id : Bytes := []
  metadata : Option Struct := none

/-- `GetTaskPushNotificationConfigRequest`. -/
structure GetTaskPushNotificationConfigRequest where
  tenant : Bytes := []
  taskId : Bytes := []
  id : Bytes := []

/-- `ListTaskPushNotificationConfigsRequest`. -/
structure ListTaskPushNotificationConfigsRequest where
  tenant : Bytes := []
  taskId : Bytes := []
  pageSize : Int32 := 0
  pageToken : Bytes := []

/-- `ListTaskPushNotificationConfigsResponse`. -/
structure ListTaskPushNotificationConfigsResponse where
  configs : List TaskPushNotificationConfig := []
  nextPageToken : Bytes := []

/-- `DeleteTaskPushNotificationConfigRequest`. -/
structure DeleteTaskPushNotificationConfigRequest where
  tenant : Bytes := []
  taskId : Bytes := []
  id : Bytes := []

/-- `GetExtendedAgentCardRequest`. -/
structure GetExtendedAgentCardRequest where
  tenant : Bytes := []

/-- `AgentCard`, which the server hands through; only the fields that identify one are kept. -/
structure AgentCard where
  name : Bytes := []
  description : Bytes := []
  version : Bytes := []

end A2A.Core
