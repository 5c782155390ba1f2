/-
# History limits and history deduplication (`task_history.cpp`).
-/
import A2A.Core.Messages

namespace A2A.Server.Tasks

open A2A.Foundation A2A.Core

/-! ## Limits -/

/-- `ApplyHistoryLimit`. -/
def applyHistoryLimit (task : Task) (keep : Nat) : Task :=
  if keep = 0 then { task with history := [] }
  else if task.history.length ≤ keep then task
  else { task with history := task.history.drop (task.history.length - keep) }

/-- `ApplyHistoryRetention`. -/
def applyHistoryRetention (task : Task) (historyLength : Option Nat) : Task :=
  match historyLength with
  | none => task
  | some keep => applyHistoryLimit task keep

/-! ## Deduplication -/

/-- `TaskStore::HistoryAppendPolicy`. -/
inductive HistoryAppendPolicy where
  | noDedup
  | dedupByMessageId
  | dedupByIdOrFingerprint
  deriving DecidableEq

/-- `TaskStore::HistoryDedupeEvent::Reason`. -/
inductive DedupeReason where
  | duplicateMessageIdAndFingerprint
  | duplicateFingerprintWithoutMessageId
  deriving DecidableEq

/-- `TaskStore::HistoryDedupeEvent`. -/
structure HistoryDedupeEvent where
  taskId : Bytes
  messageId : Bytes
  policy : HistoryAppendPolicy
  reason : DedupeReason
  deriving DecidableEq

/-- `TaskStore::HistoryTelemetrySnapshot`. -/
structure HistoryTelemetrySnapshot where
  dedupeDroppedTotal : Nat := 0
  dedupeDroppedByMessageIdAndFingerprint : Nat := 0
  dedupeDroppedByFingerprintWithoutMessageId : Nat := 0
  deriving DecidableEq

/-- One `SerializeAsString` call: the history entry, the part index, and which side is serialized. -/
structure SerializeSite where
  entry : Nat
  part : Nat
  stored : Bool

/-- What `SerializeAsString` answers at each call site. -/
abbrev Serializer := SerializeSite → Part → Bytes

/-- The loop of `HasSameMessageFingerprint` over the parts, from index `part` on. -/
def sameSerializedParts (serialize : Serializer) (entry : Nat) :
    Nat → List Part → List Part → Bool
  | part, p :: ps, q :: qs =>
    if serialize ⟨entry, part, true⟩ p ≠ serialize ⟨entry, part, false⟩ q then false
    else sameSerializedParts serialize entry (part + 1) ps qs
  | _, _, _ => true

/-- `HasSameMessageFingerprint`. -/
def hasSameMessageFingerprint (serialize : Serializer) (entry : Nat)
    (existing message : Message) : Bool :=
  if existing.taskId ≠ message.taskId ∨ existing.contextId ≠ message.contextId ∨
      existing.role ≠ message.role ∨ existing.parts.length ≠ message.parts.length then false
  else sameSerializedParts serialize entry 0 existing.parts message.parts

/-- `HasSameMessageIdAndFingerprint`. -/
def hasSameMessageIdAndFingerprint (serialize : Serializer) (entry : Nat)
    (existing message : Message) : Bool :=
  !existing.messageId.isEmpty && existing.messageId == message.messageId &&
    hasSameMessageFingerprint serialize entry existing message

/-- `FindMessageIdDedupeReason`. -/
def findMessageIdDedupeReason (serialize : Serializer) (history : List Message)
    (message : Message) : Option DedupeReason :=
  history.zipIdx.findSome? fun (existing, entry) =>
    if hasSameMessageIdAndFingerprint serialize entry existing message then
      some .duplicateMessageIdAndFingerprint
    else none

/-- `FindIdOrFingerprintDedupeReason`. -/
def findIdOrFingerprintDedupeReason (serialize : Serializer) (history : List Message)
    (message : Message) : Option DedupeReason :=
  let hasMessageId := !message.messageId.isEmpty
  history.zipIdx.findSome? fun (existing, entry) =>
    if hasMessageId && hasSameMessageIdAndFingerprint serialize entry existing message then
      some .duplicateMessageIdAndFingerprint
    else if !hasMessageId && hasSameMessageFingerprint serialize entry existing message then
      some .duplicateFingerprintWithoutMessageId
    else none

/-- `FindHistoryDedupeReason`. -/
def findHistoryDedupeReason (serialize : Serializer) (history : List Message) (message : Message)
    (policy : HistoryAppendPolicy) : Option DedupeReason :=
  if policy = .dedupByMessageId ∧ ¬ message.messageId.isEmpty then
    findMessageIdDedupeReason serialize history message
  else if policy = .dedupByIdOrFingerprint then
    findIdOrFingerprintDedupeReason serialize history message
  else none

/-- `UpdateDedupeSnapshot`. -/
def updateDedupeSnapshot (snapshot : HistoryTelemetrySnapshot) (reason : DedupeReason) :
    HistoryTelemetrySnapshot :=
  let counted := { snapshot with dedupeDroppedTotal := snapshot.dedupeDroppedTotal + 1 }
  match reason with
  | .duplicateMessageIdAndFingerprint =>
    { counted with
      dedupeDroppedByMessageIdAndFingerprint := counted.dedupeDroppedByMessageIdAndFingerprint + 1 }
  | .duplicateFingerprintWithoutMessageId =>
    { counted with
      dedupeDroppedByFingerprintWithoutMessageId :=
        counted.dedupeDroppedByFingerprintWithoutMessageId + 1 }

end A2A.Server.Tasks
