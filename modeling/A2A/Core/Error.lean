/-
# Error values and results (`a2a/core/error.h`, `result.h`, `protocol_errors.h`).
-/
import A2A.Foundation.Bytes

namespace A2A.Core

open A2A.Foundation

/-- `core::ErrorCode`. -/
inductive ErrorCode where
  | validation
  | unsupportedVersion
  | network
  | remoteProtocol
  | serialization
  | internal
  deriving Repr, DecidableEq

/-- `core::Error`. -/
structure Error where
  code : ErrorCode
  message : Bytes
  transport : Option Bytes := none
  protocolCode : Option Bytes := none
  httpStatus : Option Int := none
  deriving Repr, DecidableEq

/-- `core::Result<T>`. -/
abbrev Result (α : Type) := Except Error α

section Results

variable {ε α β : Type} {x : Except ε α} {b : β}

theorem ok_of_bind {f : α → Except ε β} (h : x >>= f = .ok b) : ∃ a, x = .ok a ∧ f a = .ok b := by
  cases x with
  | error e => nomatch h
  | ok a => exact ⟨a, rfl, h⟩

theorem ok_of_map {f : α → β} (h : f <$> x = .ok b) : ∃ a, x = .ok a ∧ f a = b := by
  cases x with
  | error e => nomatch h
  | ok a => exact ⟨a, rfl, Except.ok.inj h⟩

end Results

namespace Error

def validation (message : Bytes) : Error := { code := .validation, message }
def unsupportedVersion (message : Bytes) : Error := { code := .unsupportedVersion, message }
def network (message : Bytes) : Error := { code := .network, message }
def remoteProtocol (message : Bytes) : Error := { code := .remoteProtocol, message }
def serialization (message : Bytes) : Error := { code := .serialization, message }
def internal (message : Bytes) : Error := { code := .internal, message }

def withTransport (e : Error) (transport : Bytes) : Error := { e with transport := some transport }
def withProtocolCode (e : Error) (code : Bytes) : Error := { e with protocolCode := some code }
def withHttpStatus (e : Error) (status : Int) : Error := { e with httpStatus := some status }

end Error

/-! ## Protocol codes and protocol errors -/

namespace ProtocolCodes

def taskNotFound : Bytes := "-32001"
def taskNotCancelable : Bytes := "-32002"
def pushNotificationNotSupported : Bytes := "-32003"
def unsupportedOperation : Bytes := "-32004"
def contentTypeNotSupported : Bytes := "-32005"
def invalidAgentResponse : Bytes := "-32006"
def extendedAgentCardNotConfigured : Bytes := "-32007"
def extensionSupportRequired : Bytes := "-32008"
def versionNotSupported : Bytes := "-32009"

end ProtocolCodes

namespace ProtocolErrors

/-- A remote-protocol error with an HTTP status and a protocol code. -/
def coded (status : Int) (code : Bytes) (message : Bytes) : Error :=
  ((Error.remoteProtocol message).withHttpStatus status).withProtocolCode code

def unauthenticated (message : Bytes := "authentication is required") : Error :=
  (Error.remoteProtocol message).withHttpStatus 401

def permissionDenied (message : Bytes := "access is denied") : Error :=
  (Error.remoteProtocol message).withHttpStatus 403

def taskNotFound (message : Bytes := "task not found") : Error :=
  coded 404 ProtocolCodes.taskNotFound message

def taskNotCancelable (message : Bytes := "task is already terminal") : Error :=
  coded 409 ProtocolCodes.taskNotCancelable message

def unsupportedOperation (message : Bytes := "operation is not supported") : Error :=
  coded 400 ProtocolCodes.unsupportedOperation message

def contentTypeNotSupported (message : Bytes := "content type is not supported") : Error :=
  coded 415 ProtocolCodes.contentTypeNotSupported message

def extendedAgentCardNotConfigured
    (message : Bytes := "extended agent card is not configured") : Error :=
  coded 400 ProtocolCodes.extendedAgentCardNotConfigured message

def extensionSupportRequired (message : Bytes := "required extension support is missing") : Error :=
  coded 400 ProtocolCodes.extensionSupportRequired message

/-- The one protocol error that is not a remote-protocol error. -/
def versionNotSupported (message : Bytes := "version is not supported") : Error :=
  ((Error.unsupportedVersion message).withHttpStatus 400).withProtocolCode ProtocolCodes.versionNotSupported

end ProtocolErrors

end A2A.Core
