import Southbound.Message.Basic

/-!
# Failures

Why an operation did not succeed.  Most failures are about one request or one
check.  `batch` gathers the failures of several requests, and `barrierFailed`
is the failure of the barrier that closes a batch.

`Failure.isRetryable` says whether the same operation may succeed later.  It
follows the failures that are gathered: a batch may be tried again only if
every one of its failures may.
-/

namespace Southbound

/-- A step of a batch: one of its members, or the barrier behind them. -/
inductive BatchStep where
  | member (index : Nat)
  | barrier
deriving DecidableEq, Repr, Inhabited

/-- A request of a batch that failed, and why. -/
structure BatchFailure (ε : Type) where
  step : BatchStep
  xid : Option Xid
  error : ε
deriving Repr, Inhabited

/-- All that an operation can fail with. -/
inductive Failure where
  /-- The path and the flow name different tables. -/
  | invalidTableId (path payload : TableId)
  /-- The request cannot be carried out as it is. -/
  | invalidRequest (reason : String)
  /-- A flow hands packets to a group that is not configured. -/
  | dependencyUnresolved (device : DeviceId) (group : GroupId)
  /-- The configuration could not be read or written. -/
  | storageError (reason : String)
  | deviceRejected (rejection : Rejection)
  /-- The device did not answer in time. -/
  | timeout (xid : Xid)
  /-- The connection ended before the device answered. -/
  | connectionLost (device : DeviceId)
  | notConnected (device : DeviceId)
  /-- The device answered with a message of the wrong kind. -/
  | unexpectedReply (xid : Xid) (kind : String)
  /-- No request is outstanding under the transaction id. -/
  | unknownTransaction (xid : Xid)
  /-- A request is outstanding under the transaction id. -/
  | xidInUse (xid : Xid)
  /-- The request was withdrawn before it was sent. -/
  | cancelled
  | batch (total : Nat) (failures : List (BatchFailure Failure))
  | barrierFailed (cause : Failure)
  /-- A message could not be written as a frame. -/
  | encodeFailed (reason : String)
  /-- A frame could not be read as a message. -/
  | decodeFailed (reason : String)
  | invalidConfig (reason : String)
  | configLoadFailed (reason : String)
  | configSaveFailed (reason : String)
  | jobAborted (device : DeviceId) (reason : String)
  | shuttingDown
  /-- A request could not be queued, or its reply cannot arrive any more. -/
  | channelError (reason : String)
deriving Inhabited

namespace Failure

/-- The failure of a job that broke off. -/
def brokenOff (device : DeviceId) : Failure :=
  jobAborted device "job panicked before completing"

/-! ## Texts -/

def message : Failure → String
  | invalidTableId path payload =>
    "Table id in path (" ++ path.display ++ ") does not match table id in payload (" ++
      payload.display ++ ")"
  | invalidRequest reason => "Invalid request: " ++ reason
  | dependencyUnresolved device group =>
    "Group " ++ group.display ++ " is not configured for device " ++ device.display
  | storageError reason => "Storage error: " ++ reason
  | deviceRejected rejection => "Device rejected request: " ++ rejection.display
  | timeout xid => "No reply for transaction " ++ xid.display ++ " within deadline"
  | connectionLost device => "Connection to device " ++ device.display ++ " lost"
  | notConnected device => "Device " ++ device.display ++ " is not connected"
  | unexpectedReply xid kind => "Unexpected reply for transaction " ++ xid.display ++ ": " ++ kind
  | unknownTransaction xid => "No pending request for transaction " ++ xid.display
  | xidInUse xid => "Transaction " ++ xid.display ++ " is already outstanding"
  | cancelled => "Request was cancelled before dispatch"
  | batch total failures =>
    toString failures.length ++ " of " ++ toString total ++ " batch steps failed"
  | barrierFailed cause => "Barrier failed: " ++ cause.message
  | encodeFailed reason => "Encoding failed: " ++ reason
  | decodeFailed reason => "Decoding failed: " ++ reason
  | invalidConfig reason => "Invalid pipeline configuration: " ++ reason
  | configLoadFailed reason => "Failed to load config: " ++ reason
  | configSaveFailed reason => "Failed to save config: " ++ reason
  | jobAborted device reason => "Job for device " ++ device.display ++ " aborted: " ++ reason
  | shuttingDown => "Pipeline is shutting down"
  | channelError reason => "Channel error: " ++ reason

/-! ## Kinds of failures -/

mutual

/-- Whether the same operation may succeed later. -/
def isRetryable : Failure → Bool
  | timeout _ => true
  | connectionLost _ => true
  | notConnected _ => true
  | storageError _ => true
  | channelError _ => true
  | barrierFailed cause => cause.isRetryable
  | batch _ failures => allRetryable failures
  | _ => false

/-- Whether every failure of a list is retryable. -/
def allRetryable : List (BatchFailure Failure) → Bool
  | [] => true
  | f :: fs => memberRetryable f && allRetryable fs

/-- Whether the failure of a request is retryable. -/
def memberRetryable : BatchFailure Failure → Bool
  | ⟨_, _, error⟩ => error.isRetryable

end

/-- Whether the device answered with an error. -/
def isDeviceRejection : Failure → Bool
  | deviceRejected _ => true
  | barrierFailed cause => cause.isDeviceRejection
  | _ => false

/-- Whether the failure is about settings. -/
def isConfigError : Failure → Bool
  | invalidConfig _ => true
  | configLoadFailed _ => true
  | configSaveFailed _ => true
  | _ => false

/-- The requests of a batch that failed. -/
def batchFailures : Failure → List (BatchFailure Failure)
  | batch _ failures => failures
  | _ => []

/-- The indices of the members of a batch that failed. -/
def failedMembers (e : Failure) : List Nat :=
  e.batchFailures.filterMap fun f =>
    match f.step with
    | .member index => some index
    | .barrier => none

end Failure

/-- What something comes to that can fail. -/
abbrev Outcome (α : Type) := Except Failure α

end Southbound
