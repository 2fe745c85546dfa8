/-
# Durable operation records

The record an operation invocation is persisted as, and the check every record passes
before it is written (`DurableOperationRecord::validate`).

Application values, bindings, callers and transfer grants are JSON that is compared
and stored but not looked into: they are the type `Value`.  What the check takes from
libraries (timestamp and ULID syntax, the invocation digest, encoded sizes, the grant
parser) is a `RecordFormat`.
-/
import Mathlib.Logic.Basic

namespace Operation

inductive OperationState where
  | pending
  | running
  | completed
  | failed
  | cancelled
  deriving DecidableEq, Repr

def OperationState.isTerminal : OperationState → Bool
  | .completed | .failed | .cancelled => true
  | .pending | .running => false

def OperationState.label : OperationState → String
  | .pending => "pending"
  | .running => "running"
  | .completed => "completed"
  | .failed => "failed"
  | .cancelled => "cancelled"

structure OperationError (Value : Type) where
  (errorType message : String)
  fields : List (String × Value)
  deriving DecidableEq, Repr

structure OperationTransferProgress where
  (chunkIndex chunkBytes transferredBytes : Nat)
  deriving DecidableEq, Repr

/-- Public checkpoint, also used inside the durable record. -/
structure OperationSnapshot (Value : Type) where
  (id service operation : Option String)
  revision : Nat
  state : OperationState
  (createdAt updatedAt completedAt : Option String)
  progress : Option Value
  transfer : Option OperationTransferProgress
  output : Option Value
  error : Option (OperationError Value)
  deriving DecidableEq, Repr

structure DurableOperationSignal (Value : Type) where
  sequence : Nat
  (requestId name : String)
  payload : Value
  acceptedAt : String
  acknowledged : Bool
  deriving DecidableEq, Repr

structure TransferFileInfo where
  key : String
  size : Nat
  (updatedAt digest : String)
  contentType : Option String
  metadata : List (String × String)
  deriving DecidableEq, Repr

/-- Staged attempts are pending, uploading, committed or invalid; stream attempts streaming or
streamed. -/
inductive UploadState where
  | pending
  | uploading
  | committed
  | invalid
  | streaming
  | streamed
  deriving DecidableEq, Repr

structure OperationUpload (Value : Type) where
  stagingKey : String
  state : UploadState
  grant : Value
  size : Option Nat
  (digest updatedAt contentType : Option String)
  fileInfo : Option TransferFileInfo
  deriving DecidableEq, Repr

structure DurableOperationRecord (Value : Type) where
  (invocationId invocationDigest apiId operation deploymentId creatorPrincipalId : String)
  creatorBinding : Value
  callerSessionKey : String
  caller : Option Value
  input : Value
  snapshot : OperationSnapshot Value
  revision : Nat
  (ownerExecutorId ownerConnectionId : Option String)
  ownerEpoch : Nat
  leaseExpiresAtMs : Option Int
  cancellationRequested : Bool
  cancellationRequestedAt : Option String
  (nextSignalSequence updateSequence : Nat)
  signals : List (DurableOperationSignal Value)
  transfer : Option (OperationUpload Value)
  deriving DecidableEq, Repr

inductive ServerError where
  | nats (message : String)
  | operationNotFound (operationId : String)
  | operationAlreadyTerminal (operationId state : String)
  | operationIdempotencyConflict (kind requestId : String)
  | operationCapacityExceeded (field : String) (actualBytes maxBytes : Nat)
  | requestDenied
  deriving DecidableEq, Repr

structure RecordFormat (Value : Type) where
  isTimestamp : String → Bool
  isUlid : String → Bool
  /-- Digest of the API, the operation, the creator and its binding, and the input. -/
  invocationDigest : String → String → String → Value → Value → String
  byteSize : Value → Nat
  errorSize : OperationError Value → Nat
  isGrant : Value → Bool

variable {Value : Type}

def maxCounter : Nat := 9007199254740991
def maxOperationInputBytes : Nat := 256 * 1024
def maxOperationProgressBytes : Nat := 64 * 1024
def maxOperationOutputBytes : Nat := 512 * 1024
def maxOperationErrorBytes : Nat := 32 * 1024
def maxOperationSignals : Nat := 100
def maxOperationSignalBytes : Nat := 64 * 1024

def invalidRecord (message : String) : ServerError :=
  .nats ("invalid operation record: " ++ message)

/-- One retained value against its limit. -/
def withinBytes (field : String) (maxBytes actualBytes : Nat) : Except ServerError Unit :=
  if actualBytes > maxBytes then .error (.operationCapacityExceeded field actualBytes maxBytes)
  else .ok ()

/-- Sequences count from one and request IDs are unique. -/
def validateSignals (format : RecordFormat Value) :
    Nat → List String → List (DurableOperationSignal Value) → Except ServerError Unit
  | _, _, [] => .ok ()
  | index, seen, signal :: rest => do
      if signal.sequence ≠ index + 1 ∨ signal.requestId ∈ seen then
        .error (invalidRecord "signals must have contiguous sequences and unique request ids")
      if !format.isTimestamp signal.acceptedAt then
        .error (invalidRecord "invalid signal acceptance timestamp")
      withinBytes "signal" maxOperationSignalBytes (format.byteSize signal.payload)
      validateSignals format (index + 1) (seen ++ [signal.requestId]) rest

def UploadState.staged : UploadState → Bool
  | .pending | .uploading | .committed | .invalid => true
  | .streaming | .streamed => false

def validateUpload (format : RecordFormat Value) (upload : OperationUpload Value) :
    Except ServerError Unit := do
  if upload.state.staged = upload.stagingKey.isEmpty then
    .error (invalidRecord "invalid upload attempt")
  if !format.isGrant upload.grant then .error (invalidRecord "invalid transfer grant")
  if upload.state = .committed ∨ upload.state = .streamed then
    match upload.fileInfo with
    | none => .error (invalidRecord "committed upload is missing logical file metadata")
    | some info =>
      if some info.size ≠ upload.size ∨ some info.digest ≠ upload.digest ∨
          some info.updatedAt ≠ upload.updatedAt then
        .error (invalidRecord "committed upload metadata does not match staged object")

def DurableOperationRecord.validate (format : RecordFormat Value)
    (record : DurableOperationRecord Value) : Except ServerError Unit := do
  if [record.revision, record.ownerEpoch, record.nextSignalSequence, record.updateSequence,
      record.snapshot.revision].any (maxCounter < ·) then
    .error (invalidRecord "framework counter exceeds exact JSON integer range")
  if record.cancellationRequested ∧ record.cancellationRequestedAt.isNone then
    .error (invalidRecord "cancellation intent is missing its committed timestamp")
  if record.cancellationRequestedAt.any fun timestamp => !format.isTimestamp timestamp then
    .error (invalidRecord "invalid cancellation timestamp")
  if !format.isUlid record.invocationId ∨ record.invocationDigest ≠ format.invocationDigest
      record.apiId record.operation record.creatorPrincipalId record.creatorBinding
      record.input then
    .error (invalidRecord "invocation identity or digest does not match")
  if record.snapshot.id ≠ some record.invocationId ∨
      record.snapshot.operation ≠ some record.operation ∨
      record.snapshot.revision ≠ record.revision then
    .error (invalidRecord "snapshot identity or revision does not match")
  for value in [record.snapshot.createdAt, record.snapshot.updatedAt] do
    match value with
    | none => .error (invalidRecord "missing checkpoint timestamp")
    | some value =>
      if !format.isTimestamp value then .error (invalidRecord "invalid checkpoint timestamp")
  if record.signals.length > maxOperationSignals ∨
      record.nextSignalSequence ≠ record.signals.length + 1 then
    .error (invalidRecord "inconsistent signal count or next sequence")
  validateSignals format 0 [] record.signals
  if let some upload := record.transfer then validateUpload format upload
  withinBytes "input" maxOperationInputBytes (format.byteSize record.input)
  if let some progress := record.snapshot.progress then
    withinBytes "progress" maxOperationProgressBytes (format.byteSize progress)
  if let some output := record.snapshot.output then
    withinBytes "output" maxOperationOutputBytes (format.byteSize output)
  if let some error := record.snapshot.error then
    withinBytes "error" maxOperationErrorBytes (format.errorSize error)

/-- Whether a replay addresses the same immutable invocation. -/
def DurableOperationRecord.sameInvocation (record other : DurableOperationRecord Value) : Bool :=
  record.invocationId = other.invocationId ∧ record.invocationDigest = other.invocationDigest

/-- The lease of a record leaves it free at a time. -/
def DurableOperationRecord.leaseFree (record : DurableOperationRecord Value) (now : Int) : Bool :=
  record.leaseExpiresAtMs.all fun expiry => expiry ≤ now

end Operation
