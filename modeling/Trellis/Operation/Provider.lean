/-
# What the provider writes

The updates of an operation record that executors and callers issue, each as the
record it builds from the one it read; `none` where it returns without a write.

Who may call what (caller authorization, signal permissions) is checked before these
functions and only rules calls out, so it is left out.
-/
import Trellis.Operation.Repository

namespace Operation

variable {Value : Type}

/-- The ownership an execution writes under; `retired` latches that state could not be read. -/
structure OwnerFence where
  (executorId connectionId : String)
  ownerEpoch : Nat
  retired : Bool
  deriving DecidableEq, Repr

variable (fence : OwnerFence)

section

variable (record : DurableOperationRecord Value)

def OwnerFence.matches (now : Int) : Bool :=
  !fence.retired && decide (record.ownerExecutorId = some fence.executorId) &&
    decide (record.ownerConnectionId = some fence.connectionId) &&
    decide (record.ownerEpoch = fence.ownerEpoch) &&
    record.leaseExpiresAtMs.any fun expiry => now < expiry

def staleFence : ServerError := .nats "operation owner fence is stale"

def operationTerminalError : ServerError :=
  .operationAlreadyTerminal record.invocationId
    (if record.cancellationRequested then "cancelled" else record.snapshot.state.label)

def DurableOperationRecord.nextRevision : DurableOperationRecord Value :=
  { record with revision := record.revision + 1 }

/-- Record the time of a checkpoint in the snapshot. -/
def DurableOperationRecord.touch (timestamp : String) : DurableOperationRecord Value :=
  { record with snapshot := { record.snapshot with updatedAt := some timestamp } }

/-! ## Executors -/

structure SnapshotUpdate (Value : Type) where
  state : OperationState
  (progress output : Option Value)
  error : Option (OperationError Value)
  cancellationRequested : Bool

def SnapshotUpdate.apply (update : SnapshotUpdate Value) (snapshot : OperationSnapshot Value)
    (timestamp : String) : OperationSnapshot Value :=
  { snapshot with
    revision := snapshot.revision + 1
    state := update.state
    updatedAt := some timestamp
    completedAt := if update.state.isTerminal then some timestamp else snapshot.completedAt
    progress := update.progress.or snapshot.progress
    output := update.output.or snapshot.output
    error := update.error.or snapshot.error }

def durableSnapshotUpdate (update : SnapshotUpdate Value) (now : Int)
    (timestamp : String) (current : DurableOperationRecord Value) :
    Except ServerError (Option (DurableOperationRecord Value)) := do
  if current.snapshot.state.isTerminal ∨ current.cancellationRequested then
    .error (operationTerminalError current)
  if !fence.matches current now then .error staleFence
  return some { current.nextRevision with
    cancellationRequestedAt :=
      if update.cancellationRequested then some timestamp else current.cancellationRequestedAt
    cancellationRequested := update.cancellationRequested
    snapshot := update.apply current.snapshot timestamp }

def finalizeCancellation (now : Int) (timestamp : String) (current : DurableOperationRecord Value) :
    Except ServerError (Option (DurableOperationRecord Value)) := do
  if current.snapshot.state.isTerminal then return none
  if !current.cancellationRequested then .error (.nats "operation cancellation was not requested")
  if !fence.matches current now then .error staleFence
  return some { current.nextRevision with
    snapshot := { current.snapshot with
      state := .cancelled
      updatedAt := some timestamp
      completedAt := some timestamp } }

/-- Set the cancellation intent. -/
def DurableOperationRecord.requestCancellation (timestamp : String) :
    DurableOperationRecord Value :=
  { record.nextRevision.touch timestamp with
    cancellationRequested := true
    cancellationRequestedAt := some timestamp }

end

/-- `OperationControl::cancel`: the handler cancels its own operation. -/
def controlCancel (now : Int) (timestamp : String) (current : DurableOperationRecord Value) :
    Except ServerError (Option (DurableOperationRecord Value)) := do
  if !fence.matches current now then .error staleFence
  if current.snapshot.state.isTerminal then .error (operationTerminalError current)
  if current.cancellationRequested then return none
  return some (current.requestCancellation timestamp)

def acknowledgeSignal (sequence : Nat) (now : Int) (current : DurableOperationRecord Value) :
    Except ServerError (Option (DurableOperationRecord Value)) := do
  if !fence.matches current now then .error staleFence
  if current.snapshot.state.isTerminal then .error (operationTerminalError current)
  match current.signals.find? fun signal => signal.sequence = sequence with
  | none => .error (.nats ("operation signal " ++ toString sequence ++ " was not found"))
  | some found =>
    if found.acknowledged then return none
    return some { current.nextRevision with
      signals := current.signals.modify
        (current.signals.findIdx fun signal => signal.sequence = sequence)
        fun signal => { signal with acknowledged := true } }

def missingUpload : ServerError := .nats "operation upload staging state is missing"

/-- `settle_operation_upload` once the staged bytes are removed and the record is read again. -/
def settleOperationUpload (stagingKey : String) (now : Int)
    (current : DurableOperationRecord Value) :
    Except ServerError (Option (DurableOperationRecord Value)) := do
  let some upload := current.transfer
    | .error missingUpload
  if !fence.matches current now ∨ current.snapshot.state.isTerminal ∨
      upload.stagingKey ≠ stagingKey then
    return none
  if current.cancellationRequested then return none
  return some { current.nextRevision with
    leaseExpiresAtMs := some now
    transfer := some { upload with
      state := .invalid
      size := none
      digest := none
      updatedAt := none } }

/-- A checkpoint of the bytes an upload has consumed. -/
def coalesceOperationUploadProgress (progress : OperationTransferProgress)
    (now : Int) (timestamp : String) (current : DurableOperationRecord Value) :
    Except ServerError (Option (DurableOperationRecord Value)) := do
  if !fence.matches current now ∨ current.snapshot.state.isTerminal ∨
      current.cancellationRequested then
    .error staleFence
  if current.snapshot.transfer.any fun previous =>
      progress.transferredBytes ≤ previous.transferredBytes then
    return none
  return some { current.nextRevision with
    snapshot := { current.snapshot with
      revision := current.snapshot.revision + 1
      updatedAt := some timestamp
      transfer := some progress } }

def persistOperationUpload (info : TransferFileInfo)
    (progress : Option OperationTransferProgress) (now : Int) (timestamp : String)
    (current : DurableOperationRecord Value) :
    Except ServerError (Option (DurableOperationRecord Value)) := do
  if !fence.matches current now ∨ current.snapshot.state.isTerminal ∨
      current.cancellationRequested then
    .error staleFence
  let some upload := current.transfer
    | .error missingUpload
  let progress := progress.getD ⟨0, 0, 0⟩
  if progress.transferredBytes ≠ info.size then
    .error (.nats "final operation upload progress does not match stored size")
  return some { current.nextRevision with
    snapshot := { current.snapshot with
      revision := current.snapshot.revision + 1
      state := .running
      updatedAt := some timestamp
      transfer := some progress }
    transfer := some { upload with
      state := if upload.state = .streaming then .streamed else .committed
      fileInfo := some info
      size := some info.size
      digest := some info.digest
      updatedAt := some info.updatedAt
      contentType := info.contentType } }

/-- The new attempt of an upload: the first uses the invocation's grant, a later one a fresh one. -/
def stageOperationUpload (grant : Value) (stagingKey timestamp : String)
    (claimed : DurableOperationRecord Value) :
    Except ServerError (Option (DurableOperationRecord Value)) := do
  if claimed.cancellationRequested then return none
  let some upload := claimed.transfer
    | .error missingUpload
  if upload.state = .committed then return none
  let attempt :=
    if upload.state = .pending then upload
    else { upload with grant, stagingKey, size := none, digest := none, updatedAt := none }
  return some { claimed.nextRevision with
    snapshot := { claimed.snapshot with
      transfer := none
      revision := claimed.snapshot.revision + 1
      updatedAt := some timestamp }
    transfer := some { attempt with state := .uploading } }

/-! ## Callers -/

/-- `ServiceOperationProvider::cancel`. -/
def cancel (timestamp : String) (current : DurableOperationRecord Value) :
    Except ServerError (Option (DurableOperationRecord Value)) :=
  if current.snapshot.state.isTerminal then
    if current.cancellationRequested then .ok none else .error (operationTerminalError current)
  else if current.cancellationRequested then .ok none
  else .ok (some (current.requestCancellation timestamp).stampSnapshot)

def signal [DecidableEq Value] (requestId name : String) (payload : Value) (timestamp : String)
    (current : DurableOperationRecord Value) :
    Except ServerError (Option (DurableOperationRecord Value)) := do
  if current.snapshot.state.isTerminal then .error (operationTerminalError current)
  match current.signals.find? fun accepted => accepted.requestId = requestId with
  | some existing =>
    if existing.name ≠ name ∨ existing.payload ≠ payload then
      .error (.operationIdempotencyConflict "signal" requestId)
    return none
  | none =>
    return some { current.nextRevision with
      nextSignalSequence := current.nextSignalSequence + 1
      signals := current.signals ++
        [⟨current.nextSignalSequence, requestId, name, payload, timestamp, false⟩] }

/-- A start that finds the invocation created merges its cancellation into it. -/
def createReplay (record existing : DurableOperationRecord Value) :
    Except ServerError (Option (DurableOperationRecord Value)) := do
  if !existing.sameInvocation record then
    .error (.operationIdempotencyConflict "invocation" record.invocationId)
  if !record.cancellationRequested ∨ existing.cancellationRequested ∨
      existing.snapshot.state.isTerminal then
    return none
  return some { existing.nextRevision with
    cancellationRequested := true
    cancellationRequestedAt := record.cancellationRequestedAt
    snapshot := { existing.snapshot with updatedAt := record.snapshot.updatedAt } }

/-- The immutable part of an invocation a start creates. -/
structure Invocation (Value : Type) where
  (invocationId invocationDigest apiId operation service deploymentId creatorPrincipalId : String)
  creatorBinding : Value
  callerSessionKey : String
  (caller input : Value)
  transfer : Option (OperationUpload Value)

/-- The record a start creates. -/
def Invocation.record (invocation : Invocation Value) (cancellationRequested : Bool)
    (timestamp : String) : DurableOperationRecord Value where
  invocationId := invocation.invocationId
  invocationDigest := invocation.invocationDigest
  apiId := invocation.apiId
  operation := invocation.operation
  deploymentId := invocation.deploymentId
  creatorPrincipalId := invocation.creatorPrincipalId
  creatorBinding := invocation.creatorBinding
  callerSessionKey := invocation.callerSessionKey
  caller := some invocation.caller
  input := invocation.input
  snapshot := {
    id := some invocation.invocationId
    service := some invocation.service
    operation := some invocation.operation
    revision := 1
    state := .pending
    createdAt := some timestamp
    updatedAt := some timestamp
    completedAt := none
    progress := none
    transfer := none
    output := none
    error := none }
  revision := 1
  ownerExecutorId := none
  ownerConnectionId := none
  ownerEpoch := 0
  leaseExpiresAtMs := none
  cancellationRequested := cancellationRequested
  cancellationRequestedAt := if cancellationRequested then some timestamp else none
  nextSignalSequence := 1
  updateSequence := 0
  signals := []
  transfer := invocation.transfer

end Operation
