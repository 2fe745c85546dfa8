/-
# The operation repository

The fenced compare-and-swap operations over one key of the operation bucket, each up
to the update it asks the bucket for.  `claim_for_connection` and `renew` build their
record from the one they load; `compare_exchange` and `compare_record_exchange` check
a record the provider built against the one they load.
-/
import Trellis.Lib.Checked
import Trellis.Operation.Record

namespace Operation

open List Checked

variable {Value : Type} {format : RecordFormat Value}

/-- The fields no update may change. -/
def sameIdentity [DecidableEq Value] (a b : DurableOperationRecord Value) : Bool :=
  a.apiId = b.apiId ∧ a.operation = b.operation ∧ a.deploymentId = b.deploymentId ∧
    a.creatorPrincipalId = b.creatorPrincipalId ∧ a.creatorBinding = b.creatorBinding ∧
    a.caller = b.caller ∧ a.input = b.input

/-- The snapshot's revision is the record's. -/
def DurableOperationRecord.stampSnapshot (record : DurableOperationRecord Value) :
    DurableOperationRecord Value :=
  { record with snapshot := { record.snapshot with revision := record.revision } }

/-- The record a claim writes over `current`. -/
def claimForConnection (format : RecordFormat Value) (ownerExecutorId ownerConnectionId : String)
    (now leaseExpiresAtMs : Int) (current : DurableOperationRecord Value) :
    Except ServerError (DurableOperationRecord Value) := do
  if leaseExpiresAtMs ≤ now then .error (.nats "operation lease must expire in the future")
  if current.snapshot.state.isTerminal then .error (.nats "terminal operation cannot be claimed")
  if !current.leaseFree now then .error (.nats "operation already has an active lease")
  let record := { current with
    ownerExecutorId := some ownerExecutorId
    ownerConnectionId := some ownerConnectionId
    ownerEpoch := current.ownerEpoch + 1
    leaseExpiresAtMs := some leaseExpiresAtMs
    revision := current.revision + 1 }.stampSnapshot
  record.validate format
  return record

/-- The record a renewal writes over `current`. -/
def renew (format : RecordFormat Value) (ownerExecutorId : String) (ownerEpoch : Nat)
    (now leaseExpiresAtMs : Int) (current : DurableOperationRecord Value) :
    Except ServerError (DurableOperationRecord Value) := do
  if leaseExpiresAtMs ≤ now then .error (.nats "operation lease must expire in the future")
  if current.ownerExecutorId ≠ some ownerExecutorId ∨ current.ownerEpoch ≠ ownerEpoch ∨
      current.leaseFree now ∨ current.snapshot.state.isTerminal then
    .error (.nats "operation owner fence is stale")
  let record := { current with
    leaseExpiresAtMs := some leaseExpiresAtMs
    revision := current.revision + 1 }.stampSnapshot
  record.validate format
  return record

/-- The checks of `compare_record_exchange` against the record it loads. -/
def compareRecordExchange [DecidableEq Value] (format : RecordFormat Value)
    (expectedRevision kvRevision : Nat)
    (current record : DurableOperationRecord Value) :
    Except ServerError (DurableOperationRecord Value) := do
  if kvRevision ≠ expectedRevision ∨ record.ownerExecutorId ≠ current.ownerExecutorId ∨
      record.ownerEpoch ≠ current.ownerEpoch ∨
      record.leaseExpiresAtMs ≠ current.leaseExpiresAtMs ∨ !sameIdentity record current then
    .error (.nats "operation record CAS is stale")
  if record.revision ≠ current.revision + 1 then
    .error (.nats "operation durable revision must increment exactly once")
  let record := record.stampSnapshot
  record.validate format
  return record

/-- The checks of `compare_exchange` against the record it loads. -/
def compareExchange [DecidableEq Value] (format : RecordFormat Value)
    (expectedOwnerExecutorId : String)
    (expectedOwnerEpoch : Nat) (now : Int) (expectedRevision kvRevision : Nat)
    (current record : DurableOperationRecord Value) :
    Except ServerError (DurableOperationRecord Value) := do
  if record.ownerExecutorId ≠ some expectedOwnerExecutorId ∨
      record.ownerEpoch ≠ expectedOwnerEpoch then
    .error (.nats "operation owner fence rejected update")
  if kvRevision ≠ expectedRevision ∨ current.ownerExecutorId ≠ some expectedOwnerExecutorId ∨
      current.ownerEpoch ≠ expectedOwnerEpoch ∨ current.leaseFree now then
    .error (.nats "operation owner fence is stale")
  if !sameIdentity record current then .error (.nats "operation immutable identity cannot change")
  if record.revision ≠ current.revision + 1 then
    .error (.nats "operation durable revision must increment exactly once")
  let record := record.stampSnapshot
  record.validate format
  if current.cancellationRequested ∧ record.snapshot.state ≠ .cancelled then
    .error (.operationAlreadyTerminal current.invocationId "cancelled")
  if current.snapshot.state.isTerminal then
    .error (.operationAlreadyTerminal current.invocationId current.snapshot.state.label)
  return record

/-! ## What the checks guarantee -/

theorem compareRecordExchange_ok [DecidableEq Value]
    (h : compareRecordExchange format expected version current record = .ok written) :
    version = expected ∧ record.ownerEpoch = current.ownerEpoch ∧
      record.revision = current.revision + 1 ∧ written = record.stampSnapshot := by
  unfold compareRecordExchange at h
  simp only [error_bind, guard_eq_ok, bind_eq_ok, pure_eq_ok, not_or, not_not] at h
  obtain ⟨⟨hversion, -, hepoch, -⟩, hrev, _, -, rfl⟩ := h
  exact ⟨hversion, hepoch, hrev, rfl⟩

theorem compareExchange_ok [DecidableEq Value]
    (h : compareExchange format executor epoch now expected version current record = .ok written) :
    version = expected ∧ record.ownerEpoch = epoch ∧ current.ownerExecutorId = some executor ∧
      current.ownerEpoch = epoch ∧ record.revision = current.revision + 1 ∧
      (current.cancellationRequested = true → record.snapshot.state = .cancelled) ∧
      current.snapshot.state.isTerminal = false ∧ written = record.stampSnapshot := by
  unfold compareExchange at h
  simp only [error_bind, guard_eq_ok, bind_eq_ok, pure_eq_ok, not_or, not_not, not_and] at h
  obtain ⟨⟨-, hrec⟩, ⟨hversion, hexec, hcur, -⟩, -, hrev, _, -, hcanc, hopen, rfl⟩ := h
  exact ⟨hversion, hrec, hexec, hcur, hrev, hcanc, by simpa using hopen, rfl⟩

end Operation
