/-
# Lifecycle events and the job worker

The constructors of lifecycle events, the cancellation token of an attempt, the
decision a worker takes on a delivery (`stream_work_decision`) and the events and
outcome of processing it (`process_with_heartbeat_and_terminal_hooks`).

The processing awaits, and reads its token, at several points; what it does between
two of them is a definition of its own here.
-/
import Trellis.Jobs.Reducer

namespace Jobs

variable {Value : Type}

/-! ## Events -/

/-- Fields shared by every lifecycle event. -/
structure EventMeta (Value : Type) where
  (service jobType jobId : String)
  context : Value
  timestamp : String

/-- An event about the job at that time. -/
def Job.eventMeta (job : Job Value) (timestamp : String) : EventMeta Value :=
  ⟨job.service, job.jobType, job.id, job.context, timestamp⟩

/-- An event with none of the fields that only some have. -/
def baseEvent (info : EventMeta Value) (eventType : JobEventType) (state : JobState)
    (previousState : Option JobState) (tries : Nat) : JobEvent Value where
  jobId := info.jobId
  context := info.context
  service := info.service
  jobType := info.jobType
  eventType := eventType
  state := state
  previousState := previousState
  tries := tries
  maxTries := none
  error := none
  progress := none
  logs := none
  payload := none
  result := none
  deadline := none
  concurrency := none
  queuePolicy := none
  trigger := none
  lineage := none
  waitEdge := none
  adminAction := none
  timestamp := info.timestamp

namespace Event

variable (info : EventMeta Value) (tries : Nat) (previousState : JobState)

/-- The first event of a job. -/
def createdWithPolicy (payload : Value) (maxTries : Nat)
    (deadline : Option String) (concurrency : Option JobConcurrency)
    (queuePolicy : Option Value) : JobEvent Value :=
  { baseEvent info .created .pending none 0 with
    payload := some payload
    maxTries := some maxTries
    deadline
    concurrency
    queuePolicy }

section

variable (reason : Option String) (concurrency : Option JobConcurrency)

/-- An attempt begins. -/
def started : JobEvent Value :=
  { baseEvent info .started .active (some previousState) tries with concurrency }

/-- The attempt is to be made again. -/
def retry (error : Option String) : JobEvent Value :=
  { baseEvent info .retry .retry (some previousState) tries with error }

def progress (progress : Value) : JobEvent Value :=
  { baseEvent info .progress .active (some .active) tries with progress := some progress }

def logged (logs : List Value) : JobEvent Value :=
  { baseEvent info .logged .active (some .active) tries with logs := some logs }

/-- Evidence only: the job stays active. -/
def waiting (waitEdge : JobWaitEdge Value) : JobEvent Value :=
  { baseEvent info .waiting .active (some .active) tries with waitEdge := some waitEdge }

/-- Evidence only, as `waiting`. -/
def resumed (waitEdge : JobWaitEdge Value) : JobEvent Value :=
  { baseEvent info .resumed .active (some .active) tries with waitEdge := some waitEdge }

def completed (result : Value) : JobEvent Value :=
  { baseEvent info .completed .completed (some .active) tries with result := some result }

def failed (error : String) : JobEvent Value :=
  { baseEvent info .failed .failed (some previousState) tries with error := some error }

def cancelledByAdmin : JobEvent Value :=
  { baseEvent info .cancelled .cancelled (some previousState) tries with adminAction := reason }

def expired (error : String) : JobEvent Value :=
  { baseEvent info .expired .expired (some previousState) tries with error := some error }

/-- Queued work that a policy replaced. -/
def skipped : JobEvent Value :=
  { baseEvent info .skipped .skipped (some previousState) 0 with error := reason }

/-- Active work that lost its key lease. -/
def stale : JobEvent Value :=
  { baseEvent info .stale .stale (some .active) tries with error := reason, concurrency }

/-- A late completion; the job stays active. -/
def staleCompletionIgnored : JobEvent Value :=
  { baseEvent info .staleCompletionIgnored .active (some .active) tries with
    error := reason
    concurrency }

end

/-- A new run, whose tries count from zero. -/
def retriedByAdmin (payload : Option Value)
    (maxTries : Option Nat) (deadline reason : Option String) : JobEvent Value :=
  { baseEvent info .retried .pending (some previousState) 0 with
    payload
    maxTries
    deadline
    adminAction := reason }

/-- No attempts are left. -/
def dead (error : String) : JobEvent Value :=
  { baseEvent info .dead .dead (some previousState) tries with error := some error }

/-- An administrator puts a dead job away. -/
def dismissed (reason : Option String) : JobEvent Value :=
  { baseEvent info .dismissed .dismissed (some previousState) tries with
    error := reason
    adminAction := reason }

end Event

/-! ## The cancellation token -/

/-- Why an attempt must stop or reconcile work started before. -/
inductive JobCancellationReason where
  /-- A job cancel event. -/
  | requested
  | hostShutdown
  /-- This attempt no longer owns its execution lease. -/
  | leaseLost
  | deadlineExceeded
  | retryExhausted
  /-- Another job displaced the previous attempt. -/
  | staleAttempt
  deriving DecidableEq, Repr

/-- Passed into the handler, which may look at it. -/
structure JobCancellationToken where
  reason : Option JobCancellationReason
  deriving DecidableEq, Repr

namespace JobCancellationToken

def new : JobCancellationToken := ⟨none⟩

variable (token : JobCancellationToken)

/-- A request comes before what the execution owner reconciles. -/
def cancel : JobCancellationToken :=
  match token.reason with
  | none | some .deadlineExceeded | some .retryExhausted | some .staleAttempt => ⟨some .requested⟩
  | some .requested | some .hostShutdown | some .leaseLost => token

/-- Only a lost lease comes before a shutdown. -/
def cancelForShutdown : JobCancellationToken :=
  if token.reason ≠ some .leaseLost then ⟨some .hostShutdown⟩ else token

/-- Comes before everything. -/
def cancelForLeaseLoss (_ : JobCancellationToken) : JobCancellationToken :=
  ⟨some .leaseLost⟩

/-- The reasons that only apply while nothing else has cancelled the attempt. -/
def cancelIfNone (reason : JobCancellationReason) : JobCancellationToken :=
  if token.reason = none then ⟨some reason⟩ else token

def cancelForDeadline : JobCancellationToken :=
  token.cancelIfNone .deadlineExceeded

def cancelForRetryExhaustion : JobCancellationToken :=
  token.cancelIfNone .retryExhausted

def cancelForStaleAttempt : JobCancellationToken :=
  token.cancelIfNone .staleAttempt

def isCancelled : Bool :=
  token.reason.isSome

/-- The host shuts down or the lease is lost: the work must remain redeliverable. -/
def isInterrupted : Bool :=
  token.reason = some .hostShutdown ∨ token.reason = some .leaseLost

/-- A reason that the execution owner reconciles with a terminal event. -/
def isReconciled : Bool :=
  token.reason ∈ [some .deadlineExceeded, some .retryExhausted, some .staleAttempt]

end JobCancellationToken

/-! ## The decision on a delivery -/

/-- A delivery is processed, or acknowledged as settled or of an old run. -/
inductive ProjectedWorkDecision where
  | process
  | skipAck
  | oldRunAck
  deriving DecidableEq, Repr

/-- Events that do not take part in the accepted-state fold. -/
def isObservation : JobEventType → Bool
  | .progress | .logged | .heartbeat | .staleCompletionIgnored | .waiting | .resumed => true
  | _ => false

/-- The job so far and the event that opened its current run. -/
structure RunFold (Value : Type) where
  current : Option (Job Value)
  runSequence : Option Nat
  runType : JobEventType

def RunFold.empty : RunFold Value := ⟨none, none, .created⟩

/-- The creation, or the retry of a job that failed or is dead. -/
def opensRun (current : Option (Job Value)) (event : JobEvent Value) : Bool :=
  match current with
  | none => event.eventType = .created
  | some job =>
    event.eventType = .retried ∧ job.state ∈ [.failed, .dead] ∧ event.previousState = some job.state

/-- Accept one entry of the history. -/
def RunFold.step (fold : RunFold Value) (entry : Nat × JobEvent Value) : RunFold Value :=
  if isObservation entry.2.eventType then fold
  else
    let current := reduceJobEvent fold.current entry.2
    if opensRun fold.current entry.2 ∧ current.isSome then
      ⟨current, some entry.1, entry.2.eventType⟩
    else { fold with current }

/-- The accepted history of a job. -/
def runFold (transitions : List (Nat × JobEvent Value)) : RunFold Value :=
  transitions.foldl RunFold.step .empty

/-- `stream_work_decision`: what to do with the delivery, and the job it now stands for. -/
def streamWorkDecision (transitions : List (Nat × JobEvent Value)) (work : Job Value)
    (workSequence : Nat) (workEventType : JobEventType) : ProjectedWorkDecision × Job Value :=
  let fold := runFold transitions
  if fold.runSequence.isSome ∧
      (fold.runType ≠ workEventType ∨ (fold.runSequence ≠ some workSequence ∧
          (fold.runType = .retried ∨ !fold.current.any fun job => isTerminal job.state))) then
    (.oldRunAck, work)
  else
    let work := fold.current.getD work
    (if isTerminal work.state then .skipAck else .process, work)

/-! ## Processing -/

/-- How the processing of a delivery ended. -/
inductive JobProcessOutcome (Value : Type) where
  | completed (tries : Nat) (result : Value)
  | retry (tries : Nat) (error : String)
  | cancelled (tries : Nat)
  | failed (tries : Nat) (error : String)
  | expired (tries : Nat)
  | dead (tries : Nat)
  | stale (tries : Nat)
  | interrupted (tries : Nat)
  | staleCompletionIgnored (tries : Nat)

/-- Whether the outcome acknowledges the delivery; the others ask for redelivery. -/
def ackActionForOutcome : JobProcessOutcome Value → Bool
  | .retry _ _ | .interrupted _ | .staleCompletionIgnored _ => false
  | .completed _ _ | .cancelled _ | .failed _ _ | .expired _ | .dead _ | .stale _ => true

/-- What a handler answers. -/
inductive HandlerResult (Value : Type) where
  | ok (result : Value)
  | retryable (error : String)
  | failed (error : String)

variable (token : JobCancellationToken)

/-- The job ends before its first execution, past its deadline or displaced. -/
def endsUnstarted (deadlinePassed : Bool) (job : Job Value) : Bool :=
  (deadlinePassed && !token.isCancelled || token.reason = some .staleAttempt) && job.tries == 0

variable (job : Job Value)

/-- The terminal event of a job that ends unstarted. -/
def unstartedEvent (stale : Bool) (terminalAt : String) : JobEvent Value :=
  { (if stale then
      Event.stale (job.eventMeta terminalAt) 0
        (some "key reservation displaced before execution") none
    else
      Event.expired (job.eventMeta terminalAt) 0 job.state
        "job deadline exceeded before execution") with
    previousState := some job.state }

/-- Its outcome. -/
def unstartedOutcome (stale : Bool) : JobProcessOutcome Value :=
  if stale then .stale 0 else .expired 0

/-- The number of the attempt, which saturates. -/
def startedTries : Nat := min (job.tries + 1) (UInt64.size - 1)

/-- The event that claims the attempt. -/
def startedEvent (startedAt : String) : JobEvent Value :=
  Event.started (job.eventMeta startedAt) (startedTries job) job.state job.concurrency

/-- The token once the start is recorded. -/
def startedToken (deadlinePassed : Bool) (job : Job Value) : JobCancellationToken :=
  if deadlinePassed then token.cancelForDeadline
  else if job.tries ≥ job.maxTries then token.cancelForRetryExhaustion
  else token

/-- Recorded when the key slot was lost before the result. -/
def ignoredEvent (tries : Nat) (terminalAt : String) : JobEvent Value :=
  Event.staleCompletionIgnored (job.eventMeta terminalAt) tries (some "lost key slot")
    job.concurrency

/-- The terminal event of an execution cancelled for deadline, attempts or displacement. -/
def reconcile (tries : Nat) (terminalAt : String) : JobEvent Value × JobProcessOutcome Value :=
  if token.reason = some .staleAttempt then
    (Event.stale (job.eventMeta terminalAt) tries
      (some "key lease displaced; execution owner reconciled") none, .stale tries)
  else if token.reason = some .deadlineExceeded then
    (Event.expired (job.eventMeta terminalAt) tries .active
      "job deadline exceeded; execution owner reconciled", .expired tries)
  else
    (Event.dead (job.eventMeta terminalAt) tries .active
      "ordinary job attempts exhausted; execution owner reconciled", .dead tries)

/-- The event a handler's result is recorded as, and the outcome. -/
def settle (tries : Nat) (terminalAt : String) :
    HandlerResult Value → JobEvent Value × JobProcessOutcome Value
  | .ok result => (Event.completed (job.eventMeta terminalAt) tries result, .completed tries result)
  | .retryable error =>
    (Event.retry (job.eventMeta terminalAt) tries .active (some error), .retry tries error)
  | .failed error =>
    (Event.failed (job.eventMeta terminalAt) tries .active error, .failed tries error)

/-- Attempts count from one. -/
theorem startedTries_pos : 0 < startedTries job :=
  Nat.lt_min.mpr ⟨Nat.succ_pos _, by decide⟩

end Jobs
