/-
# Job lifecycle events and their reducer

A job is what its lifecycle events add up to: `reduceJobEvent` applies one event to
the job, or ignores it when it is not legal in the job's state.  The workers, the
projection and the administrative requests all go by it.

Payloads, results, contexts, triggers, lineages, progress, log entries, queue policies
and wait targets are stored and handed on but not looked into: they are the type
`Value`.  `error_detail`, which only elaborates `last_error` for display, is left out.
-/
import Mathlib.Logic.Basic

namespace Jobs

inductive JobState where
  | pending
  | active
  | retry
  | completed
  | failed
  | cancelled
  | expired
  | skipped
  | stale
  | dead
  | dismissed
  deriving DecidableEq, Repr

inductive JobEventType where
  | created
  | started
  | retry
  | progress
  | logged
  | waiting
  | resumed
  | completed
  | failed
  | cancelled
  | expired
  | skipped
  | stale
  | heartbeat
  | staleCompletionIgnored
  | retried
  | dead
  | dismissed
  deriving DecidableEq, Repr

/-- Keyed-concurrency metadata carried by lifecycle events and projections. -/
structure JobConcurrency where
  (key keyHash : String)
  (instanceId slotToken heartbeatAt leaseExpiresAt : Option String)
  staleTakeoverCount : Option Nat
  deriving DecidableEq, Repr

structure JobWaitEdge (Value : Type) where
  id : String
  target : Value
  startedAt : String
  label : Option String
  deriving DecidableEq, Repr

structure Job (Value : Type) where
  id : String
  context : Value
  (service jobType : String)
  state : JobState
  payload : Value
  result : Option Value
  (createdAt updatedAt : String)
  (startedAt completedAt : Option String)
  (tries maxTries : Nat)
  (lastError deadline : Option String)
  progress : Option Value
  logs : Option (List Value)
  concurrency : Option JobConcurrency
  (queuePolicy trigger lineage : Option Value)
  waitingOn : Option (List (JobWaitEdge Value))
  deriving DecidableEq, Repr

structure JobEvent (Value : Type) where
  jobId : String
  context : Value
  (service jobType : String)
  eventType : JobEventType
  state : JobState
  previousState : Option JobState
  tries : Nat
  maxTries : Option Nat
  error : Option String
  progress : Option Value
  logs : Option (List Value)
  (payload result : Option Value)
  deadline : Option String
  concurrency : Option JobConcurrency
  (queuePolicy trigger lineage : Option Value)
  waitEdge : Option (JobWaitEdge Value)
  /-- The reason an administrator gave. -/
  adminAction : Option String
  timestamp : String
  deriving DecidableEq, Repr

variable {Value : Type}

def isTerminal : JobState → Bool
  | .completed | .failed | .cancelled | .expired | .skipped | .stale | .dead | .dismissed => true
  | .pending | .active | .retry => false

section

variable (current : Job Value) (event : JobEvent Value)

def seedJobFromEvent : Option (Job Value) :=
  event.payload.map fun payload =>
    { id := event.jobId
      context := event.context
      service := event.service
      jobType := event.jobType
      state := event.state
      payload
      result := none
      createdAt := event.timestamp
      updatedAt := event.timestamp
      startedAt := none
      completedAt := none
      tries := event.tries
      maxTries := event.maxTries.getD 1
      lastError := none
      deadline := event.deadline
      progress := none
      logs := none
      concurrency := event.concurrency
      queuePolicy := event.queuePolicy
      trigger := event.trigger
      lineage := event.lineage
      waitingOn := none }

/-- The job a work message carries. -/
def jobFromWorkEvent : Option (Job Value) :=
  match event.eventType with
  | .created | .retried => seedJobFromEvent event
  | _ => none

def isLegalTransition : Bool :=
  match event.eventType with
  | .created => false
  | .started | .cancelled | .expired =>
    current.state ∈ [.pending, .retry, .active] ∧ event.previousState = some current.state
  | .retry | .progress | .logged | .completed | .waiting | .resumed | .failed | .heartbeat
  | .staleCompletionIgnored => current.state = .active ∧ event.previousState = some .active
  | .skipped => current.state ∈ [.pending, .retry] ∧ event.previousState = some current.state
  | .stale =>
    (current.state = .active ∨ current.state = .pending ∧ current.tries = 0 ∧ event.tries = 0) ∧
      event.previousState = some current.state
  | .retried => current.state ∈ [.failed, .dead] ∧ event.previousState = some current.state
  | .dead =>
    current.state ∈ [.active, .retry, .failed, .expired] ∧ event.previousState = some current.state
  | .dismissed => current.state = .dead ∧ event.previousState = some .dead

/-- What every legal event does to the job. -/
def nextJob : Job Value :=
  { current with
    state := event.state
    updatedAt := event.timestamp
    tries := event.tries
    maxTries := event.maxTries.getD current.maxTries
    concurrency := event.concurrency.or current.concurrency
    queuePolicy := event.queuePolicy.or current.queuePolicy
    trigger := event.trigger.or current.trigger
    lineage := event.lineage.or current.lineage }

end

/-- What its type adds to that. -/
def applyEventType (next : Job Value) (event : JobEvent Value) : Job Value :=
  match event.eventType with
  | .started => { next with startedAt := some event.timestamp }
  | .progress => { next with progress := event.progress }
  | .logged => { next with logs := some (next.logs.getD [] ++ event.logs.getD []) }
  | .waiting =>
    match event.waitEdge with
    | none => next
    | some waitEdge =>
      { next with
        waitingOn := some
          ((next.waitingOn.getD []).filter (fun edge => edge.id ≠ waitEdge.id) ++ [waitEdge]) }
  | .resumed =>
    match event.waitEdge with
    | none => next
    | some waitEdge =>
      let waitingOn := (next.waitingOn.getD []).filter fun edge => edge.id ≠ waitEdge.id
      { next with waitingOn := if waitingOn.isEmpty then none else some waitingOn }
  | .completed =>
    { next with
      result := event.result
      completedAt := some event.timestamp
      waitingOn := none }
  | .failed | .cancelled | .expired | .skipped | .stale | .dead | .dismissed =>
    { next with
      lastError := event.error
      completedAt := some event.timestamp
      waitingOn := none }
  | .staleCompletionIgnored | .retry => { next with lastError := event.error }
  | .retried =>
    { next with
      payload := event.payload.getD next.payload
      deadline := event.deadline.or next.deadline
      result := none
      completedAt := none
      startedAt := none
      lastError := none
      progress := none
      logs := none
      concurrency := event.concurrency
      queuePolicy := event.queuePolicy
      waitingOn := none
      tries := 0 }
  | .heartbeat | .created => next

def reduceJobEvent (current : Option (Job Value)) (event : JobEvent Value) : Option (Job Value) :=
  match current with
  | none => if event.eventType ≠ .created then none else seedJobFromEvent event
  | some current =>
    if !isLegalTransition current event then some current
    else some (applyEventType (nextJob current event) event)

/-- The job the events of its history add up to. -/
def foldJob (events : List (JobEvent Value)) : Option (Job Value) :=
  events.foldl reduceJobEvent none

@[simp] theorem foldJob_concat (events : List (JobEvent Value)) (event : JobEvent Value) :
    foldJob (events ++ [event]) = reduceJobEvent (foldJob events) event := by
  rw [foldJob, List.foldl_append]
  rfl

end Jobs
