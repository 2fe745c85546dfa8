/-
# The jobs projection

The projector reads the jobs stream in batches and projects each event into SQLite: a row of the
job's timeline, its wait edges, the job, and the metadata the administration shows.  A batch is
one transaction; within it an event that can never be projected is rejected alone.

By its timeline row a redelivered event is known.  A rejected event leaves nothing, and its
redelivery finds the job id that was taken still taken.

A row of `jobs_projection` is the job it is made from.  The lineage, error and search tables,
which the projector does not read, are left out.
-/
import Mathlib.Algebra.Order.Ring.Nat
import Mathlib.Data.List.Sort
import Trellis.Lib.Redelivery
import Trellis.Jobs.Reducer

namespace Jobs

open List

variable {Value : Type}

/-! ## The store -/

structure JobRef where
  (service jobType id : String)
  deriving DecidableEq, Repr

def Job.ref (job : Job Value) : JobRef :=
  ⟨job.service, job.jobType, job.id⟩

def JobEvent.ref (event : JobEvent Value) : JobRef :=
  ⟨event.service, event.jobType, event.jobId⟩

/-- A row of `jobs_events_projection`. -/
structure JobEventRow (Value : Type) where
  ref : JobRef
  sequence : Nat
  eventType : JobEventType
  state : JobState
  previousState : Option JobState
  timestamp : String
  timestampNanos : Int
  tries : Nat
  (message errorMessage : Option String)
  progress : Option Value
  logs : Option (List Value)
  workerInstanceId : Option String
  rawEvent : Value
  projected : Option Bool
  reason : Option String
  /-- The stream sequence of the projected event. -/
  sourceSequence : Option Nat
  deriving DecidableEq, Repr

/-- A row of `jobs_wait_projection`. -/
structure JobWaitRow (Value : Type) where
  ref : JobRef
  waitEdge : JobWaitEdge Value
  deriving DecidableEq, Repr

structure JobConcurrencyMetadata where
  (key keyHash : String)
  (instanceId heartbeatAt leaseExpiresAt : Option String)
  staleTakeoverCount : Option Nat
  deriving DecidableEq, Repr

structure JobQueuePolicyMetadata where
  outcome : String
  (reason existingJobId replacedJobId : Option String)
  deriving DecidableEq, Repr

/-- A row of `jobs_metadata_projection`. -/
structure JobMetadataRow where
  ref : JobRef
  concurrency : Option JobConcurrencyMetadata
  queuePolicy : Option JobQueuePolicyMetadata
  updatedAt : String
  updatedAtNanos : Int
  deriving DecidableEq, Repr

structure JobsStore (Value : Type) where
  jobs : List (Job Value)
  events : List (JobEventRow Value)
  waits : List (JobWaitRow Value)
  metadata : List JobMetadataRow
  deriving DecidableEq, Repr

def JobsStore.empty : JobsStore Value :=
  ⟨[], [], [], []⟩

inductive SqliteJobsStoreError where
  | constraintViolation
  | validation (field details : String)
  /-- Any other failure of the database. -/
  | sqlite
  deriving DecidableEq, Repr

/-- Whether projecting an event can never succeed, however often it is retried. -/
def isPermanent : SqliteJobsStoreError → Bool
  | .constraintViolation | .validation _ _ => true
  | .sqlite => false

/-- How the parts of an event that are handed on unread are read where a column needs them. -/
structure EventReader (Value : Type) where
  null : Value
  timestampNanos : String → Int
  progressMessage : Value → Option String
  queuePolicyMetadata : Value → Option JobQueuePolicyMetadata

structure ProjectorEvent (Value : Type) where
  event : JobEvent Value
  rawEvent : Value
  streamSequence : Nat
  deriving DecidableEq, Repr

/-! ## Projecting one event -/

variable (reader : EventReader Value)

def getJob (store : JobsStore Value) (ref : JobRef) : Option (Job Value) :=
  store.jobs.find? fun job => job.ref = ref

/-- A job that is known only from its end. -/
def jobFromTerminalEvent (event : JobEvent Value) : Option (Job Value) :=
  if !isTerminal event.state then none
  else
    some
      { id := event.jobId
        context := event.context
        service := event.service
        jobType := event.jobType
        state := event.state
        payload := event.payload.getD reader.null
        result := if event.eventType = .completed then event.result else none
        createdAt := event.timestamp
        updatedAt := event.timestamp
        startedAt := none
        completedAt := some event.timestamp
        tries := event.tries
        maxTries := event.maxTries.getD (max event.tries 1)
        lastError := if event.eventType = .completed then none else event.error
        deadline := event.deadline
        progress := event.progress
        logs := event.logs
        concurrency := event.concurrency
        queuePolicy := event.queuePolicy
        trigger := event.trigger
        lineage := event.lineage
        waitingOn := none }

def nextProjected (current : Option (Job Value)) (event : JobEvent Value) : Option (Job Value) :=
  (reduceJobEvent current event).or (jobFromTerminalEvent reader event)

/-- Whether the event changed the job, where there was one. -/
def projectedFlag [DecidableEq Value] (current next : Option (Job Value)) : Option Bool :=
  match next, current with
  | some next, some current => some (next ≠ current)
  | _, _ => none

def projectionReason [DecidableEq Value] (current next : Option (Job Value)) : Option String :=
  if projectedFlag current next = some false then
    if current.any fun job => isTerminal job.state then some "terminal-precedence"
    else some "illegal-transition"
  else if next.isNone then some "illegal-transition"
  else none

/-- The largest number the database stores. -/
def maxInteger : Nat := 2 ^ 63 - 1

section

variable (store : JobsStore Value) (event : JobEvent Value) (rawEvent : Value)

def projectTimelineEvent (projected : Option Bool) (reason : Option String)
    (sourceSequence : Option Nat) : JobsStore Value :=
  let own := store.events.filter fun row => row.ref = event.ref
  { store with
    events := store.events ++
      [{ ref := event.ref
         sequence := (own.map JobEventRow.sequence).foldl max 0 + 1
         eventType := event.eventType
         state := event.state
         previousState := event.previousState
         timestamp := event.timestamp
         timestampNanos := reader.timestampNanos event.timestamp
         tries := min event.tries maxInteger
         message := (event.progress.bind reader.progressMessage).or event.adminAction
         errorMessage := event.error
         progress := event.progress
         logs := event.logs
         workerInstanceId := event.concurrency.bind JobConcurrency.instanceId
         rawEvent := rawEvent
         projected := projected
         reason := reason
         sourceSequence := sourceSequence }] }

def projectWaitEdge : JobsStore Value :=
  if isTerminal event.state then
    { store with waits := store.waits.filter fun row => row.ref ≠ event.ref }
  else
    match event.eventType, event.waitEdge with
    | .waiting, some waitEdge =>
      { store with
        waits := (store.waits.filter fun row =>
          ¬ (row.ref = event.ref ∧ row.waitEdge.id = waitEdge.id)) ++ [⟨event.ref, waitEdge⟩] }
    | .resumed, some waitEdge =>
      { store with
        waits := store.waits.filter fun row =>
          ¬ (row.ref = event.ref ∧ row.waitEdge.id = waitEdge.id) }
    | _, _ => store

/-- Job ids are unique across services and types. -/
def upsertJob (job : Job Value) : Except SqliteJobsStoreError (JobsStore Value) :=
  if store.jobs.any fun row => row.ref = job.ref then
    .ok { store with jobs := store.jobs.map fun row => if row.ref = job.ref then job else row }
  else if store.jobs.any fun row => row.id = job.id then .error .constraintViolation
  else .ok { store with jobs := store.jobs ++ [job] }

structure JobProjectionMetadataPatch where
  concurrency : Option JobConcurrencyMetadata
  queuePolicy : Option JobQueuePolicyMetadata

def concurrencyMetadata (concurrency : JobConcurrency) : JobConcurrencyMetadata where
  key := concurrency.key
  keyHash := concurrency.keyHash
  instanceId := concurrency.instanceId
  heartbeatAt := concurrency.heartbeatAt
  leaseExpiresAt := concurrency.leaseExpiresAt
  staleTakeoverCount := concurrency.staleTakeoverCount

def metadataPatchFromEvent : JobProjectionMetadataPatch where
  concurrency := event.concurrency.map concurrencyMetadata
  queuePolicy := event.queuePolicy.bind reader.queuePolicyMetadata

def mergeConcurrencyMetadata (existing patch : Option JobConcurrencyMetadata) :
    Option JobConcurrencyMetadata :=
  match existing, patch with
  | none, none => none
  | some existing, none => some existing
  | none, some patch => some patch
  | some existing, some patch =>
    some
      { key := patch.key
        keyHash := patch.keyHash
        instanceId := patch.instanceId.or existing.instanceId
        heartbeatAt := patch.heartbeatAt.or existing.heartbeatAt
        leaseExpiresAt := patch.leaseExpiresAt.or existing.leaseExpiresAt
        staleTakeoverCount := patch.staleTakeoverCount.or existing.staleTakeoverCount }

def mergeQueuePolicyMetadata (existing patch : Option JobQueuePolicyMetadata) :
    Option JobQueuePolicyMetadata :=
  match existing, patch with
  | none, none => none
  | some existing, none => some existing
  | none, some patch => some patch
  | some existing, some patch =>
    some
      { outcome := patch.outcome
        reason := patch.reason.or existing.reason
        existingJobId := patch.existingJobId.or existing.existingJobId
        replacedJobId := patch.replacedJobId.or existing.replacedJobId }

/-- The takeover count as the database stores it. -/
def storedConcurrency (concurrency : JobConcurrencyMetadata) : JobConcurrencyMetadata :=
  { concurrency with
    staleTakeoverCount := concurrency.staleTakeoverCount.map fun count => min count maxInteger }

def applyJobMetadataPatch (ref : JobRef) (timestamp : String) (patch : JobProjectionMetadataPatch) :
    JobsStore Value :=
  if patch.concurrency.isNone ∧ patch.queuePolicy.isNone then store
  else
    let existing := store.metadata.find? fun row => row.ref = ref
    let row : JobMetadataRow :=
      { ref
        concurrency := (mergeConcurrencyMetadata (existing.bind JobMetadataRow.concurrency)
          patch.concurrency).map storedConcurrency
        queuePolicy := mergeQueuePolicyMetadata (existing.bind JobMetadataRow.queuePolicy)
          patch.queuePolicy
        updatedAt := timestamp
        updatedAtNanos := reader.timestampNanos timestamp }
    { store with
      metadata :=
        if existing.isSome then
          store.metadata.map fun other => if other.ref = ref then row else other
        else store.metadata ++ [row] }

end

def projectJobEvent [DecidableEq Value] (store : JobsStore Value) (event : JobEvent Value)
    (rawEvent : Value)
    (sourceSequence : Option Nat) :
    Except SqliteJobsStoreError (JobsStore Value × Option (Job Value)) :=
  let current := getJob store event.ref
  let next := nextProjected reader current event
  let store := projectTimelineEvent reader store event rawEvent
    ((projectedFlag current next).or (some next.isSome)) (projectionReason current next)
    sourceSequence
  let store := projectWaitEdge store event
  match next with
  | none => .ok (store, none)
  | some next =>
    match upsertJob store next with
    | .error error => .error error
    | .ok store =>
      .ok (applyJobMetadataPatch reader store event.ref event.timestamp
        (metadataPatchFromEvent reader event), some next)

/-! ## Batches and schedules -/

def JobsStore.seen (store : JobsStore Value) (sequence : Nat) : Bool :=
  store.events.any fun row => row.sourceSequence = some sequence

/-- One transaction over a batch, and what it projected of each event. -/
def projectJobEvents [DecidableEq Value] (store : JobsStore Value) : List (ProjectorEvent Value) →
      Except SqliteJobsStoreError (JobsStore Value × List (Option (Job Value)))
  | [] => .ok (store, [])
  | event :: rest =>
    if event.streamSequence > maxInteger then
      .error (.validation "stream sequence" (toString event.streamSequence))
    else if store.seen event.streamSequence then
      -- a redelivery after a commit whose acknowledgement was lost changes nothing
      (projectJobEvents store rest).map fun result => (result.1, none :: result.2)
    else
      match projectJobEvent reader store event.event event.rawEvent (some event.streamSequence) with
      | .ok (store, job) =>
        (projectJobEvents store rest).map fun result => (result.1, job :: result.2)
      | .error error =>
        if isPermanent error then
          (projectJobEvents store rest).map fun result => (result.1, none :: result.2)
        else .error error

/-- A batch that is delivered, and whether its transaction fails on the way. -/
structure BatchAttempt (Value : Type) where
  events : List (ProjectorEvent Value)
  fails : Bool

/-- The transaction is committed: nothing failed, and every sequence can be stored. -/
def BatchAttempt.commits (attempt : BatchAttempt Value) : Bool :=
  !attempt.fails && attempt.events.all fun event => event.streamSequence ≤ maxInteger

def BatchAttempt.run [DecidableEq Value] (store : JobsStore Value) (attempt : BatchAttempt Value) :
    JobsStore Value :=
  if attempt.fails then store
  else
    match projectJobEvents reader store attempt.events with
    | .ok (store, _) => store
    | .error _ => store

def runSchedule [DecidableEq Value] (store : JobsStore Value)
    (schedule : List (BatchAttempt Value)) :
    JobsStore Value :=
  schedule.foldl (BatchAttempt.run reader) store

/-- What the committed batches deliver.  A failed batch is rolled back until it is retried. -/
def deliveries (schedule : List (BatchAttempt Value)) : List (ProjectorEvent Value) :=
  (schedule.filter BatchAttempt.commits).flatMap BatchAttempt.events

/-- The projector as a consumer of the stream. -/
def projector [DecidableEq Value] :
    Redelivery.Consumer (JobsStore Value) (ProjectorEvent Value) Nat where
  key := ProjectorEvent.streamSequence
  seen := fun store event => store.seen event.streamSequence
  apply := fun store event =>
    match projectJobEvent reader store event.event event.rawEvent (some event.streamSequence) with
    | .ok (store, _) => some store
    | .error _ => none

/-- Each event exactly once, in order. -/
def projectOnce [DecidableEq Value] (store : JobsStore Value)
    (stream : List (ProjectorEvent Value)) :
    JobsStore Value :=
  stream.foldl (projector reader).once store

/-! ## What a projection writes -/

variable {reader}

theorem applyEventType_ref {next : Job Value} : (applyEventType next event).ref = next.ref := by
  unfold applyEventType
  split
  all_goals first
    | rfl
    | (split <;> rfl)

/-- The projected job is the one the event names. -/
theorem nextProjected_ref {next : Job Value} (hcur : ∀ job ∈ current, job.ref = event.ref)
    (h : nextProjected reader current event = some next) : next.ref = event.ref := by
  rcases Option.or_eq_some_iff.mp h with hred | ⟨-, hterm⟩
  · cases current with
    | none =>
      simp only [reduceJobEvent] at hred
      split at hred
      · cases hred
      · obtain ⟨payload, -, rfl⟩ := Option.map_eq_some_iff.mp hred
        rfl
    | some job =>
      have href := hcur job rfl
      simp only [reduceJobEvent] at hred
      split at hred
      · cases hred
        exact href
      · cases hred
        rw [applyEventType_ref]
        exact href
  · unfold jobFromTerminalEvent at hterm
    split at hterm
    · cases hterm
    · cases hterm
      rfl

@[simp] theorem projectTimelineEvent_jobs :
    (projectTimelineEvent reader store event rawEvent projected reason sourceSequence).jobs =
      store.jobs :=
  rfl

theorem projectTimelineEvent_events : ∃ row : JobEventRow Value,
    row.sourceSequence = sourceSequence ∧
      (projectTimelineEvent reader store event rawEvent projected reason sourceSequence).events =
        store.events ++ [row] :=
  ⟨_, rfl, rfl⟩

@[simp] theorem projectWaitEdge_jobs : (projectWaitEdge store event).jobs = store.jobs := by
  unfold projectWaitEdge
  split
  · rfl
  · split <;> rfl

@[simp] theorem projectWaitEdge_events : (projectWaitEdge store event).events = store.events := by
  unfold projectWaitEdge
  split
  · rfl
  · split <;> rfl

@[simp] theorem applyJobMetadataPatch_jobs :
    (applyJobMetadataPatch reader store ref timestamp patch).jobs = store.jobs := by
  unfold applyJobMetadataPatch
  split <;> rfl

@[simp] theorem applyJobMetadataPatch_events :
    (applyJobMetadataPatch reader store ref timestamp patch).events = store.events := by
  unfold applyJobMetadataPatch
  split <;> rfl

/-- The id of a job that is not stored belongs to another one. -/
def IdTaken (store : JobsStore Value) (ref : JobRef) : Prop :=
  (∀ job ∈ store.jobs, job.ref ≠ ref) ∧ ∃ job ∈ store.jobs, job.id = ref.id

theorem upsertJob_error : upsertJob store job = .error error ↔
      error = .constraintViolation ∧ IdTaken store job.ref := by
  unfold upsertJob
  split
  next hown =>
    obtain ⟨row, hrow, hsame⟩ := any_eq_true.mp hown
    refine ⟨nofun, fun h => ?_⟩
    exact absurd (of_decide_eq_true hsame) (h.2.1 row hrow)
  next hown =>
    have hnone : ∀ row ∈ store.jobs, row.ref ≠ job.ref := fun row hrow hsame =>
      hown (any_eq_true.mpr ⟨row, hrow, decide_eq_true hsame⟩)
    split
    next htaken =>
      obtain ⟨row, hrow, hid⟩ := any_eq_true.mp htaken
      refine ⟨fun h => ⟨(Except.error.inj h).symm, hnone, row, hrow, of_decide_eq_true hid⟩, ?_⟩
      rintro ⟨rfl, -⟩
      rfl
    next hfree =>
      refine ⟨nofun, ?_⟩
      rintro ⟨-, -, row, hrow, hid⟩
      exact absurd (any_eq_true.mpr ⟨row, hrow, decide_eq_true hid⟩) hfree

/-- What an upsert stores: the ids and refs that were there, and the job's own. -/
theorem upsertJob_ok (h : upsertJob store job = .ok store') : store'.events = store.events ∧
      (store'.jobs.map Job.ref = store.jobs.map Job.ref ∨
        (∀ row ∈ store.jobs, row.id ≠ job.id) ∧ store'.jobs = store.jobs ++ [job]) := by
  unfold upsertJob at h
  split at h
  · cases h
    refine ⟨rfl, .inl ?_⟩
    rw [map_map]
    refine map_congr_left fun row _ => ?_
    show (if row.ref = job.ref then job else row).ref = row.ref
    split
    next hsame => exact hsame.symm
    · rfl
  · split at h
    · cases h
    rename_i hfree
    cases h
    refine ⟨rfl, .inr ⟨fun row hrow hid => ?_, rfl⟩⟩
    exact hfree (any_eq_true.mpr ⟨row, hrow, decide_eq_true hid⟩)

theorem IdTaken.congr (h : IdTaken store ref)
    (hrefs : store'.jobs.map Job.ref = store.jobs.map Job.ref) : IdTaken store' ref := by
  obtain ⟨hnone, job, hjob, hid⟩ := h
  constructor
  · intro row hrow hsame
    have hmem : row.ref ∈ store.jobs.map Job.ref := hrefs ▸ mem_map_of_mem hrow
    obtain ⟨old, hold, holdRef⟩ := mem_map.mp hmem
    exact hnone old hold (holdRef.trans hsame)
  · have hmem : job.ref ∈ store'.jobs.map Job.ref := hrefs ▸ mem_map_of_mem hjob
    obtain ⟨row, hrow, hrowRef⟩ := mem_map.mp hmem
    exact ⟨row, hrow, (congrArg JobRef.id hrowRef).trans hid⟩

/-- An id that is taken stays taken. -/
theorem IdTaken.upsertJob
    (h : IdTaken store ref) (hupsert : Jobs.upsertJob store job = .ok store') :
    IdTaken store' ref := by
  rcases (upsertJob_ok hupsert).2 with hrefs | ⟨hfree, hjobs⟩
  · exact h.congr hrefs
  obtain ⟨hnone, owner, howner, hid⟩ := h
  unfold IdTaken
  rw [hjobs]
  refine ⟨fun row hrow hsame => ?_, owner, mem_append_left _ howner, hid⟩
  rcases mem_append.mp hrow with hrow | hrow
  · exact hnone row hrow hsame
  · obtain rfl := mem_singleton.mp hrow
    exact hfree owner howner (hid.trans (congrArg JobRef.id hsame).symm)

theorem getJob_eq_none : getJob store ref = none ↔ ∀ job ∈ store.jobs, job.ref ≠ ref := by
  unfold getJob
  rw [find?_eq_none]
  exact ⟨fun h job hjob hsame => h job hjob (decide_eq_true hsame),
    fun h job hjob hsame => h job hjob (of_decide_eq_true hsame)⟩

variable [DecidableEq Value]

/-- An event is rejected for the id of its job, and for nothing else. -/
theorem projectJobEvent_error :
    projectJobEvent reader store event rawEvent sourceSequence = .error error ↔
      error = .constraintViolation ∧ IdTaken store event.ref ∧
        (nextProjected reader none event).isSome = true := by
  unfold projectJobEvent
  dsimp only
  constructor
  · intro h
    split at h
    · cases h
    rename_i next hnext
    split at h
    next error' hupsert =>
      obtain rfl := Except.error.inj h
      obtain ⟨rfl, htaken⟩ := upsertJob_error.mp hupsert
      rw [nextProjected_ref (fun _ hjob => of_decide_eq_true (find?_some hjob :)) hnext] at htaken
      have htaken' : IdTaken store event.ref := htaken.congr (by simp)
      rw [getJob_eq_none.mpr htaken'.1] at hnext
      exact ⟨rfl, htaken', by rw [hnext]; rfl⟩
    · cases h
  · rintro ⟨rfl, htaken, hnext⟩
    rw [getJob_eq_none.mpr htaken.1]
    obtain ⟨next, hnext⟩ := Option.isSome_iff_exists.mp hnext
    rw [hnext]
    dsimp only
    rw [upsertJob_error.mpr ⟨rfl, ?_⟩]
    rw [nextProjected_ref (by simp) hnext]
    exact htaken.congr (by simp)

/-- A projected event adds its sequence to the timeline, and keeps taken ids taken. -/
theorem projectJobEvent_ok {job : Option (Job Value)}
    (h : projectJobEvent reader store event rawEvent sourceSequence = .ok (store', job)) :
    (∃ row, row.sourceSequence = sourceSequence ∧ store'.events = store.events ++ [row]) ∧
      ∀ ref, IdTaken store ref → IdTaken store' ref := by
  unfold projectJobEvent at h
  dsimp only at h
  split at h
  · cases h
    rw [projectWaitEdge_events]
    exact ⟨projectTimelineEvent_events, fun ref htaken => htaken.congr (by simp)⟩
  · split at h
    · cases h
    rename_i next hnext _ stored hupsert
    cases h
    rw [applyJobMetadataPatch_events, (upsertJob_ok hupsert).1, projectWaitEdge_events]
    refine ⟨projectTimelineEvent_events, fun ref htaken => ?_⟩
    refine IdTaken.congr (IdTaken.upsertJob ?_ hupsert) (by rw [applyJobMetadataPatch_jobs])
    exact htaken.congr (by simp)

/-! ## Schedules -/

theorem projector_apply_eq_some (h : (projector reader).apply store event = some store') :
    ∃ job, projectJobEvent reader store event.event event.rawEvent (some event.streamSequence) =
      .ok (store', job) := by
  simp only [projector] at h
  split at h
  next projected job hproj =>
    cases h
    exact ⟨job, hproj⟩
  · cases h

theorem projector_apply_eq_none : (projector reader).apply store event = none ↔
      IdTaken store event.event.ref ∧ (nextProjected reader none event.event).isSome = true := by
  simp only [projector]
  split
  next projected job hproj =>
    refine ⟨nofun, fun h => ?_⟩
    rw [projectJobEvent_error.mpr ⟨rfl, h⟩] at hproj
    cases hproj
  next error hproj => exact ⟨fun _ => (projectJobEvent_error.mp hproj).2, fun _ => rfl⟩

theorem projector_lawful : (projector reader).Lawful fun _ => True where
  kept := fun _ _ => trivial
  seen_iff := by
    intro store event store' _ happly other
    obtain ⟨job, hproj⟩ := projector_apply_eq_some happly
    obtain ⟨⟨row, hsource, hevents⟩, -⟩ := projectJobEvent_ok hproj
    show store'.seen _ = true ↔ store.seen _ = true ∨ _
    unfold JobsStore.seen
    rw [hevents, any_append, Bool.or_eq_true, any_cons, any_nil, Bool.or_false,
      decide_eq_true_iff, hsource]
    exact or_congr_right ⟨fun h => (Option.some.inj h).symm, fun h => congrArg some h.symm⟩
  stable := by
    intro store event store' other _ happly hother
    obtain ⟨job, hproj⟩ := projector_apply_eq_some happly
    rw [projector_apply_eq_none] at hother ⊢
    exact ⟨(projectJobEvent_ok hproj).2 _ hother.1, hother.2⟩

/-- A batch that can be stored delivers its events one after the other. -/
theorem projectJobEvents_ok (reader : EventReader Value) (store : JobsStore Value)
    (h : ∀ event ∈ events, event.streamSequence ≤ maxInteger) :
    ∃ projected, projectJobEvents reader store events =
      .ok (events.foldl (projector reader).deliver store, projected) := by
  induction events generalizing store with
  | nil => exact ⟨[], rfl⟩
  | cons event rest ih =>
    have hrest : ∀ event ∈ rest, event.streamSequence ≤ maxInteger := fun event hevent =>
      h event (mem_cons_of_mem _ hevent)
    rw [projectJobEvents, if_neg (Nat.not_lt.mpr (h event mem_cons_self)), foldl_cons,
      Redelivery.Consumer.deliver]
    by_cases hseen : store.seen event.streamSequence = true
    · obtain ⟨projected, hprojected⟩ := ih store hrest
      rw [if_pos hseen, hprojected]
      exact ⟨_, by rw [show (projector reader).seen store event = true from hseen]; rfl⟩
    · have hunseen : (projector reader).seen store event = false := Bool.eq_false_iff.mpr hseen
      rw [if_neg hseen, hunseen, Redelivery.Consumer.once]
      cases hproj : projectJobEvent reader store event.event event.rawEvent
          (some event.streamSequence) with
      | ok result =>
        obtain ⟨projected, hprojected⟩ := ih result.1 hrest
        refine ⟨result.2 :: projected, ?_⟩
        simp only [projector, hproj]
        rw [hprojected]
        rfl
      | error error =>
        obtain ⟨rfl, -⟩ := projectJobEvent_error.mp hproj
        obtain ⟨projected, hprojected⟩ := ih store hrest
        refine ⟨none :: projected, ?_⟩
        simp only [projector, hproj]
        rw [hprojected]
        rfl

/-- A sequence that cannot be stored fails the batch it is in. -/
theorem projectJobEvents_error (reader : EventReader Value) (store : JobsStore Value)
    (h : ∃ event ∈ events, maxInteger < event.streamSequence) :
    ∃ error, projectJobEvents reader store events = .error error := by
  induction events generalizing store with
  | nil => simp at h
  | cons event rest ih =>
    rw [projectJobEvents]
    by_cases hevent : event.streamSequence > maxInteger
    · exact ⟨_, if_pos hevent⟩
    have hrest : ∃ event ∈ rest, maxInteger < event.streamSequence := by
      obtain ⟨other, hother, hlarge⟩ := h
      rcases mem_cons.mp hother with rfl | hother
      · exact absurd hlarge hevent
      · exact ⟨other, hother, hlarge⟩
    rw [if_neg hevent]
    split
    · obtain ⟨error, herror⟩ := ih store hrest
      exact ⟨error, by rw [herror]; rfl⟩
    split
    next projected job _ =>
      obtain ⟨error, herror⟩ := ih projected hrest
      exact ⟨error, by rw [herror]; rfl⟩
    · split
      · obtain ⟨error, herror⟩ := ih store hrest
        exact ⟨error, by rw [herror]; rfl⟩
      · exact ⟨_, rfl⟩

theorem BatchAttempt.run_eq (store : JobsStore Value) (attempt : BatchAttempt Value) :
    attempt.run reader store =
      if attempt.commits then attempt.events.foldl (projector reader).deliver store else store := by
  unfold BatchAttempt.run BatchAttempt.commits
  cases attempt.fails with
  | true => rfl
  | false =>
    rw [if_neg (by decide), Bool.not_false, Bool.true_and]
    by_cases hstorable : ∀ event ∈ attempt.events, event.streamSequence ≤ maxInteger
    · obtain ⟨projected, hproj⟩ := projectJobEvents_ok reader store hstorable
      rw [hproj, if_pos (all_eq_true.mpr fun event hevent =>
        decide_eq_true (hstorable event hevent))]
    · have hlarge : ∃ event ∈ attempt.events, maxInteger < event.streamSequence := by
        by_contra hnone
        exact hstorable fun event hevent => Nat.le_of_not_lt fun hlt => hnone ⟨event, hevent, hlt⟩
      obtain ⟨error, herror⟩ := projectJobEvents_error reader store hlarge
      rw [herror, if_neg fun hall => hstorable fun event hevent =>
        of_decide_eq_true (all_eq_true.mp hall event hevent)]

/-- A schedule has the effect of what its committed batches deliver. -/
theorem runSchedule_eq : runSchedule reader store schedule =
      (deliveries schedule).foldl (projector reader).deliver store := by
  induction schedule generalizing store with
  | nil => rfl
  | cons attempt schedule ih =>
    unfold runSchedule at ih ⊢
    rw [foldl_cons, ih, BatchAttempt.run_eq]
    unfold deliveries
    rw [filter_cons]
    split
    · rw [flatMap_cons, foldl_append]
    · rfl

/-- **Redelivery-idempotent projection.**  However batches are cut, fail and are retried, the store
is that of projecting each first delivery once; and when those are in stream order and none is
missing, of projecting the stream. -/
theorem projection_redelivery_idempotent (reader : EventReader Value)
    {stream : List (ProjectorEvent Value)} {schedule : List (BatchAttempt Value)}
    (hstream : stream.Pairwise fun a b => a.streamSequence < b.streamSequence)
    (hfrom : ∀ attempt ∈ schedule, ∀ event ∈ attempt.events, event ∈ stream) :
    runSchedule reader .empty schedule =
        projectOnce reader .empty ((projector reader).firsts [] (deliveries schedule)) ∧
      (((projector reader).firsts [] (deliveries schedule)).Pairwise
          (fun a b => a.streamSequence < b.streamSequence) →
        (∀ event ∈ stream, event ∈ deliveries schedule) →
        runSchedule reader .empty schedule = projectOnce reader .empty stream) := by
  have hmem : ∀ event ∈ deliveries schedule, event ∈ stream := by
    intro event hevent
    obtain ⟨attempt, hattempt, hevent⟩ := mem_flatMap.mp hevent
    exact hfrom attempt (mem_filter.mp hattempt).1 event hevent
  -- a stream sequence stands for one event
  have hkeys : (stream.map ProjectorEvent.streamSequence).Nodup :=
    pairwise_map.mpr (hstream.imp Nat.ne_of_lt)
  have hsame : ∀ a ∈ stream, ∀ b ∈ stream, a.streamSequence = b.streamSequence → a = b :=
    fun a ha b hb => inj_on_of_nodup_map hkeys ha hb
  have hrun : runSchedule reader .empty schedule =
      projectOnce reader .empty ((projector reader).firsts [] (deliveries schedule)) := by
    rw [runSchedule_eq, Redelivery.Consumer.foldl_deliver_eq_firsts projector_lawful trivial
      (fun event => rfl) fun a ha b hb => hsame a (hmem a ha) b (hmem b hb)]
    rfl
  refine ⟨hrun, fun horder hall => ?_⟩
  have hfirsts : (projector reader).firsts [] (deliveries schedule) = stream := by
    refine horder.eq_of_mem_iff hstream fun event => ⟨fun h => ?_, fun h => ?_⟩
    · exact hmem event (Redelivery.Consumer.mem_firsts h)
    · rcases Redelivery.Consumer.exists_mem_firsts (c := projector reader) []
        (hall event h) with hbefore | ⟨first, hfirst, hkey⟩
      · cases hbefore
      · have hstored := hmem first (Redelivery.Consumer.mem_firsts hfirst)
        rwa [← hsame first hstored event h hkey]
  rw [hrun, hfirsts]

/-! ## A rejected event that comes again -/

namespace Redelivered

def blankReader : EventReader Unit :=
  ⟨(), fun _ => 0, fun _ => none, fun _ => none⟩

/-- An event of job `job-1` under a job type. -/
def event (jobType : String) (eventType : JobEventType) (state : JobState)
    (previousState : Option JobState) (sequence : Nat) : ProjectorEvent Unit where
  event :=
    { jobId := "job-1"
      context := ()
      service := "documents"
      jobType := jobType
      eventType := eventType
      state := state
      previousState := previousState
      tries := 0
      maxTries := some 3
      error := none
      progress := none
      logs := none
      payload := some ()
      result := none
      deadline := none
      concurrency := none
      queuePolicy := none
      trigger := none
      lineage := none
      waitEdge := none
      adminAction := none
      timestamp := "2026-03-28T12:00:00.000Z" }
  rawEvent := ()
  streamSequence := sequence

def created : ProjectorEvent Unit :=
  event "document-process" .created .pending none 1

/-- Another queue reuses the job id. -/
def conflicting : ProjectorEvent Unit :=
  event "document-archive" .created .pending none 2

def started : ProjectorEvent Unit :=
  event "document-process" .started .active (some .pending) 3

def stream : List (ProjectorEvent Unit) :=
  [created, conflicting, started]

def schedule : List (BatchAttempt Unit) :=
  [⟨[created, conflicting], true⟩, ⟨[created], false⟩, ⟨[conflicting, created], false⟩,
    ⟨[conflicting, started], false⟩, ⟨[conflicting, started, created], false⟩]

end Redelivered

open Redelivered in
theorem projection_redelivery_idempotent_rejected :
    (projector blankReader).apply (projectOnce blankReader .empty [created]) conflicting = none ∧
      runSchedule blankReader .empty schedule = projectOnce blankReader .empty stream := by
  refine ⟨by decide, ?_⟩
  exact (@projection_redelivery_idempotent Unit _ blankReader stream schedule (by decide)
    (by decide)).2 (by decide) (by decide)

end Jobs
