/-
# Consumer dead letters

The journal of dead-letter transitions, what each operation of the runtime plans to append to it,
and the SQL projection of the journal.

A journal is the list of the transitions stored, the newest first; the one over `n` others has the
stream sequence `n + 1`.  An operation reads the journal and answers, fails, or plans an append
that names the last sequence of the letter's subject (`Plan`).  `projectDeadLetter` applies one
transition, `projectAll` the whole journal in order.  The identity of a dead letter, a digest, is
a parameter.
-/

namespace DeadLetters

/-! ## Transitions -/

inductive DeadLetterState where
  | dead | replayPending | replaying | resolved | dismissed
  deriving DecidableEq

/-- The name of a state in error texts. -/
def DeadLetterState.name : DeadLetterState → String
  | .dead => "Dead"
  | .replayPending => "ReplayPending"
  | .replaying => "Replaying"
  | .resolved => "Resolved"
  | .dismissed => "Dismissed"

inductive DeadLetterCause where
  | exhausted | replayRequested | replayDispatched | replaySucceeded | replayUnreplayable
  | dismissed
  deriving DecidableEq

inductive DeliveryOutcome where
  | succeeded | unreplayable | exhausted
  deriving DecidableEq

/-- `OriginalEvent`: the evidence kept in the first record. -/
structure OriginalEvent where
  stream : String
  sequence : Nat
  publishedAt : String
  eventId : Option String
  subject : String
  payloadBytes : List UInt8
  headers : List (String × List String)
  (apiId eventName contextDigest : Option String)
  verificationStatus : String
  deriving DecidableEq

/-- `DeadLetterTransition`, without the time it occurred at. -/
structure DeadLetterTransition where
  (id resourceId : String)
  (revision previousSubjectSequence generation : Nat)
  state : DeadLetterState
  (requestId requestDigest : Option String)
  cause : DeadLetterCause
  original : Option OriginalEvent
  (originalRecordSequence deliveries : Nat)
  lastError : Option String
  replayStreamSequence : Option Nat
  deriving DecidableEq

/-! ## Reading the journal -/

/-- The journal, the newest transition first. -/
abbrev Journal := List DeadLetterTransition

namespace Journal

/-- The last transition of a letter with its sequence, which a first record does not know. -/
def latest (id : String) : Journal → Option (DeadLetterTransition × Nat)
  | [] => none
  | t :: older =>
    if t.id = id then
      some (if t.revision = 1 ∧ t.originalRecordSequence = 0 then
        { t with originalRecordSequence := older.length + 1 } else t, older.length + 1)
    else latest id older

/-- The last sequence of a letter's subject, which an append has to name. -/
def subjectSequence (journal : Journal) (id : String) : Nat :=
  ((latest id journal).map Prod.snd).getD 0

/-- `get_raw_message`. -/
def message (sequence : Nat) : Journal → Option DeadLetterTransition
  | [] => none
  | t :: older => if sequence = older.length + 1 then some t else message sequence older

/-- `find_command`: the first transition of a letter that carries a request id. -/
def findCommand (id requestId : String) : Journal → Option (DeadLetterTransition × Nat)
  | [] => none
  | t :: older =>
    (findCommand id requestId older).or
      (if t.id = id ∧ t.requestId = some requestId then some (t, older.length + 1) else none)

end Journal

/-! ## Planning an append -/

/-- `JournalError`; transport failures carry what was not found. -/
inductive JournalError where
  | nats (details : String)
  | notFound (id : String)
  | conflict (details : String)
  | unreplayableOriginal
  deriving DecidableEq

/-- What follows the reading: the answer of a stored transition, or an append under the last
sequence that was seen. -/
inductive Plan where
  | keep (existing : DeadLetterTransition × Nat)
  | append (next : DeadLetterTransition) (expectedSubjectSequence : Nat)
  deriving DecidableEq

variable (journal : Journal)

/-- `original`. -/
def original (t : DeadLetterTransition) : Except JournalError (Option OriginalEvent) :=
  match t.original with
  | some event => .ok (some event)
  | none =>
    match journal.message t.originalRecordSequence with
    | some first => .ok first.original
    | none => .error (.nats "message not found")

/-- `required_latest`. -/
def requiredLatest (id : String) : Except JournalError (DeadLetterTransition × Nat) :=
  match journal.latest id with
  | some current => .ok current
  | none => .error (.notFound id)

/-- `successor`. -/
def successor (current : DeadLetterTransition) (previousSubjectSequence : Nat)
    (state : DeadLetterState) (cause : DeadLetterCause) (requestId requestDigest : Option String)
    (generation deliveries : Nat) (lastError : Option String)
    (replayStreamSequence : Option Nat) : DeadLetterTransition where
  id := current.id
  resourceId := current.resourceId
  revision := current.revision + 1
  previousSubjectSequence := previousSubjectSequence
  generation := generation
  state := state
  requestId := requestId
  requestDigest := requestDigest
  cause := cause
  original := none
  originalRecordSequence :=
    if current.originalRecordSequence = 0 then previousSubjectSequence
    else current.originalRecordSequence
  deliveries := deliveries
  lastError := lastError
  replayStreamSequence := replayStreamSequence

/-- The error of an entry that only the broker has reported. -/
def brokerError : String := "broker max deliveries exceeded"

/-- The correction that `create_dead` makes of an entry that only the broker has reported. -/
def corrected (existing : DeadLetterTransition × Nat) (deliveries : Nat)
    (lastError : Option String) : DeadLetterTransition :=
  { existing.1 with
    revision := existing.1.revision + 1
    previousSubjectSequence := existing.2
    original := none
    originalRecordSequence :=
      if existing.1.originalRecordSequence = 0 then existing.2
      else existing.1.originalRecordSequence
    deliveries := deliveries
    lastError := lastError }

/-- The first record of a dead letter. -/
def firstRecord (id resourceId : String) (event : OriginalEvent) (deliveries : Nat)
    (lastError : Option String) : DeadLetterTransition where
  id := id
  resourceId := resourceId
  revision := 1
  previousSubjectSequence := 0
  generation := 0
  state := .dead
  requestId := none
  requestDigest := none
  cause := .exhausted
  original := some event
  originalRecordSequence := 0
  deliveries := deliveries
  lastError := lastError
  replayStreamSequence := none

/-- `create_dead`, up to its append. -/
def createDead (deadLetterId : String → String → Nat → String) (journal : Journal)
    (resourceId : String) (event : OriginalEvent) (deliveries : Nat) (lastError : Option String) :
    Except JournalError Plan :=
  match journal.latest (deadLetterId resourceId event.stream event.sequence) with
  | some existing => do
      let existingOriginal ← original journal existing.1
      if existing.1.resourceId ≠ resourceId ∨ existingOriginal ≠ some event then
        .error (.conflict "dead-letter identity has different original evidence")
      else if existing.1.deliveries = deliveries ∧ existing.1.lastError = lastError then
        .ok (.keep existing)
      else if existing.1.lastError ≠ some brokerError then .ok (.keep existing)
      else .ok (.append (corrected existing deliveries lastError) existing.2)
  | none => .ok (.append (firstRecord (deadLetterId resourceId event.stream event.sequence)
      resourceId event deliveries lastError) 0)

/-- The commands of operators. -/
inductive CommandKind where
  | requestReplay | dismiss
  deriving DecidableEq

/-- An idempotent command with the revision it expects. -/
structure Command where
  kind : CommandKind
  id : String
  expectedRevision : Nat
  (requestId requestDigest : String)
  deriving DecidableEq

variable (command : Command)

/-- The first half of `request_replay` and `dismiss`: a stored command is answered, another goes on
to read the latest transition. -/
def scanCommand : Except JournalError (Option (DeadLetterTransition × Nat)) :=
  match journal.findCommand command.id command.requestId with
  | some existing =>
    if existing.1.requestDigest = some command.requestDigest then .ok (some existing)
    else .error (.conflict "request id has different content")
  | none => .ok none

/-- The second half of `request_replay`. -/
def requestReplay : Except JournalError Plan := do
  let (current, sequence) ← requiredLatest journal command.id
  if current.revision ≠ command.expectedRevision then
    .error (.conflict "expected revision is stale")
  else if current.state ≠ .dead ∧ current.state ≠ .dismissed then
    .error (.conflict s!"cannot replay state {current.state.name}")
  else do
    let event ← original journal current
    if event = none then .error .unreplayableOriginal
    else .ok (.append (successor current sequence .replayPending .replayRequested
      (some command.requestId) (some command.requestDigest) (current.generation + 1) 0 none none)
      sequence)

/-- The second half of `dismiss`. -/
def dismiss : Except JournalError Plan := do
  let (current, sequence) ← requiredLatest journal command.id
  if current.revision ≠ command.expectedRevision ∨ current.state ≠ .dead then
    .error (.conflict "dead letter is not dismissible")
  else .ok (.append (successor current sequence .dismissed .dismissed
    (some command.requestId) (some command.requestDigest) current.generation current.deliveries
    current.lastError current.replayStreamSequence) sequence)

/-- The second half of a command. -/
def Command.plan (journal : Journal) : Except JournalError Plan :=
  match command.kind with
  | .requestReplay => requestReplay journal command
  | .dismiss => dismiss journal command

/-- `mark_replaying`, for what was read before the replay was published. -/
def markReplaying (current : DeadLetterTransition)
    (expectedSubjectSequence replayStreamSequence : Nat) : Except JournalError Plan := do
  let latest ← requiredLatest journal current.id
  if latest.1.generation ≠ current.generation ∨ latest.1.state ≠ .replayPending then
    .ok (.keep latest)
  else .ok (.append (successor latest.1 expectedSubjectSequence .replaying .replayDispatched none
    none current.generation 0 none (some replayStreamSequence)) expectedSubjectSequence)

/-- The state that an outcome of a replay leads to. -/
def DeliveryOutcome.state : DeliveryOutcome → DeadLetterState
  | .succeeded => .resolved
  | .unreplayable | .exhausted => .dead

/-- The cause that an outcome of a replay records. -/
def DeliveryOutcome.cause : DeliveryOutcome → DeadLetterCause
  | .succeeded => .replaySucceeded
  | .unreplayable => .replayUnreplayable
  | .exhausted => .exhausted

/-- `report_replay_outcome`. -/
def reportReplayOutcome (id : String) (generation : Nat)
    (outcome : DeliveryOutcome) (deliveries : Nat) (lastError : Option String) :
    Except JournalError Plan := do
  let (current, sequence) ← requiredLatest journal id
  if generation < current.generation then .ok (.keep (current, sequence))
  else if generation ≠ current.generation ∨
      (current.state ≠ .replayPending ∧ current.state ≠ .replaying) then
    .error (.conflict "replay generation is not active")
  else .ok (.append (successor current sequence outcome.state outcome.cause none none generation
    deliveries lastError current.replayStreamSequence) sequence)

/-! ## The projection -/

/-- `legal_dead_letter_successor`. -/
def legalDeadLetterSuccessor (currentState : DeadLetterState) (currentGeneration : Nat)
    (next : DeadLetterTransition) : Bool :=
  let isCommand := next.cause == .replayRequested || next.cause == .dismissed
  if isCommand != (next.requestId.isSome && next.requestDigest.isSome) then false
  else
    match currentState, next.state, next.cause with
    | .dead, .replayPending, .replayRequested | .dismissed, .replayPending, .replayRequested =>
      next.generation == currentGeneration + 1 && next.replayStreamSequence.isNone
    | .dead, .dismissed, .dismissed => next.generation == currentGeneration
    | .dead, .dead, .exhausted => next.generation == currentGeneration
    | .replayPending, .replaying, .replayDispatched =>
      next.generation == currentGeneration && next.replayStreamSequence.isSome
    | .replayPending, .resolved, .replaySucceeded | .replaying, .resolved, .replaySucceeded
    | .replayPending, .dead, .exhausted | .replaying, .dead, .exhausted
    | .replayPending, .dead, .replayUnreplayable | .replaying, .dead, .replayUnreplayable =>
      next.generation == currentGeneration
    | _, _, _ => false

/-- A row of `consumer_dead_letters`, without its times. -/
structure LetterRow where
  resourceId : String
  (revision generation : Nat)
  state : DeadLetterState
  original : OriginalEvent
  (originalRecordSequence deliveries : Nat)
  lastError : Option String
  replayStreamSequence : Option Nat
  lastJournalSequence : Nat

/-- A row of `consumer_dlq_commands`; the letter and the request id are its key. -/
structure CommandRow where
  (requestId requestDigest deadLetterId : String)
  (revision generation : Nat)
  state : DeadLetterState
  journalSequence : Nat

/-- A row of `consumer_dlq_transitions`; the sequence is its key. -/
structure TransitionRow where
  journalSequence : Nat
  deadLetterId : String
  revision : Nat
  state : DeadLetterState
  deriving DecidableEq

/-- The tables of the projection, with the checkpoint. -/
structure Store where
  letters : String → Option LetterRow
  commands : List CommandRow
  transitions : List TransitionRow
  checkpoint : Nat

/-- Nothing is projected. -/
def Store.empty : Store := ⟨fun _ => none, [], [], 0⟩

/-- `EventsStoreError`, for the projection of a transition. -/
inductive EventsStoreError where
  | contradictoryDeadLetter (id details : String)
  | uniqueConstraint
  deriving DecidableEq

/-- A transition that follows on the row of its letter. -/
def follows (row : LetterRow) (t : DeadLetterTransition) : Bool :=
  !(row.resourceId != t.resourceId
    || t.revision != row.revision + 1
    || t.generation < row.generation
    || t.previousSubjectSequence != row.lastJournalSequence
    || t.originalRecordSequence != row.originalRecordSequence
    || t.original.isSome
    || !legalDeadLetterSuccessor row.state row.generation t)

section

variable (store : Store) (t : DeadLetterTransition) (sequence : Nat)

/-- The sequence of the first record, which that record leaves open. -/
def recordSequence : Nat :=
  if t.originalRecordSequence = 0 then sequence else t.originalRecordSequence

/-- The commands with the one of a transition, which must be new for its letter. -/
def Store.addCommand : Except EventsStoreError (List CommandRow) :=
  match t.requestId, t.requestDigest with
  | some requestId, some requestDigest =>
    if store.commands.any fun c => c.deadLetterId = t.id ∧ c.requestId = requestId then
      .error .uniqueConstraint
    else .ok (⟨requestId, requestDigest, t.id, t.revision, t.generation, t.state, sequence⟩
      :: store.commands)
  | _, _ => .ok store.commands

/-- Write the row of a letter, its command and its transition, and move the checkpoint. -/
def Store.write (row : LetterRow) : Except EventsStoreError Store := do
  let commands ← store.addCommand t sequence
  if store.transitions.any fun row => row.journalSequence = sequence then .error .uniqueConstraint
  else .ok {
    letters := fun id => if id = t.id then some row else store.letters id
    commands := commands
    transitions := ⟨sequence, t.id, t.revision, t.state⟩ :: store.transitions
    checkpoint := max store.checkpoint sequence }

end

/-- `project_dead_letter`. -/
def projectDeadLetter (deadLetterId : String → String → Nat → String) (t : DeadLetterTransition)
    (sequence : Nat) (store : Store) : Except EventsStoreError Store :=
  if sequence ≤ store.checkpoint then
    match store.transitions.find? fun row => row.journalSequence = sequence with
    | some row =>
      if row.deadLetterId = t.id ∧ row.revision = t.revision ∧ row.state = t.state then .ok store
      else .error (.contradictoryDeadLetter t.id
        s!"journal sequence {sequence} contradicts its projected checkpoint")
    | none => .error (.contradictoryDeadLetter t.id
        s!"journal sequence {sequence} contradicts its projected checkpoint")
  else
    match store.letters t.id with
    | some row =>
      if row.lastJournalSequence = sequence then
        if row.resourceId = t.resourceId ∧ row.revision = t.revision ∧
            row.generation = t.generation ∧ row.state = t.state ∧
            row.originalRecordSequence = recordSequence t sequence then .ok store
        else .error (.contradictoryDeadLetter t.id
          s!"journal sequence {sequence} conflicts with its projected state")
      else if follows row t then
        store.write t sequence { row with
          revision := t.revision
          generation := t.generation
          state := t.state
          deliveries := t.deliveries
          lastError := t.lastError
          replayStreamSequence := t.replayStreamSequence
          lastJournalSequence := sequence }
      else .error (.contradictoryDeadLetter t.id
        (s!"current revision/generation/sequence is {row.revision}/{row.generation}/" ++
          s!"{row.lastJournalSequence}, incoming is {t.revision}/{t.generation}/{sequence} " ++
          s!"after {t.previousSubjectSequence}"))
    | none =>
      if t.revision ≠ 1 ∨ t.previousSubjectSequence ≠ 0 then
        .error (.contradictoryDeadLetter t.id "first projected transition is not revision one")
      else
        match t.original with
        | none => .error (.contradictoryDeadLetter t.id "revision one has no original evidence")
        | some event =>
          if t.resourceId = "" ∨ t.generation ≠ 0 ∨ t.state ≠ .dead ∨ t.cause ≠ .exhausted ∨
              t.requestId.isSome ∨ t.requestDigest.isSome ∨
              t.id ≠ deadLetterId t.resourceId event.stream event.sequence then
            .error (.contradictoryDeadLetter t.id
              "revision one has invalid identity or lifecycle fields")
          else
            store.write t sequence
              { resourceId := t.resourceId
                revision := t.revision
                generation := t.generation
                state := t.state
                original := event
                originalRecordSequence := recordSequence t sequence
                deliveries := t.deliveries
                lastError := t.lastError
                replayStreamSequence := t.replayStreamSequence
                lastJournalSequence := sequence }

/-- Project a whole journal in its order. -/
def projectAll (deadLetterId : String → String → Nat → String) :
    Journal → Except EventsStoreError Store
  | [] => .ok .empty
  | t :: older => do
      let store ← projectAll deadLetterId older
      projectDeadLetter deadLetterId t (older.length + 1) store

end DeadLetters
