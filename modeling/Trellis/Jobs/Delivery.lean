/-
# Deliveries of one job

Submissions, administrative requests and any number of workers act on one job.  Its
stored history is the stream; a stored `created` or `retried` event is also a work
message, which is delivered again and again, also while a worker still holds it, until a
worker acknowledges it.  A stored cancellation is broadcast, and every worker host gets it
some time later or not at all.

Assumed of the broker: an event is stored before subscribers see it, and a worker that
decides on a delivery reads the whole stream.
-/
import Mathlib.Logic.Function.Basic
import Trellis.Lib.Run
import Trellis.Jobs.History

namespace Jobs

variable {Value : Type}

/-! ## The system -/

/-- Where a worker is with the delivery of a work message. -/
inductive Phase (Value : Type) where
  | idle
  | received (sequence : Nat) (event : JobEvent Value) (work : Job Value)
  /-- To be processed, and waiting for its key slot. -/
  | decided (sequence : Nat) (job : Job Value)
  | starting (sequence : Nat) (job : Job Value)
  /-- The terminal guard has passed before the first execution. -/
  | unstarted (sequence : Nat) (job : Job Value) (stale : Bool)
  | running (sequence : Nat) (job : Job Value) (tries : Nat)
  | returned (sequence : Nat) (job : Job Value) (tries : Nat) (result : HandlerResult Value)
  /-- The terminal guard has passed after an execution that is to be reconciled. -/
  | reconciling (sequence : Nat) (job : Job Value) (tries : Nat)
  | confirmed (sequence : Nat) (job : Job Value) (tries : Nat)
  /-- Neither host shutdown nor lease loss was seen. -/
  | checked (sequence : Nat) (job : Job Value) (tries : Nat) (result : HandlerResult Value)
  /-- The terminal guard has passed. -/
  | settling (sequence : Nat) (job : Job Value) (tries : Nat) (result : HandlerResult Value)
  | settled (sequence : Nat) (outcome : JobProcessOutcome Value)

/-- The message a worker holds. -/
def Phase.held : Phase Value → Option Nat
  | .idle => none
  | .received sequence _ _ | .decided sequence _ | .starting sequence _ | .unstarted sequence _ _
  | .running sequence _ _ | .returned sequence _ _ _ | .reconciling sequence _ _
  | .confirmed sequence _ _ | .checked sequence _ _ _ | .settling sequence _ _ _
  | .settled sequence _ => some sequence

/-- The token is in the cancellation registry of its host. -/
def Phase.registered : Phase Value → Bool
  | .idle | .received _ _ _ => false
  | .decided _ _ | .starting _ _ | .unstarted _ _ _ | .running _ _ _ | .returned _ _ _ _
  | .reconciling _ _ _ | .confirmed _ _ _ | .checked _ _ _ _ | .settling _ _ _ _
  | .settled _ _ => true

structure Worker (Value : Type) where
  phase : Phase Value
  token : JobCancellationToken

/-- What a worker does with a delivery it processes, and the event it publishes. -/
inductive WorkerStep : Worker Value → Option (JobEvent Value) → Worker Value → Prop
  | acquire (n job token) : WorkerStep ⟨.decided n job, token⟩ none ⟨.starting n job, token⟩
  /-- The slot was taken from an attempt that has to be reconciled first. -/
  | acquireDisplaced (n job token) :
      WorkerStep ⟨.decided n job, token⟩ none ⟨.starting n job, token.cancelForStaleAttempt⟩
  | guardUnstarted (n job token deadlinePassed)
      (h : endsUnstarted token deadlinePassed job = true) :
      WorkerStep ⟨.starting n job, token⟩ none
        ⟨.unstarted n job (token.reason = some .staleAttempt), token⟩
  | ignoreUnstarted (n job token deadlinePassed terminalAt)
      (h : endsUnstarted token deadlinePassed job = true) :
      WorkerStep ⟨.starting n job, token⟩ (some (ignoredEvent job 0 terminalAt))
        ⟨.settled n (.staleCompletionIgnored 0), token⟩
  | endUnstarted (n job token stale terminalAt) :
      WorkerStep ⟨.unstarted n job stale, token⟩ (some (unstartedEvent job stale terminalAt))
        ⟨.settled n (unstartedOutcome stale), token⟩
  | start (n job token deadlinePassed deadlinePassed' startedAt)
      (h : endsUnstarted token deadlinePassed job = false) :
      WorkerStep ⟨.starting n job, token⟩ (some (startedEvent job startedAt))
        ⟨.running n job (startedTries job), startedToken token deadlinePassed' job⟩
  | progress (n job tries token timestamp value) :
      WorkerStep ⟨.running n job tries, token⟩
        (some (Event.progress (job.eventMeta timestamp) tries value))
        ⟨.running n job tries, token⟩
  | log (n job tries token timestamp logs) :
      WorkerStep ⟨.running n job tries, token⟩
        (some (Event.logged (job.eventMeta timestamp) tries logs)) ⟨.running n job tries, token⟩
  | wait (n job tries token timestamp waitEdge) :
      WorkerStep ⟨.running n job tries, token⟩
        (some (Event.waiting (job.eventMeta timestamp) tries waitEdge))
        ⟨.running n job tries, token⟩
  | resume (n job tries token timestamp waitEdge) :
      WorkerStep ⟨.running n job tries, token⟩
        (some (Event.resumed (job.eventMeta timestamp) tries waitEdge))
        ⟨.running n job tries, token⟩
  | deadline (n job tries token) :
      WorkerStep ⟨.running n job tries, token⟩ none ⟨.running n job tries, token.cancelForDeadline⟩
  | handlerReturn (n job tries token result) :
      WorkerStep ⟨.running n job tries, token⟩ none ⟨.returned n job tries result, token⟩
  /-- The handler did not confirm that the cancelled execution is reconciled. -/
  | unreconciled (n job tries token result) (hreason : token.isReconciled = true)
      (hresult : ∀ value, result ≠ .ok value) :
      WorkerStep ⟨.returned n job tries result, token⟩ none ⟨.settled n (.interrupted tries), token⟩
  | reconcileIgnore (n job tries token value terminalAt) (hreason : token.isReconciled = true) :
      WorkerStep ⟨.returned n job tries (.ok value), token⟩
        (some (ignoredEvent job tries terminalAt))
        ⟨.settled n (.staleCompletionIgnored tries), token⟩
  | reconcileGuard (n job tries token value) (hreason : token.isReconciled = true) :
      WorkerStep ⟨.returned n job tries (.ok value), token⟩ none ⟨.reconciling n job tries, token⟩
  | reconcileInterrupt (n job tries token) (hreason : token.isInterrupted = true) :
      WorkerStep ⟨.reconciling n job tries, token⟩ none ⟨.settled n (.interrupted tries), token⟩
  | reconcileConfirm (n job tries token) (hreason : token.isInterrupted = false) :
      WorkerStep ⟨.reconciling n job tries, token⟩ none ⟨.confirmed n job tries, token⟩
  | reconcileCancel (n job tries token) (hreason : token.reason = some .requested) :
      WorkerStep ⟨.confirmed n job tries, token⟩ none ⟨.settled n (.cancelled tries), token⟩
  | reconcile (n job tries token terminalAt) (hreason : token.reason ≠ some .requested) :
      WorkerStep ⟨.confirmed n job tries, token⟩ (some (reconcile token job tries terminalAt).1)
        ⟨.settled n (Jobs.reconcile token job tries terminalAt).2, token⟩
  | interrupt (n job tries token result) (hreason : token.isInterrupted = true) :
      WorkerStep ⟨.returned n job tries result, token⟩ none ⟨.settled n (.interrupted tries), token⟩
  | check (n job tries token result) (hreconciled : token.isReconciled = false)
      (hreason : token.isInterrupted = false) :
      WorkerStep ⟨.returned n job tries result, token⟩ none ⟨.checked n job tries result, token⟩
  | cancel (n job tries token result) (hreason : token.isCancelled = true) :
      WorkerStep ⟨.checked n job tries result, token⟩ none ⟨.settled n (.cancelled tries), token⟩
  | ignore (n job tries token result terminalAt) (hreason : token.isCancelled = false) :
      WorkerStep ⟨.checked n job tries result, token⟩ (some (ignoredEvent job tries terminalAt))
        ⟨.settled n (.staleCompletionIgnored tries), token⟩
  | guard (n job tries token result) (hreason : token.isCancelled = false) :
      WorkerStep ⟨.checked n job tries result, token⟩ none ⟨.settling n job tries result, token⟩
  | settle (n job tries token result terminalAt) :
      WorkerStep ⟨.settling n job tries result, token⟩ (some (settle job tries terminalAt result).1)
        ⟨.settled n (Jobs.settle job tries terminalAt result).2, token⟩

/-- Requests of administrators, built from the job as a projection shows it. -/
inductive AdminRequest (Value : Type) where
  | cancelJob (reason : Option String)
  | retryJob (reason : Option String)
  | replayDlq (reason : Option String) (trigger : Value)
  | dismissDlq (reason : Option String)

/-- The event a request publishes. -/
def AdminRequest.event (job : Job Value) (now : String) :
    AdminRequest Value → Option (JobEvent Value)
  | .cancelJob reason =>
    if job.state ∈ [.pending, .retry, .active] then
      some (Event.cancelledByAdmin (job.eventMeta now) job.tries job.state reason)
    else none
  | .retryJob reason =>
    if job.state = .failed then
      some (Event.retriedByAdmin (job.eventMeta now) job.state (some job.payload)
        (some job.maxTries) job.deadline reason)
    else none
  | .replayDlq reason trigger =>
    if job.state = .dead then
      some { Event.retriedByAdmin (job.eventMeta now) job.state (some job.payload)
        (some job.maxTries) job.deadline reason with
        trigger := some trigger
        lineage := job.lineage }
    else none
  | .dismissDlq reason =>
    if job.state = .dead then
      some { Event.dismissed (job.eventMeta now) job.tries .dead (reason.or job.lastError) with
        adminAction := reason }
    else none

structure System (Value : Type) where
  /-- The stored events with their broker sequences. -/
  stream : List (Nat × JobEvent Value)
  /-- The work messages that were acknowledged. -/
  acked : List Nat
  workers : Nat → Worker Value
  /-- Per host: a cancellation came while no attempt was registered. -/
  pending : Nat → Bool
  /-- Per host: the broadcasts on their way. -/
  inbox : Nat → List (JobEvent Value)

namespace System

def initial : System Value where
  stream := []
  acked := []
  workers := fun _ => ⟨.idle, .new⟩
  pending := fun _ => false
  inbox := fun _ => []

variable (s : System Value)

/-- The job all stored events add up to. -/
def job : Option (Job Value) :=
  historyJob s.stream

/-- The message of the job's current run. -/
def currentRun : Option Nat :=
  (runFold s.stream).runSequence

/-- Store an event; every host is sent the cancellations. -/
def publish (sequence : Nat) (event : JobEvent Value) : System Value :=
  { s with
    stream := s.stream ++ [(sequence, event)]
    inbox := fun host =>
      if event.eventType = .cancelled then s.inbox host ++ [event] else s.inbox host }

def setWorker (w : Nat) (worker : Worker Value) : System Value :=
  { s with workers := Function.update s.workers w worker }

def ack (sequence : Nat) : System Value :=
  { s with acked := sequence :: s.acked }

/-- `ActiveJobCancellationRegistry::cancel` on one host. -/
def cancelRegistered (hostOf : Nat → Nat) (host : Nat) : System Value :=
  { s with
    workers := fun w =>
      if hostOf w = host ∧ (s.workers w).phase.registered then
        { s.workers w with token := (s.workers w).token.cancel }
      else s.workers w }

variable (host : Nat)

def setPending (value : Bool) : System Value :=
  { s with pending := Function.update s.pending host value }

def setInbox (events : List (JobEvent Value)) : System Value :=
  { s with inbox := Function.update s.inbox host events }

@[simp] theorem workers_setWorker_self (w : Nat) (worker : Worker Value) :
    (s.setWorker w worker).workers w = worker :=
  Function.update_self ..

theorem workers_setWorker_of_ne (worker : Worker Value)
    (h : w' ≠ w) : (s.setWorker w worker).workers w' = s.workers w' :=
  Function.update_of_ne h ..

end System

/-- A sequence the broker can give to the next stored event. -/
def NextSequence (s : System Value) (sequence : Nat) : Prop :=
  ∀ entry ∈ s.stream, entry.1 < sequence

instance (s : System Value) (sequence : Nat) : Decidable (NextSequence s sequence) :=
  inferInstanceAs (Decidable (∀ entry ∈ s.stream, entry.1 < sequence))

/-- One step; `hostOf` says on which host a worker runs. -/
inductive Step (hostOf : Nat → Nat) : System Value → System Value → Prop
  | submit (s : System Value)
      (sequence info payload maxTries deadline concurrency queuePolicy trigger lineage)
      (hnext : NextSequence s sequence) :
      Step hostOf s (s.publish sequence
        { Event.createdWithPolicy info payload maxTries deadline concurrency queuePolicy with
          trigger, lineage })
  /-- A queued job is replaced by a newer one with its key. -/
  | skip (s : System Value) (sequence info reason) (hnext : NextSequence s sequence) :
      Step hostOf s (s.publish sequence (Event.skipped info .pending (some reason)))
  /-- A request built from the projection of any part of the stream. -/
  | admin (s : System Value) (sequence projected job) (request : AdminRequest Value) (now event)
      (hnext : NextSequence s sequence) (hprojected : projected <+: s.stream)
      (hjob : historyJob projected = some job) (hevent : request.event job now = some event) :
      Step hostOf s (s.publish sequence event)
  | deliver (s : System Value) (host event rest) (hinbox : s.inbox host = event :: rest)
      (hfound : ∃ w, hostOf w = host ∧ (s.workers w).phase.registered = true) :
      Step hostOf s ((s.setInbox host rest).cancelRegistered hostOf host)
  | deliverPending (s : System Value) (host event rest) (hinbox : s.inbox host = event :: rest)
      (hnone : ∀ w, hostOf w = host → (s.workers w).phase.registered = false) :
      Step hostOf s ((s.setInbox host rest).setPending host true)
  | lose (s : System Value) (host event rest) (hinbox : s.inbox host = event :: rest) :
      Step hostOf s (s.setInbox host rest)
  | receive (s : System Value) (w sequence event work) (hidle : (s.workers w).phase = .idle)
      (hstored : (sequence, event) ∈ s.stream) (hwork : jobFromWorkEvent event = some work)
      (hunacked : sequence ∉ s.acked) :
      Step hostOf s (s.setWorker w ⟨.received sequence event work, .new⟩)
  | oldRunAck (s : System Value) (w sequence event work job)
      (hphase : (s.workers w).phase = .received sequence event work)
      (hdecision : streamWorkDecision s.stream work sequence event.eventType = (.oldRunAck, job)) :
      Step hostOf s ((s.ack sequence).setWorker w ⟨.idle, .new⟩)
  | skipAck (s : System Value) (w sequence event work job)
      (hphase : (s.workers w).phase = .received sequence event work)
      (hdecision : streamWorkDecision s.stream work sequence event.eventType = (.skipAck, job)) :
      Step hostOf s (((s.ack sequence).setPending (hostOf w) false).setWorker w ⟨.idle, .new⟩)
  /-- The attempt registers its token, cancelled if a cancellation is pending. -/
  | beginWork (s : System Value) (w sequence event work job)
      (hphase : (s.workers w).phase = .received sequence event work)
      (hdecision : streamWorkDecision s.stream work sequence event.eventType = (.process, job)) :
      Step hostOf s ((s.setPending (hostOf w) false).setWorker w
        ⟨.decided sequence job,
          if s.pending (hostOf w) then (s.workers w).token.cancel else (s.workers w).token⟩)
  | work (s : System Value) (w worker) (hwork : WorkerStep (s.workers w) none worker) :
      Step hostOf s (s.setWorker w worker)
  | workPublish (s : System Value) (w sequence event worker) (hnext : NextSequence s sequence)
      (hwork : WorkerStep (s.workers w) (some event) worker) :
      Step hostOf s ((s.publish sequence event).setWorker w worker)
  | acknowledge (s : System Value) (w sequence outcome)
      (hphase : (s.workers w).phase = .settled sequence outcome)
      (hack : ackActionForOutcome outcome = true) :
      Step hostOf s ((s.ack sequence).setWorker w ⟨.idle, .new⟩)
  /-- The worker gives the delivery back, or dies; the message is delivered again. -/
  | abandon (s : System Value) (w) : Step hostOf s (s.setWorker w ⟨.idle, .new⟩)
  /-- A worker that stops while it waits for a key slot forgets the pending cancellation. -/
  | abandonDecided (s : System Value) (w sequence job)
      (hphase : (s.workers w).phase = .decided sequence job) :
      Step hostOf s ((s.setPending (hostOf w) false).setWorker w ⟨.idle, .new⟩)
  | shutdown (s : System Value) (w) :
      Step hostOf s (s.setWorker w
        { s.workers w with token := (s.workers w).token.cancelForShutdown })
  | leaseLoss (s : System Value) (w) :
      Step hostOf s (s.setWorker w
        { s.workers w with token := (s.workers w).token.cancelForLeaseLoss })

/-- An acknowledged delivery of the current run leaves the job terminal. -/
def System.Settled (s : System Value) : Prop :=
  ∀ sequence ∈ s.acked, s.currentRun = some sequence →
    ∃ job, s.job = some job ∧ isTerminal job.state = true

/-! ## Published events -/

/-- States no published event names as its previous state. -/
def JobState.isFinal : JobState → Bool
  | .completed | .cancelled | .expired | .skipped | .stale | .dismissed => true
  | .pending | .active | .retry | .failed | .dead => false

variable {event : JobEvent Value}

theorem JobState.isTerminal_of_isFinal (h : state.isFinal = true) : isTerminal state = true := by
  cases state with
  | completed | cancelled | expired | skipped | stale | dismissed => rfl
  | pending | active | retry | failed | dead => cases h

structure Published (event : JobEvent Value) : Prop extends Regular event where
  previous : ∀ state, event.previousState = some state → state.isFinal = false

/-- Events of others than the worker that holds the delivery. -/
def JobEventType.isEnvironment : JobEventType → Bool
  | .created | .skipped | .cancelled | .retried | .dismissed => true
  | .started | .retry | .progress | .logged | .waiting | .resumed | .completed | .failed
  | .expired | .stale | .heartbeat | .staleCompletionIgnored | .dead => false

theorem JobEventType.ne_of_isEnvironment {a b : JobEventType} (ha : a.isEnvironment = false)
    (hb : b.isEnvironment = true) : a ≠ b := by
  rintro rfl
  rw [ha] at hb
  cases hb

/-- Workers do not make work. -/
theorem jobFromWorkEvent_of_worker
    (h : event.eventType.isEnvironment = false) : jobFromWorkEvent event = none := by
  unfold jobFromWorkEvent
  split
  next htype => exact absurd htype (JobEventType.ne_of_isEnvironment h rfl)
  next htype => exact absurd htype (JobEventType.ne_of_isEnvironment h rfl)
  · rfl

/-- A final job stays as it is. -/
theorem Published.illegal_of_isFinal (hevent : Published event)
    (hfinal : current.state.isFinal = true) :
    isLegalTransition current event = false := by
  by_contra hlegal
  rw [Bool.not_eq_false] at hlegal
  have hopen := hevent.previous _ (previousState_of_legal hlegal)
  rw [hfinal] at hopen
  cases hopen

/-- What others do to an unfinished job finishes it. -/
theorem isFinal_of_legal (henv : event.eventType.isEnvironment = true)
    (hopen : isTerminal current.state = false)
    (hlegal : isLegalTransition current event = true) : event.eventType.target.isFinal = true := by
  unfold isLegalTransition at hlegal
  cases htype : event.eventType with
  | skipped | cancelled | dismissed => rfl
  | created =>
    rw [htype] at hlegal
    cases hlegal
  | retried =>
    rw [htype] at hlegal
    have hstate := (of_decide_eq_true hlegal).1
    simp only [List.mem_cons, List.not_mem_nil, or_false] at hstate
    rcases hstate with hstate | hstate <;> rw [hstate] at hopen <;> cases hopen
  | started | retry | progress | logged | waiting | resumed | completed | failed | expired
  | stale | heartbeat | staleCompletionIgnored | dead =>
    rw [htype] at henv
    cases henv

/-- A terminal job stays terminal unless it is retried. -/
theorem isTerminal_of_legal (hretry : event.eventType ≠ .retried)
    (hterm : isTerminal current.state = true)
    (hlegal : isLegalTransition current event = true) :
    isTerminal event.eventType.target = true := by
  unfold isLegalTransition at hlegal
  cases htype : event.eventType with
  | retried => exact absurd htype hretry
  | skipped | cancelled | dismissed | completed | failed | expired | stale | dead => rfl
  | created =>
    rw [htype] at hlegal
    cases hlegal
  | started =>
    rw [htype] at hlegal
    have hstate := (of_decide_eq_true hlegal).1
    simp only [List.mem_cons, List.not_mem_nil, or_false] at hstate
    rcases hstate with hstate | hstate | hstate <;> rw [hstate] at hterm <;>
      cases hterm
  | retry | progress | logged | waiting | resumed | heartbeat | staleCompletionIgnored =>
    rw [htype] at hlegal
    rw [(of_decide_eq_true hlegal).1] at hterm
    cases hterm

/-- Events other than creations. -/
theorem published_of_tried (hstate : event.state = event.eventType.target)
    (htype : decide (event.eventType = .created) = false) (htries : 0 < event.tries)
    (hprev : event.previousState = some previous) (hopen : previous.isFinal = false) :
    Published event where
  state := hstate
  created := fun h => absurd h (of_decide_eq_false htype)
  tried := fun _ => htries
  previous := by
    intro state hstate
    cases hprev.symm.trans hstate
    exact hopen

/-- Events other than creations, starts and retries, whatever their tries. -/
theorem published_of_previous (hstate : event.state = event.eventType.target)
    (htype : decide (event.eventType ∈ [.created, .started, .retry]) = false)
    (hprev : event.previousState = some previous) (hopen : previous.isFinal = false) :
    Published event where
  state := hstate
  created := fun h => absurd (by simp [h]) (of_decide_eq_false htype)
  tried := fun h => absurd (by rcases h with h | h <;> simp [h]) (of_decide_eq_false htype)
  previous := by
    intro state hstate
    cases hprev.symm.trans hstate
    exact hopen

theorem AdminRequest.published {request : AdminRequest Value}
    (h : request.event job now = some event) :
    Published event ∧ event.eventType.isEnvironment = true := by
  cases request
  all_goals
    simp only [AdminRequest.event, Option.ite_none_right_eq_some, Option.some.injEq] at h
    obtain ⟨hstate, rfl⟩ := h
  case cancelJob =>
    refine ⟨published_of_previous rfl rfl rfl ?_, rfl⟩
    simp only [List.mem_cons, List.not_mem_nil, or_false] at hstate
    rcases hstate with hstate | hstate | hstate <;> rw [hstate] <;> rfl
  case retryJob | replayDlq => exact ⟨published_of_previous rfl rfl rfl (hstate ▸ rfl), rfl⟩
  case dismissDlq => exact ⟨published_of_previous rfl rfl rfl rfl, rfl⟩

end Jobs
