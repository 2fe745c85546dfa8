/-
# Attempts on a shared key

Workers take the deliveries of jobs that share a key, wait for a slot, hold it under a token of
their own and settle.  Renewals and releases name the token.  The cleanup after a terminal state
does not: it takes away whatever slot the job has, and a delivery that is late with it can find
there the slot of a later run of the job.

Publishing is left open: any event may be stored at any time, by a worker, a submission or an
administrator.  A worker may also go away at any time.
-/
import Trellis.Jobs.Keys
import Trellis.Jobs.Worker

namespace Jobs

open List Checked

variable {Value : Type}

/-! ## The system -/

/-- Where a worker is with a delivery, as far as the key is concerned. -/
inductive Attempt (Value : Type) where
  | idle
  | received (sequence : Nat) (event : JobEvent Value) (work : Job Value)
  /-- The job has ended: its key is cleaned up, then the delivery acknowledged. -/
  | skipping (job : Job Value)
  | waiting (job : Job Value)
  | holding (job : Job Value) (slotToken : String)
  /-- Processing ended in an outcome whose key is to be cleaned up. -/
  | ending (job : Job Value) (slotToken : String)

structure KeySystem (Value : Type) where
  record : Option (JobKeyState Value)
  /-- The stored events in broker order. -/
  stream : List (Nat × JobEvent Value)
  workers : Nat → Attempt Value
  /-- The slot tokens generated so far. -/
  tokens : List String

namespace KeySystem

def start : KeySystem Value :=
  ⟨none, [], fun _ => .idle, []⟩

variable (s : KeySystem Value)

/-- The events of one job. -/
def history (jobId : String) : List (Nat × JobEvent Value) :=
  s.stream.filter fun entry => entry.2.jobId = jobId

def setWorker (w : Nat) (attempt : Attempt Value) : KeySystem Value :=
  { s with workers := Function.update s.workers w attempt }

/-- A value that was to be written is written. -/
def commit (next : Option (JobKeyState Value)) : KeySystem Value :=
  { s with record := next.or s.record }

end KeySystem

/-- The input of `acquire_key_slot_for_work`. -/
def workInput (job : Job Value) (slotToken startedAt leaseExpiresAt : String) :
    AcquireSlotInput Value where
  jobId := job.id
  slotToken := slotToken
  instanceId := "rust-worker"
  startedAt := startedAt
  leaseExpiresAt := leaseExpiresAt
  tries := saturatingAdd job.tries 1
  context := job.context

/-- The outcomes after which the worker cleans up the key. -/
def cleansKey : JobProcessOutcome Value → Bool
  | .expired _ | .dead _ | .stale _ => true
  | .completed _ _ | .retry _ _ | .cancelled _ | .failed _ _ | .interrupted _
  | .staleCompletionIgnored _ => false

/-- What submissions change. -/
def KeyOp.IsManaged : KeyOp Value → Prop
  | .admission _ | .removeQueued _ _ | .restoreReplaced _ _ _ => True
  | _ => False

/-- A change of the record, and the token of the attempt it is made for. -/
inductive KeyAction (Value : Type) where
  | silent
  | change (slotToken : Option String) (op : KeyOp Value)

inductive KeyedStep (policy : JobKeyPolicy) :
    KeySystem Value → KeyAction Value → KeySystem Value → Prop
  | publish (s : KeySystem Value) (event) :
      KeyedStep policy s .silent { s with stream := s.stream ++ [(s.stream.length + 1, event)] }
  | manage (s : KeySystem Value) (op) {next} (hop : op.IsManaged)
      (hwrite : updateKey policy s.record op = .ok next) :
      KeyedStep policy s (.change none op) (s.commit next)
  /-- A cancellation releases the slot of the attempt it cancels. -/
  | cancel (s : KeySystem Value) (jobId slotToken cancelledAt) {next}
      (hwrite : updateKey policy s.record (.release jobId slotToken cancelledAt) = .ok next) :
      KeyedStep policy s (.change (some slotToken) (.release jobId slotToken cancelledAt))
        (s.commit next)
  | deliver (s : KeySystem Value) (w) {sequence event work} (hworker : s.workers w = .idle)
      (hstored : (sequence, event) ∈ s.stream) (hwork : jobFromWorkEvent event = some work) :
      KeyedStep policy s .silent (s.setWorker w (.received sequence event work))
  | oldRunAck (s : KeySystem Value) (w) {sequence event work job}
      (hworker : s.workers w = .received sequence event work)
      (hdecision : streamWorkDecision (s.history work.id) work sequence event.eventType =
        (.oldRunAck, job)) :
      KeyedStep policy s .silent (s.setWorker w .idle)
  | skipAck (s : KeySystem Value) (w) {sequence event work job}
      (hworker : s.workers w = .received sequence event work)
      (hdecision : streamWorkDecision (s.history work.id) work sequence event.eventType =
        (.skipAck, job)) :
      KeyedStep policy s .silent (s.setWorker w (.skipping job))
  | process (s : KeySystem Value) (w) {sequence event work job}
      (hworker : s.workers w = .received sequence event work)
      (hdecision : streamWorkDecision (s.history work.id) work sequence event.eventType =
        (.process, job)) :
      KeyedStep policy s .silent (s.setWorker w (.waiting job))
  | acquire (s : KeySystem Value) (w slotToken startedAt leaseExpiresAt) {job state}
      (hworker : s.workers w = .waiting job) (hfresh : slotToken ∉ s.tokens)
      (hwrite : updateKey policy s.record
        (.acquire (workInput job slotToken startedAt leaseExpiresAt)) = .ok (some state)) :
      KeyedStep policy s
        (.change (some slotToken) (.acquire (workInput job slotToken startedAt leaseExpiresAt)))
        { (s.commit (some state)).setWorker w (.holding job slotToken) with
          tokens := slotToken :: s.tokens }
  | renew (s : KeySystem Value) (w heartbeatAt leaseExpiresAt) {job slotToken next}
      (hworker : s.workers w = .holding job slotToken)
      (hwrite : updateKey policy s.record (.renew job.id slotToken heartbeatAt leaseExpiresAt) =
        .ok next) :
      KeyedStep policy s
        (.change (some slotToken) (.renew job.id slotToken heartbeatAt leaseExpiresAt))
        (s.commit next)
  | release (s : KeySystem Value) (w releasedAt) {job slotToken next}
      (hworker : s.workers w = .holding job slotToken)
      (hwrite : updateKey policy s.record (.release job.id slotToken releasedAt) = .ok next) :
      KeyedStep policy s (.change (some slotToken) (.release job.id slotToken releasedAt))
        (s.commit next)
  | finish (s : KeySystem Value) (w : Nat) (outcome : JobProcessOutcome Value) {job : Job Value}
      {slotToken : String} (hworker : s.workers w = .holding job slotToken) :
      KeyedStep policy s .silent
        (s.setWorker w (if cleansKey outcome then .ending job slotToken else .idle))
  | cleanupEnded (s : KeySystem Value) (w removedAt) {job slotToken next}
      (hworker : s.workers w = .ending job slotToken)
      (hwrite : updateKey policy s.record (.cleanup job.id removedAt) = .ok next) :
      KeyedStep policy s (.change (some slotToken) (.cleanup job.id removedAt))
        ((s.commit next).setWorker w .idle)
  /-- An attempt that never held a slot. -/
  | cleanupSkipped (s : KeySystem Value) (w removedAt) {job next}
      (hworker : s.workers w = .skipping job)
      (hwrite : updateKey policy s.record (.cleanup job.id removedAt) = .ok next) :
      KeyedStep policy s (.change none (.cleanup job.id removedAt))
        ((s.commit next).setWorker w .idle)
  | abandon (s : KeySystem Value) (w) : KeyedStep policy s .silent (s.setWorker w .idle)

/-- One step of a run, as the record sees it. -/
structure KeyTransition (Value : Type) where
  before : Option (JobKeyState Value)
  action : KeyAction Value
  after : Option (JobKeyState Value)

/-- A run from the start, with its steps, the last one first. -/
inductive KeyedRun (policy : JobKeyPolicy) : List (KeyTransition Value) → KeySystem Value → Prop
  | start : KeyedRun policy [] .start
  | step {transitions} {s s' : KeySystem Value} {action} (hrun : KeyedRun policy transitions s)
      (hstep : KeyedStep policy s action s') :
      KeyedRun policy (⟨s.record, action, s'.record⟩ :: transitions) s'

/-! ## Fencing -/

/-- The time a change is made at. -/
def KeyOp.time : KeyOp Value → String
  | .admission input => input.createdAt
  | .acquire input => input.startedAt
  | .renew _ _ heartbeatAt _ => heartbeatAt
  | .release _ _ releasedAt => releasedAt
  | .removeQueued _ removedAt => removedAt
  | .restoreReplaced _ _ restoredAt => restoredAt
  | .cleanup _ removedAt => removedAt

/-- The slots of the other attempts stay as they are until they have expired. -/
def KeyTransition.Fenced (transition : KeyTransition Value) : Prop :=
  match transition.action with
  | .silent => transition.after = transition.before
  | .change slotToken op =>
    ∀ slot ∈ activeSlots transition.before, some slot.slotToken ≠ slotToken →
      slot.isExpired op.time = false → slot ∈ activeSlots transition.after

/-- A cleanup meets no unexpired slot of its job but the attempt's own. -/
def KeyTransition.CleansOwn (transition : KeyTransition Value) : Prop :=
  match transition.action with
  | .change slotToken (.cleanup jobId removedAt) =>
    ∀ slot ∈ activeSlots transition.before, slot.jobId = jobId →
      slot.isExpired removedAt = false → some slot.slotToken = slotToken
  | _ => True

variable {op : KeyOp Value}

theorem admitJob_active (h : (admitJob current policy input).nextState = some state) :
    state.active = activeSlots current := by
  have hstart : (current.getD (newKeyState policy input.createdAt)).active =
      activeSlots current := by
    cases current with
    | none | some state => rfl
  unfold admitJob at h
  dsimp only at h
  split at h
  · cases h
    exact hstart
  split at h
  · split at h
    · cases h
    · cases h
      exact hstart
    · cases h
    · cases h
  · cases h
    exact hstart

/-- What submissions write has the slots that were there. -/
theorem KeyOp.IsManaged.active (hop : op.IsManaged)
    (h : op.nextState policy current = some state) : state.active = activeSlots current := by
  cases op with
  | admission input => exact admitJob_active h
  | removeQueued jobId removedAt =>
    obtain ⟨before, rfl, hremoved⟩ := Option.bind_eq_some_iff.mp h
    unfold removeQueuedEntry at hremoved
    split at hremoved
    · cases hremoved
      rfl
    · cases hremoved
  | restoreReplaced entry jobId restoredAt =>
    cases current with
    | none | some before =>
      cases h
      rfl
  | acquire | renew | release | cleanup => cases hop

/-- An unexpired slot survives an acquisition. -/
theorem mem_acquireActiveSlot (h : (acquireActiveSlot before policy input).nextState = some state)
    (hslot : slot ∈ before.active) (hlive : slot.isExpired input.startedAt = false) :
    slot ∈ state.active := by
  generalize houtcome : acquireActiveSlot before policy input = outcome at h
  cases outcome with
  | blocked blocked reason => cases h
  | acquired acquired held staleSlots =>
    cases h
    obtain ⟨-, ⟨-, hsame⟩ | ⟨kept, hact, hspared, -⟩⟩ := acquireActiveSlot_acquired houtcome
    · rw [hsame]
      exact hslot
    · rw [hact]
      exact mem_append_left _ (hspared.unexpired slot hslot hlive)

/-! ## The steps of a run -/

/-- A change that writes nothing, or what it writes has every slot, is fenced. -/
theorem fenced_of_write {next : Option (JobKeyState Value)}
    (hwrite : updateKey policy current op = .ok next)
    (h : ∀ state, op.nextState policy current = some state → ∀ slot ∈ activeSlots current,
      some slot.slotToken ≠ slotToken → slot.isExpired op.time = false → slot ∈ state.active) :
    KeyTransition.Fenced ⟨current, .change slotToken op, next.or current⟩ := by
  intro slot hslot htoken hlive
  cases next with
  | none => exact hslot
  | some state => exact h state (updateKey_ok hwrite) slot hslot htoken hlive

theorem KeyedStep.fenced_iff (hstep : KeyedStep policy s action s') :
    KeyTransition.Fenced ⟨s.record, action, s'.record⟩ ↔
      KeyTransition.CleansOwn ⟨s.record, action, s'.record⟩ := by
  cases hstep with
  | publish | deliver | oldRunAck | skipAck | process | finish | abandon =>
    exact ⟨fun _ => trivial, fun _ => rfl⟩
  | manage op hop hwrite =>
    have hfenced : KeyTransition.Fenced ⟨s.record, .change none op, _⟩ :=
      fenced_of_write hwrite fun state hnext slot hslot _ _ => hop.active hnext ▸ hslot
    refine ⟨fun _ => ?_, fun _ => hfenced⟩
    cases op with
    | admission | removeQueued | restoreReplaced => trivial
    | acquire | renew | release | cleanup => cases hop
  | cancel jobId slotToken cancelledAt hwrite | release w releasedAt hworker hwrite =>
    refine ⟨fun _ => trivial, fun _ => fenced_of_write hwrite ?_⟩
    intro state hnext slot hslot htoken _
    obtain ⟨before, hbefore, hreleased⟩ := Option.bind_eq_some_iff.mp hnext
    rw [hbefore] at hslot
    unfold releaseActiveSlot at hreleased
    split at hreleased <;> cases hreleased
    -- a slot with another token survives
    refine (mem_eraseP_or_find hslot).resolve_right fun h => htoken ?_
    exact congrArg some (of_find? h).2
  | acquire w slotToken startedAt leaseExpiresAt hworker hfresh hwrite =>
    refine ⟨fun _ => trivial, fun _ => fenced_of_write hwrite ?_⟩
    intro state hnext slot hslot _ hlive
    cases hrec : s.record with
    | none =>
      rw [hrec] at hslot
      cases hslot
    | some before =>
      rw [hrec] at hslot hnext
      exact mem_acquireActiveSlot hnext hslot hlive
  | renew w heartbeatAt leaseExpiresAt hworker hwrite =>
    refine ⟨fun _ => trivial, fun _ => fenced_of_write hwrite ?_⟩
    intro state hnext slot hslot htoken _
    obtain ⟨before, hbefore, hrenewed⟩ := Option.bind_eq_some_iff.mp hnext
    rw [hbefore] at hslot
    unfold renewActiveSlot at hrenewed
    split at hrenewed <;> cases hrenewed
    -- a slot with another token is not renewed
    exact mem_updateFirst hslot (decide_eq_false fun hfor => htoken (congrArg some hfor.2))
  | cleanupEnded w removedAt hworker hwrite | cleanupSkipped w removedAt hworker hwrite =>
    -- a cleanup takes away every slot of the job, and no other
    have hnext := updateKey_ok hwrite
    cases hrec : s.record with
    | none => exact ⟨fun _ _ hslot => (nomatch hslot), fun _ _ hslot => (nomatch hslot)⟩
    | some before =>
      rw [hrec] at hnext
      obtain rfl := hnext
      constructor
      · intro h slot hslot hid hlive
        by_contra htoken
        have hkept := h slot hslot htoken hlive
        exact of_decide_eq_true (mem_filter.mp hkept).2 hid
      · intro h slot hslot htoken hlive
        refine mem_filter.mpr ⟨hslot, decide_eq_true fun hid => ?_⟩
        exact htoken (h slot hslot hid hlive)

/-- **Fencing of active slots.**  A step leaves the unexpired slots of other attempts alone, just
when it is not a cleanup that meets one of its job. -/
theorem slots_fenced_iff (policy : JobKeyPolicy) {transitions : List (KeyTransition Value)}
    {s : KeySystem Value} (hrun : KeyedRun policy transitions s) :
    ∀ transition ∈ transitions, (transition.Fenced ↔ transition.CleansOwn) := by
  induction hrun with
  | start => exact fun _ h => nomatch h
  | step hrun hstep ih =>
    intro transition htransition
    rcases mem_cons.mp htransition with rfl | htransition
    · exact hstep.fenced_iff
    · exact ih transition htransition

/-! ## A late cleanup -/

def oneAtATime : JobKeyPolicy where
  service := "svc"
  jobType := "render"
  key := "page"
  keyHash := "hash"
  maxActive := 1
  maxQueuedPerKey := 0
  whenFull := .reject
  stalePolicy := .block

namespace LateCleanup

def info (timestamp : String) : EventMeta Unit :=
  ⟨"svc", "render", "a", (), timestamp⟩

def created : JobEvent Unit :=
  Event.createdWithPolicy (info "2026-10-01T00:00:00Z") () 3 none none none

def started : JobEvent Unit :=
  Event.started (info "2026-10-01T00:00:01Z") 1 .pending none

def failed : JobEvent Unit :=
  Event.failed (info "2026-10-01T00:00:02Z") 1 .active "render failed"

def retried : JobEvent Unit :=
  Event.retriedByAdmin (info "2026-10-01T00:00:04Z") .failed (some ()) (some 3) none none

end LateCleanup

open LateCleanup in
/-- Worker 0 fails job `a` and goes away unacknowledged.  Before worker 1, to whom it is
redelivered, has cleaned up, the job is retried and run by worker 2, whose slot the cleanup takes.
-/
theorem late_cleanup_takes_slot : ∃ (transitions : List (KeyTransition Unit)) (s : KeySystem Unit),
      KeyedRun oneAtATime transitions s ∧ ∃ transition ∈ transitions, ¬ transition.Fenced := by
  have hfailed : KeyedRun oneAtATime _ _ :=
    .step (.step (.step (.step (.step (.step (.step (.step (.step .start
      (.manage _ (.admission ⟨"a", "request", "2026-10-01T00:00:00Z", ()⟩) trivial rfl))
      (.publish _ created))
      (.deliver _ 0 rfl (mem_singleton_self _) rfl))
      (.process _ 0 rfl rfl))
      (.acquire _ 0 "t1" "2026-10-01T00:00:01Z" "2026-10-01T00:00:31Z" rfl (by decide) rfl))
      (.publish _ started))
      (.publish _ failed))
      (.release _ 0 "2026-10-01T00:00:02Z" rfl rfl))
      (.abandon _ 0)
  have hretried : KeyedRun oneAtATime _ _ :=
    .step (.step (.step (.step (.step (.step hfailed (.deliver _ 1 rfl mem_cons_self rfl))
      (.skipAck _ 1 rfl rfl))
      (.publish _ retried))
      (.deliver _ 2 rfl (mem_append_right _ (mem_singleton_self _)) rfl))
      (.process _ 2 rfl rfl))
      (.acquire _ 2 "t2" "2026-10-01T00:00:05Z" "2026-10-01T00:00:35Z" rfl (by decide) rfl)
  refine ⟨_, _, .step hretried (.cleanupSkipped _ 1 "2026-10-01T00:00:06Z" rfl rfl), _,
    mem_cons_self, ?_⟩
  intro h
  exact absurd (h _ mem_cons_self nofun (by decide)) (by decide)

open LateCleanup in
/-- The cleanup of an attempt that still has its own slot. -/
theorem slots_fenced_iff_own : ∃ (transitions : List (KeyTransition Unit)) (s : KeySystem Unit),
      KeyedRun oneAtATime transitions s ∧ ∃ transition ∈ transitions,
        transition.action = .change (some "t1") (.cleanup "a" "2026-10-01T00:00:03Z") ∧
        activeSlots transition.before ≠ [] ∧ transition.Fenced := by
  have hrun : KeyedRun oneAtATime _ _ :=
    .step (.step (.step (.step (.step (.step (.step .start
      (.manage _ (.admission ⟨"a", "request", "2026-10-01T00:00:00Z", ()⟩) trivial rfl))
      (.publish _ created))
      (.deliver _ 0 rfl (mem_singleton_self _) rfl))
      (.process _ 0 rfl rfl))
      (.acquire _ 0 "t1" "2026-10-01T00:00:01Z" "2026-10-01T00:00:31Z" rfl (by decide) rfl))
      (.finish _ 0 (.dead 1) rfl))
      (.cleanupEnded _ 0 "2026-10-01T00:00:03Z" rfl rfl)
  refine ⟨_, _, hrun, _, mem_cons_self, rfl, nofun, ?_⟩
  apply (slots_fenced_iff oneAtATime hrun _ mem_cons_self).mpr
  intro slot hslot _ _
  obtain rfl := mem_singleton.mp hslot
  rfl

end Jobs
