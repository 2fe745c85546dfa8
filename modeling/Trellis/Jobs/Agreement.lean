/-
# What a worker publishes and what it returns

One attempt while nobody else stores an event: are the events of the worker accepted by the
reducer, and is the job then in the state that the outcome names?

Yes, unless the terminal guard drops the end of a job that was never started, for which an event
of an active job is published; or unless the outcome is a cancellation, which the worker does not
publish itself.  It returns one for a request, and for a shutdown or a lost lease that falls
between its two looks at the token.
-/
import Trellis.Jobs.Settlement

namespace Jobs

open List

variable {Value : Type}

/-- The job after an event that is not ignored. -/
def acceptEvent (current : Job Value) (event : JobEvent Value) : Option (Job Value) :=
  if isLegalTransition current event then reduceJobEvent (some current) event else none

/-- The state of the job that an outcome names. -/
def JobProcessOutcome.state : JobProcessOutcome Value → Option JobState
  | .completed _ _ => some .completed
  | .retry _ _ => some .retry
  | .cancelled _ => some .cancelled
  | .failed _ _ => some .failed
  | .expired _ => some .expired
  | .dead _ => some .dead
  | .stale _ => some .stale
  | .interrupted _ | .staleCompletionIgnored _ => none

/-- An attempt with the events it has published.  In a clean one the guard lets an unstarted job
end, nobody requests a cancellation, and nothing falls between the two looks. -/
inductive Attempted (clean : Prop) (job : Job Value) : List (JobEvent Value) → Worker Value → Prop
  | begin (n : Nat) (token : JobCancellationToken)
      (h : clean → token.reason ≠ some .requested) : Attempted clean job [] ⟨.decided n job, token⟩
  | work {events worker event worker'} (hbefore : Attempted clean job events worker)
      (hstep : WorkerStep worker event worker')
      (h : clean → ∀ n job, worker.phase = .starting n job → ∀ e ∈ event,
        e.eventType ≠ .staleCompletionIgnored) :
      Attempted clean job (events ++ event.toList) worker'
  | interrupt {events worker} (token : JobCancellationToken)
      (hbefore : Attempted clean job events worker)
      (htoken : token = worker.token.cancelForShutdown ∨ token = worker.token.cancelForLeaseLoss)
      (h : clean → ∀ n job tries result, worker.phase ≠ .checked n job tries result) :
      Attempted clean job events { worker with token }
  | request {events worker} (hbefore : Attempted clean job events worker) (h : ¬ clean) :
      Attempted clean job events { worker with token := worker.token.cancel }

/-- What a worker has seen of its token, and what it returns. -/
def Phase.Fits (current : Job Value) (token : JobCancellationToken) : Phase Value → Prop
  | .decided _ job | .starting _ job => current.tries = job.tries
  | .checked _ _ _ _ => token.reason = none
  | .settled _ outcome => ∀ state ∈ outcome.state, current.state = state
  | _ => True

/-- What holds at any point of a clean attempt. -/
structure Agrees (current : Job Value) (worker : Worker Value) : Prop where
  knows : worker.Knows current
  token : worker.token.reason ≠ some .requested
  phase : worker.phase.Fits current worker.token

variable {job : Job Value} {worker : Worker Value}

/-- A step that publishes nothing. -/
theorem Agrees.quiet (h : Agrees current worker) (hstep : WorkerStep worker none worker') :
    Agrees current worker' := by
  have htoken := fun hreq => h.token (hstep.requested hreq)
  cases hstep with
  | acquire | acquireDisplaced => exact ⟨h.knows, htoken, h.phase⟩
  | deadline | handlerReturn | reconcileConfirm | reconcileGuard | guard =>
    exact ⟨h.knows, htoken, trivial⟩
  | guardUnstarted n job token deadlinePassed hends =>
    have htries : job.tries = 0 := beq_iff_eq.mp (Bool.and_eq_true_iff.mp hends).2
    have hpend := h.knows.1 htries
    exact ⟨⟨hpend, h.knows.2.2.trans hpend, h.phase.trans htries⟩, htoken, trivial⟩
  | unreconciled | reconcileInterrupt | interrupt =>
    exact ⟨trivial, htoken, fun _ hstate => nomatch hstate⟩
  | reconcileCancel n job tries token hreason => exact absurd hreason h.token
  | check n job tries token result hrecon hreason =>
    refine ⟨h.knows, htoken, ?_⟩
    obtain ⟨reason⟩ := token
    cases reason with
    | none => rfl
    | some reason =>
      cases reason with
      | requested => exact absurd rfl htoken
      | hostShutdown | leaseLost => cases hreason
      | deadlineExceeded | retryExhausted | staleAttempt => cases hrecon
  | cancel n job tries token result hreason =>
    have hnone : token.reason = none := h.phase
    rw [JobCancellationToken.isCancelled, hnone] at hreason
    cases hreason

/-- A step that publishes an event. -/
theorem Agrees.publish (h : Agrees current worker) (hstep : WorkerStep worker (some event) worker')
    (hguard : ∀ n job, worker.phase = .starting n job → event.eventType ≠ .staleCompletionIgnored) :
    ∃ next, acceptEvent current event = some next ∧ Agrees next worker' := by
  have hlegal := hstep.legal h.knows hguard
  refine ⟨applyEventType (nextJob current event) event, ?_, ?_⟩
  · rw [acceptEvent, if_pos hlegal, reduceJobEvent_of_legal hlegal]
  have hstate : (applyEventType (nextJob current event) event).state = event.state :=
    applyEventType_state _ _
  have htoken := fun hreq => h.token (hstep.requested hreq)
  cases hstep with
  | ignoreUnstarted | reconcileIgnore | ignore =>
    exact ⟨trivial, htoken, fun _ hstate => nomatch hstate⟩
  | start | progress | log | wait | resume => exact ⟨hstate, htoken, trivial⟩
  | endUnstarted _ _ _ ended | settle _ _ _ _ ended =>
    refine ⟨trivial, htoken, fun state hout => hstate.trans ?_⟩
    cases ended <;> cases hout <;> rfl
  | reconcile n job tries token terminalAt hreason =>
    refine ⟨trivial, htoken, fun state hout => hstate.trans ?_⟩
    unfold Jobs.reconcile at hout ⊢
    revert hout
    split
    · rintro ⟨⟩
      rfl
    · split <;> rintro ⟨⟩ <;> rfl

/-- **Worker and reducer agree.**  In a clean attempt at a job the decision hands out, whether its
run is stored or not, every published event is accepted and the job ends as the outcome says. -/
theorem attempt_agrees {sequence : Nat} {message : JobEvent Value}
    (hhist : RegularHistory history) (hmessage : Regular message)
    (hwork : jobFromWorkEvent message = some work)
    (hdec : streamWorkDecision history work sequence message.eventType = (.process, job))
    (h : Attempted True job events worker) :
    ∃ current, events.foldlM acceptEvent job = some current ∧
      ∀ n outcome, worker.phase = .settled n outcome → ∀ state ∈ outcome.state,
        current.state = state := by
  obtain ⟨hopen, hpend⟩ := open_of_process hhist hmessage hwork hdec
  have hagrees : ∃ current, events.foldlM acceptEvent job = some current ∧
      Agrees current worker := by
    induction h with
    | begin n token h => exact ⟨job, rfl, ⟨hpend, hopen, rfl⟩, h trivial, rfl⟩
    | @work events worker event worker' _ hstep h ih =>
      obtain ⟨current, hfold, hagrees⟩ := ih
      rw [foldlM_append, hfold]
      cases event with
      | none => exact ⟨current, rfl, hagrees.quiet hstep⟩
      | some event =>
        obtain ⟨next, hnext, hagrees⟩ := hagrees.publish hstep fun n job hphase =>
          h trivial n job hphase event rfl
        exact ⟨next, by simp [hnext], hagrees⟩
    | @interrupt events worker token _ htoken h ih =>
      obtain ⟨current, hfold, hagrees⟩ := ih
      refine ⟨current, hfold, hagrees.knows, ?_, ?_⟩
      · rcases htoken with rfl | rfl
        · intro hreq
          unfold JobCancellationToken.cancelForShutdown at hreq
          split at hreq
          · cases hreq
          · exact hagrees.token hreq
        · exact nofun
      · have hphase := hagrees.phase
        cases hphase' : worker.phase <;> rw [hphase'] at hphase <;>
          first | exact hphase | exact absurd hphase' (h trivial _ _ _ _)
    | request _ h => exact absurd trivial h
  obtain ⟨current, hfold, hagrees⟩ := hagrees
  refine ⟨current, hfold, fun n outcome hphase => ?_⟩
  have hfits := hagrees.phase
  rwa [hphase] at hfits

/-- The first attempt at an export job completes it. -/
theorem attempt_agrees_export : ∃ (events : List (JobEvent String)) (worker : Worker String)
      (current : Job String), Attempted True exportJob events worker ∧
        worker.phase = .settled 1 (.completed 1 "done") ∧
        events.foldlM acceptEvent exportJob = some current ∧ current.state = .completed := by
  have hstart : Attempted True exportJob _ _ :=
    .work (.work (.begin 1 .new fun _ => nofun) (.acquire ..) fun _ _ _ h => nomatch h)
      (.start 1 exportJob _ false false "started" rfl) fun _ _ _ _ e he => by cases he; nofun
  have hdone : Attempted True exportJob _ _ :=
    .work (.work (.work (.work hstart (.handlerReturn _ _ _ _ (.ok "done"))
      fun _ _ _ h => nomatch h)
      (.check _ _ _ _ _ rfl rfl) fun _ _ _ h => nomatch h)
      (.guard _ _ _ _ _ rfl) fun _ _ _ h => nomatch h)
      (.settle _ _ _ _ _ "done") fun _ _ _ h => nomatch h
  have hmessage : Regular exportCreated := ⟨rfl, fun _ => ⟨rfl, rfl⟩, nofun⟩
  have hhist : RegularHistory [(1, exportCreated)] := by
    intro entry hentry
    obtain rfl := mem_singleton.mp hentry
    exact hmessage
  obtain ⟨current, hfold, hstate⟩ := attempt_agrees hhist hmessage rfl
    (rfl : streamWorkDecision _ exportJob 1 _ = (.process, exportJob)) hdone
  exact ⟨_, _, current, hdone, rfl, hfold, hstate _ _ rfl _ rfl⟩

/-- The guard drops the end of an expired job; or an attempt is cancelled and nothing ends it. -/
theorem attempt_disagrees :
    streamWorkDecision [(1, exportCreated)] exportJob 1 .created = (.process, exportJob) ∧
      (∃ (events : List (JobEvent String)) (worker : Worker String),
        Attempted False exportJob events worker ∧ events.foldlM acceptEvent exportJob = none) ∧
      ∃ (events : List (JobEvent String)) (worker : Worker String) (current : Job String),
        Attempted False exportJob events worker ∧ worker.phase = .settled 1 (.cancelled 1) ∧
        events.foldlM acceptEvent exportJob = some current ∧ current.state = .active := by
  have hacquired : Attempted False exportJob _ _ := .work (.begin 1 .new nofun) (.acquire ..) nofun
  have hdropped : Attempted False exportJob _ _ :=
    .work hacquired (.ignoreUnstarted 1 exportJob .new true "dropped" rfl) nofun
  have hcancelled : Attempted False exportJob _ _ :=
    .work (.work (.work (.request (.work hacquired
      (.start 1 exportJob .new false false "started" rfl) nofun) id)
      (.handlerReturn _ _ _ _ (.ok "done")) nofun)
      (.check _ _ _ _ _ rfl rfl) nofun) (.cancel _ _ _ _ _ rfl) nofun
  exact ⟨rfl, ⟨_, _, hdropped, rfl⟩, _, _, _, hcancelled, rfl, rfl, rfl⟩

end Jobs
