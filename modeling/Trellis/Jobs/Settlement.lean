/-
# Acknowledged deliveries

When a worker acknowledges the delivery of a job's current run, has the job ended?

A worker ends a run with a terminal event and then acknowledges, except when its token is
cancelled: then it takes the stored cancellation for the end.  A cancellation that the reducer
ignores, because it was built from a state the job has left, is broadcast all the same
(`unsettled_of_stale_cancel`).  Runs in which every cancellation is accepted when it is stored
settle (`settled_of_run`).
-/
import Trellis.Jobs.Delivery

namespace Jobs

open List Checked JobCancellationToken

variable {Value : Type}

/-! ## Appending to the history -/

/-- The message opened the current run, and the job is in the given state or final. -/
def OnRun (history : List (Nat × JobEvent Value)) (message : Nat) (state : JobState) : Prop :=
  (runFold history).runSequence = some message ∧ ∃ current, historyJob history = some current ∧
      (current.state = state ∨ current.state.isFinal = true)

/-- If the run of a stored message is the current one, it has ended. -/
def Done (history : List (Nat × JobEvent Value)) (message : Nat) : Prop :=
  (∃ event, (message, event) ∈ history) ∧ ((runFold history).runSequence = some message →
      ∃ current, historyJob history = some current ∧ isTerminal current.state = true)

variable {history : List (Nat × JobEvent Value)} {sequence : Nat}

theorem OnRun.done (h : OnRun history message state) (hterm : isTerminal state = true) :
    Done history message := by
  obtain ⟨hrun, current, hcur, hstate⟩ := h
  obtain ⟨event, hmem, -⟩ := mem_of_runSequence hrun
  refine ⟨⟨event, hmem⟩, fun _ => ⟨current, hcur, ?_⟩⟩
  rcases hstate with rfl | hfinal
  · exact hterm
  · exact JobState.isTerminal_of_isFinal hfinal

section append

variable (hhist : RegularHistory history)
include hhist

/-- The job after an event that is not a retry of it; the run is the same. -/
theorem OnRun.append (hevent : Published event)
    (h : OnRun history message state) (hretry : event.eventType ≠ .retried)
    (hlegal : ∀ current, historyJob history = some current → current.state = state →
      isLegalTransition current event = true) :
    OnRun (history ++ [(sequence, event)]) message event.eventType.target := by
  obtain ⟨hrun, current, hcur, hstate⟩ := h
  constructor
  · rw [runSequence_concat hhist hcur, if_neg (fun h => hretry h.1)]
    exact hrun
  · rw [historyJob_concat, hcur]
    rcases hstate with hstate | hfinal
    · refine ⟨_, reduceJobEvent_of_legal (hlegal current hcur hstate), ?_⟩
      exact .inl (state_of_legal hevent.toRegular)
    · exact ⟨current, reduceJobEvent_of_illegal (hevent.illegal_of_isFinal hfinal), .inr hfinal⟩

/-- Others leave a run that is going on alone, or end it for good. -/
theorem OnRun.append_environment
    (hevent : Published event) (henv : event.eventType.isEnvironment = true)
    (h : OnRun history message state) (hopen : isTerminal state = false) :
    OnRun (history ++ [(sequence, event)]) message state := by
  obtain ⟨hrun, current, hcur, hstate⟩ := h
  rw [OnRun, runSequence_concat hhist hcur, historyJob_concat, hcur]
  by_cases hlegal : isLegalTransition current event = true
  · -- the event is legal, so the job was not final
    have hsame : current.state = state := by
      rcases hstate with hsame | hfinal
      · exact hsame
      · rw [hevent.illegal_of_isFinal hfinal] at hlegal
        cases hlegal
    have hfinal := isFinal_of_legal henv (hsame ▸ hopen) hlegal
    refine ⟨?_, _, reduceJobEvent_of_legal hlegal, .inr ?_⟩
    · rw [if_neg]
      · exact hrun
      · rintro ⟨hretry, -⟩
        rw [hretry] at hfinal
        cases hfinal
    · rw [state_of_legal hevent.toRegular]
      exact hfinal
  · rw [if_neg (fun h => hlegal h.2)]
    rw [Bool.not_eq_true] at hlegal
    exact ⟨hrun, current, reduceJobEvent_of_illegal hlegal, hstate⟩

/-- A run that has ended stays ended; it can only be followed by a new one. -/
theorem Done.append (hevent : Published event)
    (hnext : ∀ entry ∈ history, entry.1 < sequence) (h : Done history message) :
    Done (history ++ [(sequence, event)]) message := by
  obtain ⟨⟨stored, hsto⟩, hended⟩ := h
  refine ⟨⟨stored, mem_append_left _ hsto⟩, ?_⟩
  intro hrun
  have hne : some sequence ≠ some message := by
    intro heq
    have hlt : message < sequence := hnext _ hsto
    have := Option.some.inj heq
    omega
  cases hcur : historyJob history with
  | none =>
    rw [runSequence_concat_none hhist hevent.toRegular hcur] at hrun
    split at hrun
    · exact absurd hrun hne
    · have hnone := runSequence_isSome hhist
      rw [hrun, hcur] at hnone
      cases hnone
  | some current =>
    rw [runSequence_concat hhist hcur] at hrun
    split at hrun
    · exact absurd hrun hne
    rename_i hsame
    obtain ⟨ended, hended', hterm⟩ := hended hrun
    cases hcur.symm.trans hended'
    rw [historyJob_concat, hcur]
    cases hlegal : isLegalTransition current event
    · exact ⟨current, reduceJobEvent_of_illegal hlegal, hterm⟩
    · refine ⟨_, reduceJobEvent_of_legal hlegal, ?_⟩
      rw [state_of_legal hevent.toRegular]
      exact isTerminal_of_legal (fun hretry => hsame ⟨hretry, hlegal⟩) hterm hlegal

omit hhist

/-- A job does not go away. -/
theorem historyJob_isSome_append (h : (historyJob history).isSome = true) :
    (historyJob (history ++ [(sequence, event)])).isSome = true := by
  obtain ⟨current, hcur⟩ := Option.isSome_iff_exists.mp h
  rw [historyJob_concat, hcur]
  exact isSome_reduceJobEvent current event

theorem historyJob_isSome_of_initial
    (hinit : shorter <+: history) (h : (historyJob shorter).isSome = true) :
    (historyJob history).isSome = true := by
  obtain ⟨rest, rfl⟩ := hinit
  induction rest using List.reverseRecOn with
  | nil => rwa [append_nil]
  | append_singleton rest entry ih =>
    rw [← append_assoc]
    exact historyJob_isSome_append ih

end append

/-! ## Workers -/

/-- What a worker knows of the stored history. -/
def Worker.Sound (history : List (Nat × JobEvent Value)) (worker : Worker Value) : Prop :=
  match worker.phase with
  | .idle => True
  | .received n event _ => (n, event) ∈ history ∧ (historyJob history).isSome = true
  | .decided n job | .starting n job =>
    (job.tries = 0 → job.state = .pending) ∧ isTerminal job.state = false ∧
      OnRun history n job.state
  | .unstarted n job _ => job.state = .pending ∧ OnRun history n .pending
  | .running n _ tries | .returned n _ tries _ | .settling n _ tries _ =>
    0 < tries ∧ OnRun history n .active
  | .reconciling n _ _ | .confirmed n _ _ => OnRun history n .active
  | .checked n _ tries _ =>
    0 < tries ∧ OnRun history n .active ∧
      (worker.token.reason = none ∨ worker.token.reason = some .requested)
  | .settled n outcome => ackActionForOutcome outcome = true → Done history n

/-- The worker is to end the run of its message. -/
def Phase.isOpen : Phase Value → Bool
  | .idle | .received _ _ _ | .settled _ _ => false
  | .decided _ _ | .starting _ _ | .unstarted _ _ _ | .running _ _ _ | .returned _ _ _ _
  | .reconciling _ _ _ | .confirmed _ _ _ | .checked _ _ _ _ | .settling _ _ _ _ => true

variable {worker : Worker Value}

/-- An open worker holds the message of the current run. -/
theorem Worker.Sound.held_eq (h : worker.Sound history) (hopen : worker.phase.isOpen = true) :
    worker.phase.held = (runFold history).runSequence := by
  obtain ⟨phase, token⟩ := worker
  cases phase with
  | idle | received | settled => cases hopen
  | decided n job | starting n job => exact h.2.2.1.symm
  | unstarted n job stale | running n job tries | returned n job tries result
  | settling n job tries result => exact h.2.1.symm
  | reconciling n job tries | confirmed n job tries => exact h.1.symm
  | checked n job tries result => exact h.2.1.1.symm

variable {phase : Phase Value}

theorem Phase.held_of_isOpen (h : phase.isOpen = true) : ∃ n, phase.held = some n := by
  cases phase with
  | idle | received | settled => cases h
  | decided | starting | unstarted | running | returned | reconciling | confirmed | checked
  | settling => exact ⟨_, rfl⟩

section append

variable {event : JobEvent Value} {worker' : Worker Value}

/-- An event of another party leaves a worker with what it knows. -/
theorem Worker.Sound.append (hhist : RegularHistory history) (hevent : Published event)
    (hnext : ∀ entry ∈ history, entry.1 < sequence)
    (hother : worker.phase.isOpen = true → event.eventType.isEnvironment = true)
    (h : worker.Sound history) : worker.Sound (history ++ [(sequence, event)]) := by
  obtain ⟨phase, token⟩ := worker
  cases phase with
  | idle => trivial
  | received n stored work => exact ⟨mem_append_left _ h.1, historyJob_isSome_append h.2⟩
  | decided n job | starting n job =>
    exact ⟨h.1, h.2.1, h.2.2.append_environment hhist hevent (hother rfl) h.2.1⟩
  | unstarted n job stale | running n job tries | returned n job tries result
  | settling n job tries result => exact ⟨h.1, h.2.append_environment hhist hevent (hother rfl) rfl⟩
  | reconciling n job tries | confirmed n job tries =>
    exact OnRun.append_environment hhist hevent (hother rfl) h rfl
  | checked n job tries result =>
    exact ⟨h.1, h.2.1.append_environment hhist hevent (hother rfl) rfl, h.2.2⟩
  | settled n outcome => exact fun hack => (h hack).append hhist hevent hnext

/-- A cancelled token is the end of the run if the job is final. -/
theorem OnRun.done_of_final (h : OnRun history message state)
    (hfinal : ∃ current, historyJob history = some current ∧ current.state.isFinal = true) :
    Done history message := by
  obtain ⟨current, hcur, hstate⟩ := hfinal
  have hdone : OnRun history message .completed := ⟨h.1, current, hcur, .inr hstate⟩
  exact hdone.done rfl

/-- A step of a worker that publishes nothing. -/
theorem WorkerStep.sound_of_quiet (hstep : WorkerStep worker none worker')
    (hfinal : worker.token.reason = some .requested →
      ∃ current, historyJob history = some current ∧ current.state.isFinal = true)
    (h : worker.Sound history) : worker'.Sound history := by
  cases hstep with
  | acquire n job token | acquireDisplaced n job token | deadline n job tries token
  | handlerReturn n job tries token result | reconcileConfirm n job tries token hreason => exact h
  | guardUnstarted n job token deadlinePassed hends =>
    have htries : job.tries = 0 := beq_iff_eq.mp (Bool.and_eq_true_iff.mp hends).2
    have hpend := h.1 htries
    exact ⟨hpend, hpend ▸ h.2.2⟩
  | unreconciled n job tries token result hreason hresult
  | reconcileInterrupt n job tries token hreason | interrupt n job tries token result hreason =>
    exact nofun
  | reconcileGuard n job tries token value hreason => exact h.2
  | reconcileCancel n job tries token hreason =>
    exact fun _ => OnRun.done_of_final h (hfinal hreason)
  | check n job tries token result hrecon hreason =>
    refine ⟨h.1, h.2, ?_⟩
    obtain ⟨reason⟩ := token
    cases reason with
    | none => exact .inl rfl
    | some reason =>
      cases reason with
      | requested => exact .inr rfl
      | hostShutdown | leaseLost => cases hreason
      | deadlineExceeded | retryExhausted | staleAttempt => cases hrecon
  | cancel n job tries token result hreason =>
    intro _
    rcases h.2.2 with hnone | hreq
    · have hreason' : token.reason.isSome = true := hreason
      have hnone' : token.reason = none := hnone
      rw [hnone'] at hreason'
      cases hreason'
    · exact h.2.1.done_of_final (hfinal hreq)
  | guard n job tries token result hreason => exact ⟨h.1, h.2.1⟩

variable (hstep : WorkerStep worker (some event) worker')
include hstep

/-- What a worker publishes keeps to the rules of published events. -/
theorem WorkerStep.published (h : worker.Sound history) : Published event := by
  cases hstep with
  | ignoreUnstarted | reconcileIgnore | ignore | progress | log | wait | resume =>
    exact published_of_previous rfl rfl rfl rfl
  | endUnstarted n job token stale terminalAt =>
    have hopen : job.state.isFinal = false := by
      rw [h.1]
      rfl
    cases stale with
    | true | false => exact published_of_previous rfl rfl rfl hopen
  | start n job token deadlinePassed deadlinePassed' startedAt hends =>
    apply published_of_tried rfl rfl (startedTries_pos job) rfl
    rcases isTerminal_eq_false h.2.1 with hstate | hstate | hstate <;> rw [hstate] <;> rfl
  | reconcile n job tries token terminalAt hreason =>
    unfold Jobs.reconcile
    split
    · exact published_of_previous rfl rfl rfl rfl
    · split
      · exact published_of_previous rfl rfl rfl rfl
      · exact published_of_previous rfl rfl rfl rfl
  | settle n job tries token result terminalAt =>
    cases result with
    | ok value | failed error => exact published_of_previous rfl rfl rfl rfl
    | retryable error => exact published_of_tried rfl rfl h.1 rfl rfl

/-- Only an open worker publishes, and only events of its own. -/
theorem WorkerStep.open_of_publish :
    worker.phase.isOpen = true ∧ event.eventType.isEnvironment = false := by
  cases hstep with
  | ignoreUnstarted | reconcileIgnore | ignore | start | progress | log | wait | resume =>
    exact ⟨rfl, rfl⟩
  | endUnstarted _ _ _ ended | settle _ _ _ _ ended => cases ended <;> exact ⟨rfl, rfl⟩
  | reconcile n job tries token terminalAt hreason =>
    unfold Jobs.reconcile
    split
    · exact ⟨rfl, rfl⟩
    · split <;> exact ⟨rfl, rfl⟩

/-- What a worker knows of the state of the job, and whether it was tried. -/
def Worker.Knows (current : Job Value) (worker : Worker Value) : Prop :=
  match worker.phase with
  | .idle | .received _ _ _ | .settled _ _ => True
  | .decided _ job | .starting _ job =>
    (job.tries = 0 → job.state = .pending) ∧ isTerminal job.state = false ∧
      current.state = job.state
  | .unstarted _ job _ => job.state = .pending ∧ current.state = .pending ∧ current.tries = 0
  | .running _ _ _ | .returned _ _ _ _ | .settling _ _ _ _ | .reconciling _ _ _
  | .confirmed _ _ _ | .checked _ _ _ _ => current.state = .active

/-- What a worker publishes is legal, unless its guard drops the end of an unstarted job. -/
theorem WorkerStep.legal (h : worker.Knows current)
    (hguard : ∀ n job, worker.phase = .starting n job →
      event.eventType ≠ .staleCompletionIgnored) : isLegalTransition current event = true := by
  cases hstep with
  | ignoreUnstarted => exact absurd rfl (hguard _ _ rfl)
  | reconcileIgnore | ignore | progress | log | wait | resume => exact decide_eq_true ⟨h, rfl⟩
  | endUnstarted n job token stale terminalAt =>
    obtain ⟨hpend, hcur, htries⟩ := h
    have hprev : some job.state = some current.state := congrArg some (hpend.trans hcur.symm)
    cases stale with
    | true => exact decide_eq_true ⟨.inr ⟨hcur, htries, rfl⟩, hprev⟩
    | false =>
      refine decide_eq_true ⟨?_, hprev⟩
      rw [hcur]
      exact mem_cons_self
  | start n job token deadlinePassed deadlinePassed' startedAt hends =>
    refine decide_eq_true ⟨?_, congrArg some h.2.2.symm⟩
    rcases isTerminal_eq_false h.2.1 with hstate | hstate | hstate <;>
      rw [h.2.2, hstate] <;> decide
  | reconcile n job tries token terminalAt hreason =>
    have hact : current.state = .active := h
    unfold Jobs.reconcile
    split
    · exact decide_eq_true ⟨.inl hact, congrArg some hact.symm⟩
    split
    · refine decide_eq_true ⟨?_, congrArg some hact.symm⟩
      rw [hact]
      decide
    · refine decide_eq_true ⟨?_, congrArg some hact.symm⟩
      rw [hact]
      decide
  | settle n job tries token result terminalAt =>
    cases result with
    | ok value | retryable error | failed error => exact decide_eq_true ⟨h, rfl⟩

/-- A step of a worker that publishes an event. -/
theorem WorkerStep.sound_of_publish (hhist : RegularHistory history) (h : worker.Sound history) :
    worker'.Sound (history ++ [(sequence, event)]) := by
  have hevent := hstep.published h
  have hretry : event.eventType ≠ .retried :=
    JobEventType.ne_of_isEnvironment hstep.open_of_publish.2 rfl
  have hlegal : _ → ∀ current : Job Value, _ → worker.Knows current → _ :=
    fun hguard current (_ : historyJob history = some current) hknows => hstep.legal hknows hguard
  cases hstep with
  | ignoreUnstarted | reconcileIgnore | ignore => exact nofun
  | endUnstarted n job token stale terminalAt =>
    intro _
    have hnext := fun current hcur hpend =>
      hlegal (fun _ _ h => nomatch h) current hcur
      ⟨h.1, hpend, fresh_of_historyJob hhist hcur hpend⟩
    cases stale with
    | true | false => exact (h.2.append hhist hevent hretry hnext).done rfl
  | start n job token deadlinePassed deadlinePassed' startedAt hends =>
    exact ⟨startedTries_pos job, h.2.2.append hhist hevent hretry fun current hcur hsame =>
      hlegal (fun _ _ _ => nofun) current hcur ⟨h.1, h.2.1, hsame⟩⟩
  | progress | log | wait | resume =>
    exact ⟨h.1, h.2.append hhist hevent hretry (hlegal (fun _ _ h => nomatch h))⟩
  | reconcile n job tries token terminalAt hreason =>
    intro _
    apply OnRun.done (OnRun.append hhist hevent h hretry (hlegal (fun _ _ h => nomatch h)))
    unfold Jobs.reconcile
    split
    · rfl
    · split <;> rfl
  | settle n job tries token result terminalAt =>
    cases result with
    | retryable error => exact nofun
    | ok value | failed error =>
      intro _
      exact (h.2.append hhist hevent hretry (hlegal (fun _ _ h => nomatch h))).done rfl

end append

/-! ## Tokens -/

variable {token : JobCancellationToken}

theorem JobCancellationToken.cancelIfNone_requested {reason : JobCancellationReason}
    (h : (token.cancelIfNone reason).reason = some .requested)
    (hreason : reason ≠ .requested) : token.reason = some .requested := by
  unfold cancelIfNone at h
  split at h
  · exact absurd (Option.some.inj h) hreason
  · exact h

/-- Only the registry requests a cancellation. -/
theorem WorkerStep.requested (hstep : WorkerStep worker event worker')
    (h : worker'.token.reason = some .requested) : worker.token.reason = some .requested := by
  cases hstep with
  | acquireDisplaced | deadline => exact cancelIfNone_requested h (by decide)
  | start n job token deadlinePassed deadlinePassed' startedAt hends =>
    have hstarted : (startedToken token deadlinePassed' job).reason = some .requested := h
    unfold startedToken at hstarted
    split at hstarted
    · exact cancelIfNone_requested hstarted (by decide)
    · split at hstarted
      · exact cancelIfNone_requested hstarted (by decide)
      · exact hstarted
  | acquire | guardUnstarted | ignoreUnstarted | endUnstarted | progress | log | wait | resume
  | handlerReturn | unreconciled | reconcileIgnore | reconcileGuard | reconcileInterrupt
  | reconcileConfirm | reconcileCancel | reconcile | interrupt | check | cancel | ignore | guard
  | settle => exact h

theorem WorkerStep.held_eq
    (hstep : WorkerStep worker event worker') : worker'.phase.held = worker.phase.held := by
  cases hstep <;> rfl

/-- A cancelled token does not change what a worker knows. -/
theorem Worker.Sound.cancel (h : worker.Sound history) :
    Worker.Sound history { worker with token := worker.token.cancel } := by
  obtain ⟨phase, token⟩ := worker
  cases phase with
  | checked n job tries result =>
    refine ⟨h.1, h.2.1, .inr ?_⟩
    have hreason : token.reason = none ∨ token.reason = some .requested := h.2.2
    unfold JobCancellationToken.cancel
    rcases hreason with hreason | hreason <;> simp only [hreason]
  | idle | received | decided | starting | unstarted | running | returned | reconciling
  | confirmed | settling | settled => exact h

/-! ## Runs -/

/-- Some cancellation is stored. -/
def CancelStored (history : List (Nat × JobEvent Value)) : Prop :=
  ∃ entry ∈ history, entry.2.eventType = .cancelled

theorem CancelStored.append (h : CancelStored history)
    (later : List (Nat × JobEvent Value)) : CancelStored (history ++ later) := by
  obtain ⟨entry, hentry, htype⟩ := h
  exact ⟨entry, mem_append_left _ hentry, htype⟩

/-- A cancellation is stored in the state it was built from, or when the job has ended for good. -/
def CancelsCurrent (s s' : System Value) : Prop :=
  ∀ entry, s'.stream = s.stream ++ [entry] → entry.2.eventType = .cancelled →
    ∃ current, s.job = some current ∧
      (entry.2.previousState = some current.state ∨ current.state.isFinal = true)

def Phase.isChecked : Phase Value → Bool
  | .checked _ _ _ _ => true
  | _ => false

/-- No shutdown or lease loss comes between the two looks: for these reasons, and for any. -/
def ChecksUndisturbed (s s' : System Value) : Prop :=
  ∀ w, (s.workers w).phase.isChecked = true → (s'.workers w).phase.isChecked = true →
    (s'.workers w).token.isInterrupted = true → (s.workers w).token.isInterrupted = true

/-- A message that a worker still holds is not delivered again. -/
def DeliversOnce (s s' : System Value) : Prop :=
  ∀ w n, (s.workers w).phase.held = none → (s'.workers w).phase.held = some n →
    ∀ w', (s.workers w').phase.held ≠ some n

/-- A step that keeps to the three conditions. -/
structure Undisturbed (hostOf : Nat → Nat) (s s' : System Value) : Prop where
  step : Step hostOf s s'
  cancels : CancelsCurrent s s'
  checks : ChecksUndisturbed s s'
  once : DeliversOnce s s'

structure Inv (s : System Value) : Prop where
  regular : RegularHistory s.stream
  ordered : s.stream.Pairwise (fun a b => a.1 < b.1)
  opened : ∀ entry ∈ s.stream, (jobFromWorkEvent entry.2).isSome = true →
    (historyJob s.stream).isSome = true
  final : CancelStored s.stream →
    ∃ current, historyJob s.stream = some current ∧ current.state.isFinal = true
  tokens : ∀ w, (s.workers w).token.reason = some .requested → CancelStored s.stream
  pending : ∀ host, s.pending host = true → CancelStored s.stream
  inbox : ∀ host, s.inbox host ≠ [] → CancelStored s.stream
  workers : ∀ w, (s.workers w).Sound s.stream
  exclusive : ∀ w w' n, (s.workers w).phase.held = some n → (s.workers w').phase.held = some n →
    w = w'
  acked : ∀ n ∈ s.acked, Done s.stream n

namespace Inv

variable {s : System Value} {event : JobEvent Value}

theorem initial : Inv (System.initial : System Value) where
  regular := fun _ h => nomatch h
  ordered := List.Pairwise.nil
  opened := fun _ h => nomatch h
  final := by
    rintro ⟨entry, hentry, -⟩
    cases hentry
  tokens := fun _ h => nomatch h
  pending := fun _ h => nomatch h
  inbox := fun host h => absurd rfl h
  workers := fun w => trivial
  exclusive := fun _ _ _ h => nomatch h
  acked := nofun

variable (h : Inv s)
include h

theorem setWorker (w : Nat) (hsound : worker.Sound s.stream)
    (htoken : worker.token.reason = some .requested → CancelStored s.stream)
    (hheld : ∀ w' n, w' ≠ w → worker.phase.held = some n → (s.workers w').phase.held ≠ some n) :
    Inv (s.setWorker w worker) where
  __ := h
  tokens := (Function.forall_update_iff s.workers fun _ worker =>
    worker.token.reason = some .requested → _).mpr ⟨htoken, fun w' _ => h.tokens w'⟩
  workers := (Function.forall_update_iff s.workers fun _ => Worker.Sound s.stream).mpr
    ⟨hsound, fun w' _ => h.workers w'⟩
  exclusive := by
    intro w₁ w₂ n h₁ h₂
    rcases eq_or_ne w₁ w with rfl | hne₁
    · rcases eq_or_ne w₂ w₁ with rfl | hne₂
      · rfl
      · rw [System.workers_setWorker_self] at h₁
        rw [System.workers_setWorker_of_ne s _ hne₂] at h₂
        exact absurd h₂ (hheld w₂ n hne₂ h₁)
    · rw [System.workers_setWorker_of_ne s _ hne₁] at h₁
      rcases eq_or_ne w₂ w with rfl | hne₂
      · rw [System.workers_setWorker_self] at h₂
        exact absurd h₁ (hheld w₁ n hne₁ h₂)
      · rw [System.workers_setWorker_of_ne s _ hne₂] at h₂
        exact h.exclusive w₁ w₂ n h₁ h₂

/-- A worker that holds nothing. -/
theorem setIdle (w : Nat) : Inv (s.setWorker w ⟨.idle, .new⟩) :=
  h.setWorker w trivial nofun nofun

theorem setPending (host : Nat)
    (hvalue : value = true → CancelStored s.stream) : Inv (s.setPending host value) where
  __ := h
  pending := (Function.forall_update_iff s.pending fun _ pending => pending = true → _).mpr
    ⟨hvalue, fun host' _ => h.pending host'⟩

theorem clearPending (host : Nat) : Inv (s.setPending host false) :=
  h.setPending host nofun

theorem setInbox (host : Nat) (hinbox : s.inbox host = event :: rest) :
    Inv (s.setInbox host rest) ∧ CancelStored s.stream := by
  have hsto : CancelStored s.stream := by
    apply h.inbox host
    rw [hinbox]
    exact cons_ne_nil _ _
  exact ⟨{ h with inbox := fun _ _ => hsto }, hsto⟩

theorem ack (hdone : Done s.stream n) : Inv (s.ack n) where
  __ := h
  acked := by
    intro m hm
    rcases mem_cons.mp hm with rfl | hm
    · exact hdone
    · exact h.acked m hm

/-- An event is stored that no open worker waits for. -/
theorem publish (hevent : Published event) (hnext : NextSequence s sequence)
    (hother : ∀ w, (s.workers w).phase.isOpen = true → event.eventType.isEnvironment = true)
    (hopened : (jobFromWorkEvent event).isSome = true →
      (historyJob (s.stream ++ [(sequence, event)])).isSome = true)
    (hcancel : event.eventType = .cancelled → ∃ current, historyJob s.stream = some current ∧
      (isLegalTransition current event = true ∨ current.state.isFinal = true)) :
    Inv (s.publish sequence event) where
  regular := forall_mem_concat h.regular hevent.toRegular
  ordered := by
    refine pairwise_append.mpr ⟨h.ordered, pairwise_singleton _ _, ?_⟩
    intro a ha b hb
    obtain rfl := mem_singleton.mp hb
    exact hnext a ha
  opened := by
    refine forall_mem_concat (fun entry hentry hwork => ?_) hopened
    exact historyJob_isSome_append (h.opened entry hentry hwork)
  final := by
    rintro ⟨entry, hentry, htype⟩
    -- a final job stays final; an accepted cancellation makes the job final
    have hcur : ∃ current, historyJob s.stream = some current ∧
        (isLegalTransition current event = true ∧ event.eventType = .cancelled ∨
          current.state.isFinal = true) := by
      rcases mem_append.mp hentry with hentry | hentry
      · obtain ⟨current, hcur, hfinal⟩ := h.final ⟨entry, hentry, htype⟩
        exact ⟨current, hcur, .inr hfinal⟩
      · obtain rfl := mem_singleton.mp hentry
        obtain ⟨current, hcur, hlegal | hfinal⟩ := hcancel htype
        · exact ⟨current, hcur, .inl ⟨hlegal, htype⟩⟩
        · exact ⟨current, hcur, .inr hfinal⟩
    obtain ⟨current, hcur, hstate⟩ := hcur
    show ∃ current, historyJob (s.stream ++ [(sequence, event)]) = some current ∧ _
    rw [historyJob_concat, hcur]
    rcases hstate with ⟨hlegal, hcanc⟩ | hfinal
    · refine ⟨_, reduceJobEvent_of_legal hlegal, ?_⟩
      rw [state_of_legal hevent.toRegular, hcanc]
      rfl
    · exact ⟨current, reduceJobEvent_of_illegal (hevent.illegal_of_isFinal hfinal), hfinal⟩
  tokens := fun w hw => (h.tokens w hw).append _
  pending := fun host hhost => (h.pending host hhost).append _
  inbox := by
    intro host hhost
    by_cases htype : event.eventType = .cancelled
    · exact ⟨(sequence, event), mem_append_right _ mem_cons_self, htype⟩
    · have hsame : (s.publish sequence event).inbox host = s.inbox host := if_neg htype
      rw [hsame] at hhost
      exact (h.inbox host hhost).append _
  workers := fun w => (h.workers w).append h.regular hevent hnext (hother w)
  exclusive := h.exclusive
  acked := fun n hn => (h.acked n hn).append h.regular hevent hnext

theorem sound_of_phase (hphase : (s.workers w).phase = phase) :
    Worker.Sound s.stream ⟨phase, (s.workers w).token⟩ := by
  rw [← hphase]
  exact h.workers w

/-- A sequence names one stored event. -/
theorem eq_of_mem (ha : (n, a) ∈ s.stream) (hb : (n, b) ∈ s.stream) : a = b := by
  have hnd : (s.stream.map Prod.fst).Nodup :=
    pairwise_map.mpr (h.ordered.imp fun hlt => Nat.ne_of_lt hlt)
  exact (Prod.mk.inj (inj_on_of_nodup_map hnd ha hb rfl)).2

/-- The registry cancels tokens for a stored cancellation only. -/
theorem cancelRegistered (hostOf : Nat → Nat) (host : Nat)
    (hsto : CancelStored s.stream) : Inv (s.cancelRegistered hostOf host) where
  __ := h
  tokens := fun _ _ => hsto
  workers := by
    intro w
    show Worker.Sound s.stream (if _ then _ else _)
    split
    · exact (h.workers w).cancel
    · exact h.workers w
  exclusive := by
    have hheld : ∀ w, ((s.cancelRegistered hostOf host).workers w).phase.held =
        (s.workers w).phase.held := by
      intro w
      show Phase.held (Worker.phase (if _ then _ else _)) = _
      split <;> rfl
    intro w w' n hw hw'
    rw [hheld] at hw hw'
    exact h.exclusive w w' n hw hw'

/-- The worker that holds a message makes a step. -/
theorem setWorker_of_held (w : Nat) (hsound : worker.Sound s.stream)
    (htoken : worker.token.reason = some .requested → CancelStored s.stream)
    (hheld : worker.phase.held = (s.workers w).phase.held) : Inv (s.setWorker w worker) := by
  apply h.setWorker w hsound htoken
  intro w' n hne hn hn'
  exact hne (h.exclusive w' w n hn' (hheld ▸ hn))

end Inv

variable {s' : System Value}

/-- The worker that is to end the run publishes an event. -/
theorem inv_workPublish (h : Inv s) {event : JobEvent Value} (hnext : NextSequence s sequence)
    (hwork : WorkerStep (s.workers w) (some event) worker) :
    Inv ((s.publish sequence event).setWorker w worker) := by
  have hevent := hwork.published (h.workers w)
  obtain ⟨hopen, hown⟩ := hwork.open_of_publish
  have hheld := (h.workers w).held_eq hopen
  obtain ⟨n, hn⟩ := Phase.held_of_isOpen hopen
  -- the event is for this worker alone: no other worker is on the current run
  have hidle : Inv ((s.setWorker w ⟨.idle, .new⟩).publish sequence event) := by
    refine (h.setIdle w).publish hevent hnext ?_ ?_ ?_
    · intro w' hopen'
      rcases eq_or_ne w' w with rfl | hne
      · rw [System.workers_setWorker_self] at hopen'
        cases hopen'
      · rw [System.workers_setWorker_of_ne s _ hne] at hopen'
        have hheld' := (h.workers w').held_eq hopen'
        exact absurd (h.exclusive w' w n (hheld'.trans (hheld.symm.trans hn)) hn) hne
    · intro hwork'
      rw [jobFromWorkEvent_of_worker hown] at hwork'
      cases hwork'
    · exact fun htype => absurd htype (JobEventType.ne_of_isEnvironment hown rfl)
  have hsame : ((s.setWorker w ⟨.idle, .new⟩).publish sequence event).setWorker w worker =
      (s.publish sequence event).setWorker w worker := by
    unfold System.setWorker System.publish
    simp only [Function.update_idem]
  rw [← hsame]
  refine hidle.setWorker w (hwork.sound_of_publish h.regular (h.workers w)) ?_ ?_
  · exact fun hreq => (h.tokens w (hwork.requested hreq)).append _
  · intro w' n hne hn hn'
    have hother : ((s.setWorker w ⟨.idle, .new⟩).publish sequence event).workers w' =
        s.workers w' := System.workers_setWorker_of_ne s _ hne
    rw [hother] at hn'
    exact hne (h.exclusive w' w n hn' (hwork.held_eq ▸ hn))

/-- A worker that sees a shutdown or a lost lease. -/
theorem inv_interrupt (h : Inv s) (htoken : token.isInterrupted = true)
    (hundisturbed : ChecksUndisturbed s (s.setWorker w { s.workers w with token })) :
    Inv (s.setWorker w { s.workers w with token }) := by
  have hsound := h.workers w
  have hchecked := hundisturbed w
  rw [System.workers_setWorker_self] at hchecked
  refine h.setWorker_of_held w ?_ ?_ rfl
  · revert hsound hchecked
    generalize s.workers w = worker
    obtain ⟨phase, old⟩ := worker
    intro hsound hchecked
    cases phase with
    | checked n job tries result =>
      -- the condition on the run excludes it here
      have hold : old.isInterrupted = true := hchecked rfl rfl htoken
      have hreason : old.reason = none ∨ old.reason = some .requested := hsound.2.2
      unfold JobCancellationToken.isInterrupted at hold
      rcases hreason with hreason | hreason <;> rw [hreason] at hold <;> cases hold
    | idle | received | decided | starting | unstarted | running | returned | reconciling
    | confirmed | settling | settled => exact hsound
  · intro hreq
    unfold JobCancellationToken.isInterrupted at htoken
    rw [show token.reason = some .requested from hreq] at htoken
    cases htoken

theorem inv_step (hstep : Undisturbed hostOf s s') (h : Inv s) : Inv s' := by
  obtain ⟨hstep, hcancels, hundisturbed, honce⟩ := hstep
  cases hstep with
  | submit sequence info payload maxTries deadline concurrency queuePolicy trigger lineage hnext =>
    have hevent : Published { Event.createdWithPolicy info payload maxTries deadline concurrency
        queuePolicy with trigger, lineage } :=
      ⟨⟨rfl, fun _ => ⟨rfl, rfl⟩, by rintro (h | h) <;> cases h⟩, nofun⟩
    refine h.publish hevent hnext (fun _ _ => rfl) (fun _ => ?_) nofun
    cases hcur : historyJob s.stream with
    | none =>
      rw [historyJob_concat, hcur, reduceJobEvent_none]
      rfl
    | some current =>
      apply historyJob_isSome_append
      rw [hcur]
      rfl
  | skip sequence info reason hnext =>
    exact h.publish (published_of_previous rfl rfl rfl rfl) hnext (fun _ _ => rfl) nofun nofun
  | admin sequence projected job request now event hnext hproj hjob hevent =>
    obtain ⟨hpub, henv⟩ := AdminRequest.published hevent
    refine h.publish hpub hnext (fun _ _ => henv) ?_ ?_
    · intro _
      refine historyJob_isSome_append (historyJob_isSome_of_initial hproj ?_)
      rw [hjob]
      rfl
    · intro htype
      obtain ⟨current, hcur, hstate⟩ := hcancels (sequence, event) rfl htype
      refine ⟨current, hcur, ?_⟩
      rcases hstate with hprev | hfinal
      · left
        cases request
        all_goals
          simp only [AdminRequest.event, Option.ite_none_right_eq_some, Option.some.injEq] at hevent
          obtain ⟨hstate, rfl⟩ := hevent
        case cancelJob =>
          have hsame : job.state = current.state := Option.some.inj hprev
          exact decide_eq_true ⟨hsame ▸ hstate, hprev⟩
        all_goals cases htype
      · exact .inr hfinal
  | deliver host event rest hinbox hfound =>
    obtain ⟨hinv, hsto⟩ := h.setInbox host hinbox
    exact hinv.cancelRegistered hostOf host hsto
  | deliverPending host event rest hinbox hnone =>
    obtain ⟨hinv, hsto⟩ := h.setInbox host hinbox
    exact hinv.setPending host fun _ => hsto
  | lose host event rest hinbox => exact (h.setInbox host hinbox).1
  | receive w sequence event work hidle hsto hwork hunacked =>
    refine h.setWorker w ⟨hsto, h.opened _ hsto ?_⟩ (by rintro ⟨⟩) ?_
    · rw [hwork]
      rfl
    · intro w' n _ hn
      apply honce w n
      · rw [hidle]
        rfl
      · rwa [System.workers_setWorker_self]
  | oldRunAck w sequence event work job hphase hdec =>
    have hsound := h.sound_of_phase hphase
    refine (h.ack ⟨⟨event, hsound.1⟩, ?_⟩).setIdle w
    intro hrun
    obtain ⟨opener, hopener, htype⟩ := mem_of_runSequence hrun
    obtain rfl := h.eq_of_mem hsound.1 hopener
    rcases streamWorkDecision_oldRunAck hdec with hother | hother
    · exact absurd htype.symm hother
    · exact absurd hrun hother
  | skipAck w sequence event work job hphase hdec =>
    have hsound := h.sound_of_phase hphase
    obtain ⟨current, hcur⟩ := Option.isSome_iff_exists.mp hsound.2
    have hterm := streamWorkDecision_skipAck h.regular hcur hdec
    have hdone : Done s.stream sequence := ⟨⟨event, hsound.1⟩, fun _ => ⟨current, hcur, hterm⟩⟩
    exact ((h.ack hdone).clearPending (hostOf w)).setIdle w
  | beginWork w sequence event work job hphase hdec =>
    have hsound := h.sound_of_phase hphase
    obtain ⟨current, hcur⟩ := Option.isSome_iff_exists.mp hsound.2
    obtain ⟨hrun, hsame, hopen, hpend⟩ := streamWorkDecision_process h.regular hcur hdec
    refine (h.clearPending (hostOf w)).setWorker_of_held w ?_ ?_ ?_
    · exact ⟨hpend, hopen, hrun, current, hcur, .inl hsame.symm⟩
    · intro hreq
      by_cases hpendingHost : s.pending (hostOf w) = true
      · exact h.pending _ hpendingHost
      · simp only [hpendingHost, Bool.false_eq_true] at hreq
        exact h.tokens w hreq
    · show some sequence = (s.workers w).phase.held
      rw [hphase]
      rfl
  | work w worker hwork =>
    refine h.setWorker_of_held w ?_ ?_ hwork.held_eq
    · exact hwork.sound_of_quiet (fun hreq => h.final (h.tokens w hreq)) (h.workers w)
    · exact fun hreq => h.tokens w (hwork.requested hreq)
  | workPublish w sequence event worker hnext hwork => exact inv_workPublish h hnext hwork
  | acknowledge w sequence outcome hphase hack =>
    have hsound := h.sound_of_phase hphase
    exact (h.ack (hsound hack)).setIdle w
  | abandon w => exact h.setIdle w
  | abandonDecided w sequence job hphase => exact (h.clearPending (hostOf w)).setIdle w
  | shutdown w =>
    refine inv_interrupt h ?_ hundisturbed
    unfold JobCancellationToken.cancelForShutdown
    split
    · rfl
    next hlost =>
      rw [not_not] at hlost
      exact decide_eq_true (.inr hlost)
  | leaseLoss w => exact inv_interrupt h rfl hundisturbed

/-! ## Runs of an export job -/

def exportInfo : EventMeta String :=
  ⟨"documents", "export", "job", "context", "created"⟩

def exportCreated : JobEvent String :=
  Event.createdWithPolicy exportInfo "payload" 3 none none none

/-- The job as created. -/
def exportJob : Job String where
  id := "job"
  context := "context"
  service := "documents"
  jobType := "export"
  state := .pending
  payload := "payload"
  result := none
  createdAt := "created"
  updatedAt := "created"
  startedAt := none
  completedAt := none
  tries := 0
  maxTries := 3
  lastError := none
  deadline := none
  progress := none
  logs := none
  concurrency := none
  queuePolicy := none
  trigger := none
  lineage := none
  waitingOn := none

def lateCancel : JobEvent String :=
  Event.cancelledByAdmin (exportJob.eventMeta "cancelled") 0 .pending none

theorem cancelsCurrent_of_stream_eq (h : s'.stream = s.stream) : CancelsCurrent s s' := by
  intro entry hentry
  rw [h] at hentry
  exact absurd (congrArg List.length hentry) (by simp)

theorem cancelsCurrent_of_publish (h : s'.stream = s.stream ++ [entry])
    (hcancel : entry.2.eventType = .cancelled → ∃ current, s.job = some current ∧
      (entry.2.previousState = some current.state ∨ current.state.isFinal = true)) :
    CancelsCurrent s s' := by
  intro other hother
  obtain rfl := singleton_injective (append_cancel_left (h.symm.trans hother))
  exact hcancel

/-- A step after which no handler is interrupted, and that takes a free message at most. -/
theorem Undisturbed.calm (hstep : Step hostOf s s')
    (hcancels : CancelsCurrent s s' := by exact cancelsCurrent_of_stream_eq rfl)
    (htokens : ∀ w, (s'.workers w).token.isInterrupted = false := by intro w; cases w <;> rfl)
    (honce : DeliversOnce s s' := by
      rintro (_ | w) n h h' <;> first
        | exact absurd h (Option.some_ne_none _)
        | exact absurd h' (Option.some_ne_none n).symm
        | exact fun _ => (Option.some_ne_none n).symm) :
    Undisturbed hostOf s s' := by
  refine ⟨hstep, hcancels, fun w _ _ hinterrupted => ?_, honce⟩
  rw [htokens w] at hinterrupted
  cases hinterrupted

/-! ## Results -/

/-- **An acknowledged delivery of the current run leaves the job terminal**, in every state of a run
in which cancellations are stored in the state they were built from or after the end, nothing falls
between a worker's two looks, and no message is delivered while a worker holds it. -/
theorem settled_of_run {hostOf : Nat → Nat} {s : System Value}
    (h : ReflTransGen (Undisturbed hostOf) System.initial s) : s.Settled := by
  have hinv : Inv s := Run.keeps (P := Inv) (fun _ _ => inv_step) h Inv.initial
  exact fun sequence hacked hrun => (hinv.acked sequence hacked).2 hrun

def timelyCancel : JobEvent String :=
  Event.cancelledByAdmin (exportJob.eventMeta "cancelled") 1 .active none

theorem settled_of_run_timely :
    ∃ s : System String, s.Settled ∧ s.acked = [1] ∧ s.currentRun = some 1 ∧
      s.job.map Job.state = some .cancelled := by
  have hsubmit : ReflTransGen (Undisturbed fun _ => 0) (System.initial : System String) _ :=
    .single (.calm (.submit _ 1 exportInfo "payload" 3 none none none none none (by decide))
      (cancelsCurrent_of_publish rfl nofun))
  have hreceive := hsubmit.tail (.calm
    (.receive _ 0 1 exportCreated exportJob rfl mem_cons_self rfl not_mem_nil))
  have hbegin := hreceive.tail (.calm (.beginWork _ 0 1 exportCreated exportJob exportJob rfl rfl))
  have hacquire := hbegin.tail (.calm (.work _ 0 _ (.acquire 1 exportJob _)))
  have hstart := hacquire.tail (.calm
    (.workPublish _ 0 2 _ _ (by decide) (.start 1 exportJob _ false false "started" rfl))
    (cancelsCurrent_of_publish rfl nofun))
  have hcancel := hstart.tail (.calm
    (.admin _ 3 _ _ (.cancelJob none) "cancelled" timelyCancel (by decide) (prefix_refl _) rfl rfl)
    (cancelsCurrent_of_publish rfl fun _ => ⟨_, rfl, .inl rfl⟩))
  have hdeliver := hcancel.tail (.calm (.deliver _ 0 timelyCancel [] rfl ⟨0, rfl, rfl⟩))
  have hreturn := hdeliver.tail (.calm
    (.work _ 0 _ (.handlerReturn 1 exportJob 1 _ (.ok "result"))))
  have hcheck := hreturn.tail (.calm
    (.work _ 0 _ (.check 1 exportJob 1 _ (.ok "result") rfl rfl)))
  have hcancelled := hcheck.tail (.calm
    (.work _ 0 _ (.cancel 1 exportJob 1 _ (.ok "result") rfl)))
  have hack := hcancelled.tail (.calm (.acknowledge _ 0 1 (.cancelled 1) rfl rfl))
  exact ⟨_, settled_of_run hack, rfl, rfl, rfl⟩

/-- The worker has started the job when the cancellation of the pending job is stored. -/
def startedThenCancelled : List (Nat × JobEvent String) :=
  [(1, exportCreated), (2, startedEvent exportJob "started"), (3, lateCancel)]

theorem unsettled_of_stale_cancel :
    ∃ s : System String, ReflTransGen (Step fun _ => 0) System.initial s ∧
      s.stream = startedThenCancelled ∧ s.acked = [1] ∧ s.currentRun = some 1 ∧
      s.job.map Job.state = some .active ∧ ¬ s.Settled := by
  have hsubmit : ReflTransGen (Step fun _ => 0) (System.initial : System String) _ :=
    .tail .refl (.submit _ 1 exportInfo "payload" 3 none none none none none (by decide))
  have hreceive := hsubmit.tail
    (.receive _ 0 1 exportCreated exportJob rfl mem_cons_self rfl not_mem_nil)
  have hbegin := hreceive.tail (.beginWork _ 0 1 exportCreated exportJob exportJob rfl rfl)
  have hacquire := hbegin.tail (.work _ 0 _ (.acquire 1 exportJob _))
  have hstart := hacquire.tail
    (.workPublish _ 0 2 _ _ (by decide) (.start 1 exportJob _ false false "started" rfl))
  have hcancel := hstart.tail
    (.admin _ 3 [(1, exportCreated)] exportJob (.cancelJob none) "cancelled" lateCancel
      (by decide) ⟨_, rfl⟩ rfl rfl)
  have hdeliver := hcancel.tail (.deliver _ 0 lateCancel [] rfl ⟨0, rfl, rfl⟩)
  have hreturn := hdeliver.tail (.work _ 0 _ (.handlerReturn 1 exportJob 1 _ (.ok "result")))
  have hcheck := hreturn.tail (.work _ 0 _ (.check 1 exportJob 1 _ (.ok "result") rfl rfl))
  have hcancelled := hcheck.tail (.work _ 0 _ (.cancel 1 exportJob 1 _ (.ok "result") rfl))
  have hack := hcancelled.tail (.acknowledge _ 0 1 (.cancelled 1) rfl rfl)
  refine ⟨_, hack, rfl, rfl, rfl, rfl, ?_⟩
  intro hsettled
  obtain ⟨job, hjob, hterminal⟩ := hsettled 1 mem_cons_self rfl
  cases hjob
  cases hterminal

end Jobs
