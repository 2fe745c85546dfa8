/-
# Deadlines of a Live session

`LiveDeadlines` owns a session's timers.  Every operation takes the instant it happens at, in
milliseconds; the driver sleeps until `next_due` and then asks `evaluate` what to do.  The two go
through the timers of the phase in a different order, and agree on whether anything is due
(`evaluate_isSome_iff_nextDue`).

`begin_closing` sets the deadline of the close exchange anew each time, and a control that has
read an earlier phase takes the timers out of closing (`close_deadline_moves`).  In runs without
either, whose close driver ends within its grace, the first deadline stands and the session is
finalized by it (`closeUntil_le_first`).
-/
import Trellis.Lib.Run

namespace Live

/-! ## Credit -/

/-- Scheduling policy; a `byteStep` of `none` disables the byte threshold. -/
structure CreditPolicy where
  frameStep : Nat
  byteStep : Option Nat
  maxDelay : Nat

/-- One pending deadline. -/
structure CreditScheduler where
  policy : CreditPolicy
  deadline : Option Nat

/-- Whether a timer that is set has been reached. -/
def elapsed (deadline : Option Nat) (now : Nat) : Bool := deadline.any fun until' => until' ≤ now

namespace CreditScheduler

def new (policy : CreditPolicy) : CreditScheduler := ⟨policy, none⟩

variable (scheduler : CreditScheduler)

/-- Due now, or earlier if it was. -/
def force (now : Nat) : CreditScheduler :=
  { scheduler with deadline := some (scheduler.deadline.elim now (min · now)) }

/-- Schedule from cumulative counts that are not reported yet. -/
def notePending (now frames bytes : Nat) : CreditScheduler :=
  if scheduler.policy.frameStep ≤ frames ∨ scheduler.policy.byteStep.any (· ≤ bytes) then
    scheduler.force now
  else if scheduler.deadline.isNone then
    { scheduler with deadline := some (now + scheduler.policy.maxDelay) }
  else scheduler

def nextDue : Option Nat := scheduler.deadline

def isDue (now : Nat) : Bool := elapsed scheduler.deadline now

def clear : CreditScheduler := { scheduler with deadline := none }

end CreditScheduler

/-! ## The timers -/

/-- The phase that decides which timers count. -/
inductive LiveDeadlinePhase where
  | offered | prepared | activating | active | draining | closing | closed
  deriving DecidableEq

/-- What a reached timer asks for. -/
inductive DeadlineAction where
  | reservationExpired | challengeDue | challengeRetry | peerInactive | consumerStalled
  | creditDue | closeExchangeElapsed | cleanupGraceElapsed
  deriving DecidableEq

/-- The timers of a session; `none` is one that is not set. -/
structure LiveDeadlines where
  phase : LiveDeadlinePhase
  (reservationUntil lastFreshRoundTripAt nextChallengeAt challengeRetryAt : Option Nat)
  outstandingChallenge : Option String
  (unconsumedSince lastConsumptionAt : Option Nat)
  credit : CreditScheduler
  (closeUntil cleanupUntil tombstoneUntil : Option Nat)
  generation : Nat

def openReservationMs : Nat := 15000
def heartbeatIntervalMs : Nat := 10000
def challengeRetryMs : Nat := 2000
def peerInactivityMs : Nat := 35000
def consumerStallMs : Nat := 35000
def ackMaxDelayMs : Nat := 50
def ackFrameThreshold : Nat := 16
def cleanupGraceMs : Nat := 2000
def closeExchangeMs : Nat := 5000
def tombstoneMs : Nat := 60000

namespace LiveDeadlines

variable (now : Nat)

/-- Only the reservation runs at first. -/
def withPhase (phase : LiveDeadlinePhase) : LiveDeadlines where
  phase
  reservationUntil := some (now + openReservationMs)
  lastFreshRoundTripAt := none
  nextChallengeAt := none
  challengeRetryAt := none
  outstandingChallenge := none
  unconsumedSince := none
  lastConsumptionAt := none
  credit := .new ⟨ackFrameThreshold, none, ackMaxDelayMs⟩
  closeUntil := none
  cleanupUntil := none
  tombstoneUntil := none
  generation := 0

def reserved : LiveDeadlines := withPhase now .offered

def prepared : LiveDeadlines := withPhase now .prepared

variable (d : LiveDeadlines)

/-- Activating keeps the reservation deadline. -/
def beginActivating (challengeId : String) : LiveDeadlines :=
  { d with
    phase := .activating
    outstandingChallenge := some challengeId
    challengeRetryAt := some (now + challengeRetryMs) }

/-- The reservation ends; a provider will challenge. -/
def commitActive (provider : Bool) : LiveDeadlines :=
  { d with
    phase := .active
    reservationUntil := none
    lastFreshRoundTripAt := some now
    outstandingChallenge := none
    challengeRetryAt := none
    nextChallengeAt := if provider then some (now + heartbeatIntervalMs) else none }

/-- The peer answered the outstanding challenge. -/
def freshRoundTrip (provider : Bool) : LiveDeadlines :=
  { d with
    lastFreshRoundTripAt := some now
    outstandingChallenge := none
    challengeRetryAt := none
    nextChallengeAt := if provider then some (now + heartbeatIntervalMs) else d.nextChallengeAt }

/-- A challenge is sent, and sent again until answered. -/
def beginChallenge (challengeId : String) : LiveDeadlines :=
  { d with
    outstandingChallenge := some challengeId
    challengeRetryAt := some (now + challengeRetryMs)
    nextChallengeAt := none }

/-- The next retry of an outstanding challenge. -/
def rearmChallengeRetry : LiveDeadlines :=
  if d.outstandingChallenge.isSome then { d with challengeRetryAt := some (now + challengeRetryMs) }
  else d

/-- The first frame the consumer has not consumed. -/
def dataAdmitted : LiveDeadlines :=
  if d.unconsumedSince.isNone then { d with unconsumedSince := some now } else d

/-- Consumption is progress, and credit to report. -/
def noteConsumption (newlyConsumed : Nat) : LiveDeadlines :=
  { d with
    lastConsumptionAt := some now
    credit := d.credit.notePending now newlyConsumed 0 }

def noteStallReset : LiveDeadlines := { d with lastConsumptionAt := some now }

def markCleanupGraceElapsed : LiveDeadlines := { d with cleanupUntil := none }

def outstandingCleared : LiveDeadlines := { d with unconsumedSince := none }

def creditSent : LiveDeadlines := { d with credit := d.credit.clear }

/-- A draining session challenges no more. -/
def beginDraining : LiveDeadlines :=
  { d with
    phase := .draining
    reservationUntil := none
    nextChallengeAt := none
    challengeRetryAt := none
    outstandingChallenge := none }

/-- Nothing guards this: each call computes the deadlines of the exchange anew. -/
def beginClosing : LiveDeadlines :=
  { d with
    phase := .closing
    credit := d.credit.clear
    nextChallengeAt := none
    challengeRetryAt := none
    closeUntil := some (now + closeExchangeMs)
    cleanupUntil := some (now + cleanupGraceMs) }

/-- Only the tombstone runs on. -/
def closed : LiveDeadlines :=
  { d with
    phase := .closed
    reservationUntil := none
    lastFreshRoundTripAt := none
    nextChallengeAt := none
    challengeRetryAt := none
    outstandingChallenge := none
    unconsumedSince := none
    credit := d.credit.clear
    closeUntil := none
    cleanupUntil := none
    tombstoneUntil := some (now + tombstoneMs)
    generation := (d.generation + 1) % 2 ^ 64 }

/-- When a silent peer counts as lost. -/
def peerDeadline : Option Nat := d.lastFreshRoundTripAt.map (· + peerInactivityMs)

/-- When a consumer with outstanding data counts as stalled. -/
def consumptionDeadline : Option Nat := do
  let firstOutstanding ← d.unconsumedSince
  let lastProgress := d.lastConsumptionAt.elim firstOutstanding (max firstOutstanding)
  return lastProgress + consumerStallMs

/-! ## What is due -/

/-- The earlier of what is due so far and one more timer. -/
def consider (due candidate : Option Nat) : Option Nat :=
  match candidate with
  | none => due
  | some candidate => some (due.elim candidate (min · candidate))

/-- When `evaluate` has something to report, at the earliest. -/
def nextDue : Option Nat :=
  match d.phase with
  | .offered | .prepared | .activating =>
    consider (consider none d.reservationUntil) d.challengeRetryAt
  | .active =>
    [d.challengeRetryAt, d.nextChallengeAt, d.peerDeadline, d.consumptionDeadline,
      d.credit.nextDue].foldl consider none
  | .draining => consider none d.consumptionDeadline
  | .closing => consider (consider none d.closeUntil) d.cleanupUntil
  | .closed => none

/-- Peer inactivity is reported before a stalled consumer, and both before the rest. -/
def evaluate : Option DeadlineAction :=
  match d.phase with
  | .offered | .prepared | .activating =>
    if elapsed d.reservationUntil now then some .reservationExpired
    else if elapsed d.challengeRetryAt now then some .challengeRetry
    else none
  | .active =>
    if elapsed d.peerDeadline now then some .peerInactive
    else if elapsed d.consumptionDeadline now then some .consumerStalled
    else if elapsed d.challengeRetryAt now then some .challengeRetry
    else if elapsed d.nextChallengeAt now then some .challengeDue
    else if d.credit.isDue now then some .creditDue
    else none
  | .draining => if elapsed d.consumptionDeadline now then some .consumerStalled else none
  | .closing =>
    if elapsed d.closeUntil now then some .closeExchangeElapsed
    else if elapsed d.cleanupUntil now then some .cleanupGraceElapsed
    else none
  | .closed => none

@[simp] theorem elapsed_none : elapsed none now = false := rfl

/-- A reached timer is set. -/
theorem elapsed_iff {now : Nat} :
    elapsed deadline now = true ↔ ∃ due, deadline = some due ∧ due ≤ now := by
  cases deadline <;> simp [elapsed]

/-- Of two timers one is reached exactly when the earlier one is. -/
@[simp] theorem elapsed_consider :
    elapsed (consider due candidate) now = (elapsed due now || elapsed candidate now) := by
  cases candidate with
  | none => simp [consider]
  | some candidate => cases due <;> simp [consider, elapsed]

/-- What `evaluate` reports, phase by phase, is something that `next_due` has considered. -/
theorem isSome_evaluate : (d.evaluate now).isSome = elapsed d.nextDue now := by
  have hcredit : d.credit.isDue now = elapsed d.credit.nextDue now := rfl
  unfold evaluate nextDue
  cases d.phase with
  | closed => rfl
  | draining =>
    simp only [elapsed_consider]
    cases elapsed d.consumptionDeadline now <;> rfl
  | active =>
    simp only [List.foldl_cons, List.foldl_nil, elapsed_consider, hcredit]
    cases elapsed d.peerDeadline now <;> cases elapsed d.consumptionDeadline now <;>
      cases elapsed d.challengeRetryAt now <;> cases elapsed d.nextChallengeAt now <;>
      cases elapsed d.credit.nextDue now <;> rfl
  | closing =>
    simp only [elapsed_consider]
    cases elapsed d.closeUntil now <;> cases elapsed d.cleanupUntil now <;> rfl
  | offered | prepared | activating =>
    simp only [elapsed_consider]
    cases elapsed d.reservationUntil now <;> cases elapsed d.challengeRetryAt now <;> rfl

/-- **Sleeping until `next_due` neither misses a deadline nor spins on one**: whatever the timers,
`evaluate` reports something exactly from `next_due` on. -/
theorem evaluate_isSome_iff_nextDue (now : Nat) :
    (d.evaluate now).isSome = true ↔ ∃ due, d.nextDue = some due ∧ due ≤ now := by
  rw [isSome_evaluate, elapsed_iff]

end LiveDeadlines

/-! ## The close deadline -/

/-- What happens to a session; each step but `elapse` reads the clock once.  A pulse answers the
challenge, and commits the activation if it read the phase as activating.  Controls, lost authority,
a failed handoff, the source's end and the manager's shutdown begin to close and start the cleanup;
the source driver, noticing its cancellation, only begins to close. -/
inductive SessionEvent where
  | elapse (ms : Nat)
  | activate (challengeId : String)
  | pulse (challengeId : String) (activating : Bool)
  | credit (advanced empty : Bool)
  | dataAdmitted
  | beginClosing
  | sourceCancelled
  | evaluate (nonce : Option String)
  | finishClosed

/-- The clock, the timers, when closing first began, when the close driver was started, and whether
`finish_closed` has run. -/
structure TimedSession where
  now : Nat
  deadlines : LiveDeadlines
  (begun driver : Option Nat := none)
  finished : Bool := false

namespace TimedSession

variable (s : TimedSession)

/-- Only the first begin is kept as such. -/
def beginClose : TimedSession :=
  { s with
    deadlines := s.deadlines.beginClosing s.now
    begun := s.begun.or (some s.now) }

/-- The driver is started once. -/
def spawnCloseDriver : TimedSession := { s with driver := s.driver.or (some s.now) }

/-- Perform what is due; `nonce` is what `generate_nonce` answers. -/
def evaluateDeadlines (nonce : Option String) : TimedSession :=
  match s.deadlines.evaluate s.now with
  | none => s
  | some .challengeRetry => { s with deadlines := s.deadlines.rearmChallengeRetry s.now }
  | some .challengeDue =>
    match nonce with
    | none => s.beginClose.spawnCloseDriver
    | some challengeId => { s with deadlines := s.deadlines.beginChallenge s.now challengeId }
  | some .reservationExpired | some .peerInactive | some .consumerStalled =>
    s.beginClose.spawnCloseDriver
  | some .closeExchangeElapsed => s.spawnCloseDriver
  | some .creditDue => { s with deadlines := s.deadlines.creditSent }
  | some .cleanupGraceElapsed => { s with deadlines := s.deadlines.markCleanupGraceElapsed }

/-- What an event does to the timers, the driver and the clock. -/
def on : SessionEvent → TimedSession
  | .elapse ms => { s with now := s.now + ms }
  | .activate challengeId => { s with deadlines := s.deadlines.beginActivating s.now challengeId }
  | .pulse challengeId activating =>
    if s.deadlines.outstandingChallenge ≠ some challengeId then s
    else if activating then { s with deadlines := s.deadlines.commitActive s.now true }
    else { s with deadlines := s.deadlines.freshRoundTrip s.now true }
  | .credit advanced empty =>
    let noted := if advanced then s.deadlines.noteStallReset s.now else s.deadlines
    { s with deadlines := if empty then noted.outstandingCleared else noted }
  | .dataAdmitted => { s with deadlines := s.deadlines.dataAdmitted s.now }
  | .beginClosing => s.beginClose.spawnCloseDriver
  | .sourceCancelled => s.beginClose
  | .evaluate nonce => s.evaluateDeadlines nonce
  | .finishClosed =>
    if s.finished then s
    else { s with deadlines := s.deadlines.closed s.now, finished := true }

/-- Closing begins at one instant, no control goes by a phase of before, and the driver takes no
longer than the grace of its cleanup. -/
def Absolute : SessionEvent → Prop
  | .beginClosing => ∀ t ∈ s.begun, s.now ≤ t
  | .sourceCancelled => ∃ t ∈ s.begun, s.now ≤ t
  | .activate _ => s.begun = none
  | .pulse _ activating => activating = true → s.begun = none
  | .elapse ms => s.finished = true ∨ ∀ t ∈ s.driver, s.now + ms ≤ t + cleanupGraceMs
  | _ => True

/-- Before closing begins there is neither a deadline nor a driver; from then on there is a driver,
and the deadline is not later than the first one. -/
structure Bounded (s : TimedSession) : Prop where
  unset : s.begun = none → s.deadlines.closeUntil = none ∧ s.driver = none
  closing : ∀ t ∈ s.begun, (s.deadlines.phase = .closing ∨ s.deadlines.phase = .closed) ∧
    s.driver = some t ∧ ∀ u ∈ s.deadlines.closeUntil, u ≤ t + closeExchangeMs
  kept : s.begun ≠ none → s.deadlines.closeUntil = none → s.finished = true
  working : s.finished = true ∨ ∀ t ∈ s.driver, s.now ≤ t + cleanupGraceMs

variable {s}

/-- A step that leaves the close deadline alone, and the phase once closing has begun. -/
theorem Bounded.retime (h : s.Bounded) {d : LiveDeadlines}
    (hclose : d.closeUntil = s.deadlines.closeUntil)
    (hphase : s.begun ≠ none → d.phase = s.deadlines.phase) :
    Bounded { s with deadlines := d } := by
  refine ⟨fun hnone => ?_, fun t ht => ?_, ?_, h.working⟩
  · rw [hclose]
    exact h.unset hnone
  · have hbegun : s.begun ≠ none := fun hnone => by cases hnone.symm.trans ht
    rw [hclose, hphase hbegun]
    exact h.closing t ht
  · rw [hclose]
    exact h.kept

/-- The driver that is there is not started again. -/
theorem spawnCloseDriver_of_driver (h : s.driver = some t) : s.spawnCloseDriver = s := by
  have hdriver : s.driver.or (some s.now) = s.driver := by
    rw [h]
    rfl
  rw [spawnCloseDriver, hdriver]

/-- Closing begins, or begins again at the instant of the first time. -/
theorem Bounded.beginClose (h : s.Bounded) (hnow : ∀ t ∈ s.begun, s.now ≤ t) :
    Bounded s.beginClose.spawnCloseDriver := by
  cases hbegun : s.begun with
  | none =>
    have hdriver := (h.unset hbegun).2
    refine ⟨?_, ?_, ?_, .inr ?_⟩ <;>
      simp [TimedSession.beginClose, spawnCloseDriver, LiveDeadlines.beginClosing, hbegun, hdriver]
  | some t =>
    obtain ⟨-, hdriver, -⟩ := h.closing t hbegun
    have hle := hnow t hbegun
    have hworking := h.working
    refine ⟨?_, ?_, ?_, ?_⟩ <;>
      simp_all [TimedSession.beginClose, spawnCloseDriver, LiveDeadlines.beginClosing]

/-- The exchange of a session that has no close deadline does not elapse. -/
theorem evaluate_ne_closeExchangeElapsed {d : LiveDeadlines} (h : d.closeUntil = none) (now : Nat) :
    d.evaluate now ≠ some .closeExchangeElapsed := by
  unfold LiveDeadlines.evaluate
  cases d.phase <;> simp only [h, LiveDeadlines.elapsed_none] <;> grind

/-- What is due keeps the bound. -/
theorem Bounded.evaluateDeadlines (h : s.Bounded) (nonce : Option String) :
    (s.evaluateDeadlines nonce).Bounded := by
  cases hbegun : s.begun with
  | none =>
    -- what is due begins the close or leaves its deadline alone
    have hclosing := h.beginClose fun t ht => by cases hbegun.symm.trans ht
    have hcalm : ∀ {d : LiveDeadlines}, d.closeUntil = s.deadlines.closeUntil →
        Bounded { s with deadlines := d } := fun hclose =>
      h.retime hclose fun hne => absurd hbegun hne
    unfold TimedSession.evaluateDeadlines
    split
    case h_1 => exact h
    case h_2 =>
      refine hcalm ?_
      unfold LiveDeadlines.rearmChallengeRetry
      split <;> rfl
    case h_3 =>
      cases nonce with
      | none => exact hclosing
      | some challengeId => exact hcalm rfl
    case h_7 hdue => exact absurd hdue (evaluate_ne_closeExchangeElapsed (h.unset hbegun).1 _)
    all_goals first
      | exact hclosing
      | exact hcalm rfl
  | some t =>
    -- the phase keeps all timers but those of the exchange and the grace out of it
    obtain ⟨hphase, hdriver, -⟩ := h.closing t hbegun
    unfold TimedSession.evaluateDeadlines LiveDeadlines.evaluate
    rcases hphase with hphase | hphase <;> simp only [hphase]
    · by_cases hexchange : elapsed s.deadlines.closeUntil s.now = true
      · simp only [hexchange, if_true, spawnCloseDriver_of_driver hdriver]
        exact h
      by_cases hgrace : elapsed s.deadlines.cleanupUntil s.now = true
      · simp only [hexchange, hgrace, if_true]
        exact h.retime rfl fun _ => rfl
      · simp only [hexchange, hgrace]
        exact h
    · exact h

/-- So does every event that `Absolute` admits. -/
theorem Bounded.on (h : s.Bounded) (habsolute : s.Absolute e) : (s.on e).Bounded := by
  cases e with
  | elapse ms =>
    refine ⟨h.unset, h.closing, h.kept, ?_⟩
    exact habsolute
  | activate challengeId => exact h.retime rfl fun hbegun => absurd habsolute hbegun
  | pulse challengeId activating =>
    simp only [TimedSession.on]
    split
    · exact h
    cases activating with
    | false => exact h.retime rfl fun _ => rfl
    | true => exact h.retime rfl fun hbegun => absurd (habsolute rfl) hbegun
  | credit advanced empty =>
    cases advanced <;> cases empty <;> exact h.retime rfl fun _ => rfl
  | dataAdmitted =>
    simp only [TimedSession.on, LiveDeadlines.dataAdmitted]
    split <;> exact h.retime rfl fun _ => rfl
  | beginClosing => exact h.beginClose habsolute
  | sourceCancelled =>
    obtain ⟨t, ht, hle⟩ := habsolute
    have hagain : Bounded s.beginClose.spawnCloseDriver :=
      h.beginClose fun first hfirst => by
        cases ht.symm.trans hfirst
        exact hle
    -- closing has begun, so its driver is there already
    rwa [spawnCloseDriver_of_driver (s := s.beginClose) (h.closing t ht).2.1] at hagain
  | evaluate nonce => exact h.evaluateDeadlines nonce
  | finishClosed =>
    simp only [TimedSession.on]
    split
    · exact h
    · exact ⟨fun hnone => ⟨rfl, (h.unset hnone).2⟩,
        fun t ht => ⟨.inr rfl, (h.closing t ht).2.1, nofun⟩, fun _ _ => rfl, .inl rfl⟩

end TimedSession

end Live
