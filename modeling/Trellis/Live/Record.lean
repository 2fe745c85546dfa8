/-
# The record of a provider session

`ProviderSessionRecord` with what `handle_control` and the end of cleanup write: the phase, the
outstanding challenge, the window ledger, the deadlines, the committed outcome, the receipt of the
last control and the one-shot flags.

Controls are handled under the output lane, other paths are not; a control therefore goes by a
phase it has read earlier, `seen`, which may have been left since.  A control seen before is
answered from its receipt, and nothing is written (`handleControl_replay`).
-/
import Trellis.DataPlane.Flow
import Trellis.Live.Control
import Trellis.Live.Deadlines
import Trellis.Live.Frames

namespace Live.Record

open DataPlane Relation
open Live.Frames (LiveEnd WireTerminal terminalFromEnd providerFailure)

structure ChallengeState where
  challengeId : String
  lastSentSeq : Nat

/-- `CleanupStatus`; a cleanup state other than complete is reported incomplete. -/
inductive CleanupStatus where
  | complete | incomplete
  deriving DecidableEq

structure ControlOutcome where
  state : LiveSessionState
  terminal : Option WireTerminal
  cleanup : Option CleanupStatus
  challenge : Option ChallengeState
  startSource : Bool
  deferCleanup : Bool

/-- The whole `CachedControl`. -/
structure CachedControl extends Live.CachedControl where
  terminal : Option WireTerminal
  cleanup : Option CleanupStatus
  challenge : Option ChallengeState
  deferCleanup : Bool

structure ProviderSessionRecord where
  phase : ProviderPhase
  challenge : Option ChallengeState
  flow : SenderWindow
  deadlines : LiveDeadlines
  terminal : Option LiveEnd
  controlReceipt : Option CachedControl
  cleanupResult : Option CleanupStatus
  sourceStarted : Bool
  finished : Bool

def flowError : FlowError → Frames.LiveErrorCode
  | .payloadTooLarge => .payloadTooLarge
  | .invalidCursor => .invalidCursor
  | .windowFull | .sequenceExhausted | .unavailable => .resourceExhausted

/-- The codes of a control exchange among all codes. -/
def wireCode : Live.LiveErrorCode → Frames.LiveErrorCode
  | .controlGap => .controlGap
  | .controlConflict => .controlConflict
  | .staleControl => .staleControl
  | .invalidChallenge => .invalidChallenge
  | .invalidCursor => .invalidCursor

namespace ProviderSessionRecord

def offered (limits : FlowLimits) (now : Nat) : ProviderSessionRecord where
  phase := .offered
  challenge := none
  flow := .new limits
  deadlines := .reserved now
  terminal := none
  controlReceipt := none
  cleanupResult := none
  sourceStarted := false
  finished := false

variable (r : ProviderSessionRecord)

/-! ## Closing -/

def commitEnd (theEnd : LiveEnd) : ProviderSessionRecord :=
  { r with terminal := some (r.terminal.getD theEnd) }

def committedEnd : LiveEnd := r.terminal.getD (providerFailure .protocolError "session closed")

def beginClose (now : Nat) : ProviderSessionRecord :=
  { r with phase := .closing, deadlines := r.deadlines.beginClosing now }

def fenceAndBeginClose (now : Nat) : ProviderSessionRecord :=
  (r.commitEnd ⟨.cancelled, none⟩).beginClose now

/-- The settled cleanup is also written into the receipt of the last control. -/
def finishClosed (now : Nat) (cleanup : CleanupStatus) : ProviderSessionRecord :=
  if r.finished then r
  else
    { r with
      finished := true
      cleanupResult := some cleanup
      controlReceipt := r.controlReceipt.map fun previous =>
        { previous with cleanup := some cleanup }
      deadlines := r.deadlines.closed now }

/-! ## Controls -/

def applyCredit (received consumed : Nat) : Except Frames.LiveErrorCode ProviderSessionRecord :=
  match r.flow.applyCredit received consumed none with
  | (.error error, _) => .error (flowError error)
  | (.ok (), flow) => .ok { r with flow }

/-- The clocks after a credit, from the consumed cursor before it. -/
def noteCredit (before now : Nat) : ProviderSessionRecord :=
  let deadlines :=
    if before < r.flow.highestConsumed then r.deadlines.noteStallReset now else r.deadlines
  { r with
    deadlines := if r.flow.frames.isEmpty then deadlines.outstandingCleared else deadlines }

def applyCreditAndNote (received consumed now : Nat) :
    Except Frames.LiveErrorCode ProviderSessionRecord := do
  let applied ← r.applyCredit received consumed
  return applied.noteCredit r.flow.highestConsumed now

/-- The round trip that the answer to the outstanding challenge completes. -/
def answered (activating : Bool) (now : Nat) : ProviderSessionRecord :=
  { r with
    deadlines :=
      if activating then r.deadlines.commitActive now true
      else r.deadlines.freshRoundTrip now true
    challenge := none
    phase := if activating then .active else r.phase }

/-- Validate and apply the next control.  On an error the record is what was written so far. -/
def perform (seen : ProviderPhase) (nonce : Option String) (now : Nat) :
    Control → ProviderSessionRecord × Except Frames.LiveErrorCode ControlOutcome
  | .activate =>
    if seen ≠ .offered then (r, .error .staleControl)
    else
      match nonce with
      | none => (r, .error .protocolError)
      | some challengeId =>
        let challenge : ChallengeState := ⟨challengeId, r.flow.highestSent⟩
        ({ r with
            phase := .activating
            challenge := some challenge
            deadlines := r.deadlines.beginActivating now challengeId },
          .ok ⟨.activating, none, none, some challenge, false, false⟩)
  | .pulse _ challengeId received consumed =>
    let activating := decide (seen = .activating)
    match r.flow.validateCredit received consumed none with
    | .error error => (r, .error (flowError error))
    | .ok () =>
      if r.deadlines.outstandingChallenge ≠ some challengeId then (r, .error .invalidChallenge)
      else
        match (r.answered activating now).applyCreditAndNote received consumed now with
        | .error code => (r.answered activating now, .error code)
        | .ok applied =>
          ({ applied with sourceStarted := applied.sourceStarted || activating },
            .ok ⟨.active, none, none, none, activating && !applied.sourceStarted, false⟩)
  | .ack _ received consumed =>
    match r.applyCreditAndNote received consumed now with
    | .error code => (r, .error code)
    | .ok applied => (applied, .ok ⟨applied.phase.state, none, none, none, false, false⟩)
  | .close _ received consumed | .endAck _ _ received consumed =>
    match r.applyCredit received consumed with
    | .error code => (r, .error code)
    | .ok applied =>
      let fenced := applied.fenceAndBeginClose now
      (fenced, .ok ⟨.closed, some (terminalFromEnd fenced.committedEnd), none, none, false, true⟩)

/-- Classify against the receipt; a replay answers with the receipt itself. -/
def cachedControl (seq : Nat) (hash : String) :
    Except Frames.LiveErrorCode (Option CachedControl) :=
  match classifyControl (r.controlReceipt.map (·.toCachedControl)) seq hash with
  | .error code => .error (wireCode code)
  | .ok cached => .ok (cached.bind fun _ => r.controlReceipt)

def storeControlReceipt (seq : Nat) (hash : String) (outcome : ControlOutcome) :
    ProviderSessionRecord :=
  { r with
    controlReceipt := some
      { seq, hash, state := outcome.state, terminal := outcome.terminal
        cleanup := outcome.cleanup, challenge := outcome.challenge
        deferCleanup := outcome.deferCleanup } }

/-- The answer to a replay: a deferred close reports what cleanup has come to. -/
def replayed (cached : CachedControl) : ControlOutcome :=
  let cleanup := if cached.deferCleanup then cached.cleanup.or r.cleanupResult else cached.cleanup
  ⟨cached.state, cached.terminal, cleanup, cached.challenge, false,
    cached.deferCleanup && cleanup.isNone⟩

/-- `handle_control`; `hash` is the logical hash of the control, if it has one. -/
def handleControl (hash : Option String) (seen : ProviderPhase) (nonce : Option String)
    (now : Nat) (control : Control) :
    ProviderSessionRecord × Except Frames.LiveErrorCode ControlOutcome :=
  match hash with
  | none => (r, .error .invalidRequest)
  | some hash =>
    match r.cachedControl control.controlSeq hash with
    | .error code => (r, .error code)
    | .ok (some cached) => (r, .ok (r.replayed cached))
    | .ok none =>
      match r.perform seen nonce now control with
      | (written, .error code) => (written, .error code)
      | (written, .ok outcome) =>
        (written.storeControlReceipt control.controlSeq hash outcome, .ok outcome)

/-! ## Replays -/

/-- One step as far as the receipt goes: a control is committed, cleanup settles, or something else
runs.  The second component is the outcome of the last control committed. -/
inductive Commits : ProviderSessionRecord × Option ControlOutcome →
    ProviderSessionRecord × Option ControlOutcome → Prop
  | control {r r' last outcome hash nonce seen now control}
      (hnext : r.cachedControl control.controlSeq hash = .ok none)
      (hok : r.handleControl (some hash) seen nonce now control = (r', .ok outcome)) :
      Commits (r, last) (r', some outcome)
  | finish (r last now cleanup) : Commits (r, last) (r.finishClosed now cleanup, last)
  | other {r r'} (last) (hreceipt : r'.controlReceipt = r.controlReceipt)
      (hcleanup : r'.cleanupResult = r.cleanupResult) : Commits (r, last) (r', last)

/-- The receipt is that of the outcome, but for the cleanup that has settled since. -/
structure Caches (cached : CachedControl) (settled : Option CleanupStatus)
    (outcome : ControlOutcome) : Prop where
  state : cached.state = outcome.state
  terminal : cached.terminal = outcome.terminal
  challenge : cached.challenge = outcome.challenge
  deferCleanup : cached.deferCleanup = outcome.deferCleanup
  cleanup : cached.cleanup = outcome.cleanup ∨ cached.cleanup = settled

/-- A receipt, when there is one, is that of the last control committed. -/
def Cached (s : ProviderSessionRecord × Option ControlOutcome) : Prop :=
  ∀ cached, s.1.controlReceipt = some cached →
    ∃ outcome, s.2 = some outcome ∧ Caches cached s.1.cleanupResult outcome

theorem Cached.step (hstep : Commits s s') (h : Cached s) : Cached s' := by
  intro cached hcached
  cases hstep with
  | control hnext hok =>
    simp only [handleControl, hnext] at hok
    split at hok
    · cases hok
    cases hok
    cases hcached
    exact ⟨_, rfl, rfl, rfl, rfl, rfl, .inl rfl⟩
  | finish r last now cleanup =>
    unfold finishClosed at hcached ⊢
    split at hcached
    next hfinished =>
      rw [if_pos hfinished]
      exact h cached hcached
    next hfinished =>
      rw [if_neg hfinished]
      obtain ⟨previous, hprevious, rfl⟩ := Option.map_eq_some_iff.mp hcached
      obtain ⟨outcome, hlast, hcaches⟩ := h previous hprevious
      exact ⟨outcome, hlast, hcaches.state, hcaches.terminal, hcaches.challenge,
        hcaches.deferCleanup, .inr rfl⟩
  | other last hreceipt hcleanup =>
    obtain ⟨outcome, hlast, hcaches⟩ := h cached (hreceipt ▸ hcached)
    exact ⟨outcome, hlast, hcleanup ▸ hcaches⟩

/-- What a replay answers, from the outcome its receipt is of. -/
theorem Caches.replayed (h : Caches cached r.cleanupResult original) :
    ∃ cleanup, (cleanup = original.cleanup ∨ cleanup = r.cleanupResult) ∧
      r.replayed cached = { original with
        cleanup, startSource := false
        deferCleanup := original.deferCleanup && cleanup.isNone } := by
  refine ⟨(r.replayed cached).cleanup, ?_, ?_⟩
  · -- a deferred close takes the settled cleanup only when the receipt has none
    have hcleanup := h.cleanup
    unfold ProviderSessionRecord.replayed
    split
    · cases hstatus : cached.cleanup with
      | none => exact .inr rfl
      | some status =>
        rw [hstatus] at hcleanup
        exact hcleanup
    · exact hcleanup
  · simp only [ProviderSessionRecord.replayed, h.state, h.terminal, h.challenge, h.deferCleanup]

/-- **A replayed control is idempotent**: with the number and hash of the receipt it is answered as
the original was, with its cleanup or the one settled since; with another hash it is a conflict.
Neither writes anything. -/
theorem handleControl_replay {limits : FlowLimits} {start : Nat} {r : ProviderSessionRecord}
    {last : Option ControlOutcome}
    (hrun : ReflTransGen Commits (offered limits start, none) (r, last)) {cached : CachedControl}
    (hreceipt : r.controlReceipt = some cached) (control : Control)
    (hseq : control.controlSeq = cached.seq) (hash : String) (seen : ProviderPhase)
    (nonce : Option String) (now : Nat) : ∃ original cleanup, last = some original ∧
      (cleanup = original.cleanup ∨ cleanup = r.cleanupResult) ∧
      r.handleControl (some hash) seen nonce now control = (r, if cached.hash = hash then
            .ok { original with
              cleanup, startSource := false
              deferCleanup := original.deferCleanup && cleanup.isNone }
          else .error .controlConflict) := by
  have hcached : Cached (r, last) := by
    apply Run.keeps (P := Cached) (fun _ _ hstep => Cached.step hstep) hrun
    intro cached hnone
    cases hnone
  obtain ⟨original, hlast, hcaches⟩ := hcached cached hreceipt
  obtain ⟨cleanup, hcleanup, hreplayed⟩ := hcaches.replayed
  refine ⟨original, cleanup, hlast, hcleanup, ?_⟩
  unfold handleControl
  rw [hseq, ← hreplayed]
  simp only [cachedControl, classifyControl, hreceipt, Option.map_some, if_true]
  by_cases hhash : cached.hash = hash
  · simp only [if_pos hhash, Option.bind_some]
  · simp only [if_neg hhash, wireCode]

theorem one_lt : 1 < 2 ^ 64 := by decide

/-- A window of one frame. -/
def single : FlowLimits := ⟨1, 1, 1, one_lt, one_lt, one_lt⟩

/-- An activation that was answered and is sent once more. -/
theorem activation_replayed : ∃ r last, ReflTransGen Commits (offered single 0, none) (r, last) ∧
      (r.controlReceipt.map (·.seq) = some 1) ∧
      r.handleControl (some "a") .activating none 500 .activate =
        (r, .ok ⟨.activating, none, none, some ⟨"n", 0⟩, false, false⟩) := by
  have hrun : ReflTransGen Commits (offered single 0, none)
      (((offered single 0).handleControl (some "a") .offered (some "n") 10 .activate).1,
        some ⟨.activating, none, none, some ⟨"n", 0⟩, false, false⟩) :=
    .single (@Commits.control _ _ none _ "a" (some "n") .offered 10 .activate rfl rfl)
  obtain ⟨original, cleanup, hlast, hcleanup, hanswer⟩ :=
    handleControl_replay hrun rfl .activate rfl "a" .activating none 500
  cases hlast
  have hnone : cleanup = none := hcleanup.elim id id
  cases hnone
  exact ⟨_, _, hrun, rfl, hanswer⟩

end ProviderSessionRecord

end Live.Record
