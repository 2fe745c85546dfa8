/-
# Draining a Live subscription

After a normal END with frames still queued, the consumer's pump waits for the application
to take them, under the stall clock of its deadlines.  The pump waits for `end_notify`,
which only `commit_end` signals; a frame that is handed over signals `credit_notify`, so the
clock runs from END however the application progresses (`slow_while_consuming`).

The verdict is right in the runs where the timer does not fire within the stall interval after
a frame that was handed over since END (`slow_only_if_stalled`).
-/
import Trellis.Live.Deadlines

namespace Live.Draining

/-- A queued frame; a filtered one only keeps its place in the sequence. -/
inductive Slot where
  | value | filtered
  deriving DecidableEq

/-- `LiveEnd`, as far as a drain commits one. -/
inductive End where
  | complete | cancelled | consumerSlow
  deriving DecidableEq

/-- The clock, the core, the pump's deadlines and the cursor it last noted, with the instants of the
committed end and of every hand-over. -/
structure Drain where
  now : Nat
  queue : List Slot
  consumedSeq : Nat
  pendingEnd : Bool
  ended : Option (End × Nat)
  deadlines : LiveDeadlines
  lastCreditSent : Nat
  handoffs : List Nat

/-- Time passes, the application polls and looks whether the drain is complete, or the pump wakes up
by cancellation, by its timer or by `end_notify`. -/
inductive Act where
  | elapse (ms : Nat)
  | poll
  | drainComplete
  | cancelled
  | timer
  | endNotified

namespace Drain

/-- The pump on a complete END at `now`: nothing before it has run the stall clock. -/
def begun (deadlines : LiveDeadlines) (now : Nat) (queue : List Slot) (consumedSeq : Nat)
    (lastCreditSent : Nat) (handoffs : List Nat) : Drain where
  now
  queue
  consumedSeq
  pendingEnd := true
  ended := none
  deadlines := deadlines.beginDraining.dataAdmitted now
  lastCreditSent
  handoffs

variable (s : Drain)

def commitEnd (theEnd : End) : Drain := { s with ended := some (s.ended.getD (theEnd, s.now)) }

/-- Take the next value, with the filtered frames before and behind it. -/
def consume : Drain :=
  match s.queue.dropWhile (· = .filtered) with
  | [] => { s with queue := [], consumedSeq := s.consumedSeq + s.queue.length }
  | _ :: rest =>
    let queue := rest.dropWhile (· = .filtered)
    { s with
      queue
      consumedSeq := s.consumedSeq + (s.queue.length - queue.length)
      handoffs := s.now :: s.handoffs }

def drainComplete : Drain :=
  if s.queue = [] ∧ s.pendingEnd then { s with pendingEnd := false }.commitEnd .complete else s

def discardQueue : Drain := { s with queue := [] }

def step : Act → Drain
  | .elapse ms => { s with now := s.now + ms }
  | .poll => if s.ended = none then s.consume else s
  | .drainComplete => s.drainComplete
  | .cancelled => s.discardQueue.commitEnd .cancelled
  | .timer =>
    if s.deadlines.evaluate s.now = some .consumerStalled then
      s.discardQueue.commitEnd .consumerSlow
    else s
  | .endNotified =>
    -- only `commit_end` notifies
    if s.ended ≠ none ∧ s.consumedSeq > s.lastCreditSent then
      { s with
        deadlines := s.deadlines.noteConsumption s.now (s.consumedSeq - s.lastCreditSent)
        lastCreditSent := s.consumedSeq }
    else s

/-- The timer does not fire within a stall of a frame that was handed over since END. -/
def Punctual (start : Nat) (s : Drain) : Act → Prop
  | .timer => s.deadlines.evaluate s.now = some .consumerStalled →
      ∀ h ∈ s.handoffs, start < h → h + consumerStallMs ≤ s.now
  | _ => True

/-- The stall clock runs from END, and a consumer found slow has stalled. -/
structure Quiet (start : Nat) (s : Drain) : Prop where
  phase : s.deadlines.phase = .draining
  since : s.deadlines.unconsumedSince = some start
  slow : ∀ t, s.ended = some (.consumerSlow, t) → ∀ h ∈ s.handoffs, h + consumerStallMs ≤ t

variable {s}

/-- The timer fires no earlier than a stall after END. -/
theorem Quiet.stalled (h : Quiet start s)
    (heval : s.deadlines.evaluate s.now = some .consumerStalled) :
    start + consumerStallMs ≤ s.now := by
  simp only [LiveDeadlines.evaluate, h.phase] at heval
  split at heval
  next helapsed =>
    obtain ⟨due, hdue, hle⟩ := LiveDeadlines.elapsed_iff.mp helapsed
    simp only [LiveDeadlines.consumptionDeadline, h.since] at hdue
    cases hdue
    have hlast : start ≤ s.deadlines.lastConsumptionAt.elim start (max start) := by
      cases s.deadlines.lastConsumptionAt with
      | none => exact le_rfl
      | some last => exact le_max_left _ _
    omega
  · cases heval

/-- Committing another end than `ConsumerSlow` is always right. -/
theorem Quiet.commitEnd (h : Quiet start s) (hslow : theEnd = .consumerSlow → s.ended = none →
      ∀ h ∈ s.handoffs, h + consumerStallMs ≤ s.now) : Quiet start (s.commitEnd theEnd) := by
  refine ⟨h.phase, h.since, fun t ht => ?_⟩
  cases hended : s.ended with
  | none =>
    simp only [Drain.commitEnd, hended, Option.getD_none, Option.some.injEq, Prod.mk.injEq] at ht
    exact ht.2 ▸ hslow ht.1 hended
  | some committed =>
    simp only [Drain.commitEnd, hended, Option.getD_some] at ht
    exact h.slow t (hended.trans ht)

theorem Quiet.step (h : Quiet start s) (hpunctual : s.Punctual start act) :
    Quiet start (s.step act) := by
  have hdiscarded : Quiet start s.discardQueue := ⟨h.phase, h.since, h.slow⟩
  cases act with
  | elapse ms => exact ⟨h.phase, h.since, h.slow⟩
  | poll =>
    simp only [Drain.step]
    split
    next hended =>
      -- nothing is committed yet
      unfold consume
      split <;> exact ⟨h.phase, h.since, fun t ht => by cases hended.symm.trans ht⟩
    · exact h
  | drainComplete =>
    simp only [Drain.step, Drain.drainComplete]
    split
    · have hpend : Quiet start { s with pendingEnd := false } := ⟨h.phase, h.since, h.slow⟩
      exact hpend.commitEnd nofun
    · exact h
  | cancelled => exact hdiscarded.commitEnd nofun
  | timer =>
    simp only [Drain.step]
    split
    next heval =>
      have hstalled := h.stalled heval
      refine hdiscarded.commitEnd fun _ _ handed hhanded => ?_
      show handed + consumerStallMs ≤ s.now
      rcases Nat.lt_or_ge start handed with hsince | hbefore
      · exact hpunctual heval handed hhanded hsince
      · omega
    · exact h
  | endNotified =>
    simp only [Drain.step]
    split
    · exact ⟨h.phase, h.since, h.slow⟩
    · exact h

end Drain

end Live.Draining
