/-
# Closing a Live session

The provider side of one session with everything that may close it: controls, which are handled
under the output lane, and the timer, authority loss, a failed handoff, shutdown and the source
driver, which take no lane and may run between a control's read of the phase and what it then
does.

* `Session.step` is one step of any of these;
* `Orderly` keeps a session closed once `begin_close` has run: closing withdraws neither the
  outstanding challenge nor a receipt that says active;
* `Unrivalled` keeps the END frame and the committed outcome the same: the source driver publishes
  before it commits.
-/
import Trellis.Live.Control
import Trellis.Live.Frames

namespace Live.Closing

open Relation

open Live.Frames (LiveEnd WireTerminal terminalFromEnd providerFailure sourceFailureEnd)

/-! ## Controls under the lane -/

/-- Whether a control runs `fence_and_begin_close`. -/
def closes : Control → Bool
  | .close .. | .endAck .. => true
  | .activate | .pulse .. | .ack .. => false

/-! ## The session -/

/-- Where `drive_source` is.  It is `published` from the END frame to its own commit. -/
inductive Source where
  | idle
  | running
  | ending (theEnd : LiveEnd)
  | published (theEnd : LiveEnd)
  | settled
  deriving DecidableEq

/-- A session: the control being handled with the phase it has read, a challenge decided on, the
committed outcome, the source driver and the one-shot flags; and the record of whether `begin_close`
has run, of the states answered since, of the END frames and of the outcomes receipts were written
from. -/
structure Session where
  provider : Provider
  handling : Option (Control × ProviderPhase)
  challengeDue : Bool
  terminal : Option LiveEnd
  source : Source
  (endSent finished begun : Bool)
  answers : List LiveSessionState
  ends : List WireTerminal
  receipts : List LiveEnd

/-- What runs next. -/
inductive Act where
  | start (control : Control)
  | finish (nonce : String)
  | challengeDue
  | challenge (nonce : String)
  | commitEnd (theEnd : LiveEnd)
  | beginClose
  | sourceStarts
  | sends
  | sourceEnds (failure : Option String)
  | publishEnd (delivered : Bool)
  | sourceCommits
  | sourceStops
  | finishClosed

namespace Session

/-- An offered session. -/
def offered : Session :=
  ⟨.offered, none, false, none, .idle, false, false, false, [], [], []⟩

variable (s : Session)

/-- `commit_end`: the first outcome stays. -/
def commitEnd (theEnd : LiveEnd) : Session :=
  { s with terminal := some (s.terminal.getD theEnd) }

/-- `committed_end`. -/
def committedEnd : LiveEnd :=
  s.terminal.getD (providerFailure .protocolError "session closed")

/-- `begin_close`. -/
def beginClose : Session :=
  { s with provider := { s.provider with phase := .closing }, begun := true }

/-- Write a receipt from the committed outcome. -/
def record : Session := { s with receipts := s.committedEnd :: s.receipts }

/-- Answer a control with a state. -/
def reply (state : LiveSessionState) : Session :=
  { s with answers := if s.begun then state :: s.answers else s.answers }

/-- What the outcome of a control does to the session. -/
def settle (control : Control) : Provider.Outcome → Session
  | .refused _ | .invalid _ => s
  | .replayed state => s.reply state
  | .committed provider state =>
    let s := { s with provider := provider }
    if closes control then ((s.commitEnd ⟨.cancelled, none⟩).beginClose.record).reply state
    else s.reply state

/-- One step.  Controls, DATA and the END frame hold the output lane, the others do not. -/
def step (hash : Control → String) (s : Session) : Act → Option Session
  | .start control =>
    if s.handling = none then some { s with handling := some (control, s.provider.phase) }
    else none
  | .finish nonce =>
    match s.handling with
    | none => none
    | some (control, seen) =>
      some ({ s with handling := none }.settle control
        (s.provider.handleControl hash seen nonce control))
  | .challengeDue =>
    if s.provider.phase = .active then some { s with challengeDue := true } else none
  | .challenge nonce =>
    if s.challengeDue then
      some { s with
        challengeDue := false
        provider := { s.provider with outstandingChallenge := some nonce } }
    else none
  | .commitEnd theEnd => some (s.commitEnd theEnd)
  | .beginClose => some s.beginClose
  | .sourceStarts =>
    if s.source = .idle ∧ s.provider.phase = .active then some { s with source := .running }
    else none
  | .sends =>
    if s.source = .running ∧ s.handling = none ∧ s.provider.phase = .active then
      some { s with provider := { s.provider with highestSent := s.provider.highestSent + 1 } }
    else none
  | .sourceEnds failure =>
    if s.source = .running then
      some { s with source := .ending ((failure.map sourceFailureEnd).getD .complete) }
    else none
  | .publishEnd delivered =>
    match s.source with
    | .ending theEnd =>
      if s.handling = none then
        some { s with
          source := .published theEnd
          endSent := true
          ends := if delivered && !s.endSent then terminalFromEnd theEnd :: s.ends else s.ends }
      else none
    | _ => none
  | .sourceCommits =>
    match s.source with
    | .published theEnd => some { s.commitEnd theEnd with source := .settled }
    | _ => none
  | .sourceStops =>
    match s.source with
    | .running | .ending _ => some { s with source := .settled }
    | _ => none
  | .finishClosed =>
    if s.begun && !s.finished then
      some { s.record with
        finished := true
        provider := { s.provider with outstandingChallenge := none } }
    else none

/-- One step that meets a condition. -/
def Step (hash : Control → String) (allowed : (Control → String) → Session → Act → Prop)
    (s s' : Session) : Prop :=
  ∃ act, allowed hash s act ∧ s.step hash act = some s'

end Session

open Session

variable {hash : Control → String} {s : Session} {control : Control} {p : Provider}

/-! ## Staying closed -/

/-- No other path begins the close while a control that does not close is handled; and once it has
begun, no receipt but a closed one is replayed and no pulse answers the challenge. -/
def Orderly (hash : Control → String) (s : Session) : Act → Prop
  | .beginClose => ∀ handled ∈ s.handling, closes handled.1 = true
  | .finish _ => s.begun = true → ∀ handled ∈ s.handling,
      (∀ cached, classifyControl s.provider.receipt handled.1.controlSeq (hash handled.1)
        = .ok (some cached) → cached.state = .closed) ∧
      ∀ seq challengeId received consumed, handled.1 = .pulse seq challengeId received consumed →
        s.provider.outstandingChallenge ≠ some challengeId
  | _ => True

theorem applyCredit_phase (h : p.applyCredit received consumed = .ok p') : p'.phase = p.phase := by
  unfold Provider.applyCredit at h
  split at h
  · exact Except.ok.inj h ▸ rfl
  · cases h

/-- A control that closes leaves the session closing. -/
theorem apply_of_closes (h : p.apply seen nonce control = .ok (p', state))
    (hcloses : closes control = true) : p'.phase = .closing ∧ state = .closed := by
  cases control with
  | close _ received consumed | endAck _ _ received consumed =>
    obtain ⟨q, -, h⟩ := Checked.bind_eq_ok.mp h
    cases h
    exact ⟨rfl, rfl⟩
  | _ => cases hcloses

/-- A session that has begun to close is closing, goes by that phase, and has answered only closed.
-/
structure Shut (s : Session) : Prop where
  phase : s.begun = true → s.provider.phase = .closing
  handling : s.begun = true → ∀ handled ∈ s.handling, handled.2 = .closing ∨ closes handled.1 = true
  answers : ∀ state ∈ s.answers, state = .closed

theorem Shut.reply (h : Shut s) (hstate : s.begun = true → state = .closed) :
    Shut (s.reply state) := by
  refine ⟨h.phase, h.handling, ?_⟩
  intro answer hanswer
  simp only [Session.reply] at hanswer
  split at hanswer
  next hbegun =>
    rcases List.mem_cons.mp hanswer with rfl | hanswer
    · exact hstate hbegun
    · exact h.answers answer hanswer
  · exact h.answers answer hanswer

/-- The end of a control keeps a session shut. -/
theorem Shut.finish (h : Shut s) (hhand : s.handling = some (control, seen))
    (hall : Orderly hash s (.finish nonce)) : Shut ({ s with handling := none }.settle control
      (s.provider.handleControl hash seen nonce control)) := by
  have hnone : ∀ handled ∈ (none : Option (Control × ProviderPhase)),
      handled.2 = .closing ∨ closes handled.1 = true := by simp
  have hfree : Shut { s with handling := none } := ⟨h.phase, fun _ => hnone, h.answers⟩
  unfold Provider.handleControl
  split
  · exact hfree
  next cached hcached => exact hfree.reply fun hbegun => (hall hbegun _ hhand).1 cached hcached
  split
  · exact hfree
  next p' state happly =>
    by_cases hcloses : closes control = true
    · obtain ⟨-, rfl⟩ := apply_of_closes happly hcloses
      simp only [settle, if_pos hcloses]
      exact Shut.reply ⟨fun _ => rfl, fun _ => hnone, h.answers⟩ fun _ => rfl
    · have hclosed : s.begun = true → p'.phase = .closing ∧ state = .closed := by
        intro hbegun
        obtain rfl : seen = .closing := (h.handling hbegun _ hhand).resolve_right hcloses
        -- a control that does not answer the outstanding challenge keeps the phase
        have hpulse := (hall hbegun _ hhand).2
        cases control with
        | activate => cases happly
        | pulse seq challengeId received consumed =>
          simp only [Provider.apply, hpulse seq challengeId received consumed rfl] at happly
          split at happly <;> cases happly
        | ack _ received consumed =>
          obtain ⟨q, hcredit, happly⟩ := Checked.bind_eq_ok.mp happly
          cases happly
          have hkept := (applyCredit_phase hcredit).trans (h.phase hbegun)
          exact ⟨hkept, by rw [hkept]; rfl⟩
        | close | endAck => exact absurd rfl hcloses
      simp only [settle, if_neg hcloses]
      exact Shut.reply ⟨fun hbegun => (hclosed hbegun).1, fun _ => hnone, h.answers⟩
        fun hbegun => (hclosed hbegun).2

theorem Shut.step (h : Shut s) (hall : Orderly hash s act)
    (hstep : s.step hash act = some s') : Shut s' := by
  cases act with
  | finish nonce =>
    simp only [Session.step] at hstep
    split at hstep
    · cases hstep
    next control seen hhand => exact Option.some.inj hstep ▸ h.finish hhand hall
  | start control =>
    simp only [Session.step] at hstep
    split at hstep <;> cases hstep
    refine ⟨h.phase, fun hbegun handled hhandled => ?_, h.answers⟩
    cases hhandled
    exact .inl (h.phase hbegun)
  | beginClose =>
    cases hstep
    exact ⟨fun _ => rfl, fun _ handled hhandled => .inr (hall handled hhandled), h.answers⟩
  | _ =>
    -- No other step touches the phase, the control being handled or the answers.
    simp only [Session.step] at hstep
    repeat' split at hstep
    all_goals cases hstep
    all_goals exact ⟨h.phase, h.handling, h.answers⟩

/-- **Orderly sessions stay closed**: once `begin_close` has run the phase is closing, and no
control is answered otherwise. -/
theorem closed_of_orderly (hrun : ReflTransGen (Session.Step hash Orderly) Session.offered s) :
    (s.begun = true → s.provider.phase = .closing) ∧ ∀ state ∈ s.answers, state = .closed := by
  have hoffered : Shut Session.offered :=
    ⟨(nomatch ·), (nomatch ·), fun _ h => (List.not_mem_nil h).elim⟩
  have hshut := Run.keeps (fun _ _ ⟨_, hallowed, hstep⟩ h => h.step hallowed hstep) hrun hoffered
  exact ⟨hshut.phase, hshut.answers⟩

/-- A setup that times out, closed once more by the consumer. -/
theorem closed_after_setup_timeout : ∃ s,
    ReflTransGen (Session.Step (fun _ => "") Orderly) .offered s ∧
      s.begun = true ∧ s.answers = [.closed] ∧ s.provider.phase = .closing := by
  have hactivated := ReflTransGen.refl
    (r := Session.Step (fun _ => "") Orderly) (a := Session.offered)
    |>.tail ⟨.start .activate, trivial, rfl⟩ |>.tail ⟨.finish "n1", nofun, rfl⟩
  have hbegun := hactivated.tail ⟨.commitEnd ⟨.setupTimeout, none⟩, trivial, rfl⟩
    |>.tail ⟨.beginClose, fun _ h => (Option.not_mem_none _ h).elim, rfl⟩
  have hclosed := hbegun.tail ⟨.start (.close 2 0 0), trivial, rfl⟩
    |>.tail ⟨.finish "n2", fun _ _ h => Option.some.inj h ▸ ⟨nofun, nofun⟩, rfl⟩
  exact ⟨_, hclosed, rfl, rfl, (closed_of_orderly hclosed).1 rfl⟩

/-- A run of given steps, whatever they are. -/
def runActs (hash : Control → String) (s : Session) (acts : List Act) : Option Session :=
  acts.foldlM (Session.step hash) s

/-- Tells the controls of a run apart by their numbers. -/
def seqHash (control : Control) : String := toString control.controlSeq

/-- A pulse is answered as active although the reservation has expired; and one that has read the
phase before makes the session active again. -/
theorem active_after_close :
    (∃ s, runActs seqHash .offered [.start .activate, .finish "n1",
        .commitEnd ⟨.setupTimeout, none⟩, .beginClose, .start (.pulse 2 "n1" 0 0), .finish "n2"]
          = some s ∧ s.begun = true ∧ s.answers = [.active]) ∧
    ∃ s, runActs seqHash .offered [.start .activate, .finish "n1", .start (.pulse 2 "n1" 0 0),
        .commitEnd ⟨.setupTimeout, none⟩, .beginClose, .finish "n2"]
          = some s ∧ s.begun = true ∧ s.provider.phase = .active :=
  ⟨⟨_, rfl, rfl, rfl⟩, _, rfl, rfl, rfl⟩

/-! ## One end -/

/-- END is published only while no outcome is committed or recorded, and the driver commits first.
-/
def Unrivalled (_ : Control → String) (s : Session) : Act → Prop
  | .publishEnd true => s.terminal = none ∧ s.receipts = []
  | .commitEnd _ | .finishClosed => s.ends ≠ [] → s.terminal ≠ none
  | .finish _ => (∃ handled ∈ s.handling, closes handled.1 = true) → s.ends ≠ [] → s.terminal ≠ none
  | _ => True

/-- The END frame is of an outcome still to be committed, or of the committed one, from which every
receipt was written. -/
def Agreed (s : Session) : Prop :=
  ∀ frame ∈ s.ends, ∃ theEnd, frame = terminalFromEnd theEnd ∧
    (s.source = .published theEnd ∧ s.terminal = none ∧ s.receipts = [] ∨
      s.terminal = some theEnd ∧ ∀ receipt ∈ s.receipts, receipt = theEnd)

/-- The source driver publishes at most once, and not before it has come to its end. -/
structure PublishedOnce (s : Session) : Prop where
  early : s.source = .idle ∨ s.source = .running ∨ (∃ theEnd, s.source = .ending theEnd) →
    s.ends = []
  length : s.ends.length ≤ 1

/-- The END frame is published by a driver at its end, if none was before. -/
theorem step_publishEnd (hstep : s.step hash (.publishEnd delivered) = some s') :
    ∃ theEnd, s.source = .ending theEnd ∧ s' = { s with
      source := .published theEnd
      endSent := true
      ends := if delivered && !s.endSent then terminalFromEnd theEnd :: s.ends else s.ends } := by
  cases hsource : s.source with
  | ending theEnd =>
    simp only [Session.step, hsource] at hstep
    split at hstep
    · exact ⟨theEnd, rfl, (Option.some.inj hstep).symm⟩
    · cases hstep
  | _ => simp [Session.step, hsource] at hstep

theorem PublishedOnce.step (h : PublishedOnce s) (hstep : s.step hash act = some s') :
    PublishedOnce s' := by
  cases act with
  | finish nonce =>
    simp only [Session.step] at hstep
    split at hstep <;> cases hstep
    rename_i control seen _
    cases s.provider.handleControl hash seen nonce control with
    | committed provider state =>
      simp only [settle]
      split <;> exact ⟨h.early, h.length⟩
    | _ => exact ⟨h.early, h.length⟩
  | sourceStarts | sourceEnds =>
    simp only [Session.step] at hstep
    split at hstep <;> cases hstep
    rename_i hsource
    exact ⟨fun _ => h.early (by simp [hsource]), h.length⟩
  | publishEnd delivered =>
    obtain ⟨theEnd, hsource, rfl⟩ := step_publishEnd hstep
    have hnone := h.early (.inr (.inr ⟨theEnd, hsource⟩))
    refine ⟨by simp, ?_⟩
    show (if delivered && !s.endSent then terminalFromEnd theEnd :: s.ends else s.ends).length ≤ 1
    split <;> simp [hnone]
  | sourceCommits | sourceStops =>
    simp only [Session.step] at hstep
    split at hstep <;> cases hstep
    all_goals exact ⟨by simp, h.length⟩
  | _ =>
    simp only [Session.step] at hstep
    repeat' split at hstep
    all_goals cases hstep
    all_goals exact ⟨h.early, h.length⟩

theorem publishedOnce_offered : PublishedOnce Session.offered := ⟨fun _ => rfl, Nat.zero_le 1⟩

/-- Another commit changes nothing once the outcome of the END frame is committed. -/
theorem Agreed.commitEnd (h : Agreed s) (hcomm : s.ends ≠ [] → s.terminal ≠ none)
    (other : LiveEnd) : Agreed (s.commitEnd other) := by
  intro frame hframe
  obtain ⟨theEnd, heq, ⟨-, hnone, -⟩ | ⟨hterm, hreceipts⟩⟩ := h frame hframe
  · exact absurd hnone (hcomm (List.ne_nil_of_mem hframe))
  · exact ⟨theEnd, heq, .inr ⟨by simp [Session.commitEnd, hterm], hreceipts⟩⟩

theorem Agreed.record (h : Agreed s) (hcomm : s.ends ≠ [] → s.terminal ≠ none) :
    Agreed s.record := by
  intro frame hframe
  obtain ⟨theEnd, heq, ⟨-, hnone, -⟩ | ⟨hterm, hreceipts⟩⟩ := h frame hframe
  · exact absurd hnone (hcomm (List.ne_nil_of_mem hframe))
  · refine ⟨theEnd, heq, .inr ⟨hterm, List.forall_mem_cons.mpr ⟨?_, hreceipts⟩⟩⟩
    simp [committedEnd, hterm]

theorem Agreed.finish (h : Agreed s) (hhand : s.handling = some (control, seen))
    (hall : Unrivalled hash s (.finish nonce)) : Agreed ({ s with handling := none }.settle control
      (s.provider.handleControl hash seen nonce control)) := by
  cases s.provider.handleControl hash seen nonce control with
  | committed provider state =>
    simp only [settle]
    split
    next hcloses =>
      have hclosed : Agreed (s.commitEnd ⟨.cancelled, none⟩) :=
        h.commitEnd (hall ⟨_, hhand, hcloses⟩) _
      exact hclosed.record fun _ => by simp [Session.commitEnd]
    · exact h
  | _ => exact h

theorem Agreed.step (h : Agreed s) (honce : PublishedOnce s) (hall : Unrivalled hash s act)
    (hstep : s.step hash act = some s') : Agreed s' := by
  cases act with
  | finish nonce =>
    simp only [Session.step] at hstep
    split at hstep <;> cases hstep
    rename_i control seen hhand
    exact h.finish hhand hall
  | commitEnd theEnd => exact Option.some.inj hstep ▸ h.commitEnd hall theEnd
  | finishClosed =>
    simp only [Session.step] at hstep
    split at hstep <;> cases hstep
    exact h.record hall
  | publishEnd delivered =>
    obtain ⟨theEnd, hsource, rfl⟩ := step_publishEnd hstep
    have hnone := honce.early (.inr (.inr ⟨theEnd, hsource⟩))
    intro frame hframe
    cases delivered with
    | false => simp [hnone] at hframe
    | true =>
      obtain ⟨-, rfl⟩ : s.endSent = false ∧ frame = terminalFromEnd theEnd := by
        simpa [hnone] using hframe
      exact ⟨theEnd, rfl, .inl ⟨rfl, hall⟩⟩
  | sourceCommits =>
    simp only [Session.step] at hstep
    split at hstep <;> cases hstep
    rename_i published hsource
    intro frame hframe
    obtain ⟨theEnd, heq, ⟨hpub, hnone, hreceipts⟩ | ⟨hterm, hreceipts⟩⟩ := h frame hframe
    · obtain rfl := Source.published.inj (hsource.symm.trans hpub)
      refine ⟨published, heq, .inr ⟨by simp [Session.commitEnd, hnone], ?_⟩⟩
      intro receipt hrcpt
      exact absurd (hreceipts ▸ hrcpt) List.not_mem_nil
    · exact ⟨theEnd, heq, .inr ⟨by simp [Session.commitEnd, hterm], hreceipts⟩⟩
  | sourceStarts | sourceEnds | sourceStops =>
    -- These run before the END frame, so there is none.
    simp only [Session.step] at hstep
    split at hstep <;> cases hstep
    all_goals
      rename_i hsource
      intro frame hframe
      have hnone := honce.early (by simp [hsource])
      exact absurd (hnone ▸ hframe) List.not_mem_nil
  | _ =>
    simp only [Session.step] at hstep
    repeat' split at hstep
    all_goals cases hstep
    all_goals exact h

/-- **At most one END is published**; and where the driver has no rival, the committed outcome and
that of each receipt is the frame's. -/
theorem end_agrees_of_unrivalled (hash : Control → String) :
    (∀ s, ReflTransGen (Session.Step hash fun _ _ _ => True) .offered s → s.ends.length ≤ 1) ∧
    ∀ s, ReflTransGen (Session.Step hash Unrivalled) .offered s → Agreed s := by
  refine ⟨fun s hrun => ?_, fun s hrun => ?_⟩
  · exact (Run.keeps (fun _ _ ⟨_, _, hstep⟩ h => h.step hstep) hrun publishedOnce_offered).length
  · have hboth := Run.keeps (P := fun s => PublishedOnce s ∧ Agreed s)
      (fun _ _ ⟨_, hallowed, hstep⟩ h => ⟨h.1.step hstep, h.2.step h.1 hallowed hstep⟩) hrun
      ⟨publishedOnce_offered, fun _ hframe => (List.not_mem_nil hframe).elim⟩
    exact hboth.2

/-- A source that completes with no rival: its frame, its outcome and its receipt agree. -/
theorem complete_end_agrees : ∃ s, ReflTransGen (Session.Step (fun _ => "") Unrivalled) .offered s ∧
      s.ends = [terminalFromEnd .complete] ∧ s.receipts = [.complete] ∧ Agreed s := by
  have hactive := ReflTransGen.refl
    (r := Session.Step (fun _ => "") Unrivalled) (a := Session.offered)
    |>.tail ⟨.start .activate, trivial, rfl⟩
    |>.tail ⟨.finish "n1", fun _ hends => (hends rfl).elim, rfl⟩
    |>.tail ⟨.start (.pulse 2 "n1" 0 0), trivial, rfl⟩
    |>.tail ⟨.finish "n2", fun _ hends => (hends rfl).elim, rfl⟩
  have hended := hactive.tail ⟨.sourceStarts, trivial, rfl⟩
    |>.tail ⟨.sourceEnds none, trivial, rfl⟩ |>.tail ⟨.publishEnd true, ⟨rfl, rfl⟩, rfl⟩
    |>.tail ⟨.sourceCommits, trivial, rfl⟩
  have hclosed := hended.tail ⟨.beginClose, trivial, rfl⟩
    |>.tail ⟨.finishClosed, fun _ => nofun, rfl⟩
  exact ⟨_, hclosed, rfl, rfl, (end_agrees_of_unrivalled _).2 _ hclosed⟩

/-- The consumer closes between END and the commit: the frame says complete, the rest cancelled. -/
theorem complete_end_cancelled :
    ∃ s, runActs seqHash .offered [.start .activate, .finish "n1", .start (.pulse 2 "n1" 0 0),
        .finish "n2", .sourceStarts, .sourceEnds none, .publishEnd true,
        .start (.close 3 0 0), .finish "n3", .sourceCommits] = some s ∧
      s.ends = [terminalFromEnd .complete] ∧ s.terminal = some ⟨.cancelled, none⟩ ∧
      s.receipts = [⟨.cancelled, none⟩] :=
  ⟨_, rfl, rfl, rfl, rfl⟩

end Live.Closing
