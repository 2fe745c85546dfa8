/-
# Live controls

The control exchange of one Live session: the consumer numbers its controls and the provider
classifies each against the last one it committed.

Activation, credit and close are sent again until they are answered; a pulse or an end
acknowledgement is sent once.  The network keeps the order of controls and may lose any.  Where a
control is numbered while the last one is not committed, or while one is kept to be sent again,
the sides part (`controls_agree_of_settled`).
-/
import Mathlib.Data.Nat.Basic
import Mathlib.Order.Basic
import Trellis.Lib.Run

namespace Live

open List Checked

/-! ## Controls -/

/-- `LiveControl`, without the fields that are the same for every control of a session. -/
inductive Control where
  | activate
  | pulse (controlSeq : Nat) (challengeId : String) (receivedSeq consumedSeq : Nat)
  | ack (controlSeq receivedSeq consumedSeq : Nat)
  | close (controlSeq receivedSeq consumedSeq : Nat)
  | endAck (controlSeq finalSeq receivedSeq consumedSeq : Nat)
  deriving DecidableEq

/-- The sequence number in the body.  `activate_control` always writes one. -/
def Control.controlSeq : Control → Nat
  | .activate => 1
  | .pulse seq _ _ _ => seq
  | .ack seq _ _ => seq
  | .close seq _ _ => seq
  | .endAck seq _ _ _ => seq

/-- The number of the last control, zero when there is none. -/
def seqOf (c : Option Control) : Nat := (c.map Control.controlSeq).getD 0

/-- `LiveErrorCode`, for the codes that handling a control answers with. -/
inductive LiveErrorCode where
  | controlGap | controlConflict | staleControl | invalidChallenge | invalidCursor
  deriving DecidableEq

/-- `LiveSessionState`, as acknowledgements report it. -/
inductive LiveSessionState where
  | activating | active | closed
  deriving DecidableEq

/-- `CachedControl`: the number, hash and reported state of the last committed control. -/
structure CachedControl where
  seq : Nat
  hash : String
  state : LiveSessionState
  deriving DecidableEq

/-- `classify_control`. -/
def classifyControl (receipt : Option CachedControl) (seq : Nat) (hash : String) :
    Except LiveErrorCode (Option CachedControl) :=
  match receipt with
  | none => if seq = 1 then .ok none else .error .controlGap
  | some previous =>
    if seq = previous.seq then
      if previous.hash = hash then .ok (some previous) else .error .controlConflict
    else if seq < previous.seq then .error .staleControl
    else if seq = previous.seq + 1 then .ok none
    else .error .controlGap

/-! ## The provider -/

/-- `ProviderPhase`; `Closed` sessions have no record that could handle a control. -/
inductive ProviderPhase where
  | offered | activating | active | closing
  deriving DecidableEq

/-- `current_state`. -/
def ProviderPhase.state : ProviderPhase → LiveSessionState
  | .offered | .activating => .activating
  | .active => .active
  | .closing => .closed

/-- What a provider session keeps for its controls. -/
structure Provider where
  phase : ProviderPhase
  outstandingChallenge : Option String
  (highestSent highestReceived highestConsumed : Nat)
  receipt : Option CachedControl

namespace Provider

/-- An offered session. -/
def offered : Provider := ⟨.offered, none, 0, 0, 0, none⟩

variable (p : Provider)

/-- `validate_credit`. -/
def validateCredit (received consumed : Nat) : Bool :=
  !(decide (consumed > received) || decide (received > p.highestSent)
    || decide (received < p.highestReceived) || decide (consumed < p.highestConsumed))

/-- `apply_credit`. -/
def applyCredit (received consumed : Nat) : Except LiveErrorCode Provider :=
  if p.validateCredit received consumed then
    .ok { p with highestReceived := received, highestConsumed := consumed }
  else .error .invalidCursor

/-- The outstanding challenge is answered; the first answer completes the activation. -/
def roundTrip (seen : ProviderPhase) : Provider :=
  { p with
    outstandingChallenge := none
    phase := if seen = .activating then .active else p.phase }

/-- Apply the next control, with a fresh challenge for an activation, and tell the state.  An
activation and a pulse go by the phase `seen`, which was read before. -/
def apply (seen : ProviderPhase) (nonce : String) :
    Control → Except LiveErrorCode (Provider × LiveSessionState)
  | .activate =>
    if seen = .offered then
      .ok ({ p with phase := .activating, outstandingChallenge := some nonce }, .activating)
    else .error .staleControl
  | .pulse _ challengeId received consumed =>
    if !p.validateCredit received consumed then .error .invalidCursor
    else if p.outstandingChallenge = some challengeId then do
      let p ← (p.roundTrip seen).applyCredit received consumed
      return (p, .active)
    else .error .invalidChallenge
  | .ack _ received consumed => do
      let p ← p.applyCredit received consumed
      return (p, p.phase.state)
  | .close _ received consumed | .endAck _ _ received consumed => do
      let p ← p.applyCredit received consumed
      return ({ p with phase := .closing }, .closed)

/-- What handling a control comes to. -/
inductive Outcome where
  | refused (code : LiveErrorCode)
  | replayed (state : LiveSessionState)
  | invalid (code : LiveErrorCode)
  | committed (provider : Provider) (state : LiveSessionState)

/-- `handle_control`: what is neither refused nor a replay is applied, and then receipted. -/
def handleControl (hash : Control → String) (p : Provider) (seen : ProviderPhase) (nonce : String)
    (control : Control) : Outcome :=
  match classifyControl p.receipt control.controlSeq (hash control) with
  | .error code => .refused code
  | .ok (some cached) => .replayed cached.state
  | .ok none =>
    match p.apply seen nonce control with
    | .error code => .invalid code
    | .ok (p, state) =>
      .committed { p with receipt := some ⟨control.controlSeq, hash control, state⟩ } state

end Provider

/-! ## The consumer -/

/-- The pump: before activation, retrying it under its number, in its loop, about to send a control
it will not keep, or past its last control. -/
inductive Pump where
  | prepared
  | activating (activateSeq : Nat)
  | running
  | sending (control : Control)
  | ended
  deriving DecidableEq

/-- The controls a pump is about to send or keeps to send again, credit apart. -/
def Pump.controls : Pump → List Control
  | .activating _ => [.activate]
  | .sending control => [control]
  | .prepared | .running | .ended => []

/-- The consumer: its counter, cursors and pump, the credit kept until it is answered, and a close
that has been numbered or is kept. -/
structure Consumer where
  (lastControlSeq receivedSeq consumedSeq : Nat)
  pump : Pump
  lastCreditSent : Nat
  (pendingCredit numbered closing : Option Control)

namespace Consumer

/-- A prepared handle. -/
def prepared : Consumer := ⟨0, 0, 0, .prepared, 0, none, none, none⟩

/-- The controls that are still to be sent, once or again. -/
def controls (c : Consumer) : List Control :=
  c.pump.controls ++ c.pendingCredit.toList ++ c.closing.toList

end Consumer

/-! ## Steps -/

/-- Both sides with what is between them: controls under way, acknowledgements and challenges
published, the last control committed; and the record of the controls sent, of each that reached the
provider with the one committed before it, and of the refusals. -/
structure World where
  consumer : Consumer
  provider : Provider
  network : List Control
  acks : List (Control × LiveSessionState)
  challenges : List (String × Nat)
  committed : Option Control
  sent : List Control
  arrivals : List (Option Control × Control)
  refusals : List LiveErrorCode

namespace World

/-- A session that was offered and prepared. -/
def initial : World := ⟨.prepared, .offered, [], [], [], none, [], [], []⟩

/-- `send_control`: store the number back and publish. -/
def publish (w : World) (control : Control) (seq : Nat) : World :=
  { w with
    consumer := { w.consumer with lastControlSeq := seq }
    network := w.network ++ [control]
    sent := control :: w.sent }

/-- The provider handles a control.  An activation's acknowledgement is followed by its challenge.
-/
def arrive (hash : Control → String) (w : World) (nonce : String) (control : Control)
    (rest : List Control) : World :=
  let w := { w with network := rest, arrivals := (w.committed, control) :: w.arrivals }
  match w.provider.handleControl hash w.provider.phase nonce control with
  | .refused code => { w with refusals := code :: w.refusals }
  | .replayed state => { w with acks := (control, state) :: w.acks }
  | .invalid _ => w
  | .committed provider state =>
    { w with
      provider := provider
      committed := some control
      acks := (control, state) :: w.acks
      challenges := if control = .activate then (nonce, provider.highestSent) :: w.challenges
        else w.challenges }

/-- The pump after it has sent a control that it does not keep. -/
def pumpAfter : Control → Pump
  | .endAck .. => .ended
  | _ => .running

end World

/-- One step; `allowed` says which controls may be numbered. -/
inductive Step (hash : Control → String) (allowed : World → Control → Prop) : World → World → Prop
  /-- The pump draws a number for its activation. -/
  | activate {w : World} (hpump : w.consumer.pump = .prepared) (hallowed : allowed w .activate) :
      Step hash allowed w { w with consumer := { w.consumer with
        lastControlSeq := w.consumer.lastControlSeq + 1
        pump := .activating (w.consumer.lastControlSeq + 1) } }
  /-- An attempt to activate. -/
  | sendActivate {w : World} (seq) (hpump : w.consumer.pump = .activating seq) :
      Step hash allowed w (w.publish .activate seq)
  /-- An attempt to activate is answered. -/
  | activated {w : World} (seq state) (hpump : w.consumer.pump = .activating seq)
      (hack : (.activate, state) ∈ w.acks) (hstate : state ≠ .closed) :
      Step hash allowed w { w with consumer := { w.consumer with pump := .running } }
  /-- A frame is received. -/
  | receive {w : World} (hsent : w.consumer.receivedSeq < w.provider.highestSent) :
      Step hash allowed w { w with consumer := { w.consumer with
        receivedSeq := w.consumer.receivedSeq + 1 } }
  /-- The application takes an item. -/
  | consume {w : World} (hreceived : w.consumer.consumedSeq < w.consumer.receivedSeq) :
      Step hash allowed w { w with consumer := { w.consumer with
        consumedSeq := w.consumer.consumedSeq + 1 } }
  /-- The pump numbers the answer to a challenge. -/
  | pulse {w : World} (id lastSent) (hpump : w.consumer.pump = .running)
      (hchallenge : (id, lastSent) ∈ w.challenges) (hseen : lastSent ≤ w.consumer.receivedSeq)
      (hallowed : allowed w (.pulse (w.consumer.lastControlSeq + 1) id
        w.consumer.receivedSeq w.consumer.consumedSeq)) :
      Step hash allowed w { w with consumer := { w.consumer with
        lastControlSeq := w.consumer.lastControlSeq + 1
        pump := .sending (.pulse (w.consumer.lastControlSeq + 1) id
          w.consumer.receivedSeq w.consumer.consumedSeq) } }
  /-- The pump numbers the answer to the end of the stream. -/
  | endAck {w : World} (hpump : w.consumer.pump = .running)
      (hallowed : allowed w (.endAck (w.consumer.lastControlSeq + 1) w.consumer.receivedSeq
        w.consumer.receivedSeq w.consumer.consumedSeq)) :
      Step hash allowed w { w with consumer := { w.consumer with
        lastControlSeq := w.consumer.lastControlSeq + 1
        pump := .sending (.endAck (w.consumer.lastControlSeq + 1) w.consumer.receivedSeq
          w.consumer.receivedSeq w.consumer.consumedSeq) } }
  /-- The pump sends a control that it does not keep. -/
  | sendReserved {w : World} (control) (hpump : w.consumer.pump = .sending control) :
      Step hash allowed w { w.publish control control.controlSeq with
        consumer := { w.consumer with
          lastControlSeq := control.controlSeq
          pump := World.pumpAfter control } }
  /-- The pump numbers a credit, which it keeps. -/
  | credit {w : World} (hpump : w.consumer.pump = .running)
      (hnone : w.consumer.pendingCredit = none)
      (hconsumed : w.consumer.lastCreditSent < w.consumer.consumedSeq)
      (hallowed : allowed w (.ack (w.consumer.lastControlSeq + 1) w.consumer.receivedSeq
        w.consumer.consumedSeq)) :
      Step hash allowed w { w with consumer := { w.consumer with
        lastControlSeq := w.consumer.lastControlSeq + 1
        pendingCredit := some (.ack (w.consumer.lastControlSeq + 1) w.consumer.receivedSeq
          w.consumer.consumedSeq) } }
  /-- The pump sends the credit it keeps. -/
  | sendCredit {w : World} (control) (hpump : w.consumer.pump = .running)
      (hcredit : w.consumer.pendingCredit = some control) :
      Step hash allowed w (w.publish control control.controlSeq)
  /-- The credit is answered. -/
  | credited {w : World} (seq received consumed state) (hpump : w.consumer.pump = .running)
      (hcredit : w.consumer.pendingCredit = some (.ack seq received consumed))
      (hack : (.ack seq received consumed, state) ∈ w.acks) :
      Step hash allowed w { w with consumer := { w.consumer with
        lastCreditSent := max w.consumer.lastCreditSent consumed
        pendingCredit := none } }
  /-- The pump ends, with the task, the session or the handle. -/
  | pumpEnds {w : World} :
      Step hash allowed w { w with consumer := { w.consumer with pump := .ended } }
  /-- A closing or dropped handle reads the counter for its close. -/
  | close {w : World}
      (hallowed : allowed w (.close (w.consumer.lastControlSeq + 1) w.consumer.receivedSeq
        w.consumer.consumedSeq)) :
      Step hash allowed w { w with consumer := { w.consumer with
        numbered := some (.close (w.consumer.lastControlSeq + 1) w.consumer.receivedSeq
          w.consumer.consumedSeq) } }
  /-- The first attempt to close. -/
  | sendClose {w : World} (control) (hnumbered : w.consumer.numbered = some control) :
      Step hash allowed w { w.publish control control.controlSeq with
        consumer := { w.consumer with
          lastControlSeq := control.controlSeq
          numbered := none
          closing := some control } }
  /-- A further attempt to close. -/
  | resendClose {w : World} (control) (hclosing : w.consumer.closing = some control) :
      Step hash allowed w (w.publish control control.controlSeq)
  /-- The close exchange ends, answered or not. -/
  | closeEnds {w : World} :
      Step hash allowed w { w with consumer := { w.consumer with
        numbered := none
        closing := none } }
  /-- A control is lost. -/
  | lose {w : World} (before after control) (hnetwork : w.network = before ++ control :: after) :
      Step hash allowed w { w with network := before ++ after }
  /-- A control reaches the provider. -/
  | arrive {w : World} (nonce control rest) (hnetwork : w.network = control :: rest) :
      Step hash allowed w (w.arrive hash nonce control rest)
  /-- The provider publishes a frame. -/
  | publishFrame {w : World} (hactive : w.provider.phase = .active) :
      Step hash allowed w { w with provider := { w.provider with
        highestSent := w.provider.highestSent + 1 } }
  /-- The provider issues a challenge. -/
  | challenge {w : World} (id) (hactive : w.provider.phase = .active) :
      Step hash allowed w { w with
        provider := { w.provider with outstandingChallenge := some id }
        challenges := (id, w.provider.highestSent) :: w.challenges }
  /-- The provider closes of its own accord. -/
  | providerCloses {w : World} :
      Step hash allowed w { w with provider := { w.provider with phase := .closing } }

/-- The worlds that runs reach. -/
def Reachable (hash : Control → String) (allowed : World → Control → Prop) (w : World) : Prop :=
  ReflTransGen (Step hash allowed) World.initial w

/-- Every control may be numbered. -/
def always : World → Control → Prop := fun _ _ => True

/-- The last control numbered is committed, none is kept, and this one carries the next number. -/
def settled : World → Control → Prop := fun w control =>
  seqOf w.committed = w.consumer.lastControlSeq ∧ w.consumer.controls = [] ∧
    w.consumer.numbered = none ∧ control.controlSeq = w.consumer.lastControlSeq + 1

/-- No number was sent with two bodies, each control that arrived was the last committed or the
next, and none was refused. -/
structure World.Agreed (w : World) : Prop where
  sent : ∀ c ∈ w.sent, ∀ c' ∈ w.sent, c.controlSeq = c'.controlSeq → c = c'
  arrivals : ∀ a ∈ w.arrivals, a.1 = some a.2 ∨ a.2.controlSeq = seqOf a.1 + 1
  refusals : w.refusals = []

/-! ## One control at a time -/

/-- The receipt is the one of the last control committed. -/
def ReceiptOf (hash : Control → String) (p : Provider) (committed : Option Control) : Prop :=
  ∃ state, p.receipt = committed.map fun c => ⟨c.controlSeq, hash c, state⟩

/-- What holds when controls are numbered one at a time; `current` is the last one numbered. -/
structure InvAt (hash : Control → String) (w : World) (current : Option Control) : Prop where
  last : w.consumer.lastControlSeq = seqOf current
  activating : ∀ seq, w.consumer.pump = .activating seq → seq = w.consumer.lastControlSeq
  controls : ∀ c ∈ w.consumer.controls, some c = current
  -- a close that is numbered and not sent waits for everything else to be settled
  numbered : ∀ c, w.consumer.numbered = some c →
    c.controlSeq = w.consumer.lastControlSeq + 1 ∧ w.committed = current ∧ w.consumer.controls = []
  committed : w.committed = current ∨ seqOf w.committed + 1 = seqOf current
  receipt : ReceiptOf hash w.provider w.committed
  -- copies of the last control committed arrive before those of the current one
  network : ∀ c ∈ w.network, some c = w.committed ∨ some c = current
  order : w.network.Pairwise fun c c' => some c = current → some c' = current
  sent_le : ∀ c ∈ w.sent, c.controlSeq ≤ w.consumer.lastControlSeq
  sent_current : ∀ c ∈ w.sent, c.controlSeq = w.consumer.lastControlSeq → some c = current
  agreed : w.Agreed

variable {hash : Control → String}

theorem invAt_initial : InvAt hash .initial none where
  last := rfl
  activating := by simp [World.initial, Consumer.prepared]
  controls := by simp [World.initial, Consumer.prepared, Consumer.controls, Pump.controls]
  numbered := by simp [World.initial, Consumer.prepared]
  committed := .inl rfl
  receipt := ⟨.active, rfl⟩
  network := by simp [World.initial]
  order := .nil
  sent_le := by simp [World.initial]
  sent_current := by simp [World.initial]
  agreed := ⟨by simp [World.initial], by simp [World.initial], rfl⟩

/-! ### The provider classifies what it expects -/

variable {control : Control}

theorem classify_next (digest : String)
    (h : ReceiptOf hash p committed) (hseq : seq = seqOf committed + 1) :
    classifyControl p.receipt seq digest = .ok none := by
  obtain ⟨state, hrcpt⟩ := h
  cases committed with
  | none => simpa [hrcpt, classifyControl, seqOf] using hseq
  | some c =>
    have hseq' : seq = c.controlSeq + 1 := hseq
    simp [hrcpt, classifyControl, hseq']

theorem classify_gap (digest : String)
    (h : ReceiptOf hash p committed) (hseq : seqOf committed + 1 < seq) :
    classifyControl p.receipt seq digest = .error .controlGap := by
  obtain ⟨state, hrcpt⟩ := h
  cases committed with
  | none =>
    have hne : seq ≠ 1 := by
      omega
    simp [hrcpt, classifyControl, hne]
  | some c =>
    have hlt : c.controlSeq + 1 < seq := hseq
    have h₁ : ¬ seq = c.controlSeq := by omega
    have h₂ : ¬ seq < c.controlSeq := by omega
    have h₃ : ¬ seq = c.controlSeq + 1 := by omega
    simp [hrcpt, classifyControl, h₁, h₂, h₃]

/-! ### What steps keep -/

namespace InvAt

variable (h : InvAt hash w current)
include h

theorem setProvider (hrcpt : p.receipt = w.provider.receipt) (challenges : List (String × Nat)) :
    InvAt hash { w with provider := p, challenges } current := by
  obtain ⟨state, hstate⟩ := h.receipt
  exact { h with receipt := ⟨state, hrcpt.trans hstate⟩, agreed := { h.agreed with } }

/-- The consumer lets go of controls without numbering one. -/
theorem setConsumer (hlast : c.lastControlSeq = w.consumer.lastControlSeq)
    (hpump : ∀ seq, c.pump = .activating seq → w.consumer.pump = .activating seq)
    (hctls : c.controls ⊆ w.consumer.controls)
    (hnum : ∀ x, c.numbered = some x → w.consumer.numbered = some x) :
    InvAt hash { w with consumer := c } current :=
  { h with
    last := hlast.trans h.last
    activating := fun seq hseq => (h.activating seq (hpump seq hseq)).trans hlast.symm
    controls := fun x hx => h.controls x (hctls hx)
    numbered := by
      intro x hx
      obtain ⟨hseq, hcomm, hnone⟩ := h.numbered x (hnum x hx)
      refine ⟨hlast ▸ hseq, hcomm, eq_nil_of_subset_nil (hnone ▸ hctls)⟩
    sent_le := fun x hx => hlast ▸ h.sent_le x hx
    sent_current := fun x hx hseq => h.sent_current x hx (hseq.trans hlast)
    agreed := { h.agreed with } }

/-- The current control is sent, once more or for the first time. -/
theorem publish (hcur : some control = current) (hseq : seq = w.consumer.lastControlSeq) :
    InvAt hash (w.publish control seq) current := by
  subst hseq
  have hcontrol : control.controlSeq = w.consumer.lastControlSeq := by
    rw [h.last, ← hcur]
    rfl
  refine { h with network := ?_, order := ?_, sent_le := ?_, sent_current := ?_, agreed := ?_ }
  · exact forall_mem_concat h.network (.inr hcur)
  · refine pairwise_append.mpr ⟨h.order, pairwise_singleton _ _, ?_⟩
    intro c _ c' hc' _
    rw [mem_singleton.mp hc']
    exact hcur
  · rintro c (_ | ⟨_, hc⟩)
    exacts [hcontrol.le, h.sent_le c hc]
  · rintro c (_ | ⟨_, hc⟩) hseq
    exacts [hcur, h.sent_current c hc hseq]
  · refine { h.agreed with sent := ?_ }
    rintro c (_ | ⟨_, hc⟩) c' (_ | ⟨_, hc'⟩) heq
    · rfl
    · exact Option.some.inj (hcur.trans (h.sent_current c' hc' (heq.symm.trans hcontrol)).symm)
    · exact Option.some.inj ((h.sent_current c hc (heq.trans hcontrol)).trans hcur.symm)
    · exact h.agreed.sent c hc c' hc' heq

/-- Once the last control numbered is committed, only copies of it are under way. -/
theorem committed_of_settled
    (hseq : seqOf w.committed = w.consumer.lastControlSeq) : w.committed = current := by
  rcases h.committed with hc | hc
  · exact hc
  · rw [hseq, h.last] at hc
    omega

/-- A control is numbered once everything before it is settled. -/
theorem number (hcomm : w.committed = current)
    (hseq : control.controlSeq = w.consumer.lastControlSeq + 1)
    (hlast : c.lastControlSeq = w.consumer.lastControlSeq + 1)
    (hpump : ∀ seq, c.pump = .activating seq → seq = c.lastControlSeq)
    (hctls : ∀ x ∈ c.controls, x = control) (hnum : c.numbered = none) :
    InvAt hash { w with consumer := c } (some control) where
  last := hlast.trans hseq.symm
  activating := hpump
  controls := fun x hx => congrArg some (hctls x hx)
  numbered := by simp [hnum]
  committed := .inr (by rw [hcomm, ← h.last]; exact hseq.symm)
  receipt := h.receipt
  network := by
    intro x hx
    rcases h.network x hx with hx | hx
    exacts [.inl hx, .inl (hx.trans hcomm.symm)]
  order := by
    -- none of the controls under way carries the new number
    have hold : ∀ x ∈ w.network, some x ≠ some control := by
      intro x hx hxc
      have hxcur : some x = current := by
        rcases h.network x hx with hx | hx
        exacts [hx.trans hcomm, hx]
      have : seqOf current = control.controlSeq := by
        rw [← hxcur, hxc]
        rfl
      rw [← h.last] at this
      omega
    exact List.Pairwise.imp_of_mem (fun {a b} ha _ _ hac => absurd hac (hold a ha)) h.order
  sent_le := by
    intro x hx
    have := h.sent_le x hx
    simp only [hlast]
    omega
  sent_current := by
    intro x hx hxseq
    have := h.sent_le x hx
    simp only [hlast] at hxseq
    omega
  agreed := { h.agreed with }

/-- A control that reaches the provider is answered as a replay or as the next one. -/
theorem arrive (hnet : w.network = control :: rest) (nonce : String) :
    InvAt hash (w.arrive hash nonce control rest) current := by
  have hmem : ∀ c ∈ rest, some c = w.committed ∨ some c = current :=
    fun c hc => h.network c (hnet ▸ mem_cons_of_mem _ hc)
  have horder := h.order
  rw [hnet, pairwise_cons] at horder
  have harr (a : some control = w.committed ∨ control.controlSeq = seqOf w.committed + 1) :
      ∀ x ∈ (w.committed, control) :: w.arrivals,
        x.1 = some x.2 ∨ x.2.controlSeq = seqOf x.1 + 1 := by
    rintro x (_ | ⟨_, hx⟩)
    exacts [a.imp_left Eq.symm, h.agreed.arrivals x hx]
  by_cases hreplay : some control = w.committed
  · obtain ⟨state, hrcpt⟩ := h.receipt
    rw [← hreplay] at hrcpt
    let cached : CachedControl := ⟨control.controlSeq, hash control, state⟩
    have hclass : classifyControl w.provider.receipt control.controlSeq (hash control)
        = .ok (some cached) := by simp [hrcpt, classifyControl, cached]
    have hstate : w.arrive hash nonce control rest = { w with
        network := rest
        arrivals := (w.committed, control) :: w.arrivals
        acks := (control, cached.state) :: w.acks } := by
      simp [World.arrive, Provider.handleControl, hclass]
    rw [hstate]
    exact { h with
      network := hmem
      order := horder.2
      agreed := { h.agreed with arrivals := harr (.inl hreplay) } }
  · have hcur : some control = current := by
      rcases h.network control (hnet ▸ mem_cons_self) with hc | hc
      exacts [absurd hc hreplay, hc]
    have hnext : seqOf w.committed + 1 = seqOf current := by
      rcases h.committed with hc | hc
      exacts [absurd (hcur.trans hc.symm) hreplay, hc]
    have hseq : control.controlSeq = seqOf w.committed + 1 := by
      rw [hnext, ← hcur]
      rfl
    have hclass := classify_next (hash control) h.receipt hseq
    cases happly : w.provider.apply w.provider.phase nonce control with
    | error code =>
      have hstate : w.arrive hash nonce control rest = { w with
          network := rest
          arrivals := (w.committed, control) :: w.arrivals } := by
        simp [World.arrive, Provider.handleControl, hclass, happly]
      rw [hstate]
      exact { h with
        network := hmem
        order := horder.2
        agreed := { h.agreed with arrivals := harr (.inr hseq) } }
    | ok result =>
      obtain ⟨p, state⟩ := result
      have hrest : ∀ c ∈ rest, some c = some control := by
        intro c hc
        rw [hcur]
        exact horder.1 c hc hcur
      simp only [World.arrive, Provider.handleControl, hclass, happly]
      refine { h with
        numbered := ?_
        committed := .inl hcur
        receipt := ⟨state, rfl⟩
        network := fun c hc => .inl (hrest c hc)
        order := horder.2
        agreed := { h.agreed with arrivals := harr (.inr hseq) } }
      -- a close waits only when the current control is committed, and this one was not
      intro c hc
      have := (h.numbered c hc).2.1
      exact absurd (hcur.trans this.symm) hreplay

/-- A control that is kept carries the last number. -/
theorem controlSeq_of_mem (hmem : control ∈ w.consumer.controls) :
    control.controlSeq = w.consumer.lastControlSeq := by
  rw [h.last, ← h.controls control hmem]
  rfl

/-- A close that was numbered is sent for the first time. -/
theorem sendClose (hnum : w.consumer.numbered = some control) :
    InvAt hash { w.publish control control.controlSeq with
      consumer := { w.consumer with
        lastControlSeq := control.controlSeq
        numbered := none
        closing := some control } } (some control) := by
  obtain ⟨hseq, hcomm, hnone⟩ := h.numbered control hnum
  have hcons : ({ w.consumer with
      lastControlSeq := control.controlSeq
      numbered := none
      closing := some control } : Consumer).controls = [control] := by
    simp only [Consumer.controls, append_eq_nil_iff] at hnone ⊢
    simp [hnone.1.1, hnone.1.2]
  have hpump : ∀ seq, w.consumer.pump ≠ .activating seq := by
    intro seq hpump
    simp [Consumer.controls, Pump.controls, hpump] at hnone
  have hinv : InvAt hash { w with consumer := { w.consumer with
      lastControlSeq := control.controlSeq
      numbered := none
      closing := some control } } (some control) := by
    refine h.number hcomm hseq hseq (fun seq hp => absurd hp (hpump seq)) ?_ rfl
    intro x hx
    rw [hcons] at hx
    exact mem_singleton.mp hx
  exact hinv.publish rfl rfl

theorem step (hstep : Step hash settled w w') : ∃ next, InvAt hash w' next := by
  cases hstep with
  | activate hpump hall =>
    obtain ⟨hseq, hnone, hnum, hnext⟩ := hall
    refine ⟨some .activate, h.number (h.committed_of_settled hseq) hnext rfl ?_ ?_ hnum⟩
    · rintro seq ⟨⟩
      rfl
    · simp only [Consumer.controls, append_eq_nil_iff] at hnone ⊢
      simp [Pump.controls, hnone.1.2, hnone.2]
  | sendActivate seq hpump =>
    have hmem : Control.activate ∈ w.consumer.controls := by
      simp [Consumer.controls, Pump.controls, hpump]
    exact ⟨current, h.publish (h.controls _ hmem) (h.activating seq hpump)⟩
  | activated seq state hpump _ _ =>
    refine ⟨current, h.setConsumer rfl (by simp) ?_ (fun _ hx => hx)⟩
    intro x hx
    simp only [Consumer.controls, mem_append] at hx ⊢
    rcases hx with (hx | hx) | hx
    · cases hx
    · exact .inl (.inr hx)
    · exact .inr hx
  | receive _ | consume _ =>
    exact ⟨current, h.setConsumer rfl (fun _ hp => hp) (fun _ hx => hx) (fun _ hx => hx)⟩
  | pulse id lastSent hpump _ _ hall | endAck hpump hall =>
    obtain ⟨hseq, hnone, hnum, hnext⟩ := hall
    refine ⟨_, h.number (h.committed_of_settled hseq) hnext rfl (by simp) ?_ hnum⟩
    simp only [Consumer.controls, append_eq_nil_iff] at hnone ⊢
    simp [Pump.controls, hnone.1.2, hnone.2]
  | sendReserved control hpump =>
    have hmem : control ∈ w.consumer.controls := by simp [Consumer.controls, Pump.controls, hpump]
    have hpub := h.publish (h.controls _ hmem) (h.controlSeq_of_mem hmem)
    refine ⟨current, hpub.setConsumer rfl ?_ ?_ (fun _ hx => hx)⟩
    · cases control <;> simp [World.pumpAfter]
    · intro x hx
      have hafter : (World.pumpAfter control).controls = [] := by cases control <;> rfl
      simp only [Consumer.controls, hafter, nil_append, mem_append] at hx
      simp only [Consumer.controls, mem_append]
      exact hx.imp_left .inr
  | credit hpump _ _ hall =>
    obtain ⟨hseq, hnone, hnum, hnext⟩ := hall
    refine ⟨_, h.number (h.committed_of_settled hseq) hnext rfl (by simp [hpump]) ?_ hnum⟩
    simp only [Consumer.controls, append_eq_nil_iff] at hnone ⊢
    simp [hnone.1.1, hnone.2]
  | sendCredit control _ hkept | resendClose control hkept =>
    have hmem : control ∈ w.consumer.controls := by simp [Consumer.controls, hkept]
    exact ⟨current, h.publish (h.controls _ hmem) (h.controlSeq_of_mem hmem)⟩
  | credited seq received consumed state hpump hcredit _ =>
    refine ⟨current, h.setConsumer rfl (fun _ hp => hp) ?_ (fun _ hx => hx)⟩
    intro x hx
    simp only [Consumer.controls, Option.toList_none, append_nil, mem_append] at hx ⊢
    exact hx.imp_left .inl
  | pumpEnds =>
    refine ⟨current, h.setConsumer rfl (by simp) ?_ (fun _ hx => hx)⟩
    intro x hx
    simp only [Consumer.controls, Pump.controls, nil_append, mem_append] at hx ⊢
    exact hx.imp_left .inr
  | close hall =>
    obtain ⟨hseq, hnone, hnum, hnext⟩ := hall
    refine ⟨current, { h with numbered := ?_, agreed := { h.agreed with } }⟩
    rintro c ⟨⟩
    exact ⟨hnext, h.committed_of_settled hseq, hnone⟩
  | sendClose control hnum => exact ⟨some control, h.sendClose hnum⟩
  | closeEnds =>
    refine ⟨current, h.setConsumer rfl (fun _ hp => hp) ?_ (by simp)⟩
    intro x hx
    simp only [Consumer.controls, Option.toList_none, append_nil] at hx
    exact mem_append_left _ hx
  | lose before after control hnet =>
    have hsub : (before ++ after).Sublist w.network := by
      rw [hnet]
      exact List.Sublist.append (List.Sublist.refl _) (sublist_cons_self _ _)
    exact ⟨current, { h with
      network := fun c hc => h.network c (hsub.subset hc)
      order := h.order.sublist hsub
      agreed := { h.agreed with } }⟩
  | arrive nonce control rest hnet => exact ⟨current, h.arrive hnet nonce⟩
  | publishFrame _ | challenge id _ | providerCloses =>
    refine ⟨current, h.setProvider ?_ _⟩
    rfl

end InvAt

/-- Some control is the last one numbered. -/
def Inv (hash : Control → String) (w : World) : Prop := ∃ current, InvAt hash w current

theorem inv_of_reachable (hrun : Reachable hash settled w) : Inv hash w := by
  refine Run.keeps ?_ hrun ⟨none, invAt_initial⟩
  rintro _ _ hstep ⟨_, h⟩
  exact h.step hstep

/-! ## Numbering on top of a control that is not committed -/

/-- Everything under way may be lost. -/
theorem lose_all (allowed : World → Control → Prop) (w : World) :
    ReflTransGen (Step hash allowed) w { w with network := [] } := by
  generalize hn : w.network = network
  induction network generalizing w with
  | nil =>
    have : { w with network := [] } = w := by rw [← hn]
    rw [this]
  | cons control rest ih =>
    have hlose : Step hash allowed w { w with network := [] ++ rest } := .lose [] rest control hn
    exact .head hlose (ih _ rfl)

/-- A control whose number leaves one out is refused if it arrives before all others. -/
theorem disagree_of_gap
    (hsend : Step hash always { w with network := [] } u) (hnet : u.network = [control])
    (hrcpt : ReceiptOf hash u.provider u.committed)
    (hgap : seqOf u.committed + 1 < control.controlSeq) :
    ∃ v, ReflTransGen (Step hash always) w v ∧ ¬ v.Agreed := by
  refine ⟨_, .tail (.tail (lose_all _ _) hsend) (.arrive "" control [] hnet), ?_⟩
  intro hagreed
  have hclass := classify_gap (hash control) hrcpt hgap
  have := hagreed.refusals
  simp [World.arrive, Provider.handleControl, hclass] at this

/-- Numbering a control while the last is not committed skips a number when that one is lost. -/
theorem disagree_of_uncommitted (h : Inv hash w)
    (hseq : seqOf w.committed ≠ w.consumer.lastControlSeq)
    (hpump : w.consumer.pump ≠ .prepared) (hstep : Step hash always w w')
    (hnot : ¬ Step hash settled w w') : ∃ v, ReflTransGen (Step hash always) w' v ∧ ¬ v.Agreed := by
  obtain ⟨current, h⟩ := h
  have hbehind : seqOf w.committed + 1 = w.consumer.lastControlSeq := by
    rcases h.committed with hc | hc
    · rw [hc, h.last] at hseq
      exact absurd rfl hseq
    · rw [hc, h.last]
  have hgap : seqOf w.committed + 1 < w.consumer.lastControlSeq + 1 := by omega
  cases hstep with
  | pulse id lastSent hlive _ _ _ | endAck hlive _ =>
    exact disagree_of_gap (.sendReserved _ rfl) rfl h.receipt hgap
  | credit hlive _ _ _ => exact disagree_of_gap (.sendCredit _ hlive rfl) rfl h.receipt hgap
  | close _ => exact disagree_of_gap (.sendClose _ rfl) rfl h.receipt hgap
  | activate hprepared _ => exact absurd hprepared hpump
  | sendActivate | activated | receive | consume | sendReserved | sendCredit | credited | pumpEnds
  | sendClose | closeEnds | lose | arrive | publishFrame | challenge | providerCloses =>
    exact absurd (by constructor <;> assumption) hnot
  | resendClose control hc => exact absurd (.resendClose control hc) hnot

/-- **The sides agree** in every run in which controls are numbered only when the last one is
committed and none is kept; and once the pump has started, any other numbering can lead to a
refusal. -/
theorem controls_agree_of_settled (hash : Control → String) :
    (∀ w, Reachable hash settled w → w.Agreed) ∧
    ∀ w w', Reachable hash settled w → seqOf w.committed ≠ w.consumer.lastControlSeq →
      w.consumer.pump ≠ .prepared → Step hash always w w' → ¬ Step hash settled w w' →
      ∃ v, ReflTransGen (Step hash always) w' v ∧ ¬ v.Agreed := by
  constructor
  · intro w hrun
    obtain ⟨current, h⟩ := inv_of_reachable hrun
    exact h.agreed
  · intro w w' hrun hseq hpump hstep hnot
    exact disagree_of_uncommitted (inv_of_reachable hrun) hseq hpump hstep hnot

/-- A session after its first round trip. -/
def World.active (hash : Control → String) : World where
  consumer := ⟨2, 0, 0, .running, 0, none, none, none⟩
  provider := ⟨.active, none, 0, 0, 0, some ⟨2, hash (.pulse 2 "first" 0 0), .active⟩⟩
  network := []
  acks := [(.pulse 2 "first" 0 0, .active), (.activate, .activating)]
  challenges := [("first", 0)]
  committed := some (.pulse 2 "first" 0 0)
  sent := [.pulse 2 "first" 0 0, .activate]
  arrivals := [(some .activate, .pulse 2 "first" 0 0), (none, .activate)]
  refusals := []

theorem active_reachable (hash : Control → String)
    (h : ∀ w c, settled w c → allowed w c) : Reachable hash allowed (.active hash) := by
  have h₁ : Reachable hash allowed _ :=
    .single (.activate (w := .initial) rfl (h _ _ ⟨rfl, rfl, rfl, rfl⟩))
  have h₂ := h₁.tail (.sendActivate 1 rfl)
  have h₃ := h₂.tail (.arrive "first" .activate [] rfl)
  have h₄ := h₃.tail (.activated 1 .activating rfl mem_cons_self (by decide))
  have h₅ := h₄.tail (.pulse "first" 0 rfl mem_cons_self le_rfl (h _ _ ⟨rfl, rfl, rfl, rfl⟩))
  have h₆ := h₅.tail (.sendReserved _ rfl)
  have h₇ := h₆.tail (.arrive "" _ [] rfl)
  exact h₇

theorem active_agreed :
    Reachable (fun _ => "") settled (.active fun _ => "") ∧ (World.active fun _ => "").Agreed := by
  have hrun : Reachable (fun _ => "") settled (.active fun _ => "") :=
    active_reachable _ fun _ _ hallowed => hallowed
  exact ⟨hrun, (controls_agree_of_settled _).1 _ hrun⟩

/-- The acknowledgement of a credit is lost and a challenge is answered: the credit, sent again, is
stale, and the next answer carries a used number. -/
theorem credit_retried_after_pulse :
    ∃ w, Reachable (fun _ => "") always w ∧ ¬ w.Agreed ∧ w.refusals = [.staleControl] ∧
      .pulse 4 "second" 1 1 ∈ w.sent ∧ .pulse 4 "third" 1 1 ∈ w.sent := by
  have h₀ : Reachable (fun _ => "") always (.active fun _ => "") :=
    active_reachable _ fun _ _ _ => trivial
  -- one frame is published, received and consumed, and its credit committed
  have h₁ := h₀.tail (.publishFrame rfl)
  have h₂ := h₁.tail (.receive Nat.zero_lt_one)
  have h₃ := h₂.tail (.consume Nat.zero_lt_one)
  have h₄ := h₃.tail (.credit rfl rfl Nat.zero_lt_one trivial)
  have h₅ := h₄.tail (.sendCredit _ rfl rfl)
  have h₆ := h₅.tail (.arrive "" (.ack 3 1 1) [] rfl)
  -- the next challenge is answered before the credit is retried
  have h₇ := h₆.tail (.challenge "second" rfl)
  have h₈ := h₇.tail (.pulse "second" 1 rfl mem_cons_self le_rfl trivial)
  have h₉ := h₈.tail (.sendReserved _ rfl)
  have h₁₀ := h₉.tail (.arrive "" (.pulse 4 "second" 1 1) [] rfl)
  have h₁₁ := h₁₀.tail (.sendCredit _ rfl rfl)
  have h₁₂ := h₁₁.tail (.arrive "" (.ack 3 1 1) [] rfl)
  have h₁₃ := h₁₂.tail (.challenge "third" rfl)
  have h₁₄ := h₁₃.tail (.pulse "third" 1 rfl mem_cons_self le_rfl trivial)
  have h₁₅ := h₁₄.tail (.sendReserved _ rfl)
  refine ⟨_, h₁₅, ?_, rfl, .tail _ (.tail _ (.head _)), .head _⟩
  intro hagreed
  exact absurd hagreed.refusals (cons_ne_nil _ _)

end Live
