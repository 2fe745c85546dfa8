/-
# The two peers of an upload

The caller's loop and the provider's endpoint with the two ordered channels between them.
Either side may run ahead of the other, and messages may wait for as long as they like, but
nothing is cancelled and nothing fails from outside.

Both sides keep a window of their own.  What makes every frame admissible is that the
caller's window is the stricter one: its cursor was reported by the provider, whose reader
can only have moved on since.
-/
import Trellis.Transfer.Sender

open Window DataPlane

namespace Transfer

open List Checked Relation

/-! ## Grants and activation -/

/-- What `TransferGrant::validate` makes sure of. -/
structure UploadGrant where
  limits : FlowLimits
  maxBytes : Option Nat
  frame_pos : 0 < limits.maxFrameBytes
  frame_le : limits.maxFrameBytes ≤ maxTransferFrameBytes
  frames_pos : 0 < limits.windowFrames
  frame_le_window : limits.maxFrameBytes ≤ limits.windowBytes

/-- The provider narrows the frame limit to what the caller can send and answers with it. -/
def UploadGrant.activation (grant : UploadGrant) (receiveMax : Nat) (hpos : 0 < receiveMax) :
    Activation where
  limits :=
    { grant.limits with
      maxFrameBytes := min grant.limits.maxFrameBytes receiveMax
      maxFrameBytes_lt := lt_of_le_of_lt (Nat.min_le_left _ _) grant.limits.maxFrameBytes_lt }
  frame_pos := Nat.lt_min.mpr ⟨grant.frame_pos, hpos⟩
  frame_le := (Nat.min_le_left _ _).trans grant.frame_le

/-! ## The system -/

/-- Both sides, and what is on its way between them, oldest first. -/
structure Peers where
  client : Sender
  data : List UploadMessage
  signals : List UploadSignal
  provider : Endpoint

def Peers.opened (grant : UploadGrant) (activation : Activation) (stream : Bool) (source : Bytes) :
    Peers where
  client := .opened activation grant.maxBytes source
  data := []
  signals := []
  provider := .opened grant.limits activation.limits.maxFrameBytes grant.maxBytes stream

inductive PeersStep (sha : Sha256) : Peers → Peers → Prop
  | work {p client} (h : SenderStep sha p.client .silent client) : PeersStep sha p { p with client }
  | publish {p client message} (h : SenderStep sha p.client (.publish message) client) :
      PeersStep sha p { p with client, data := p.data ++ [message] }
  | hear {p client signal signals} (hsignals : p.signals = signal :: signals)
      (h : SenderStep sha p.client (.take signal) client) :
      PeersStep sha p { p with client, signals }
  | serve {p provider} (h : EndpointStep sha p.provider .silent provider) :
      PeersStep sha p { p with provider }
  | deliver {p provider message data} (hdata : p.data = message :: data)
      (h : EndpointStep sha p.provider (.take message) provider) :
      PeersStep sha p { p with provider, data }
  | emit {p provider signal} (h : EndpointStep sha p.provider (.emit signal) provider) :
      PeersStep sha p { p with provider, signals := p.signals ++ [signal] }

/-! ## Cursors on their way -/

/-- Credits on their way rise from the caller's cursors to the provider's. -/
def Cursors (total : Nat → Nat) (receivedMax consumedMax : Nat) :
    Nat → Nat → List UploadSignal → Prop
  | received, consumed, .credit received' consumed' bytes :: rest =>
    received ≤ received' ∧ consumed ≤ consumed' ∧ consumed' ≤ received' ∧
      bytes = total consumed' ∧ Cursors total receivedMax consumedMax received' consumed' rest
  | received, consumed, _ => received ≤ receivedMax ∧ consumed ≤ consumedMax

variable {signals : List UploadSignal} {consumed : Nat} {e provider : Endpoint}
  {data tail : List UploadMessage} {client : Sender} {p : Peers}

theorem Cursors.le (h : Cursors total receivedMax consumedMax received consumed signals) :
    received ≤ receivedMax ∧ consumed ≤ consumedMax := by
  fun_induction Cursors total receivedMax consumedMax received consumed signals with
  | case1 received consumed received' consumed' bytes rest ih =>
    obtain ⟨hrecv, hcons, -, -, hrest⟩ := h
    obtain ⟨hrecv', hcons'⟩ := ih hrest
    exact ⟨hrecv.trans hrecv', hcons.trans hcons'⟩
  | case2 => exact h

theorem Cursors.mono (htotal : ∀ seq ≤ consumedMax, total' seq = total seq)
    (hrecv : receivedMax ≤ receivedMax') (hcons : consumedMax ≤ consumedMax')
    (h : Cursors total receivedMax consumedMax received consumed signals) :
    Cursors total' receivedMax' consumedMax' received consumed signals := by
  fun_induction Cursors total receivedMax consumedMax received consumed signals with
  | case1 received consumed received' consumed' bytes rest ih =>
    obtain ⟨hr, hc, hle, hbytes, hrest⟩ := h
    refine ⟨hr, hc, hle, ?_, ih hrest⟩
    rw [hbytes, htotal consumed' hrest.le.2]
  | case2 signals received consumed hsigs =>
    rw [Cursors]
    · exact ⟨h.1.trans hrecv, h.2.trans hcons⟩
    · exact hsigs

/-- A signal may follow if it may follow any cursors that are not ahead of the provider's. -/
theorem Cursors.concat
    (hsignal : ∀ received consumed, received ≤ receivedMax → consumed ≤ consumedMax →
      Cursors total receivedMax consumedMax received consumed [signal])
    (h : Cursors total receivedMax consumedMax received consumed signals) :
    Cursors total receivedMax consumedMax received consumed (signals ++ [signal]) := by
  fun_induction Cursors total receivedMax consumedMax received consumed signals with
  | case1 received consumed received' consumed' bytes rest ih =>
    obtain ⟨hr, hc, hle', hbytes, hrest⟩ := h
    exact ⟨hr, hc, hle', hbytes, ih hrest⟩
  | case2 signals received consumed hsigs =>
    cases signals with
    | nil => exact hsignal received consumed h.1 h.2
    | cons signal signals =>
      rw [Cursors]
      · exact h
      · intro received' consumed' bytes rest heq
        exact hsigs received' consumed' bytes signals (by rw [(List.cons.inj heq).1])

/-! ## What a frame needs -/

/-- The frame the provider has taken and not yet admitted. -/
def Phase.taken : Phase → List Bytes
  | .admitting _ bytes _ => [bytes]
  | .serving | .finishing _ _ _ | .storing _ _ _ | .recording _ _ _ | .done | .failed => []

theorem Phase.closed_of_ending {phase : Phase} (h : phase.ending = some completion) :
    phase.taken = [] ∧ phase.isOpen = false ∧ phase ≠ .done := by
  cases phase with
  | finishing | storing | recording => exact ⟨rfl, rfl, nofun⟩
  | serving | admitting | done | failed => cases h

theorem bytesUpTo_append (h : seq ≤ frames.length) :
    bytesUpTo (frames ++ more) seq = bytesUpTo frames seq := by
  rw [bytesUpTo, map_append, take_append_of_le_length (by rwa [length_map])]
  rfl

theorem bytesUpTo_mono (h : seq ≤ seq') : bytesUpTo frames seq ≤ bytesUpTo frames seq' := by
  have hsplit := sum_take_add_drop ((frames.map List.length).take seq') seq
  rw [take_take, Nat.min_eq_left h] at hsplit
  unfold bytesUpTo
  omega

theorem bytesUpTo_le : bytesUpTo frames seq ≤ frames.flatten.length := by
  have hsplit := sum_take_add_drop (frames.map List.length) seq
  rw [sum_map_length] at hsplit
  unfold bytesUpTo
  omega

theorem bytesUpTo_eq_zero (hne : ∀ frame ∈ frames, frame ≠ [])
    (h : seq ≤ frames.length) : seq = 0 ↔ bytesUpTo frames seq = 0 := by
  constructor
  · rintro rfl
    rfl
  · intro hzero
    cases frames with
    | nil => exact Nat.le_zero.mp h
    | cons frame frames =>
      cases seq with
      | zero => rfl
      | succ seq =>
        have hlen := length_pos_iff.mpr (hne frame mem_cons_self)
        rw [bytesUpTo, map_cons, take_succ_cons, sum_cons] at hzero
        omega

/-- The frame is the next one and fits the window as it was seen. -/
structure Fits (e : Endpoint) (seq : Nat) (bytes : Bytes) (seen : Consumed) : Prop where
  seq_eq : seq = e.frames.length + 1
  bytes_ne : bytes ≠ []
  frame_le : bytes.length ≤ e.session.maxFrameBytes
  frame_le_limit : bytes.length ≤ e.session.received.limits.maxFrameBytes
  consumed_le : e.session.received.highestConsumed ≤ seen.seq
  seen_le : seen.seq ≤ e.reader.consumed.seq
  seen_bytes : seen.bytes = bytesUpTo e.frames seen.seq
  room : e.frames.length + 1 ≤ seen.seq + e.session.received.limits.windowFrames
  bytes_le : e.frames.flatten.length + bytes.length
    ≤ bytesUpTo e.frames seen.seq + e.session.received.limits.windowBytes
  seq_lt : seq < 2 ^ 64
  total : e.frames.flatten.length + bytes.length < 2 ^ 64
  maxBytes : ∀ max ∈ e.session.maxBytes, e.frames.flatten.length + bytes.length ≤ max

/-- The channel of a serving endpoint. -/
structure Attached (e : Endpoint) : Prop where
  receiver : e.channel.receiverAlive = true
  capacity : e.session.received.limits.windowFrames < e.channel.capacity
  sender : e.phase.isOpen = true → e.channel.senderAlive = true
  running : e.phase.isOpen = true → e.session.complete = false

/-- A frame that fits is admitted. -/
theorem Fits.admissible (h : Fits e seq bytes seen) (hinv : e.Inv sha) (hatt : Attached e)
    (hphase : e.phase = .admitting seq bytes seen) :
    ∃ credited, Admissible e.session e.channel seen seq bytes credited := by
  have hopen : e.phase.isOpen = true := by rw [hphase]; rfl
  obtain ⟨hled, htrans, -⟩ := hinv.account (by rw [hphase]; nofun)
  obtain ⟨done, now, waiting, head, hread⟩ := hinv.withheld (by rw [hphase]; rfl)
  have hlen := hled.length_eq
  have hcons := hread.consumed_eq.1
  have hseen := h.seen_le
  have hvalid : e.session.received.validateCredit e.session.received.highestSent seen.seq
      (some seen.bytes) = .ok () := by
    refine hled.validateCredit_ok.mpr ⟨by omega, le_refl _, hled.received_le, h.consumed_le, ?_⟩
    intro reported hreported
    cases hreported
    exact h.seen_bytes
  obtain ⟨credited, hcredit⟩ := SenderWindow.exists_applyCredit hvalid
  obtain ⟨hcred, hlimits, hsent, -, hcursor⟩ := hled.credit hcredit
  have hframes : credited.frames.length = e.frames.length - seen.seq := by
    rw [hcred.frames_length, hsent, hcursor, hlen]
  have hout : credited.outstandingBytes + bytesUpTo e.frames seen.seq
      = e.frames.flatten.length := by
    rw [hcred.outstanding, hcursor, bytesUpTo, Nat.add_comm, sum_take_add_drop, sum_map_length]
  have hqueue : e.channel.queue.length ≤ e.frames.length - e.reader.consumed.seq := by
    rw [hread.queue, hread.admitted, hread.consumed_seq, append_nil, queued,
      length_map, length_numbered]
    simp only [length_append]
    omega
  have hroom := h.room
  have hbytes := h.bytes_le
  have hcapacity := hatt.capacity
  refine ⟨credited, h.bytes_ne, hatt.running hopen, hcredit, ?_, ?_, ?_, ?_,
    hatt.sender hopen, hatt.receiver, by omega⟩
  · rw [SenderWindow.validateFrameSlot_ok, hlimits]
    exact ⟨h.frame_le_limit, h.frame_le, by omega, by omega⟩
  · rw [SenderWindow.nextFrameSeq_ok]
    have := h.seq_lt
    have := h.seq_eq
    exact ⟨by omega, by omega⟩
  · rw [htrans]
    exact h.total
  · rw [htrans]
    exact h.maxBytes

/-! ## The joint invariant -/

/-- Frames on their way, numbered after those before them. -/
def inFlight (start : Nat) (frames : List Bytes) : List UploadMessage :=
  (numbered start frames).map fun entry => .data entry.1 entry.2

theorem inFlight_concat : inFlight start (frames ++ [frame])
      = inFlight start frames ++ [.data (start + frames.length + 1) frame] := by
  unfold inFlight
  rw [numbered_concat, map_append]
  rfl

/-- The completion of what was sent. -/
def Sender.completion (sha : Sha256) (s : Sender) : UploadMessage :=
  .complete s.window.highestSent s.transferred (digestText sha s.hashed)

/-- Both sides work under the activated limits. -/
structure Negotiated (limits : FlowLimits) (maxBytes : Option Nat) (session : UploadSession) :
    Prop where
  frame : limits.maxFrameBytes = session.maxFrameBytes
  frame_le : session.maxFrameBytes ≤ session.received.limits.maxFrameBytes
  frames : limits.windowFrames = session.received.limits.windowFrames
  bytes : limits.windowBytes = session.received.limits.windowBytes
  maxBytes_eq : maxBytes = session.maxBytes

theorem Negotiated.congr (h : Negotiated limits maxBytes session)
    (hframe : session'.maxFrameBytes = session.maxFrameBytes)
    (hlimits : session'.received.limits = session.received.limits)
    (hmax : session'.maxBytes = session.maxBytes) : Negotiated limits maxBytes session' := by
  obtain ⟨hsame, hle, hframes, hbytes, hmaxBytes⟩ := h
  rw [← hframe] at hsame hle
  rw [← hlimits] at hle hframes hbytes
  exact ⟨hsame, hle, hframes, hbytes, hmaxBytes.trans hmax.symm⟩

/-- What was sent is what was admitted, the frame being admitted and what is on its way. -/
structure Flight (sha : Sha256) (client : Sender) (provider : Endpoint) (data : List UploadMessage)
    (waiting : List Bytes) (tail : List UploadMessage) : Prop where
  sent : client.sent = provider.frames ++ provider.phase.taken ++ waiting
  data_eq : data = inFlight (provider.frames.length + provider.phase.taken.length) waiting ++ tail
  valid : ∀ message ∈ data, message.Valid
  tail_eq : tail = [] ∨ tail = [client.completion sha] ∧ client.completeSent = true
  closed : provider.phase.isOpen = false → client.completeSent = true ∧ data = []

structure Peers.Inv (sha : Sha256) (source : Bytes) (p : Peers) : Prop where
  client : p.client.Inv sha source
  provider : p.provider.Inv sha
  attached : Attached p.provider
  negotiated : Negotiated p.client.window.limits p.client.maxBytes p.provider.session
  total : p.client.transferred < 2 ^ 64
  maxBytes : ∀ max ∈ p.client.maxBytes, p.client.transferred ≤ max
  flight : ∃ waiting tail, Flight sha p.client p.provider p.data waiting tail
  terminal : p.client.completeSent = true → (p.client.completion sha).Valid
  fits : ∀ seq bytes seen, p.provider.phase = .admitting seq bytes seen →
    Fits p.provider seq bytes seen
  consumed : p.provider.session.received.highestConsumed ≤ p.provider.reader.consumed.seq
  cursors : p.client.outcome = none → Cursors (bytesUpTo p.client.sent) p.provider.frames.length
    p.provider.reader.consumed.seq p.client.window.highestReceived p.client.window.highestConsumed
    p.signals
  behind : p.client.window.highestConsumed ≤ p.provider.reader.consumed.seq
  consumedBytes : p.client.consumedBytes = bytesUpTo p.client.sent p.client.window.highestConsumed
  signals : ∀ signal ∈ p.signals, (∃ received consumed bytes,
      signal = .credit received consumed bytes) ∨
    p.provider.phase = .done ∧ ∃ finalSeq size digest, signal = .committed finalSeq size digest ∧
      Completes sha p.provider.frames (finalSeq, size, digest)
  healthy : p.provider.phase ≠ .failed
  running : p.client.outcome ≠ some .failed

theorem Peers.Inv.opened (sha : Sha256) (grant : UploadGrant) (receiveMax : Nat)
    (hpos : 0 < receiveMax) (stream : Bool) (source : Bytes) :
    (Peers.opened grant (grant.activation receiveMax hpos) stream source).Inv sha source where
  client := .opened sha _ _ source
  provider := .opened sha _ _ _ stream
  attached := ⟨rfl, Nat.lt_succ_self _, fun _ => rfl, fun _ => rfl⟩
  negotiated := ⟨rfl, Nat.min_le_left _ _, rfl, rfl, rfl⟩
  total := Nat.two_pow_pos 64
  maxBytes := fun max _ => Nat.zero_le max
  flight := ⟨[], [], rfl, rfl, nofun, .inl rfl, nofun⟩
  terminal := nofun
  fits := nofun
  consumed := le_refl _
  cursors := fun _ => ⟨le_refl _, le_refl _⟩
  behind := le_refl _
  consumedBytes := rfl
  signals := nofun
  healthy := nofun
  running := nofun

/-! ## Steps of the caller -/

variable (h : p.Inv sha source)
include h

/-- The frames the provider has seen are the first ones that were sent. -/
theorem Peers.Inv.frames_le : p.provider.frames.length ≤ p.client.sent.length := by
  obtain ⟨waiting, tail, hfly⟩ := h.flight
  rw [hfly.sent, length_append, length_append]
  omega

theorem Peers.Inv.consumed_le : p.provider.reader.consumed.seq ≤ p.provider.frames.length := by
  obtain ⟨tail, done, now, waiting, head, hread, -⟩ := h.provider.reading
  exact hread.consumed_eq.1

theorem Peers.Inv.gather (hclient : (p.client.gathered frame rest).Inv sha source) :
    Peers.Inv sha source { p with client := p.client.gathered frame rest } := by
  obtain ⟨waiting, tail, hfly⟩ := h.flight
  revert hclient
  unfold Sender.gathered
  split <;> intro hclient <;>
    exact { h with client := hclient, flight := ⟨waiting, tail, { hfly with }⟩ }

/-- Until the provider is done it has only sent credits. -/
theorem Peers.Inv.credits (hphase : p.provider.phase ≠ .done)
    (signal : UploadSignal) (hmem : signal ∈ p.signals) :
    ∃ received consumed bytes, signal = .credit received consumed bytes := by
  rcases h.signals signal hmem with hcredit | ⟨hdone, -⟩
  · exact hcredit
  · exact absurd hdone hphase

/-- Before the completion is sent the provider is open and nothing follows the frames. -/
theorem Peers.Inv.open_of_unfinished (hcompl : p.client.completeSent = false) :
    p.provider.phase.isOpen = true ∧
      ∃ waiting, Flight sha p.client p.provider p.data waiting [] := by
  obtain ⟨waiting, tail, hfly⟩ := h.flight
  constructor
  · cases hopen : p.provider.phase.isOpen with
    | true => rfl
    | false =>
      rw [(hfly.closed hopen).1] at hcompl
      cases hcompl
  · rcases hfly.tail_eq with rfl | ⟨-, hsent⟩
    · exact ⟨waiting, hfly⟩
    · rw [hsent] at hcompl
      cases hcompl

/-- A frame that is sent joins those on their way. -/
theorem Peers.Inv.send (hlive : p.client.outcome = none) (hstaged : p.client.staged = some bytes)
    (hcom : p.client.window.commitFrame seq bytes.length = (.ok (), window))
    (hvalid : (UploadMessage.data seq bytes).Valid)
    (htotal : p.client.transferred + bytes.length < 2 ^ 64)
    (hmax : ∀ max ∈ p.client.maxBytes, p.client.transferred + bytes.length ≤ max) :
    Peers.Inv sha source { p with
      client := { p.client with
        staged := none
        window
        hashed := p.client.hashed ++ bytes
        transferred := p.client.transferred + bytes.length
        sent := p.client.sent ++ [bytes] }
      data := p.data ++ [.data seq bytes] } := by
  have hclient := h.client.send hlive hstaged hcom
  have hunfinished : p.client.completeSent = false := by
    cases hcompl : p.client.completeSent with
    | false => rfl
    | true =>
      rw [(h.client.complete hcompl).2.1] at hstaged
      cases hstaged
  obtain ⟨hopen, waiting, hfly⟩ := h.open_of_unfinished hunfinished
  have hlen := h.client.ledger.length_eq
  obtain ⟨-, hnext, rfl⟩ := SenderWindow.commitFrame_ok.mp hcom
  obtain ⟨-, rfl⟩ := SenderWindow.nextFrameSeq_ok.mp hnext
  have hstart : p.provider.frames.length + p.provider.phase.taken.length + waiting.length
      = p.client.window.highestSent := by
    rw [← hlen, hfly.sent, length_append, length_append]
  have hcursor := h.client.ledger.consumed_le.trans h.client.ledger.received_le
  refine { h with
    client := hclient, total := htotal, maxBytes := hmax
    flight := ⟨waiting ++ [bytes], [], ?_, ?_, ?_, .inl rfl, ?_⟩
    terminal := ?_, cursors := ?_, consumedBytes := ?_ }
  · show p.client.sent ++ [bytes] = p.provider.frames ++ p.provider.phase.taken ++
      (waiting ++ [bytes])
    rw [hfly.sent, append_assoc _ waiting]
  · show p.data ++ [.data (p.client.window.highestSent + 1) bytes] = _
    rw [inFlight_concat, hstart, hfly.data_eq, append_nil, append_nil]
  · exact forall_mem_concat hfly.valid hvalid
  · simp [hopen]
  · simp [hunfinished]
  · intro hlive
    refine (h.cursors hlive).mono ?_ (le_refl _) (le_refl _)
    intro seq hseq
    exact bytesUpTo_append (hseq.trans (h.consumed_le.trans h.frames_le))
  · show p.client.consumedBytes
      = bytesUpTo (p.client.sent ++ [bytes]) p.client.window.highestConsumed
    rw [bytesUpTo_append (by omega)]
    exact h.consumedBytes

/-- The completion follows the frames. -/
theorem Peers.Inv.complete (hclient : Sender.Inv sha source { p.client with completeSent := true })
    (hcompl : p.client.completeSent = false) (hvalid : (p.client.completion sha).Valid) :
    Peers.Inv sha source { p with
      client := { p.client with completeSent := true }
      data := p.data ++ [p.client.completion sha] } := by
  obtain ⟨hopen, waiting, hfly⟩ := h.open_of_unfinished hcompl
  refine { h with
    client := hclient
    flight := ⟨waiting, [p.client.completion sha], hfly.sent, ?_, ?_, .inr ⟨rfl, rfl⟩, ?_⟩
    terminal := fun _ => hvalid }
  · rw [hfly.data_eq, append_nil]
  · exact forall_mem_concat hfly.valid hvalid
  · simp [hopen]

/-- A credit on its way is one the caller's window takes. -/
theorem Peers.Inv.credit_accepted {bytes : Nat} (hlive : p.client.outcome = none)
    (hsigs : p.signals = .credit received consumed bytes :: signals) :
    (UploadSignal.credit received consumed bytes).Valid ∧
      ∃ window, p.client.window.applyCredit received consumed (some bytes) = (.ok (), window) ∧
        p.client.credited received consumed bytes
          = { p.client with window, consumedBytes := bytes } := by
  have hcursors := h.cursors hlive
  rw [hsigs] at hcursors
  obtain ⟨hrecv, hcons, hle, rfl, hrest⟩ := hcursors
  have hlen := h.client.ledger.length_eq
  have hsent : received ≤ p.client.sent.length := hrest.le.1.trans h.frames_le
  have hvalid : p.client.window.validateCredit received consumed
      (some (bytesUpTo p.client.sent consumed)) = .ok () := by
    refine h.client.ledger.validateCredit_ok.mpr ⟨hle, by omega, hrecv, hcons, ?_⟩
    intro reported hreported
    cases hreported
    rfl
  obtain ⟨window, hcredit⟩ := SenderWindow.exists_applyCredit hvalid
  refine ⟨⟨hle, ?_⟩, window, hcredit, ?_⟩
  · exact bytesUpTo_eq_zero h.client.frames_ne (hle.trans hsent)
  · unfold Sender.credited
    rw [if_neg, hcredit]
    rw [h.consumedBytes, h.client.transferred, not_or, Nat.not_lt, Nat.not_lt]
    exact ⟨bytesUpTo_mono hcons, bytesUpTo_le⟩

/-- The commitment on its way is one the caller takes. -/
theorem Peers.Inv.committed_accepted (hmem : .committed finalSeq size digest ∈ p.signals) :
    (UploadSignal.committed finalSeq size digest).Valid ∧
      p.client.committed sha finalSeq size digest
        = { p.client with outcome := some (.ok finalSeq size digest) } := by
  rcases h.signals _ hmem with ⟨_, _, _, heq⟩ | ⟨hphase, finalSeq', size', digest', heq, hcompletes⟩
  · cases heq
  obtain ⟨rfl, rfl, rfl⟩ : finalSeq = finalSeq' ∧ size = size' ∧ digest = digest' := by
    simpa using heq
  obtain ⟨waiting, tail, hfly⟩ := h.flight
  obtain ⟨hcompl, hdata⟩ := hfly.closed (by rw [hphase]; rfl)
  -- with nothing on its way or in hand, everything sent was admitted
  have hsent : p.client.sent = p.provider.frames := by
    have hnil := hfly.data_eq
    rw [hdata] at hnil
    cases waiting with
    | nil =>
      rw [hfly.sent, hphase]
      exact (append_nil _).trans (append_nil _)
    | cons frame waiting => cases hnil
  obtain ⟨rfl, hrest⟩ := Prod.mk.inj hcompletes
  cases hrest
  have hlen := h.client.ledger.length_eq
  constructor
  · have hvalid := h.terminal hcompl
    rw [Sender.completion, ← hlen, h.client.transferred, h.client.hashed, hsent] at hvalid
    exact hvalid
  · unfold Sender.committed
    rw [if_neg]
    rw [hcompl, ← hlen, h.client.transferred, h.client.hashed, hsent,
      (transferDigestsMatch_iff (validDigest_digestText sha _)
        (validDigest_digestText sha _)).mpr rfl]
    simp

/-- What is heard is taken. -/
theorem Peers.Inv.hear (hsigs : p.signals = signal :: signals)
    (hstep : SenderStep sha p.client (.take signal) client) :
    Peers.Inv sha source { p with client, signals } := by
  have hclient := h.client.step hstep
  have hmem : signal ∈ p.signals := hsigs ▸ mem_cons_self
  have hothers : ∀ other ∈ signals, other ∈ p.signals :=
    fun _ hother => hsigs ▸ mem_cons_of_mem _ hother
  obtain ⟨waiting, tail, hfly⟩ := h.flight
  rcases h.signals signal hmem with ⟨received, consumed, bytes, rfl⟩ |
    ⟨hphase, finalSeq, size, digest, rfl, hcompl⟩
  · cases hstep with
    | skip hlive hvalid => exact absurd (h.credit_accepted hlive hsigs).1 hvalid
    | signal hlive hvalid =>
      obtain ⟨-, window, hcredit, heq⟩ := h.credit_accepted hlive hsigs
      change (p.client.credited received consumed bytes).Inv sha source at hclient
      show Peers.Inv sha source { p with
        client := p.client.credited received consumed bytes, signals }
      rw [heq] at hclient ⊢
      obtain ⟨-, hlimits, hsent, hrecv, hcons⟩ := h.client.ledger.credit hcredit
      have hcompletion : Sender.completion sha { p.client with window, consumedBytes := bytes }
          = p.client.completion sha := by
        unfold Sender.completion
        rw [hsent]
      have hcursors := h.cursors hlive
      rw [hsigs] at hcursors
      obtain ⟨-, -, -, hbytes, hrest⟩ := hcursors
      refine { h with
        client := hclient, negotiated := ?_
        flight := ⟨waiting, tail, { hfly with tail_eq := ?_ }⟩
        terminal := ?_, cursors := ?_, behind := ?_, consumedBytes := ?_
        signals := fun other hother => h.signals other (hothers other hother) }
      · rw [hlimits]
        exact h.negotiated
      · rw [hcompletion]
        exact hfly.tail_eq
      · rw [hcompletion]
        exact h.terminal
      · intro _
        rw [hrecv, hcons]
        exact hrest
      · rw [hcons]
        exact hrest.le.2
      · rw [hcons]
        exact hbytes
  · obtain ⟨hacc, heq⟩ := h.committed_accepted hmem
    cases hstep with
    | skip hlive hvalid => exact absurd hacc hvalid
    | signal hlive hvalid =>
      change (p.client.committed sha finalSeq size digest).Inv sha source at hclient
      show Peers.Inv sha source { p with
        client := p.client.committed sha finalSeq size digest, signals }
      rw [heq] at hclient ⊢
      exact { h with
        client := hclient, flight := ⟨waiting, tail, { hfly with }⟩, cursors := nofun
        signals := fun other hother => h.signals other (hothers other hother), running := nofun }

/-! ## Steps of the provider -/

/-- The provider goes on without admitting a frame. -/
structure Advances (e e' : Endpoint) : Prop where
  frames : e'.frames = e.frames
  taken : e'.phase.taken = e.phase.taken
  isOpen : e'.phase.isOpen = e.phase.isOpen
  done : e.phase = .done → e'.phase = .done
  healthy : e'.phase ≠ .failed
  maxFrameBytes : e'.session.maxFrameBytes = e.session.maxFrameBytes
  limits : e'.session.received.limits = e.session.received.limits
  maxBytes : e'.session.maxBytes = e.session.maxBytes
  reader : e.reader.consumed.seq ≤ e'.reader.consumed.seq
  consumed : e'.session.received.highestConsumed ≤ e'.reader.consumed.seq

theorem Peers.Inv.advance (hinv : e.Inv sha) (hatt : Attached e) (hadv : Advances p.provider e)
    (hfits : ∀ seq bytes seen, e.phase = .admitting seq bytes seen → Fits e seq bytes seen) :
    Peers.Inv sha source { p with provider := e } := by
  obtain ⟨waiting, tail, hfly⟩ := h.flight
  refine { h with
    provider := hinv, attached := hatt
    negotiated := h.negotiated.congr hadv.maxFrameBytes hadv.limits hadv.maxBytes
    flight := ⟨waiting, tail, { hfly with sent := ?_, data_eq := ?_, closed := ?_ }⟩
    fits := hfits, consumed := hadv.consumed, cursors := ?_
    behind := h.behind.trans hadv.reader, signals := ?_, healthy := hadv.healthy }
  · rw [hadv.frames, hadv.taken]
    exact hfly.sent
  · rw [hadv.frames, hadv.taken]
    exact hfly.data_eq
  · rw [hadv.isOpen]
    exact hfly.closed
  · intro hlive
    rw [hadv.frames]
    exact (h.cursors hlive).mono (fun _ _ => rfl) (le_refl _) hadv.reader
  · intro signal hmem
    rw [hadv.frames]
    exact (h.signals signal hmem).imp_right fun ⟨hphase, hrest⟩ => ⟨hadv.done hphase, hrest⟩

/-- The provider's cursors are reported. -/
theorem Peers.Inv.report : Peers.Inv sha source { p with
      signals := p.signals ++ [.credit p.provider.frames.length p.provider.reader.consumed.seq
        p.provider.reader.consumed.bytes] } := by
  obtain ⟨waiting, tail, hfly⟩ := h.flight
  refine { h with cursors := ?_, signals := ?_ }
  · intro hlive
    obtain ⟨_, done, now, waiting', head, hread, -⟩ := h.provider.reading
    have hbytes : p.provider.reader.consumed.bytes
        = bytesUpTo p.client.sent p.provider.reader.consumed.seq := by
      rw [hread.consumed_eq.2, hfly.sent, append_assoc, bytesUpTo_append h.consumed_le]
    rw [hbytes]
    exact (h.cursors hlive).concat fun _ _ hrecv hcons =>
      ⟨hrecv, hcons, h.consumed_le, rfl, le_refl _, le_refl _⟩
  · exact forall_mem_concat h.signals (.inl ⟨_, _, _, rfl⟩)

/-- The commitment is sent. -/
theorem Peers.Inv.commit (hphase : p.provider.phase = .done)
    (hcompl : Completes sha p.provider.frames (finalSeq, size, digest)) :
    Peers.Inv sha source { p with
      signals := p.signals ++ [.committed finalSeq size digest] } := by
  refine { h with cursors := ?_, signals := ?_ }
  · intro hlive
    exact (h.cursors hlive).concat fun _ _ hrecv hcons => ⟨hrecv, hcons⟩
  · exact forall_mem_concat h.signals (.inr ⟨hphase, finalSeq, size, digest, rfl, hcompl⟩)

omit h

/-- The reader's cursor counts the frames read to their ends. -/
theorem Endpoint.Inv.consumed_eq (h : e.Inv sha) :
    e.reader.consumed.seq = wholeFrames e.frames e.read.length := by
  obtain ⟨tail, done, now, waiting, head, hread, -⟩ := h.reading
  exact (hread.wholeFrames_eq h.frames_ne).symm

theorem Fits.mono
    (h : Fits e seq bytes seen) (hframes : e'.frames = e.frames) (hsession : e'.session = e.session)
    (hreader : e.reader.consumed.seq ≤ e'.reader.consumed.seq) : Fits e' seq bytes seen := by
  obtain ⟨hseq, hne, hframe, hlimit, hcons, hseen, hbytes, hroom, hle, hlt, htotal, hmax⟩ := h
  rw [← hframes] at hseq hbytes hroom hle htotal hmax
  rw [← hsession] at hframe hlimit hcons hroom hle hmax
  exact ⟨hseq, hne, hframe, hlimit, hcons, hseen.trans hreader, hbytes, hroom, hle, hlt, htotal,
    hmax⟩

include h

/-- Reads may happen at any time. -/
theorem Peers.Inv.read
    (hpoll : p.provider.reader.pollRead p.provider.channel remaining = (result, reader, channel)) :
    Peers.Inv sha source { p with
      provider := { p.provider with
        reader
        channel
        read := p.provider.read ++ result.bytes
        eof := p.provider.eof || (remaining ≠ 0 && result = .ready []) } } := by
  have hinv := h.provider.readStep hpoll
  have hreader : p.provider.reader.consumed.seq ≤ reader.consumed.seq := by
    rw [h.provider.consumed_eq, hinv.consumed_eq]
    refine wholeFrames_mono _ ?_
    rw [length_append]
    omega
  obtain ⟨queue, rfl⟩ := FrameReader.pollRead_channel hpoll
  refine h.advance hinv { h.attached with } ⟨rfl, rfl, rfl, id, h.healthy, rfl, rfl, rfl, hreader,
    h.consumed.trans hreader⟩ ?_
  intro seq bytes seen hphase
  exact (h.fits seq bytes seen hphase).mono rfl rfl hreader

/-- An admitted frame moves from the provider's hands into its account. -/
theorem Peers.Inv.accept (hphase : p.provider.phase = .admitting seq bytes seen)
    (hacc : p.provider.session.admitFrame p.provider.channel seen seq bytes
      = (.ok (), session, channel)) : Peers.Inv sha source { p with
      provider := { p.provider with
        session, channel, phase := .serving,
        admitted := p.provider.admitted ++ [(seq, bytes)] } } := by
  have hinv := h.provider.accept hphase hacc
  have hfits := h.fits seq bytes seen hphase
  obtain ⟨hled, -, -⟩ := h.provider.account (by rw [hphase]; nofun)
  have hopen : p.provider.phase.isOpen = true := by rw [hphase]; rfl
  have hframes : (p.provider.admitted ++ [(seq, bytes)]).map Prod.snd
      = p.provider.frames ++ [bytes] := by
    rw [map_append]
    rfl
  have htaken : p.provider.phase.taken = [bytes] := by rw [hphase]; rfl
  rcases p.provider.session.admitFrame_cases p.provider.channel seen seq bytes with
    ⟨credited, received, hadm, hcom, heq⟩ | ⟨-, error, session', heq⟩
  · rw [heq] at hacc
    obtain ⟨-, hrest⟩ := Prod.mk.inj hacc
    cases hrest
    obtain ⟨-, hlimits, -, -, hcons⟩ := hled.credit hadm.credit
    obtain ⟨-, -, rfl⟩ := SenderWindow.commitFrame_ok.mp hcom
    obtain ⟨waiting, tail, hfly⟩ := h.flight
    refine ⟨h.client, hinv, ⟨h.attached.receiver, ?_, fun _ => h.attached.sender hopen,
      fun _ => h.attached.running hopen⟩, h.negotiated.congr rfl hlimits rfl, h.total, h.maxBytes,
      ⟨waiting, tail, ?_, ?_, hfly.valid, hfly.tail_eq, nofun⟩,
      h.terminal, nofun, ?_, ?_, h.behind, h.consumedBytes, ?_, nofun, h.running⟩
    · show credited.limits.windowFrames < p.provider.channel.capacity
      rw [hlimits]
      exact h.attached.capacity
    · show p.client.sent = (p.provider.admitted ++ [(seq, bytes)]).map Prod.snd ++ [] ++ waiting
      rw [hframes, append_nil, ← htaken]
      exact hfly.sent
    · show p.data = inFlight (((p.provider.admitted ++ [(seq, bytes)]).map Prod.snd).length + 0)
        waiting ++ tail
      rw [hframes, length_append]
      have := hfly.data_eq
      rw [htaken] at this
      exact this
    · show credited.highestConsumed ≤ p.provider.reader.consumed.seq
      rw [hcons]
      exact hfits.seen_le
    · intro hlive
      show Cursors _ ((p.provider.admitted ++ [(seq, bytes)]).map Prod.snd).length _ _ _ _
      rw [hframes, length_append]
      exact (h.cursors hlive).mono (fun _ _ => rfl) (Nat.le_add_right _ _) (le_refl _)
    · exact fun signal hmem => .inl (h.credits (by rw [hphase]; nofun) signal hmem)
  · rw [heq] at hacc
    cases (Prod.mk.inj hacc).1

/-- No frame is rejected. -/
theorem Peers.Inv.exists_accept (hphase : p.provider.phase = .admitting seq bytes seen) :
    ∃ session channel, p.provider.session.admitFrame p.provider.channel seen seq bytes
      = (.ok (), session, channel) := by
  obtain ⟨credited, hadm⟩ := (h.fits seq bytes seen hphase).admissible h.provider h.attached hphase
  rcases p.provider.session.admitFrame_cases p.provider.channel seen seq bytes with
    ⟨_, received, -, -, heq⟩ | ⟨hnot, -⟩
  · exact ⟨_, _, heq⟩
  · exact absurd hadm (hnot credited)

/-- The next frame fits the window the provider sees: the caller's own is the stricter. -/
theorem Peers.Inv.next_fits (hsent : p.client.sent = p.provider.frames ++ bytes :: waiting) :
    Fits p.provider (p.provider.frames.length + 1) bytes p.provider.reader.consumed := by
  obtain ⟨_, done, now, waiting', head, hread, -⟩ := h.provider.reading
  have hlen := h.client.ledger.length_eq
  rw [hsent, length_append, length_cons] at hlen
  have hmem : bytes ∈ p.client.sent := by
    rw [hsent]
    exact mem_append_right _ mem_cons_self
  have hframe : bytes.length ≤ p.provider.session.maxFrameBytes := by
    rw [← h.negotiated.frame]
    exact h.client.ledger.lengths _ (mem_map_of_mem hmem)
  have hsize : p.provider.frames.flatten.length + bytes.length ≤ p.client.transferred := by
    rw [h.client.transferred, hsent, flatten_append, length_append, flatten_cons, length_append]
    omega
  -- the caller's window covers everything it has sent
  have hroom : p.client.window.highestSent
      ≤ p.client.window.highestConsumed + p.provider.session.received.limits.windowFrames := by
    have := h.client.ledger.frames_le
    rw [h.client.ledger.frames_length, h.negotiated.frames] at this
    omega
  have hbytes : p.client.transferred ≤ bytesUpTo p.client.sent p.client.window.highestConsumed
      + p.provider.session.received.limits.windowBytes := by
    have hle := h.client.ledger.bytes_le
    rw [h.client.ledger.outstanding, h.negotiated.bytes] at hle
    have hsplit := sum_take_add_drop (p.client.sent.map List.length) p.client.window.highestConsumed
    rw [sum_map_length, ← h.client.transferred] at hsplit
    unfold bytesUpTo
    omega
  -- and the reader is past its cursor
  have hcursor : bytesUpTo p.client.sent p.client.window.highestConsumed
      ≤ bytesUpTo p.provider.frames p.provider.reader.consumed.seq := by
    have hprov : bytesUpTo (p.provider.frames ++ bytes :: waiting) p.provider.reader.consumed.seq
        = bytesUpTo p.provider.frames p.provider.reader.consumed.seq :=
      bytesUpTo_append h.consumed_le
    rw [← hprov, ← hsent]
    exact bytesUpTo_mono h.behind
  have hbehind := h.behind
  have hlt := h.client.ledger.sent_lt
  refine ⟨rfl, h.client.frames_ne bytes hmem, hframe, hframe.trans h.negotiated.frame_le,
    h.consumed,
    le_refl _, hread.consumed_eq.2, by omega, by omega, by omega, lt_of_le_of_lt hsize h.total, ?_⟩
  intro max hmax
  rw [← h.negotiated.maxBytes_eq] at hmax
  exact hsize.trans (h.maxBytes max hmax)

omit h

/-- What a serving provider is delivered: the next frame, or the completion of all. -/
theorem Flight.head_cases (h : Flight sha client provider (message :: data) waiting tail)
    (htaken : provider.phase.taken = []) :
    (∃ bytes rest, waiting = bytes :: rest ∧ message = .data (provider.frames.length + 1) bytes ∧
      client.sent = provider.frames ++ bytes :: rest ∧
      data = inFlight (provider.frames.length + 1) rest ++ tail) ∨
    (message = client.completion sha ∧ client.completeSent = true ∧
      client.sent = provider.frames ∧ data = []) := by
  have hdata := h.data_eq
  have hsent := h.sent
  rw [htaken, append_nil] at hsent
  rw [htaken, length_nil] at hdata
  cases waiting with
  | nil =>
    rcases h.tail_eq with rfl | ⟨rfl, hcompl⟩
    · cases hdata
    · obtain ⟨hmsg, hrest⟩ := List.cons.inj hdata
      rw [append_nil] at hsent
      exact .inr ⟨hmsg, hcompl, hsent, hrest⟩
  | cons bytes rest =>
    obtain ⟨hmsg, hrest⟩ := List.cons.inj hdata
    exact .inl ⟨bytes, rest, rfl, hmsg, hsent, hrest⟩

include h

/-- A frame is taken, and the reader's cursor looked at. -/
theorem Peers.Inv.receive (hdata : p.data = .data seq bytes :: data)
    (hphase : p.provider.phase = .serving) (hvalid : (UploadMessage.data seq bytes).Valid) :
    Peers.Inv sha source { p with
      provider := { p.provider with
        phase := .admitting seq bytes p.provider.reader.consumed }
      data } := by
  obtain ⟨waiting, tail, hfly⟩ := h.flight
  rw [hdata] at hfly
  have hstep : (Endpoint.Inv sha { p.provider with
      phase := .admitting seq bytes p.provider.reader.consumed }) :=
    h.provider.step (.receive hphase hvalid)
  have hopen : p.provider.phase.isOpen = true := by rw [hphase]; rfl
  rcases hfly.head_cases (by rw [hphase]; rfl) with
    ⟨bytes', rest, rfl, hmsg, hsent, rfl⟩ | ⟨hmsg, -⟩
  · obtain ⟨rfl, rfl⟩ := UploadMessage.data.inj hmsg
    refine ⟨h.client, hstep, ⟨h.attached.receiver, h.attached.capacity,
      fun _ => h.attached.sender hopen, fun _ => h.attached.running hopen⟩, h.negotiated, h.total,
      h.maxBytes, ⟨rest, tail, ?_, rfl, ?_, hfly.tail_eq, nofun⟩, h.terminal, ?_, h.consumed,
      h.cursors, h.behind, h.consumedBytes, ?_, nofun, h.running⟩
    · show p.client.sent = p.provider.frames ++ [bytes] ++ rest
      rw [hsent, append_assoc]
      rfl
    · intro message hmem
      exact hfly.valid message (mem_cons_of_mem _ hmem)
    · intro seq bytes' seen heq
      obtain ⟨rfl, rfl, rfl⟩ := Phase.admitting.inj heq
      exact (h.next_fits hsent).mono rfl rfl (le_refl _)
    · exact fun signal hmem => .inl (h.credits (by rw [hphase]; nofun) signal hmem)
  · cases hmsg

/-- The completion is that of the admitted frames. -/
theorem Peers.Inv.verify (hphase : p.provider.phase = .serving)
    (hmsg : .complete finalSeq size digest = p.client.completion sha)
    (hsent : p.client.sent = p.provider.frames) :
    p.provider.session.verifyCompletion sha finalSeq size digest = true := by
  obtain ⟨hled, htrans, hhashed⟩ := h.provider.account (by rw [hphase]; nofun)
  obtain ⟨rfl, rfl, rfl⟩ := UploadMessage.complete.inj hmsg
  refine decide_eq_true ⟨?_, ?_, ?_⟩
  · rw [← hled.length_eq, ← h.client.ledger.length_eq, hsent]
  · rw [h.client.transferred, htrans, hsent]
  · rw [h.client.hashed, hhashed, hsent]
    exact (transferDigestsMatch_iff (validDigest_digestText sha _)
      (validDigest_digestText sha _)).mpr rfl

/-- Every delivery is taken as it should be. -/
theorem Peers.Inv.deliver
    (hdata : p.data = message :: data)
    (hstep : EndpointStep sha p.provider (.take message) provider) :
    Peers.Inv sha source { p with provider, data } := by
  have hinv := h.provider.step hstep
  obtain ⟨waiting, tail, hfly⟩ := h.flight
  rw [hdata] at hfly
  cases hstep with
  | skip hphase hvalid => exact absurd (hfly.valid message mem_cons_self) hvalid
  | receive hphase hvalid => exact h.receive hdata hphase hvalid
  | complete hphase hvalid hverify =>
    rcases hfly.head_cases (by rw [hphase]; rfl) with
      ⟨bytes, rest, -, hmsg, -⟩ | ⟨-, hcompl, hsent, rfl⟩
    · cases hmsg
    · refine { h with
        provider := hinv, attached := ⟨h.attached.receiver, h.attached.capacity, nofun, nofun⟩
        flight := ⟨[], [], ?_, rfl, nofun, .inl rfl, fun _ => ⟨hcompl, rfl⟩⟩, fits := nofun
        signals := ?_, healthy := nofun }
      · show p.client.sent = p.provider.frames ++ [] ++ []
        rw [append_nil, append_nil]
        exact hsent
      · exact fun signal hmem => .inl (h.credits (by rw [hphase]; nofun) signal hmem)
  | mismatch hphase hvalid hverify =>
    rcases hfly.head_cases (by rw [hphase]; rfl) with
      ⟨bytes, rest, -, hmsg, -⟩ | ⟨hmsg, -, hsent, -⟩
    · cases hmsg
    · rw [h.verify hphase hmsg hsent] at hverify
      cases hverify

/-- The provider's own steps. -/
theorem Peers.Inv.serve (hstep : EndpointStep sha p.provider .silent provider) :
    Peers.Inv sha source { p with provider } := by
  have hinv := h.provider.step hstep
  cases hstep with
  | accept hphase hacc => exact h.accept hphase hacc
  | reject hphase hreject =>
    obtain ⟨session, channel, hacc⟩ := h.exists_accept hphase
    rw [hreject] at hacc
    cases (Prod.mk.inj hacc).1
  | finishStore hphase hstr halive hroom =>
    refine h.advance hinv ⟨h.attached.receiver, h.attached.capacity, nofun, nofun⟩
      ⟨rfl, ?_, ?_, ?_, nofun, rfl, rfl, rfl, le_refl _, h.consumed⟩ nofun
    · rw [hphase]
      rfl
    · rw [hphase]
      rfl
    · rw [hphase]
      nofun
  | read halive hpoll => exact h.read hpoll

/-- Everything was consumed, and the final cursors are reported. -/
theorem Peers.Inv.settle (hending : p.provider.phase.ending = some (finalSeq, size, digest))
    (hinv : Endpoint.Inv sha { p.provider with
      session, phase := .recording finalSeq size digest })
    (hsettle : p.provider.session.settle finalSeq p.provider.reader.consumed = some session) :
    Peers.Inv sha source { p with
      provider := { p.provider with session, phase := .recording finalSeq size digest }
      signals := p.signals ++ [.credit finalSeq finalSeq p.provider.reader.consumed.bytes] } := by
  have hclosed := Phase.closed_of_ending hending
  obtain ⟨-, hall, received, rfl, hlimits, hcons⟩ := (h.provider.account h.healthy).settle hsettle
  have hfinal : finalSeq = p.provider.frames.length := by
    obtain ⟨hcompl, -⟩ := h.provider.ending _ hending
    exact (Prod.mk.inj hcompl).1
  have hadvanced := h.advance hinv ⟨h.attached.receiver, by rw [hlimits]; exact h.attached.capacity,
    nofun, nofun⟩ ⟨rfl, hclosed.1.symm, hclosed.2.1.symm, fun hdone => absurd hdone hclosed.2.2,
    nofun, rfl, hlimits, rfl, le_refl _, hcons.le⟩ nofun
  have hcredit : UploadSignal.credit finalSeq finalSeq p.provider.reader.consumed.bytes
      = .credit p.provider.frames.length p.provider.reader.consumed.seq
        p.provider.reader.consumed.bytes := by
    rw [hall, ← hfinal]
  rw [hcredit]
  exact hadvanced.report

/-- What the provider emits is taken up. -/
theorem Peers.Inv.emit (hstep : EndpointStep sha p.provider (.emit signal) provider) :
    Peers.Inv sha source { p with provider, signals := p.signals ++ [signal] } := by
  have hinv := h.provider.step hstep
  cases hstep with
  | finishStream hphase _ _ hsettle | stored hphase hsettle =>
    exact h.settle (by rw [hphase]; rfl) hinv hsettle
  | record hphase hroom =>
    rename_i finalSeq size digest
    have hending : p.provider.phase.ending = some (finalSeq, size, digest) := by
      rw [hphase]
      rfl
    have hclosed := Phase.closed_of_ending hending
    have hchan : (if p.provider.stream then p.provider.channel.releaseEof
        else p.provider.channel).receiverAlive = true ∧
        (if p.provider.stream then p.provider.channel.releaseEof
          else p.provider.channel).capacity = p.provider.channel.capacity := by
      split
      · unfold IngressChannel.releaseEof
        split
        · rw [if_pos h.attached.receiver]
          exact ⟨h.attached.receiver, rfl⟩
        · exact ⟨h.attached.receiver, rfl⟩
      · exact ⟨h.attached.receiver, rfl⟩
    have hadvanced := h.advance hinv ⟨hchan.1, by rw [hchan.2]; exact h.attached.capacity,
      nofun, nofun⟩ ⟨rfl, hclosed.1.symm, hclosed.2.1.symm, fun _ => rfl, nofun, rfl, rfl, rfl,
      le_refl _, h.consumed⟩ nofun
    exact hadvanced.commit rfl (h.provider.ending _ hending).1
  | report hphase =>
    rw [← (h.provider.account h.healthy).ledger.length_eq]
    exact h.report
  | fault hphase => exact absurd hphase h.healthy

omit h

/-- Every step of the system keeps the joint invariant. -/
theorem Peers.Inv.step (hstep : PeersStep sha p p') (h : p.Inv sha source) : p'.Inv sha source := by
  cases hstep with
  | work hwork =>
    have hclient := h.client.step hwork
    cases hwork with
    | gather => exact h.gather hclient
  | publish hpub =>
    have hclient := h.client.step hpub
    cases hpub with
    | send hlive hstaged hslot hnext htotal hmax hvalid hcom =>
      exact h.send hlive hstaged hcom hvalid htotal hmax
    | complete hlive hsource hcompl hstaged hcanc hvalid => exact h.complete hclient hcompl hvalid
  | hear hsigs hhear => exact h.hear hsigs hhear
  | serve hserve => exact h.serve hserve
  | deliver hdata hdeliver => exact h.deliver hdata hdeliver
  | emit hemit => exact h.emit hemit

theorem Peers.Inv.run
    (hrun : ReflTransGen (PeersStep sha) p p') (h : p.Inv sha source) : p'.Inv sha source :=
  Run.keeps (P := Peers.Inv sha source) (fun _ _ hstep h => h.step hstep) hrun h

/-! ## Agreement -/

/-- **Honest upload peers agree.**  In every state of every run, each frame sent was admitted or is
on its way to an open provider, the one in hand is admitted, the next credit is applied, and neither
side has failed.  And whatever its peer does, the caller ends well only on a commitment that names
the number of its frames, the size and the digest of its whole source. -/
theorem upload_peers_agree (sha : Sha256) :
    (∀ (grant : UploadGrant) (receiveMax : Nat) (hpos : 0 < receiveMax) (stream : Bool)
      (source : Bytes) (p : Peers), ReflTransGen (PeersStep sha)
        (.opened grant (grant.activation receiveMax hpos) stream source) p →
      (∃ waiting, p.client.sent = p.provider.frames ++ p.provider.phase.taken ++ waiting ∧
        (waiting ≠ [] → p.provider.phase.isOpen = true)) ∧
      (∀ seq bytes seen, p.provider.phase = .admitting seq bytes seen →
        ∃ session channel, p.provider.session.admitFrame p.provider.channel seen seq bytes
          = (.ok (), session, channel)) ∧
      (∀ received consumed bytes rest, p.client.outcome = none →
        p.signals = .credit received consumed bytes :: rest →
        ∃ window, p.client.window.applyCredit received consumed (some bytes) = (.ok (), window) ∧
          p.client.credited received consumed bytes
            = { p.client with window, consumedBytes := bytes }) ∧
      p.provider.phase ≠ .failed ∧ p.client.outcome ≠ some .failed) ∧
    ∀ (activation : Activation) (maxBytes : Option Nat) (source : Bytes) (s s' : Sender)
      (label : SenderLabel) (finalSeq size : Nat) (digest : String),
      ReflTransGen (Sender.Next sha) (.opened activation maxBytes source) s →
      SenderStep sha s label s' → s'.outcome = some (.ok finalSeq size digest) →
      label = .take (.committed finalSeq size digest) ∧ s'.sent.flatten = source ∧
        finalSeq = s'.sent.length ∧ size = source.length ∧ digest = digestText sha source := by
  constructor
  · intro grant receiveMax hpos stream source p hrun
    have h := Peers.Inv.run hrun (.opened sha grant receiveMax hpos stream source)
    refine ⟨?_, ?_, ?_, h.healthy, h.running⟩
    · obtain ⟨waiting, tail, hflight⟩ := h.flight
      refine ⟨waiting, hflight.sent, ?_⟩
      intro hne
      cases hopen : p.provider.phase.isOpen with
      | true => rfl
      | false =>
        have hdata := hflight.data_eq
        rw [(hflight.closed hopen).2] at hdata
        cases waiting with
        | nil => exact absurd rfl hne
        | cons frame waiting => cases hdata
    · intro seq bytes seen hphase
      exact h.exists_accept hphase
    · intro received consumed bytes rest hrunning hsignals
      exact (h.credit_accepted hrunning hsignals).2
  · intro activation maxBytes source s s' label finalSeq size digest hrun hstep houtcome
    have h := Sender.Inv.run hrun (.opened sha activation maxBytes source)
    exact ⟨hstep.label_of_ok houtcome, (h.step hstep).outcome finalSeq size digest houtcome⟩

def narrowGrant : UploadGrant :=
  ⟨narrowLimits, none, by decide, by decide, by decide, by decide⟩

/-- The source has no more to give when the first frame is gathered. -/
theorem gathers_pair : Gathers 4 [] pairBytes [7, 9] [11] ∧ Gathers 4 [] [11] [11] [] :=
  ⟨.more 2 (by decide) (by decide) (by decide) (.notReady (by decide) (by decide)),
    .more 1 (by decide) (by decide) (by decide) (.ended (by decide))⟩

/-- Two frames are sent, the first is read, and both are credited. -/
theorem exists_credited_run : ∃ p, ReflTransGen (PeersStep pairSha)
    (.opened narrowGrant (narrowGrant.activation 4 (by decide)) true pairBytes) p ∧
      p.client.outcome = none ∧ p.signals = [.credit 2 1 2] := by
  have hsent : ReflTransGen (PeersStep pairSha)
      (.opened narrowGrant (narrowGrant.activation 4 (by decide)) true pairBytes) _ :=
    .tail (.tail (.tail (.tail .refl (.work (.gather rfl rfl rfl rfl gathers_pair.1)))
      (.publish (@SenderStep.send pairSha _ [7, 9] 1 _ rfl rfl rfl rfl (by decide) nofun
        ⟨by decide, by decide, by decide⟩ rfl)))
      (.work (.gather rfl rfl rfl rfl gathers_pair.2)))
      (.publish (@SenderStep.send pairSha _ [11] 2 _ rfl rfl rfl rfl (by decide) nofun
        ⟨by decide, by decide, by decide⟩ rfl))
  have hread := ((hsent.tail (.deliver rfl (.receive rfl ⟨by decide, by decide, by decide⟩))).tail
    (.serve (.accept rfl rfl))).tail (.serve (@EndpointStep.read pairSha _ 2 _ _ _ rfl rfl))
  exact ⟨_, ((hread.tail (.deliver rfl (.receive rfl ⟨by decide, by decide, by decide⟩))).tail
    (.serve (.accept rfl rfl))).tail (.emit (.report rfl)), rfl, rfl⟩

/-- The caller alone, up to the commitment. -/
theorem exists_committed_run : ∃ s, ReflTransGen (Sender.Next pairSha)
    (.opened (narrowGrant.activation 4 (by decide)) none pairBytes) s ∧ s.outcome = none ∧
      s.committed pairSha 2 3 (digestText pairSha pairBytes)
        = { s with outcome := some (.ok 2 3 (digestText pairSha pairBytes)) } := by
  have hdig := validDigest_digestText pairSha pairBytes
  have hsent : ReflTransGen (Sender.Next pairSha)
      (.opened (narrowGrant.activation 4 (by decide)) none pairBytes) _ :=
    .tail (.tail (.tail (.tail .refl ⟨_, .gather rfl rfl rfl rfl gathers_pair.1⟩)
      ⟨_, @SenderStep.send pairSha _ [7, 9] 1 _ rfl rfl rfl rfl (by decide) nofun
        ⟨by decide, by decide, by decide⟩ rfl⟩)
      ⟨_, .gather rfl rfl rfl rfl gathers_pair.2⟩)
      ⟨_, @SenderStep.send pairSha _ [11] 2 _ rfl rfl rfl rfl (by decide) nofun
        ⟨by decide, by decide, by decide⟩ rfl⟩
  refine ⟨_, (hsent.tail ⟨_, .gather rfl rfl rfl rfl (.ended (by decide))⟩).tail
    ⟨_, .complete rfl rfl rfl rfl rfl ⟨by decide, by decide, by decide, hdig⟩⟩, rfl, ?_⟩
  have hmatch := (transferDigestsMatch_iff hdig hdig).mpr rfl
  apply if_neg
  rintro (hunsent | hfinal | hsize | hdiffers)
  · cases hunsent
  · exact hfinal rfl
  · exact hsize rfl
  · exact Bool.noConfusion (hdiffers.symm.trans hmatch)

theorem upload_peers_agree_pair : (∃ p, ReflTransGen (PeersStep pairSha)
      (.opened narrowGrant (narrowGrant.activation 4 (by decide)) true pairBytes) p ∧
      p.signals = [.credit 2 1 2] ∧
      ∃ window, p.client.window.applyCredit 2 1 (some 2) = (.ok (), window)) ∧
    ∃ s s', ReflTransGen (Sender.Next pairSha)
      (.opened (narrowGrant.activation 4 (by decide)) none pairBytes) s ∧
      SenderStep pairSha s (.take (.committed 2 3 (digestText pairSha pairBytes))) s' ∧
      s'.outcome = some (.ok 2 3 (digestText pairSha pairBytes)) ∧
      s'.sent.flatten = pairBytes := by
  obtain ⟨hagree, hends⟩ := upload_peers_agree pairSha
  constructor
  · obtain ⟨p, hrun, hrunning, hsignals⟩ := exists_credited_run
    obtain ⟨-, -, hcredits, -⟩ := hagree narrowGrant 4 (by decide) true pairBytes p hrun
    obtain ⟨window, hcredit, -⟩ := hcredits 2 1 2 [] hrunning hsignals
    exact ⟨p, hrun, hsignals, window, hcredit⟩
  · obtain ⟨s, hrun, hrunning, hcommitted⟩ := exists_committed_run
    have hstep : SenderStep pairSha s (.take (.committed 2 3 (digestText pairSha pairBytes)))
        (s.committed pairSha 2 3 (digestText pairSha pairBytes)) :=
      .signal hrunning
        ⟨by decide, by decide, by decide, validDigest_digestText pairSha pairBytes⟩
    rw [hcommitted] at hstep
    obtain ⟨-, hall, -⟩ := hends _ none pairBytes s _ _ 2 3 _ hrun hstep rfl
    exact ⟨s, _, hrun, hstep, rfl, hall⟩

end Transfer
