/-
# The provider of an upload

`UploadTransferSession` admits frames into the ingress of an upload, verifies its completion and
lets the reader see the end; `run_upload` is the loop around it.  A frame is received, and the
reader's cursor looked at, before it is admitted, and reads may fall in between.

Signals and messages label the steps, so that a peer can be put on the other side.  Whatever ends
a loop early is one step that drops the sender.
-/
import Trellis.Lib.Run
import Trellis.DataPlane.Flow
import Trellis.Transfer.Ingress

open Window DataPlane

namespace Transfer

open List Checked

/-! ## The session -/

structure UploadSession where
  /-- The frame limit of the grant, as narrowed at activation. -/
  maxFrameBytes : Nat
  maxBytes : Option Nat
  received : SenderWindow
  transferredBytes : Nat
  /-- What the hasher was given. -/
  hashed : Bytes
  complete : Bool

def UploadSession.new (limits : FlowLimits) (maxFrameBytes : Nat) (maxBytes : Option Nat) :
    UploadSession where
  maxFrameBytes
  maxBytes
  received := .new limits
  transferredBytes := 0
  hashed := []
  complete := false

inductive UploadError where
  | invalidState
  | credit (error : FlowError)
  | window (error : FlowError)
  | sequence (error : FlowError)
  | outOfOrder (expected actual : Nat)
  | sizeOverflow
  | tooLarge (size : Nat)
  | notActivated
  | ingressClosed
  | ingressFull
  deriving DecidableEq, Repr

variable (channel : IngressChannel)

/-- `try_send`. -/
def IngressChannel.trySend (item : Ingress) : Except UploadError IngressChannel :=
  if !channel.senderAlive then .error .notActivated
  else if !channel.receiverAlive then .error .ingressClosed
  else if channel.queue.length ≥ channel.capacity then .error .ingressFull
  else .ok { channel with queue := channel.queue ++ [item] }

variable (session : UploadSession)

/-- `admit`.  `consumed` is the reader's cursor as it was looked at. -/
def UploadSession.admitFrame (channel : IngressChannel) (consumed : Consumed)
    (seq : Nat) (bytes : Bytes) : Except UploadError Unit × UploadSession × IngressChannel :=
  if bytes = [] ∨ session.complete then (.error .invalidState, session, channel)
  else
    match session.received.applyCredit session.received.highestSent consumed.seq
        (some consumed.bytes) with
    | (.error error, received) => (.error (.credit error), { session with received }, channel)
    | (.ok (), received) =>
      let session := { session with received }
      match received.validateFrameSlot bytes.length session.maxFrameBytes with
      | .error error => (.error (.window error), session, channel)
      | .ok () =>
        match received.nextFrameSeq with
        | .error error => (.error (.sequence error), session, channel)
        | .ok next =>
          let total := session.transferredBytes + bytes.length
          if seq ≠ next then (.error (.outOfOrder (received.highestSent + 1) seq), session, channel)
          else if total ≥ 2 ^ 64 then (.error .sizeOverflow, session, channel)
          else if session.maxBytes.any fun max => total > max then
            (.error (.tooLarge total), session, channel)
          else
            let session := { session with hashed := session.hashed ++ bytes }
            match channel.trySend (.frame seq bytes) with
            | .error error => (.error error, session, channel)
            | .ok channel =>
              match received.commitFrame seq bytes.length with
              | (.error error, received) =>
                (.error (.sequence error), { session with received }, channel)
              | (.ok (), received) =>
                (.ok (), { session with received, transferredBytes := total }, channel)

/-- `verify_completion`. -/
def UploadSession.verifyCompletion (sha : Sha256) (session : UploadSession) (finalSeq size : Nat)
    (digest : String) : Bool :=
  finalSeq = session.received.highestSent ∧ size = session.transferredBytes ∧
    transferDigestsMatch digest (digestText sha session.hashed)

/-! ## The endpoint -/

inductive UploadMessage where
  | data (seq : Nat) (bytes : Bytes)
  | complete (finalSeq size : Nat) (digest : String)
  deriving DecidableEq, Repr

inductive UploadSignal where
  | activated
  | credit (receivedSeq consumedSeq consumedBytes : Nat)
  | committed (finalSeq size : Nat) (digest : String)
  | cancelled
  | error
  deriving DecidableEq, Repr

/-- `TransferFrameDescriptor::validate` of a message of the caller; others are skipped. -/
def UploadMessage.Valid : UploadMessage → Prop
  | .data seq bytes => seq ≠ 0 ∧ bytes ≠ [] ∧ bytes.length ≤ maxTransferFrameBytes
  | .complete finalSeq size digest => ValidTerminal finalSeq size digest

/-- `TransferSignal::validate`; other signals are skipped. -/
def UploadSignal.Valid : UploadSignal → Prop
  | .credit receivedSeq consumedSeq consumedBytes =>
    consumedSeq ≤ receivedSeq ∧ (consumedSeq = 0 ↔ consumedBytes = 0)
  | .committed finalSeq size digest => ValidTerminal finalSeq size digest
  | .activated | .cancelled | .error => True

/-- Where the loop stands. -/
inductive Phase where
  | serving
  /-- A frame was received and the reader's cursor looked at. -/
  | admitting (seq : Nat) (bytes : Bytes) (seen : Consumed)
  /-- A completion was verified; the digest is the computed one. -/
  | finishing (finalSeq size : Nat) (digest : String)
  /-- The store was told the end and drains its reader. -/
  | storing (finalSeq size : Nat) (digest : String)
  /-- Everything was consumed; the delivery is being recorded. -/
  | recording (finalSeq size : Nat) (digest : String)
  | done
  | failed
  deriving DecidableEq, Repr

/-- Whether further frames may be admitted. -/
def Phase.isOpen : Phase → Bool
  | .serving | .admitting _ _ _ => true
  | .finishing _ _ _ | .storing _ _ _ | .recording _ _ _ | .done | .failed => false

/-- A session with its reader.  What was admitted, read and completed is kept beside it. -/
structure Endpoint where
  /-- Bytes go to a handler instead of a store write. -/
  stream : Bool
  session : UploadSession
  channel : IngressChannel
  reader : FrameReader
  phase : Phase
  admitted : List (Nat × Bytes)
  read : Bytes
  /-- The reader was told that the upload ends. -/
  eof : Bool
  completion : Option (Nat × Nat × String)

/-- An activated endpoint that has received nothing. -/
def Endpoint.opened (limits : FlowLimits) (maxFrameBytes : Nat) (maxBytes : Option Nat)
    (stream : Bool) : Endpoint where
  stream
  session := .new limits maxFrameBytes maxBytes
  channel := ⟨limits.windowFrames + 1, [], true, true⟩
  reader := .new
  phase := .serving
  admitted := []
  read := []
  eof := false
  completion := none

/-- The loop gives up: the session is aborted. -/
def Endpoint.abort (e : Endpoint) : Endpoint :=
  { e with phase := .failed, channel := { e.channel with senderAlive := false } }

/-- The frame's bytes go to the handler or store. -/
def ReadResult.bytes : ReadResult → Bytes
  | .ready bytes => bytes
  | .pending | .error _ => []

/-- The end of the upload is handed to the reader and the sender dropped. -/
def IngressChannel.finish : IngressChannel :=
  { channel with queue := channel.queue ++ [.complete], senderAlive := false }

/-- `release_eof`.  A handler that dropped its reader needs no end of file. -/
def IngressChannel.releaseEof : IngressChannel :=
  if channel.senderAlive then
    if channel.receiverAlive then channel.finish else { channel with senderAlive := false }
  else channel

/-- All frames up to the final one were consumed: `apply_credit` and `validate_complete`. -/
def UploadSession.settle (finalSeq : Nat) (consumed : Consumed) : Option UploadSession :=
  match session.received.applyCredit finalSeq consumed.seq (some consumed.bytes) with
  | (.ok (), received) =>
    match received.validateComplete finalSeq with
    | .ok () => some { session with received, complete := true }
    | .error _ => none
  | (.error _, _) => none

/-- `outside` marks expiry, lost authority, a cancellation, a store or handler that fails. -/
inductive Label where
  | take (message : UploadMessage)
  | emit (signal : UploadSignal)
  | silent
  | outside

/-- The steps of the loop and of the reader. -/
inductive EndpointStep (sha : Sha256) : Endpoint → Label → Endpoint → Prop
  | skip {e : Endpoint} {message} (hphase : e.phase = .serving) (hvalid : ¬ message.Valid) :
      EndpointStep sha e (.take message) e
  | receive {e : Endpoint} {seq bytes} (hphase : e.phase = .serving)
      (hvalid : (UploadMessage.data seq bytes).Valid) :
      EndpointStep sha e (.take (.data seq bytes))
        { e with phase := .admitting seq bytes e.reader.consumed }
  | accept {e : Endpoint} {seq bytes seen session channel}
      (hphase : e.phase = .admitting seq bytes seen)
      (h : e.session.admitFrame e.channel seen seq bytes = (.ok (), session, channel)) :
      EndpointStep sha e .silent
        { e with session, channel, phase := .serving, admitted := e.admitted ++ [(seq, bytes)] }
  | reject {e : Endpoint} {seq bytes seen error session channel}
      (hphase : e.phase = .admitting seq bytes seen)
      (h : e.session.admitFrame e.channel seen seq bytes = (.error error, session, channel)) :
      EndpointStep sha e .silent { e with session, channel }.abort
  | complete {e : Endpoint} {finalSeq size digest} (hphase : e.phase = .serving)
      (hvalid : ValidTerminal finalSeq size digest)
      (h : e.session.verifyCompletion sha finalSeq size digest = true) :
      EndpointStep sha e (.take (.complete finalSeq size digest))
        { e with
          phase := .finishing finalSeq size (digestText sha e.session.hashed)
          completion := some (finalSeq, size, digest) }
  | mismatch {e : Endpoint} {finalSeq size digest} (hphase : e.phase = .serving)
      (hvalid : ValidTerminal finalSeq size digest)
      (h : e.session.verifyCompletion sha finalSeq size digest = false) :
      EndpointStep sha e (.take (.complete finalSeq size digest)) e.abort
  /-- `finish_stream`, once the reader's cursor has reached the end. -/
  | finishStream {e : Endpoint} {finalSeq size digest session}
      (hphase : e.phase = .finishing finalSeq size digest)
      (hstream : e.stream = true) (hconsumed : finalSeq ≤ e.reader.consumed.seq)
      (h : e.session.settle finalSeq e.reader.consumed = some session) :
      EndpointStep sha e (.emit (.credit finalSeq finalSeq e.reader.consumed.bytes))
        { e with session, phase := .recording finalSeq size digest }
  /-- `finish`: the store learns of the end at once. -/
  | finishStore {e : Endpoint} {finalSeq size digest}
      (hphase : e.phase = .finishing finalSeq size digest) (hstream : e.stream = false)
      (halive : e.channel.senderAlive = true ∧ e.channel.receiverAlive = true)
      (hroom : e.channel.queue.length < e.channel.capacity) :
      EndpointStep sha e .silent
        { e with channel := e.channel.finish, phase := .storing finalSeq size digest }
  | stored {e : Endpoint} {finalSeq size digest session}
      (hphase : e.phase = .storing finalSeq size digest)
      (h : e.session.settle finalSeq e.reader.consumed = some session) :
      EndpointStep sha e (.emit (.credit finalSeq finalSeq e.reader.consumed.bytes))
        { e with session, phase := .recording finalSeq size digest }
  /-- The delivery is durably recorded, and only now a handler sees the end. -/
  | record {e : Endpoint} {finalSeq size digest}
      (hphase : e.phase = .recording finalSeq size digest)
      (hroom : e.channel.receiverAlive = true → e.channel.queue.length < e.channel.capacity) :
      EndpointStep sha e (.emit (.committed finalSeq size digest))
        { e with
          phase := .done
          channel := if e.stream then e.channel.releaseEof else e.channel }
  | report {e : Endpoint} (hphase : e.phase = .serving) :
      EndpointStep sha e (.emit (.credit e.session.received.highestSent e.reader.consumed.seq
        e.reader.consumed.bytes)) e
  | read {e : Endpoint} {remaining result reader channel} (halive : e.channel.receiverAlive = true)
      (h : e.reader.pollRead e.channel remaining = (result, reader, channel)) :
      EndpointStep sha e .silent
        { e with
          reader
          channel
          read := e.read ++ result.bytes
          eof := e.eof || (remaining ≠ 0 && result = .ready []) }
  | dropReader {e : Endpoint} :
      EndpointStep sha e .outside { e with channel := { e.channel with receiverAlive := false } }
  | fail {e : Endpoint} (hphase : e.phase ≠ .done) : EndpointStep sha e .outside e.abort
  | fault {e : Endpoint} (hphase : e.phase = .failed) : EndpointStep sha e (.emit .error) e

/-! ## Admission -/

/-- All that is asked of a frame; `credited` is the ledger with the reader's cursor applied. -/
structure Admissible (session : UploadSession) (channel : IngressChannel) (consumed : Consumed)
    (seq : Nat) (bytes : Bytes) (credited : SenderWindow) : Prop where
  bytes_ne : bytes ≠ []
  running : session.complete = false
  credit : session.received.applyCredit session.received.highestSent consumed.seq
    (some consumed.bytes) = (.ok (), credited)
  slot : credited.validateFrameSlot bytes.length session.maxFrameBytes = .ok ()
  next : credited.nextFrameSeq = .ok seq
  total : session.transferredBytes + bytes.length < 2 ^ 64
  maxBytes : ∀ max ∈ session.maxBytes, session.transferredBytes + bytes.length ≤ max
  sender : channel.senderAlive = true
  receiver : channel.receiverAlive = true
  room : channel.queue.length < channel.capacity

theorem IngressChannel.trySend_ok {channel channel' : IngressChannel} :
    channel.trySend item = .ok channel' ↔
      channel.senderAlive = true ∧ channel.receiverAlive = true ∧
        channel.queue.length < channel.capacity ∧
        channel' = { channel with queue := channel.queue ++ [item] } := by
  unfold IngressChannel.trySend
  cases channel.senderAlive with
  | false => exact ⟨nofun, nofun⟩
  | true =>
    cases channel.receiverAlive with
    | false => exact ⟨nofun, nofun⟩
    | true =>
      by_cases hroom : channel.queue.length ≥ channel.capacity
      · constructor
        · intro h
          simp [hroom] at h
        · rintro ⟨-, -, hlt, -⟩
          omega
      · constructor
        · intro h
          simp only [Bool.not_true, Bool.false_eq_true, if_neg hroom] at h
          exact ⟨rfl, rfl, by omega, (Except.ok.inj h).symm⟩
        · rintro ⟨-, -, -, rfl⟩
          simp [hroom]

/-- **What admission does.**  Any other frame leaves the channel as it was. -/
theorem UploadSession.admitFrame_cases (channel : IngressChannel)
    (consumed : Consumed) (seq : Nat) (bytes : Bytes) :
    (∃ credited received, Admissible session channel consumed seq bytes credited ∧
      credited.commitFrame seq bytes.length = (.ok (), received) ∧
      session.admitFrame channel consumed seq bytes = (.ok (), { session with
          received
          transferredBytes := session.transferredBytes + bytes.length
          hashed := session.hashed ++ bytes },
        { channel with queue := channel.queue ++ [.frame seq bytes] })) ∨
    ((∀ credited, ¬ Admissible session channel consumed seq bytes credited) ∧
      ∃ error session', session.admitFrame channel consumed seq bytes
        = (.error error, session', channel)) := by
  by_cases hadm : ∃ credited, Admissible session channel consumed seq bytes credited
  · obtain ⟨credited, h⟩ := hadm
    -- a slot under a narrower frame limit is one under the window's own
    obtain ⟨hframe, -, hroom⟩ := SenderWindow.validateFrameSlot_ok.mp h.slot
    have hcom := SenderWindow.commitFrame_ok.mpr
      ⟨SenderWindow.validateFrameSlot_ok.mpr ⟨hframe, hframe, hroom⟩, h.next, rfl⟩
    refine .inl ⟨credited, _, h, hcom, ?_⟩
    have hmax : ¬ session.maxBytes.any (session.transferredBytes + bytes.length > ·) := by
      intro hany
      obtain ⟨max, hmem, hgt⟩ := (Option.any_eq_true _ _).mp hany
      exact absurd (of_decide_eq_true hgt) (Nat.not_lt.mpr (h.maxBytes max hmem))
    have hsend : channel.trySend (.frame seq bytes) = .ok _ :=
      IngressChannel.trySend_ok.mpr ⟨h.sender, h.receiver, h.room, rfl⟩
    have htotal := h.total
    simp [UploadSession.admitFrame, h.bytes_ne, h.running, h.credit, h.slot, h.next, hmax, hsend,
      hcom]
    omega
  · refine .inr ⟨fun credited h => hadm ⟨credited, h⟩, ?_⟩
    unfold UploadSession.admitFrame
    split
    · exact ⟨_, _, rfl⟩
    rename_i hstate
    split
    · exact ⟨_, _, rfl⟩
    rename_i credited hcredit
    dsimp only
    split
    · exact ⟨_, _, rfl⟩
    rename_i hslot
    split
    · exact ⟨_, _, rfl⟩
    rename_i next hnext
    split
    · exact ⟨_, _, rfl⟩
    rename_i heq
    split
    · exact ⟨_, _, rfl⟩
    rename_i htotal
    split
    · exact ⟨_, _, rfl⟩
    rename_i hmax
    cases hsend : channel.trySend (.frame seq bytes) with
    | error error => exact ⟨_, _, rfl⟩
    | ok channel' =>
      -- the frame has passed every check
      obtain ⟨hsender, hreceiver, hroom, -⟩ := IngressChannel.trySend_ok.mp hsend
      obtain ⟨hne, hrunning⟩ := not_or.mp hstate
      refine absurd ⟨credited, hne, Bool.eq_false_iff.mpr hrunning, hcredit, hslot, ?_,
        Nat.not_le.mp htotal, ?_, hsender, hreceiver, hroom⟩ hadm
      · rw [hnext, not_not.mp heq]
      · intro max hmem
        by_contra hgt
        exact hmax ((Option.any_eq_true _ _).mpr ⟨max, hmem, decide_eq_true (Nat.not_le.mp hgt)⟩)

/-! ## The invariant -/

/-- The payloads of the admitted frames. -/
def Endpoint.frames (e : Endpoint) : List Bytes :=
  e.admitted.map Prod.snd

/-- The completion a phase works towards. -/
def Phase.ending : Phase → Option (Nat × Nat × String)
  | .finishing finalSeq size digest | .storing finalSeq size digest
  | .recording finalSeq size digest => some (finalSeq, size, digest)
  | .serving | .admitting _ _ _ | .done | .failed => none

/-- Whether the reader has not been told of the end. -/
def Phase.withholds (stream : Bool) : Phase → Bool
  | .serving | .admitting _ _ _ | .finishing _ _ _ => true
  | .storing _ _ _ | .recording _ _ _ => stream
  | .done | .failed => false

/-- The session accounts for the frames it admitted. -/
structure Account (session : UploadSession) (frames : List Bytes) : Prop where
  ledger : Ledger session.received (frames.map List.length)
  transferred : session.transferredBytes = frames.flatten.length
  hashed : session.hashed = frames.flatten

/-- The completion is that of the frames. -/
def Completes (sha : Sha256) (frames : List Bytes) (completion : Nat × Nat × String) : Prop :=
  completion = (frames.length, frames.flatten.length, digestText sha frames.flatten)

structure Endpoint.Inv (sha : Sha256) (e : Endpoint) : Prop where
  admitted : e.admitted = numbered 0 e.frames
  frames_ne : ∀ frame ∈ e.frames, frame ≠ []
  total : e.frames.flatten.length < 2 ^ 64
  account : e.phase ≠ .failed → Account e.session e.frames
  reading : ∃ tail done now waiting head,
    Reading e.reader e.channel.queue e.frames e.read tail done now waiting head ∧ (tail = [] ∨
        tail = [.complete] ∧ e.completion.isSome = true ∧ e.phase.withholds e.stream = false)
  ended : e.reader.complete = true → e.completion.isSome = true ∧ e.read = e.frames.flatten
  eof : e.eof = true → e.reader.complete = true
  completion : ∀ completion ∈ e.completion, Completes sha e.frames completion
  ending : ∀ completion ∈ e.phase.ending, Completes sha e.frames completion ∧
    e.completion.isSome = true
  closed : e.completion.isSome = true → e.phase.isOpen = false

theorem Endpoint.Inv.opened (sha : Sha256) (limits : FlowLimits) (maxFrameBytes : Nat)
    (maxBytes : Option Nat) (stream : Bool) :
    (Endpoint.opened limits maxFrameBytes maxBytes stream).Inv sha where
  admitted := rfl
  frames_ne := nofun
  total := Nat.two_pow_pos 64
  account := fun _ => ⟨.new limits, rfl, rfl⟩
  reading := ⟨[], [], [], [], [], .new, .inl rfl⟩
  ended := nofun
  eof := nofun
  completion := nofun
  ending := nofun
  closed := nofun

variable {e : Endpoint}

/-- The reader has read the first bytes of the admitted frames. -/
theorem Endpoint.Inv.read_prefix_frames (h : e.Inv sha) :
    ∃ unread, e.frames.flatten = e.read ++ unread := by
  obtain ⟨tail, done, now, waiting, head, hread, -⟩ := h.reading
  rw [hread.admitted, hread.read]
  rcases hread.now with ⟨rfl, -, rfl⟩ | ⟨rest, rfl, -⟩
  · exact ⟨waiting.flatten, by simp⟩
  · exact ⟨rest ++ waiting.flatten, by simp⟩

/-- Giving up keeps what was read, whatever the session has become. -/
theorem Endpoint.Inv.abort (h : e.Inv sha) : (Endpoint.abort { e with session }).Inv sha where
  __ := h
  account := fun hphase => absurd rfl hphase
  reading := by
    obtain ⟨tail, done, now, waiting, head, hread, htail⟩ := h.reading
    refine ⟨tail, done, now, waiting, head, hread, ?_⟩
    rcases htail with htail | ⟨htail, hcompl, -⟩
    · exact .inl htail
    · exact .inr ⟨htail, hcompl, rfl⟩
  ending := nofun
  closed := fun _ => rfl

variable {session : UploadSession}

/-- An admitted frame is the next one. -/
theorem Endpoint.Inv.accept {channel : IngressChannel} (h : e.Inv sha)
    (hphase : e.phase = .admitting seq bytes seen)
    (hacc : e.session.admitFrame e.channel seen seq bytes = (.ok (), session, channel)) :
    Endpoint.Inv sha { e with
      session, channel, phase := .serving, admitted := e.admitted ++ [(seq, bytes)] } := by
  obtain ⟨hled, htrans, hhashed⟩ := h.account (by rw [hphase]; nofun)
  rcases e.session.admitFrame_cases e.channel seen seq bytes with
    ⟨credited, received, hadm, hcom, heq⟩ | ⟨-, error, session', heq⟩
  · rw [heq] at hacc
    obtain ⟨-, hrest⟩ := Prod.mk.inj hacc
    cases hrest
    obtain ⟨hcred, -, hsent, -⟩ := hled.credit hadm.credit
    have hnone : e.completion = none := by
      cases hcompletion : e.completion with
      | none => rfl
      | some completion =>
        have := h.closed (by rw [hcompletion]; rfl)
        rw [hphase] at this
        cases this
    have hseq : seq = e.frames.length + 1 := by
      have hlen := hled.sent_length
      rw [length_map] at hlen
      obtain ⟨-, rfl⟩ := SenderWindow.nextFrameSeq_ok.mp hadm.next
      rw [hsent, hlen]
    have hframes : (e.admitted ++ [(seq, bytes)]).map Prod.snd = e.frames ++ [bytes] := by
      rw [map_append]
      rfl
    have hflat : (e.frames ++ [bytes]).flatten = e.frames.flatten ++ bytes := by
      rw [flatten_append, flatten_singleton]
    refine ⟨?_, ?_, ?_, ?_, ?_, ?_, h.eof, ?_, nofun, ?_⟩
    · show e.admitted ++ [(seq, bytes)] = numbered 0 ((e.admitted ++ [(seq, bytes)]).map Prod.snd)
      rw [hframes, numbered_concat, ← h.admitted, hseq, Nat.zero_add]
    · show ∀ frame ∈ (e.admitted ++ [(seq, bytes)]).map Prod.snd, frame ≠ []
      rw [hframes]
      exact forall_mem_concat h.frames_ne hadm.bytes_ne
    · show ((e.admitted ++ [(seq, bytes)]).map Prod.snd).flatten.length < 2 ^ 64
      rw [hframes, hflat, length_append, ← htrans]
      exact hadm.total
    · intro _
      show Account _ ((e.admitted ++ [(seq, bytes)]).map Prod.snd)
      rw [hframes]
      refine ⟨?_, ?_, ?_⟩
      · rw [map_append]
        exact hcred.commit hcom
      · rw [hflat, length_append, ← htrans]
      · rw [hflat, ← hhashed]
    · obtain ⟨tail, done, now, waiting, head, hread, htail⟩ := h.reading
      have hnil : tail = [] := by
        rcases htail with htail | ⟨-, -, hwith⟩
        · exact htail
        · rw [hphase] at hwith
          cases hwith
      subst hnil
      refine ⟨[], done, now, waiting ++ [bytes], head, ?_, .inl rfl⟩
      show Reading e.reader (e.channel.queue ++ [.frame seq bytes])
        ((e.admitted ++ [(seq, bytes)]).map Prod.snd) e.read [] done now (waiting ++ [bytes]) head
      rw [hframes, hseq]
      exact hread.send bytes
    · intro hcompl
      have := (h.ended hcompl).1
      rw [hnone] at this
      cases this
    · intro completion hmem
      rw [hnone] at hmem
      cases hmem
    · intro hsome
      rw [hnone] at hsome
      cases hsome
  · rw [heq] at hacc
    cases (Prod.mk.inj hacc).1

/-- A read moves along what was admitted. -/
theorem Endpoint.Inv.readStep {reader : FrameReader} {channel : IngressChannel} (h : e.Inv sha)
    (hpoll : e.reader.pollRead e.channel remaining = (result, reader, channel)) :
    Endpoint.Inv sha { e with
      reader
      channel
      read := e.read ++ result.bytes
      eof := e.eof || (remaining ≠ 0 && result = .ready []) } := by
  by_cases hidle : remaining = 0 ∨ e.reader.complete = true
  · have hsame : (.ready [], e.reader, e.channel) = (result, reader, channel) := by
      rw [← hpoll, FrameReader.pollRead, if_pos hidle]
    obtain ⟨rfl, hrest⟩ := Prod.mk.inj hsame
    cases hrest
    have hread : e.read ++ (ReadResult.ready []).bytes = e.read := append_nil e.read
    rw [hread]
    refine { h with eof := ?_ }
    intro heof
    rcases Bool.or_eq_true_iff.mp heof with heof | heof
    · exact h.eof heof
    · rcases hidle with hzero | hcompl
      · simp [hzero] at heof
      · exact hcompl
  · obtain ⟨hzero, hopen⟩ := not_or.mp hidle
    have hopen := Bool.eq_false_iff.mpr hopen
    obtain ⟨tail, done, now, waiting, head, hreading, htail⟩ := h.reading
    have hend : tail = [] ∨ tail = [.complete] := htail.imp_right fun htail => htail.1
    rcases hreading.pollRead h.frames_ne h.total hend (Nat.pos_of_ne_zero hzero) hopen hpoll with
      ⟨portion, rfl, hportion, hcompl, hchan, done', now', waiting', head', hread'⟩ |
        ⟨rfl, rfl, hread, rfl, rfl, hread'⟩ | ⟨rfl, rfl, hresult⟩
    · refine { h with
        reading := ⟨tail, done', now', waiting', head', hread', htail⟩, ended := ?_, eof := ?_ }
      · intro hended
        rw [hcompl] at hended
        cases hended
      · intro heof
        rcases Bool.or_eq_true_iff.mp heof with heof | heof
        · rw [h.eof heof] at hopen
          cases hopen
        · simp [hportion] at heof
    · have hnil : e.read ++ (ReadResult.ready []).bytes = e.read := append_nil e.read
      rw [hnil]
      have hcompletion : e.completion.isSome = true := by
        rcases htail with htail | htail
        · cases htail
        · exact htail.2.1
      exact { h with
        reading := ⟨[], e.frames, [], [], [], hread', .inl rfl⟩
        ended := fun _ => ⟨hcompletion, hread⟩, eof := fun _ => rfl }
    · have hbytes : result.bytes = [] := by
        rcases hresult with rfl | ⟨message, rfl⟩
        · rfl
        · rfl
      rw [hbytes, append_nil]
      refine { h with reading := ⟨tail, done, now, waiting, head, hreading, htail⟩, eof := ?_ }
      intro heof
      rcases Bool.or_eq_true_iff.mp heof with heof | heof
      · exact h.eof heof
      · rcases hresult with rfl | ⟨message, rfl⟩
        · simp at heof
        · simp at heof

/-- Settling keeps the account: everything was consumed. -/
theorem Account.settle (h : Account session frames)
    (hsettle : session.settle finalSeq consumed = some session') :
    Account session' frames ∧ consumed.seq = frames.length ∧
      ∃ received, session' = { session with received, complete := true } ∧
        received.limits = session.received.limits ∧ received.highestConsumed = consumed.seq := by
  unfold UploadSession.settle at hsettle
  split at hsettle
  next received hcredit =>
    obtain ⟨hled, hlimits, hsent, -, hcons⟩ := h.ledger.credit hcredit
    split at hsettle
    next hcompl =>
      obtain ⟨-, hall⟩ := hled.validateComplete_ok.mp hcompl
      cases hsettle
      refine ⟨⟨hled, h.transferred, h.hashed⟩, ?_, received, rfl, hlimits, hcons⟩
      have hlen := h.ledger.sent_length
      rw [length_map] at hlen
      rw [← hcons, hall, hsent, hlen]
    · cases hsettle
  · cases hsettle

/-! ## Steps and runs -/

/-- The reader has not been told of an end that is withheld. -/
theorem Endpoint.Inv.withheld (h : e.Inv sha)
    (hwith : e.phase.withholds e.stream = true) : ∃ done now waiting head,
      Reading e.reader e.channel.queue e.frames e.read [] done now waiting head := by
  obtain ⟨tail, done, now, waiting, head, hread, rfl | ⟨-, -, htold⟩⟩ := h.reading
  · exact ⟨done, now, waiting, head, hread⟩
  · rw [hwith] at htold
    cases htold

/-- The loop moves on without touching the channel. -/
theorem Endpoint.Inv.proceed {phase : Phase} (h : e.Inv sha) (hacct : Account session e.frames)
    (htold : e.phase.withholds e.stream = false → phase.withholds e.stream = false)
    (hending : ∀ completion ∈ phase.ending, Completes sha e.frames completion ∧
      e.completion.isSome = true) (hclosed : e.completion.isSome = true → phase.isOpen = false) :
    Endpoint.Inv sha { e with phase, session } where
  __ := h
  account := fun _ => hacct
  reading := by
    obtain ⟨tail, done, now, waiting, head, hread, htail⟩ := h.reading
    refine ⟨tail, done, now, waiting, head, hread, htail.imp_right ?_⟩
    rintro ⟨htail, hcompl, hwith⟩
    exact ⟨htail, hcompl, htold hwith⟩
  ending := hending
  closed := hclosed

/-- The reader is told of the end of what was completed. -/
theorem Endpoint.Inv.tell {phase : Phase} (h : e.Inv sha)
    (hwith : e.phase.withholds e.stream = true) (hcompl : e.completion.isSome = true)
    (hphase : e.phase ≠ .failed) (htold : phase.withholds e.stream = false)
    (hending : ∀ completion ∈ phase.ending, Completes sha e.frames completion ∧
      e.completion.isSome = true) (hclosed : phase.isOpen = false) :
    Endpoint.Inv sha { e with channel := e.channel.finish, phase } where
  __ := h
  account := fun _ => h.account hphase
  reading := by
    obtain ⟨done, now, waiting, head, hread⟩ := h.withheld hwith
    exact ⟨[.complete], done, now, waiting, head, hread.finish, .inr ⟨rfl, hcompl, htold⟩⟩
  ending := hending
  closed := fun _ => hclosed

/-- A verified completion is that of the admitted frames. -/
theorem Account.completes (h : Account session frames) (hdig : ValidDigest digest)
    (hverify : session.verifyCompletion sha finalSeq size digest = true) :
    Completes sha frames (finalSeq, size, digest) := by
  obtain ⟨hfinal, hsize, hmatch⟩ := of_decide_eq_true hverify
  have hlen := h.ledger.sent_length
  rw [length_map] at hlen
  rw [transferDigestsMatch_iff hdig (validDigest_digestText sha _), h.hashed] at hmatch
  unfold Completes
  rw [hfinal, hsize, hmatch, hlen, h.transferred]

/-- Every step keeps the invariant. -/
theorem Endpoint.Inv.step (h : e.Inv sha) (hstep : EndpointStep sha e label e') : e'.Inv sha := by
  cases hstep with
  | skip hphase hvalid | report hphase | fault hphase => exact h
  | receive hphase hvalid =>
    refine h.proceed (h.account (by rw [hphase]; nofun)) ?_ nofun ?_
    · rw [hphase]
      nofun
    · intro hcompletion
      have := h.closed hcompletion
      rw [hphase] at this
      cases this
  | accept hphase hacc => exact h.accept hphase hacc
  | reject hphase hacc =>
    rename_i seq bytes seen error session channel
    rcases e.session.admitFrame_cases e.channel seen seq bytes with
      ⟨credited, received, -, -, heq⟩ | ⟨-, error', session', heq⟩
    · rw [heq] at hacc
      cases (Prod.mk.inj hacc).1
    · rw [heq] at hacc
      obtain ⟨-, hrest⟩ := Prod.mk.inj hacc
      obtain ⟨rfl, rfl⟩ := Prod.mk.inj hrest
      exact h.abort session'
  | complete hphase hvalid hverify =>
    rename_i finalSeq size digest
    have hacct := h.account (by rw [hphase]; nofun)
    have hcompl := hacct.completes hvalid.digest hverify
    obtain ⟨done, now, waiting, head, hread⟩ := h.withheld (by rw [hphase]; rfl)
    refine ⟨h.admitted, h.frames_ne, h.total, fun _ => hacct,
      ⟨[], done, now, waiting, head, hread, .inl rfl⟩,
      fun hended => ⟨rfl, (h.ended hended).2⟩, h.eof, ?_, ?_, fun _ => rfl⟩
    · intro completion hmem
      cases hmem
      exact hcompl
    · intro completion hmem
      cases hmem
      refine ⟨?_, rfl⟩
      have hdigestEq : digest = digestText sha e.session.hashed := by
        rw [hacct.hashed]
        exact (Prod.mk.inj (Prod.mk.inj hcompl).2).2
      rw [← hdigestEq]
      exact hcompl
  | mismatch hphase hvalid hverify | fail hphase => exact h.abort e.session
  | finishStream hphase hstr hcons hsettle =>
    refine h.proceed ((h.account (by rw [hphase]; nofun)).settle hsettle).1 ?_ ?_ (fun _ => rfl)
    · rw [hphase]
      nofun
    · have := h.ending
      rw [hphase] at this
      exact this
  | finishStore hphase hstr halive hroom =>
    have hending := h.ending
    rw [hphase] at hending
    refine h.tell (by rw [hphase]; rfl) (hending _ rfl).2 (by rw [hphase]; nofun) ?_ hending rfl
    rw [hstr]
    rfl
  | stored hphase hsettle =>
    refine h.proceed ((h.account (by rw [hphase]; nofun)).settle hsettle).1 ?_ ?_ (fun _ => rfl)
    · rw [hphase]
      exact id
    · have := h.ending
      rw [hphase] at this
      exact this
  | record hphase hroom =>
    have hending := h.ending
    rw [hphase] at hending
    have hsession := h.account (by rw [hphase]; nofun)
    have hquiet : Endpoint.Inv sha { e with phase := .done } :=
      h.proceed hsession (fun _ => rfl) nofun (fun _ => rfl)
    split
    next hstr =>
      unfold IngressChannel.releaseEof
      split
      · split
        · exact h.tell (by rw [hphase, hstr]; rfl) (hending _ rfl).2 (by rw [hphase]; nofun)
            rfl nofun rfl
        · exact { hquiet with }
      · exact hquiet
    · exact hquiet
  | read halive hpoll => exact h.readStep hpoll
  | dropReader => exact { h with }

/-- A step of the endpoint, whatever its label. -/
def Endpoint.Next (sha : Sha256) (e e' : Endpoint) : Prop :=
  ∃ label, EndpointStep sha e label e'

theorem Endpoint.Inv.run
    (hrun : ReflTransGen (Endpoint.Next sha) e e') (h : e.Inv sha) : e'.Inv sha := by
  refine Run.keeps (P := Endpoint.Inv sha) ?_ hrun h
  rintro e e' ⟨label, hstep⟩ h
  exact h.step hstep

/-- **Integrity of a streamed upload**, in every state of every run: frames are admitted in order,
the handler has read the first of their bytes, it is told of an end only after a completion of
exactly that, and reported cursors count the frames read to their ends. -/
theorem upload_stream_integrity (sha : Sha256) (limits : FlowLimits) (maxFrameBytes : Nat)
    (maxBytes : Option Nat) {e : Endpoint} (hrun : ReflTransGen (Endpoint.Next sha)
      (.opened limits maxFrameBytes maxBytes true) e) :
    e.admitted.map Prod.fst = List.range' 1 e.admitted.length ∧
    (∃ unread, (e.admitted.map Prod.snd).flatten = e.read ++ unread) ∧
    (e.eof = true → e.read = (e.admitted.map Prod.snd).flatten ∧
      e.completion = some (e.admitted.length, e.read.length, digestText sha e.read)) ∧
    ∀ received consumed bytes e', EndpointStep sha e (.emit (.credit received consumed bytes)) e' →
      consumed = wholeFrames (e.admitted.map Prod.snd) e.read.length := by
  have h := Endpoint.Inv.run hrun (.opened sha limits maxFrameBytes maxBytes true)
  have hlength : e.frames.length = e.admitted.length := length_map _
  refine ⟨?_, h.read_prefix_frames, ?_, ?_⟩
  · rw [h.admitted, map_fst_numbered, length_numbered]
  · intro heof
    obtain ⟨hsome, hread⟩ := h.ended (h.eof heof)
    obtain ⟨completion, hcompletion⟩ := Option.isSome_iff_exists.mp hsome
    refine ⟨hread, ?_⟩
    rw [hcompletion, h.completion completion hcompletion, hread, hlength]
  · intro received consumed bytes e' hstep
    obtain ⟨tail, done, now, waiting, head, hreading, -⟩ := h.reading
    -- a reported cursor is the reader's
    have hconsumed : consumed = e.reader.consumed.seq := by
      cases hstep with
      | finishStream hphase _ _ hsettle | stored hphase hsettle =>
        obtain ⟨hcompl, -⟩ := h.ending _ (by rw [hphase]; rfl)
        rw [((h.account (by rw [hphase]; nofun)).settle hsettle).2.1]
        exact (Prod.mk.inj hcompl).1
      | report hphase => rfl
    rw [hconsumed]
    exact (hreading.wholeFrames_eq h.frames_ne).symm

/-- What is sent in two frames. -/
def pairBytes : Bytes := [7, 9, 11]

/-- The hash of those bytes, and texts of its shape for any others. -/
def pairSha : Sha256 where
  text := fun bytes => if bytes = pairBytes then "4IrpkJdS1mmq4aAZbMtot62Lzn8p33zjgpu2C2C7TuU"
    else "47DEQpj8HBSa-_TImW-5JCeuQeRkm5NMpJWZG3hSuFU"
  text_length := fun _ => by split <;> decide
  text_plain := fun _ => by split <;> decide

def narrowLimits : FlowLimits :=
  ⟨4, 2, 8, by decide, by decide, by decide⟩

/-- The second frame arrives while the first is read byte by byte. -/
theorem exists_pair_run : ∃ e, ReflTransGen (Endpoint.Next pairSha)
    (.opened narrowLimits 4 none true) e ∧ e.eof = true ∧
      e.admitted = [(1, [7, 9]), (2, [11])] := by
  have hfirst : ReflTransGen (Endpoint.Next pairSha) (.opened narrowLimits 4 none true) _ :=
    .tail (.tail (.tail .refl ⟨_, @EndpointStep.receive pairSha _ 1 [7, 9] rfl
      ⟨by decide, by decide, by decide⟩⟩) ⟨_, .accept rfl rfl⟩)
      ⟨_, @EndpointStep.read pairSha _ 1 _ _ _ rfl rfl⟩
  have hsecond := ((((hfirst.tail ⟨_, @EndpointStep.receive pairSha _ 2 [11] rfl
    ⟨by decide, by decide, by decide⟩⟩).tail ⟨_, .accept rfl rfl⟩).tail
    ⟨_, @EndpointStep.read pairSha _ 1 _ _ _ rfl rfl⟩).tail
    ⟨_, @EndpointStep.read pairSha _ 1 _ _ _ rfl rfl⟩)
  have hdig := validDigest_digestText pairSha pairBytes
  refine ⟨_, (((hsecond.tail
    ⟨_, @EndpointStep.complete pairSha _ 2 3 _ rfl ⟨by decide, by decide, by decide, hdig⟩ ?_⟩).tail
    ⟨_, .finishStream rfl rfl (by decide) rfl⟩).tail ⟨_, .record rfl (fun _ => by decide)⟩).tail
    ⟨_, @EndpointStep.read pairSha _ 1 _ _ _ rfl rfl⟩, rfl, rfl⟩
  exact decide_eq_true ⟨rfl, rfl, (transferDigestsMatch_iff hdig hdig).mpr rfl⟩

theorem upload_stream_integrity_pair : ∃ e, ReflTransGen (Endpoint.Next pairSha)
    (.opened narrowLimits 4 none true) e ∧ e.read = pairBytes ∧
      e.completion = some (2, 3, digestText pairSha pairBytes) := by
  obtain ⟨e, hrun, heof, hadmitted⟩ := exists_pair_run
  obtain ⟨-, -, hend, -⟩ := upload_stream_integrity pairSha narrowLimits 4 none hrun
  obtain ⟨hread, hcompletion⟩ := hend heof
  rw [hadmitted] at hread hcompletion
  rw [hread] at hcompletion
  exact ⟨e, hrun, hread, hcompletion⟩

end Transfer
