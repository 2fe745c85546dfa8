/-
# The ingress of an upload

The provider hands admitted frames to whoever reads the upload, a store write or a handler,
through a bounded channel.  `FrameReader` is the reading end: it gives out bytes in whatever
portions it is asked for and publishes how many frames have been read to their ends.

`Reading` splits what was admitted into the frames read to their ends, the one being read
and those that wait in the channel; every read moves along that split.
-/
import Trellis.Lib.Window
import Trellis.Transfer.Digest

open Window

namespace Transfer

open List

/-- Latest whole-frame consumption. -/
structure Consumed where
  (seq frameBytes bytes : Nat)
  deriving DecidableEq, Repr

def Consumed.default : Consumed := ⟨0, 0, 0⟩

inductive Ingress where
  | frame (seq : Nat) (bytes : Bytes)
  | complete
  deriving DecidableEq, Repr

/-- The bounded channel of a session, with the two ends it may have lost. -/
structure IngressChannel where
  capacity : Nat
  queue : List Ingress
  (senderAlive receiverAlive : Bool)
  deriving DecidableEq, Repr

structure FrameReader where
  /-- Sequence and length of the frame being read, and what is left of it. -/
  current : Option (Nat × Nat × Bytes)
  consumed : Consumed
  complete : Bool
  deriving DecidableEq, Repr

def FrameReader.new : FrameReader := ⟨none, .default, false⟩

inductive ReadResult where
  | pending
  | ready (bytes : Bytes)
  | error (message : String)
  deriving DecidableEq, Repr

/-- Read from the frame at hand into a buffer with room for `remaining` bytes. -/
def FrameReader.readFrame (reader : FrameReader) (seq len : Nat) (bytes : Bytes) (remaining : Nat) :
    ReadResult × FrameReader :=
  let count := min remaining bytes.length
  let rest := bytes.drop count
  if rest ≠ [] then (.ready (bytes.take count), { reader with current := some (seq, len, rest) })
  else
    let total := reader.consumed.bytes + len
    if total < 2 ^ 64 then
      (.ready (bytes.take count), { reader with current := none, consumed := ⟨seq, len, total⟩ })
    else
      (.error "upload consumed byte count overflow",
        { reader with current := some (seq, len, rest) })

/-- `poll_read`, for a buffer with room for `remaining` bytes. -/
def FrameReader.pollRead (reader : FrameReader) (channel : IngressChannel) (remaining : Nat) :
    ReadResult × FrameReader × IngressChannel :=
  if remaining = 0 ∨ reader.complete then (.ready [], reader, channel)
  else
    match reader.current, channel.queue with
    | some (seq, len, bytes), _ =>
      let (result, reader) := reader.readFrame seq len bytes remaining
      (result, reader, channel)
    | none, .frame seq bytes :: queue =>
      let (result, reader) := reader.readFrame seq bytes.length bytes remaining
      (result, reader, { channel with queue })
    | none, .complete :: queue =>
      (.ready [], { reader with complete := true }, { channel with queue })
    | none, [] =>
      if channel.senderAlive then (.pending, reader, channel)
      else (.error "upload transfer aborted before validated completion", reader, channel)

variable {reader : FrameReader}

/-- A read takes from the queue and leaves the channel's ends as they are. -/
theorem FrameReader.pollRead_channel
    (h : reader.pollRead channel remaining = (result, reader', channel')) :
    ∃ queue, channel' = { channel with queue } := by
  have hchan := congrArg (fun answer => answer.2.2) h
  dsimp only at hchan
  rw [← hchan]
  unfold FrameReader.pollRead
  split
  · exact ⟨_, rfl⟩
  split
  · exact ⟨_, rfl⟩
  · exact ⟨_, rfl⟩
  · exact ⟨_, rfl⟩
  · split
    · exact ⟨_, rfl⟩
    · exact ⟨_, rfl⟩

/-! ## What has been read -/

/-- How many of the frames lie within the first bytes. -/
def wholeFrames : List Bytes → Nat → Nat
  | [], _ => 0
  | frame :: frames, read =>
    if frame.length ≤ read then wholeFrames frames (read - frame.length) + 1
      else 0

variable (frames : List Bytes) {queue tail : List Ingress} {admitted now : List Bytes}
  {read head : Bytes}

theorem wholeFrames_mono {read read' : Nat} (h : read ≤ read') :
    wholeFrames frames read ≤ wholeFrames frames read' := by
  induction frames generalizing read read' with
  | nil => exact Nat.zero_le _
  | cons frame frames ih =>
    rw [wholeFrames, wholeFrames]
    split
    next hle =>
      rw [if_pos (by omega)]
      exact Nat.succ_le_succ (ih (by omega))
    · exact Nat.zero_le _

/-- Frames in the channel, numbered after those before them. -/
def queued (start : Nat) (frames : List Bytes) : List Ingress :=
  (numbered start frames).map fun entry => .frame entry.1 entry.2

theorem queued_concat : queued start (frames ++ [frame])
      = queued start frames ++ [.frame (start + frames.length + 1) frame] := by
  unfold queued
  rw [numbered_concat, map_append]
  rfl

/-- The frame the reader is at: what it has read of it, and what is left. -/
structure Current (reader : FrameReader) (done : List Bytes) (head rest : Bytes) : Prop where
  current : reader.current = some (done.length + 1, (head ++ rest).length, rest)
  rest_ne : rest ≠ []

/-- Admitted frames were read to their ends, are at hand or in the channel, which `tail` follows;
the bytes read are those of the first and what was read of the second. -/
structure Reading (reader : FrameReader) (queue : List Ingress) (admitted : List Bytes)
    (read : Bytes) (tail : List Ingress) (done now waiting : List Bytes) (head : Bytes) :
    Prop where
  admitted : admitted = done ++ now ++ waiting
  consumed_seq : reader.consumed.seq = done.length
  consumed_bytes : reader.consumed.bytes = done.flatten.length
  read : read = done.flatten ++ head
  queue : queue = queued (done.length + now.length) waiting ++ tail
  now : (now = [] ∧ reader.current = none ∧ head = []) ∨
    ∃ rest, now = [head ++ rest] ∧ Current reader done head rest

theorem Reading.new : Reading .new [] [] [] [] [] [] [] [] where
  admitted := rfl
  consumed_seq := rfl
  consumed_bytes := rfl
  read := rfl
  queue := rfl
  now := .inl ⟨rfl, rfl, rfl⟩

/-- A frame that is put into the channel waits there. -/
theorem Reading.send
    (h : Reading reader queue admitted read [] done now waiting head) (bytes : Bytes) :
    Reading reader (queue ++ [.frame (admitted.length + 1) bytes]) (admitted ++ [bytes]) read []
      done now (waiting ++ [bytes]) head where
  __ := h
  admitted := by rw [h.admitted, append_assoc]
  queue := by
    rw [h.queue, append_nil, append_nil, queued_concat, h.admitted, length_append, length_append]

theorem Reading.finish (h : Reading reader queue admitted read [] done now waiting head) :
    Reading reader (queue ++ [.complete]) admitted read [.complete] done now waiting head where
  __ := h
  queue := by rw [h.queue, append_nil]

/-- Reading from the frame at hand moves into it, or past its end. -/
theorem Reading.readFrame (head bytes : Bytes) (waiting : List Bytes)
    (hadm : admitted = done ++ [head ++ bytes] ++ waiting)
    (hseq : reader.consumed.seq = done.length)
    (hbytes : reader.consumed.bytes = done.flatten.length) (hread : read = done.flatten ++ head)
    (hqueue : queue = queued (done.length + 1) waiting ++ tail) (hne : bytes ≠ [])
    (htotal : admitted.flatten.length < 2 ^ 64) (hleft : 0 < remaining)
    (h : reader.readFrame (done.length + 1) (head ++ bytes).length bytes remaining
      = (result, reader')) :
    ∃ portion, result = .ready portion ∧ portion ≠ [] ∧ reader'.complete = reader.complete ∧
      ∃ done' now' head', Reading reader' queue admitted (read ++ portion) tail done' now' waiting
        head' := by
  have hportion : bytes.take (min remaining bytes.length) ≠ [] := by
    have hlen := length_pos_iff.mpr hne
    intro hnil
    have := congrArg List.length hnil
    rw [length_take, length_nil] at this
    omega
  have hsplit := take_append_drop (min remaining bytes.length) bytes
  unfold FrameReader.readFrame at h
  dsimp only at h
  split at h
  next hrest =>
    cases h
    refine ⟨_, rfl, hportion, rfl, done, [head ++ bytes],
      head ++ bytes.take (min remaining bytes.length), ⟨hadm, hseq, hbytes, ?_, hqueue,
        .inr ⟨bytes.drop (min remaining bytes.length), ?_, ?_, hrest⟩⟩⟩
    · rw [hread, append_assoc]
    · rw [append_assoc, hsplit]
    · rw [append_assoc, hsplit]
  next hrest =>
    rw [not_not] at hrest
    rw [hrest, append_nil] at hsplit
    have hlast : (done ++ [head ++ bytes]).flatten.length
        = reader.consumed.bytes + (head ++ bytes).length := by
      rw [flatten_append, length_append, hbytes, flatten_singleton]
    have hfits : reader.consumed.bytes + (head ++ bytes).length < 2 ^ 64 := by
      rw [hadm, flatten_append, length_append, hlast] at htotal
      omega
    rw [if_pos hfits] at h
    cases h
    refine ⟨_, rfl, hportion, rfl, done ++ [head ++ bytes], [], [], ⟨?_, ?_, ?_, ?_, ?_,
      .inl ⟨rfl, rfl, rfl⟩⟩⟩
    · rw [hadm, append_nil]
    · show done.length + 1 = (done ++ [head ++ bytes]).length
      rw [length_append, length_singleton]
    · exact hlast.symm
    · rw [hread, hsplit, flatten_append, flatten_singleton, append_nil, append_assoc]
    · rw [hqueue, length_append]
      rfl

/-- **What a read does.**  It hands out the next bytes; it ends only at the completion, and
otherwise waits or fails because the sender is gone. -/
theorem Reading.pollRead (h : Reading reader channel.queue admitted read tail done now waiting head)
    (hframes : ∀ frame ∈ admitted, frame ≠ []) (htotal : admitted.flatten.length < 2 ^ 64)
    (htail : tail = [] ∨ tail = [.complete]) (hleft : 0 < remaining)
    (hopen : reader.complete = false)
    (hpoll : reader.pollRead channel remaining = (result, reader', channel')) :
    (∃ portion, result = .ready portion ∧ portion ≠ [] ∧ reader'.complete = false ∧
      channel' = { channel with queue := channel'.queue } ∧
      ∃ done' now' waiting' head', Reading reader' channel'.queue admitted (read ++ portion) tail
        done' now' waiting' head') ∨
    (result = .ready [] ∧ tail = [.complete] ∧ read = admitted.flatten ∧
      reader' = { reader with complete := true } ∧ channel' = { channel with queue := [] } ∧
      Reading reader' [] admitted read [] admitted [] [] []) ∨
    (reader' = reader ∧ channel' = channel ∧
      (result = .pending ∨ ∃ message, result = .error message)) := by
  unfold FrameReader.pollRead at hpoll
  rw [if_neg (by simp [hopen]; omega)] at hpoll
  rcases h.now with ⟨rfl, hcur, rfl⟩ | ⟨rest, rfl, hcur, hrest⟩
  · rw [hcur] at hpoll
    have hadm := h.admitted
    rw [append_nil] at hadm
    cases waiting with
    | cons frame waiting =>
      have hqueue : channel.queue = .frame (done.length + 1) frame ::
          (queued (done.length + 1) waiting ++ tail) := h.queue
      rw [hqueue] at hpoll
      obtain ⟨hresult, hreader, hchan⟩ :
          (reader.readFrame (done.length + 1) frame.length frame remaining).1 = result ∧
            (reader.readFrame (done.length + 1) frame.length frame remaining).2 = reader' ∧
            { channel with queue := queued (done.length + 1) waiting ++ tail } = channel' := by
        simpa using hpoll
      have hne : frame ≠ [] := by
        refine hframes frame ?_
        rw [hadm]
        exact mem_append_right _ mem_cons_self
      obtain ⟨portion, hready, hportion, hcompl, done', now', head', hreading⟩ :=
        Reading.readFrame [] frame waiting
          (by rw [hadm, nil_append, append_assoc]; rfl) h.consumed_seq
          h.consumed_bytes h.read rfl hne htotal hleft (Prod.ext hresult hreader)
      refine .inl ⟨portion, hready, hportion, hcompl.trans hopen, ?_, done', now', waiting,
        head', ?_⟩
      · rw [← hchan]
      · rw [← hchan]
        exact hreading
    | nil =>
      have hqueue : channel.queue = tail := h.queue
      rw [append_nil] at hadm
      rcases htail with rfl | rfl
      · rw [hqueue] at hpoll
        dsimp only at hpoll
        refine .inr (.inr ?_)
        split at hpoll
        · obtain ⟨rfl, hrest⟩ := Prod.mk.inj hpoll
          cases hrest
          exact ⟨rfl, rfl, .inl rfl⟩
        · obtain ⟨rfl, hrest⟩ := Prod.mk.inj hpoll
          cases hrest
          exact ⟨rfl, rfl, .inr ⟨_, rfl⟩⟩
      · rw [hqueue] at hpoll
        obtain ⟨rfl, hrest⟩ := Prod.mk.inj hpoll
        cases hrest
        have hread : read = admitted.flatten := by rw [h.read, hadm, append_nil]
        refine .inr (.inl ⟨rfl, rfl, hread, ?_, rfl, ⟨?_, ?_, ?_, ?_, rfl, .inl ⟨rfl, rfl, rfl⟩⟩⟩)
        · rw [hcur]
        · rw [append_nil, append_nil]
        · rw [hadm]
          exact h.consumed_seq
        · rw [hadm]
          exact h.consumed_bytes
        · rw [append_nil, hread]
  · rw [hcur] at hpoll
    obtain ⟨hresult, hreader, rfl⟩ :
        (reader.readFrame (done.length + 1) (head ++ rest).length rest remaining).1 = result ∧
          (reader.readFrame (done.length + 1) (head ++ rest).length rest remaining).2 = reader' ∧
          channel = channel' := by
      simpa using hpoll
    obtain ⟨portion, hready, hportion, hcompl, done', now', head', hreading⟩ :=
      Reading.readFrame head rest waiting h.admitted h.consumed_seq h.consumed_bytes h.read h.queue
        hrest htotal
        hleft (Prod.ext hresult hreader)
    exact .inl ⟨portion, hready, hportion, hcompl.trans hopen, rfl, done', now', waiting,
      head', hreading⟩

/-- The published cursor counts the frames that were read to their ends. -/
theorem Reading.wholeFrames_eq (h : Reading reader queue admitted read tail done now waiting head)
    (hframes : ∀ frame ∈ admitted, frame ≠ []) :
    wholeFrames admitted read.length = reader.consumed.seq := by
  have hskip : ∀ (done rest : List Bytes) (more : Nat),
      wholeFrames (done ++ rest) (done.flatten.length + more)
        = done.length + wholeFrames rest more := by
    intro done rest more
    induction done with
    | nil => simp
    | cons frame done ih =>
      rw [cons_append, wholeFrames, if_pos (by simp; omega), flatten_cons,
        length_append, length_cons]
      have hsub : frame.length + done.flatten.length + more - frame.length
          = done.flatten.length + more := by omega
      rw [hsub]
      omega
  have hnext : ∀ frame rest (more : Nat), more < frame.length →
      wholeFrames (frame :: rest) more = 0 := by
    intro frame rest more hmore
    rw [wholeFrames, if_neg (by omega)]
  rw [h.read, length_append, h.admitted, append_assoc, hskip, h.consumed_seq, Nat.add_eq_left]
  rcases h.now with ⟨rfl, -, rfl⟩ | ⟨rest, rfl, -, hrest⟩
  · cases hwait : waiting with
    | nil => rfl
    | cons frame waiting =>
      refine hnext frame waiting 0 (length_pos_iff.mpr (hframes frame ?_))
      rw [h.admitted, hwait]
      exact mem_append_right _ mem_cons_self
  · apply hnext _ _ _
    have := length_pos_iff.mpr hrest
    rw [length_append]
    omega

/-- The bytes of the frames up to a number. -/
def bytesUpTo (seq : Nat) : Nat :=
  ((frames.map List.length).take seq).sum

theorem sum_map_length : (frames.map List.length).sum = frames.flatten.length := by
  rw [length_flatten]

/-- The published cursor lies within the admitted frames and has their bytes. -/
theorem Reading.consumed_eq (h : Reading reader queue admitted read tail done now waiting head) :
    reader.consumed.seq ≤ admitted.length ∧
      reader.consumed.bytes = bytesUpTo admitted reader.consumed.seq := by
  constructor
  · rw [h.consumed_seq, h.admitted, length_append, length_append]
    omega
  · rw [h.consumed_bytes, bytesUpTo, h.consumed_seq, h.admitted, append_assoc, map_append,
      take_left' (length_map _), sum_map_length]

end Transfer
