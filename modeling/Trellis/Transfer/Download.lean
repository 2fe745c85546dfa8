/-
# The caller of a download

`get_download_grant_into_with_cancel`: verified frames are admitted into a queue, whether the
loop waits or is in the middle of a write, and written one after another; the end marker is
compared with the grant once everything was written.

Messages that cannot be verified are skipped.  A write may be taken in portions of any
size.  Whatever ends the loop early (expiry, lost authority, a signal, a writer that fails)
is one step.
-/
import Trellis.Transfer.Upload

open Window DataPlane

namespace Transfer

open List Checked

/-! ## The loop -/

/-- What the caller offers to receive; the window's bytes are reserved. -/
structure ReceiveOffer where
  (maxFrame frames bytes : Nat)

/-- Activated limits are taken only within the offer. -/
def ReceiveOffer.accepts (offer : ReceiveOffer) (limits : FlowLimits) : Bool :=
  limits.maxFrameBytes ≤ offer.maxFrame ∧ limits.windowFrames ≤ offer.frames ∧
    limits.windowBytes ≤ offer.bytes

inductive DownloadMessage where
  | data (seq : Nat) (bytes : Bytes)
  | eof (finalSeq size : Nat) (digest : String)
  | other
  deriving DecidableEq, Repr

/-- `TransferFrameDescriptor::validate`; other messages are skipped. -/
def DownloadMessage.Valid : DownloadMessage → Prop
  | .data seq bytes => seq ≠ 0 ∧ bytes ≠ [] ∧ bytes.length ≤ maxTransferFrameBytes
  | .eof finalSeq size digest => ValidTerminal finalSeq size digest
  | .other => True

inductive DownloadError where
  | dataAfterEof
  | window (error : FlowError)
  | sequence (error : FlowError)
  | gap
  | sizeOverflow
  | exceedsSize
  | eofGap
  | invalidKind
  | consumer (error : FlowError)
  | integrity
  | outside
  deriving DecidableEq, Repr

/-- The loop's variables.  What was admitted and written is kept beside them. -/
structure Download where
  (maxFrame size : Nat)
  digest : String
  received : SenderWindow
  queue : List (Nat × Bytes)
  /-- The frame being written: its number, its bytes and what is left of them. -/
  writing : Option (Nat × Bytes × Bytes)
  eof : Option (Nat × Nat × String)
  (admittedBytes transferred consumed : Nat)
  hashed : Bytes
  outcome : Option (Except DownloadError Unit)
  admitted : List (Nat × Bytes)
  written : Bytes

def Download.opened (limits : FlowLimits) (maxFrame size : Nat) (digest : String) : Download where
  maxFrame
  size
  digest
  received := .new limits
  queue := []
  writing := none
  eof := none
  admittedBytes := 0
  transferred := 0
  consumed := 0
  hashed := []
  outcome := none
  admitted := []
  written := []

variable (d : Download)

def Download.fail (error : DownloadError) : Download :=
  { d with outcome := some (.error error) }

/-- `admit_download`, of a verified message. -/
def Download.admitDownload (message : DownloadMessage) : Download :=
  if d.eof.isSome then d.fail .dataAfterEof
  else
    match message with
    | .data seq bytes =>
      match d.received.validateFrameSlot bytes.length d.maxFrame with
      | .error error => d.fail (.window error)
      | .ok () =>
        match d.received.nextFrameSeq with
        | .error error => d.fail (.sequence error)
        | .ok next =>
          let admittedBytes := d.admittedBytes + bytes.length
          if seq ≠ next then d.fail .gap
          else if admittedBytes ≥ 2 ^ 64 then d.fail .sizeOverflow
          else if admittedBytes > d.size then { d with admittedBytes }.fail .exceedsSize
          else
            match d.received.commitFrame seq bytes.length with
            | (.error error, received) => { d with admittedBytes, received }.fail (.window error)
            | (.ok (), received) =>
              { d with
                admittedBytes
                received
                queue := d.queue ++ [(seq, bytes)]
                admitted := d.admitted ++ [(seq, bytes)] }
    | .eof finalSeq size digest =>
      if finalSeq ≠ d.received.highestSent then d.fail .eofGap
      else { d with eof := some (finalSeq, size, digest) }
    | .other => d.fail .invalidKind

/-- A frame was written to its end: it is hashed, counted and credited. -/
def Download.frameWritten (seq : Nat) (bytes : Bytes) : Download :=
  let transferred := d.transferred + bytes.length
  if transferred ≥ 2 ^ 64 then d.fail .sizeOverflow
  else
    match d.received.applyCredit d.received.highestSent seq (some transferred) with
    | (.error error, received) => { d with received }.fail (.consumer error)
    | (.ok (), received) =>
      { d with
        received
        writing := none
        hashed := d.hashed ++ bytes
        transferred
        consumed := seq }

/-- Everything was written and the end is known. -/
def Download.finish (sha : Sha256) (d : Download) (finalSeq size : Nat) (digest : String) :
    Download :=
  if finalSeq ≠ d.consumed ∨ size ≠ d.transferred ∨ d.transferred ≠ d.size ∨
      transferDigestsMatch digest d.digest = false ∨
      transferDigestsMatch digest (digestText sha d.hashed) = false then d.fail .integrity
  else { d with outcome := some (.ok ()) }

/-- The steps of the loop while it runs. -/
inductive DownloadStep (sha : Sha256) : Download → Download → Prop
  | arrive {d : Download} {message : DownloadMessage} (hrunning : d.outcome = none)
      (hvalid : message.Valid) : DownloadStep sha d (d.admitDownload message)
  | next {d : Download} {seq : Nat} {bytes : Bytes} {queue : List (Nat × Bytes)}
      (hrunning : d.outcome = none) (hwriting : d.writing = none)
      (hqueue : d.queue = (seq, bytes) :: queue) :
      DownloadStep sha d { d with queue, writing := some (seq, bytes, bytes) }
  | write {d : Download} {seq : Nat} {bytes rest : Bytes} (count : Nat)
      (hrunning : d.outcome = none) (hwriting : d.writing = some (seq, bytes, rest)) :
      DownloadStep sha d
        { d with
          writing := some (seq, bytes, rest.drop count)
          written := d.written ++ rest.take count }
  | written {d : Download} {seq : Nat} {bytes : Bytes} (hrunning : d.outcome = none)
      (hwriting : d.writing = some (seq, bytes, [])) : DownloadStep sha d (d.frameWritten seq bytes)
  | finish {d : Download} {finalSeq size : Nat} {digest : String} (hrunning : d.outcome = none)
      (hwriting : d.writing = none) (hqueue : d.queue = [])
      (heof : d.eof = some (finalSeq, size, digest)) :
      DownloadStep sha d (d.finish sha finalSeq size digest)
  | fail {d : Download} (hrunning : d.outcome = none) : DownloadStep sha d (d.fail .outside)

/-! ## The invariant -/

def Download.frames : List Bytes :=
  d.admitted.map Prod.snd

/-- The bytes held for the writer. -/
def Download.buffered : Nat :=
  (d.writing.toList.map fun frame => frame.2.1.length).sum +
    (d.queue.map fun frame => frame.2.length).sum

/-- Admitted frames are written to their ends, being written or in the queue. -/
structure Progress (d : Download) (done now waiting : List Bytes) (head : Bytes) : Prop where
  frames : d.frames = done ++ now ++ waiting
  queue : d.queue = numbered (done.length + now.length) waiting
  now : (now = [] ∧ d.writing = none ∧ head = []) ∨
    ∃ rest, now = [head ++ rest] ∧ d.writing = some (done.length + 1, head ++ rest, rest)
  written : d.written = done.flatten ++ head
  hashed : d.hashed = done.flatten
  transferred : d.transferred = done.flatten.length
  consumed : d.consumed = done.length
  cursor : d.received.highestConsumed = done.length

structure Download.Inv (sha : Sha256) (limits : FlowLimits) (size : Nat) (digest : String)
    (d : Download) : Prop where
  limits_eq : d.received.limits = limits
  size_eq : d.size = size
  digest_eq : d.digest = digest
  admitted : d.admitted = numbered 0 d.frames
  ledger : Ledger d.received (d.frames.map List.length)
  progress : ∃ done now waiting head, Progress d done now waiting head
  admittedBytes : d.outcome = none → d.admittedBytes = d.frames.flatten.length
  total : d.frames.flatten.length ≤ size
  eof : ∀ terminal ∈ d.eof, ValidDigest terminal.2.2
  outcome : d.outcome = some (.ok ()) → d.written.length = size ∧ digestText sha d.written = digest

theorem Download.Inv.opened (sha : Sha256) (limits : FlowLimits) (maxFrame size : Nat)
    (digest : String) :
    (Download.opened limits maxFrame size digest).Inv sha limits size digest where
  limits_eq := rfl
  size_eq := rfl
  digest_eq := rfl
  admitted := rfl
  ledger := .new limits
  progress := ⟨[], [], [], [], rfl, rfl, .inl ⟨rfl, rfl, rfl⟩, rfl, rfl, rfl, rfl, rfl⟩
  admittedBytes := fun _ => rfl
  total := Nat.zero_le _
  eof := nofun
  outcome := nofun

variable {size : Nat} {digest : String} {d : Download}

variable (h : d.Inv sha limits size digest)
include h

/-- A failure keeps what was written, whatever became of the byte count. -/
theorem Download.Inv.failed (admittedBytes : Nat)
    (error : DownloadError) : ({ d with admittedBytes }.fail error).Inv sha limits size digest := by
  obtain ⟨done, now, waiting, head, hprog⟩ := h.progress
  exact { h with
    progress := ⟨done, now, waiting, head, { hprog with }⟩
    admittedBytes := nofun, outcome := nofun }

omit h

variable (hlive : d.outcome = none)
include hlive

/-- A download that runs has not ended well. -/
theorem Download.not_ok {P : Prop} (hok : d.outcome = some (.ok ())) : P := by
  rw [hlive] at hok
  cases hok

include h

/-- An admitted frame is the next one and waits in the queue. -/
theorem Download.Inv.push {received : SenderWindow}
    (htotal : d.admittedBytes + bytes.length ≤ d.size)
    (hcom : d.received.commitFrame seq bytes.length = (.ok (), received)) :
    Download.Inv sha limits size digest { d with
      admittedBytes := d.admittedBytes + bytes.length
      received
      queue := d.queue ++ [(seq, bytes)]
      admitted := d.admitted ++ [(seq, bytes)] } := by
  obtain ⟨done, now, waiting, head, hprog⟩ := h.progress
  have hled := h.ledger.commit hcom
  have hlen := h.ledger.length_eq
  obtain ⟨-, hnext, rfl⟩ := SenderWindow.commitFrame_ok.mp hcom
  obtain ⟨-, rfl⟩ := SenderWindow.nextFrameSeq_ok.mp hnext
  have hframes : (d.admitted ++ [(d.received.highestSent + 1, bytes)]).map Prod.snd
      = d.frames ++ [bytes] := by
    rw [map_append]
    rfl
  have hbytes : (d.frames ++ [bytes]).flatten.length = d.admittedBytes + bytes.length := by
    rw [flatten_append, flatten_singleton, length_append, h.admittedBytes hlive]
  have hstart : done.length + now.length + waiting.length + 1 = d.received.highestSent + 1 := by
    rw [← hlen, hprog.frames, length_append, length_append]
  refine { h with
    admitted := ?_, ledger := ?_
    progress := ⟨done, now, waiting ++ [bytes], head, { hprog with frames := ?_, queue := ?_ }⟩
    admittedBytes := ?_, total := ?_, outcome := Download.not_ok hlive }
  · show d.admitted ++ [(d.received.highestSent + 1, bytes)]
      = numbered 0 ((d.admitted ++ [(d.received.highestSent + 1, bytes)]).map Prod.snd)
    rw [hframes, numbered_concat, ← h.admitted, hlen, Nat.zero_add]
  · show Ledger _ (((d.admitted ++ [(d.received.highestSent + 1, bytes)]).map Prod.snd).map
      List.length)
    rw [hframes, map_append]
    exact hled
  · show (d.admitted ++ [(d.received.highestSent + 1, bytes)]).map Prod.snd
      = done ++ now ++ (waiting ++ [bytes])
    rw [hframes, hprog.frames, append_assoc _ waiting]
  · rw [numbered_concat, hstart, hprog.queue]
  · intro _
    show d.admittedBytes + bytes.length
      = ((d.admitted ++ [(d.received.highestSent + 1, bytes)]).map Prod.snd).flatten.length
    rw [hframes, hbytes]
  · show ((d.admitted ++ [(d.received.highestSent + 1, bytes)]).map Prod.snd).flatten.length ≤ size
    rw [hframes, hbytes, ← h.size_eq]
    exact htotal

/-- Admission keeps the invariant, whatever the message. -/
theorem Download.Inv.arrive (hvalid : message.Valid) :
    (d.admitDownload message).Inv sha limits size digest := by
  unfold Download.admitDownload
  split
  · exact h.failed d.admittedBytes _
  cases message with
  | data seq bytes =>
    dsimp only
    iterate 4
      split
      · exact h.failed d.admittedBytes _
    split
    · exact h.failed _ _
    rename_i hsize
    split
    next error received hcom =>
      obtain rfl := SenderWindow.commitFrame_error hcom
      exact h.failed _ _
    next received hcom => exact h.push hlive (Nat.not_lt.mp hsize) hcom
  | eof finalSeq size' digest' =>
    dsimp only
    split
    · exact h.failed d.admittedBytes _
    obtain ⟨done, now, waiting, head, hprog⟩ := h.progress
    refine { h with progress := ⟨done, now, waiting, head, { hprog with }⟩, eof := ?_ }
    intro terminal hmem
    cases hmem
    exact hvalid.digest
  | other => exact h.failed d.admittedBytes _

/-- The next frame is taken from the queue. -/
theorem Download.Inv.next {queue : List (Nat × Bytes)} (hwrit : d.writing = none)
    (hqueue : d.queue = (seq, bytes) :: queue) : Download.Inv sha limits size digest { d with
      queue, writing := some (seq, bytes, bytes) } := by
  obtain ⟨done, now, waiting, head, hprog⟩ := h.progress
  rcases hprog.now with ⟨rfl, -, rfl⟩ | ⟨rest, -, hbusy⟩
  · have hwait := hprog.queue
    rw [hqueue] at hwait
    cases waiting with
    | nil => cases hwait
    | cons frame waiting =>
      obtain ⟨hhead, rfl⟩ := List.cons.inj hwait
      cases hhead
      refine { h with
        progress := ⟨done, [bytes], waiting, [], { hprog with
          frames := ?_, queue := rfl, now := .inr ⟨bytes, rfl, rfl⟩ }⟩
        outcome := Download.not_ok hlive }
      show d.frames = done ++ [bytes] ++ waiting
      rw [hprog.frames, append_nil, append_assoc]
      rfl
  · rw [hwrit] at hbusy
    cases hbusy

/-- The writer takes a portion. -/
theorem Download.Inv.write (count : Nat) (hwrit : d.writing = some (seq, bytes, rest)) :
    Download.Inv sha limits size digest { d with
      writing := some (seq, bytes, rest.drop count)
      written := d.written ++ rest.take count } := by
  obtain ⟨done, now, waiting, head, hprog⟩ := h.progress
  rcases hprog.now with ⟨-, hidle, -⟩ | ⟨rest', rfl, hbusy⟩
  · rw [hwrit] at hidle
    cases hidle
  rw [hwrit] at hbusy
  obtain ⟨rfl, hrest⟩ := Prod.mk.inj (Option.some.inj hbusy)
  cases hrest
  have hsplit : head ++ rest.take count ++ rest.drop count = head ++ rest := by
    rw [append_assoc, take_append_drop]
  refine { h with
    progress := ⟨done, [head ++ rest], waiting, head ++ rest.take count, { hprog with
      now := .inr ⟨rest.drop count, ?_, ?_⟩, written := ?_ }⟩
    outcome := Download.not_ok hlive }
  · rw [hsplit]
  · rw [hsplit]
  · rw [hprog.written, append_assoc]

/-- A frame that was written is accounted for. -/
theorem Download.Inv.frameWritten (hwrit : d.writing = some (seq, bytes, [])) :
    (d.frameWritten seq bytes).Inv sha limits size digest := by
  unfold Download.frameWritten
  dsimp only
  split
  · exact h.failed d.admittedBytes _
  split
  next error received hcredit =>
    obtain rfl := SenderWindow.applyCredit_error hcredit
    exact h.failed d.admittedBytes _
  next received hcredit =>
    obtain ⟨hled, hlimits, -, -, hcursor⟩ := h.ledger.credit hcredit
    obtain ⟨done, now, waiting, head, hprog⟩ := h.progress
    rcases hprog.now with ⟨-, hidle, -⟩ | ⟨rest, rfl, hbusy⟩
    · rw [hwrit] at hidle
      cases hidle
    rw [hwrit] at hbusy
    obtain ⟨rfl, hrest⟩ := Prod.mk.inj (Option.some.inj hbusy)
    cases hrest
    have hflat : (done ++ [head]).flatten = done.flatten ++ head := by
      rw [flatten_append, flatten_singleton]
    rw [append_nil] at hprog ⊢
    refine { h with
      limits_eq := hlimits.trans h.limits_eq, ledger := hled
      progress := ⟨done ++ [head], [], waiting, [], ?_, ?_, .inl ⟨rfl, rfl, rfl⟩, ?_, ?_, ?_,
        ?_, ?_⟩
      outcome := Download.not_ok hlive }
    · show d.frames = done ++ [head] ++ [] ++ waiting
      rw [append_nil]
      exact hprog.frames
    · show d.queue = _
      rw [hprog.queue, length_append]
      rfl
    · show d.written = _
      rw [hprog.written, append_nil, hflat]
    · show d.hashed ++ head = _
      rw [hprog.hashed, hflat]
    · show d.transferred + head.length = _
      rw [hprog.transferred, hflat, length_append]
    · rw [length_append]
      rfl
    · rw [hcursor, length_append]
      rfl

omit hlive

/-- The end is accepted only for the granted content. -/
theorem Download.Inv.finish (hdig : ValidDigest digest) (hwrit : d.writing = none)
    (heof : d.eof = some (finalSeq, size', digest')) :
    (d.finish sha finalSeq size' digest').Inv sha limits size digest := by
  unfold Download.finish
  split
  · exact h.failed d.admittedBytes _
  rename_i hok
  simp only [not_or, ne_eq, not_not, Bool.not_eq_false] at hok
  obtain ⟨-, -, hsize, hgrant, hhashed⟩ := hok
  obtain ⟨done, now, waiting, head, hprog⟩ := h.progress
  refine { h with
    progress := ⟨done, now, waiting, head, { hprog with }⟩, admittedBytes := nofun
    outcome := ?_ }
  intro _
  have hvalid : ValidDigest digest' := h.eof _ heof
  rw [h.digest_eq, transferDigestsMatch_iff hvalid hdig] at hgrant
  rw [transferDigestsMatch_iff hvalid (validDigest_digestText sha _)] at hhashed
  have hwritten : d.written = d.hashed := by
    rcases hprog.now with ⟨-, -, rfl⟩ | ⟨rest, -, hbusy⟩
    · rw [hprog.written, hprog.hashed, append_nil]
    · rw [hwrit] at hbusy
      cases hbusy
  constructor
  · show d.written.length = size
    rw [hwritten, hprog.hashed, ← hprog.transferred, hsize, h.size_eq]
  · show digestText sha d.written = digest
    rw [hwritten, ← hhashed, hgrant]

omit h

theorem Download.Inv.step (hdig : ValidDigest digest)
    (hstep : DownloadStep sha d d') (h : d.Inv sha limits size digest) :
    d'.Inv sha limits size digest := by
  cases hstep with
  | arrive hlive hvalid => exact h.arrive hlive hvalid
  | next hlive hwrit hqueue => exact h.next hlive hwrit hqueue
  | write count hlive hwrit => exact h.write hlive count hwrit
  | written hlive hwrit => exact h.frameWritten hlive hwrit
  | finish hlive hwrit hqueue heof => exact h.finish hdig hwrit heof
  | fail hlive => exact h.failed d.admittedBytes _

include h

/-- The writer was handed the first bytes of the admitted frames. -/
theorem Download.Inv.exists_unwritten : ∃ unwritten, d.frames.flatten = d.written ++ unwritten := by
  obtain ⟨done, now, waiting, head, hprog⟩ := h.progress
  rw [hprog.frames, hprog.written]
  rcases hprog.now with ⟨rfl, -, rfl⟩ | ⟨rest, rfl, -⟩
  · exact ⟨waiting.flatten, by simp⟩
  · exact ⟨rest ++ waiting.flatten, by simp⟩

/-- What is held for the writer is what the window has outstanding. -/
theorem Download.Inv.buffered_eq : d.buffered = d.received.outstandingBytes := by
  obtain ⟨done, now, waiting, head, hprog⟩ := h.progress
  have hqueue : (d.queue.map fun frame => frame.2.length).sum = (waiting.map List.length).sum := by
    have hmap : (d.queue.map fun frame => frame.2.length)
        = (d.queue.map Prod.snd).map List.length := by
      rw [map_map]
      rfl
    rw [hmap, hprog.queue, map_snd_numbered]
  have hwrit : (d.writing.toList.map fun frame => frame.2.1.length).sum
      = (now.map List.length).sum := by
    rcases hprog.now with ⟨rfl, hidle, -⟩ | ⟨rest, rfl, hbusy⟩
    · rw [hidle]
      rfl
    · rw [hbusy]
      rfl
  rw [Download.buffered, hqueue, hwrit, h.ledger.outstanding, hprog.cursor, hprog.frames,
    append_assoc, map_append, drop_left' (length_map _), map_append,
    sum_append]

omit h

/-- **Integrity of a download**, in every state of every run: frames are admitted in order, the
writer was handed the first of their bytes and no more than granted, what is held fits the window,
and the loop ends well only when exactly the granted content was written. -/
theorem download_integrity (sha : Sha256) (offer : ReceiveOffer) (limits : FlowLimits)
    (maxFrame size : Nat) (digest : String) (haccepts : offer.accepts limits = true)
    (hdigest : ValidDigest digest) {d : Download}
    (hrun : ReflTransGen (DownloadStep sha) (.opened limits maxFrame size digest) d) :
    d.admitted.map Prod.fst = List.range' 1 d.admitted.length ∧
    (∃ unwritten, (d.admitted.map Prod.snd).flatten = d.written ++ unwritten) ∧
    d.written.length ≤ size ∧
    d.buffered ≤ offer.bytes ∧
    (d.outcome = some (.ok ()) → d.written.length = size ∧ digestText sha d.written = digest) := by
  have h : d.Inv sha limits size digest :=
    Run.keeps (P := Download.Inv sha limits size digest) (fun _ _ hstep h => h.step hdigest hstep)
      hrun (.opened sha limits maxFrame size digest)
  obtain ⟨-, -, hwindow⟩ := of_decide_eq_true haccepts
  obtain ⟨unwritten, hunwritten⟩ := h.exists_unwritten
  refine ⟨?_, ⟨unwritten, hunwritten⟩, ?_, ?_, h.outcome⟩
  · rw [h.admitted, map_fst_numbered, length_numbered]
  · have htotal := h.total
    rw [hunwritten, length_append] at htotal
    omega
  · have hbytes := h.ledger.bytes_le
    rw [h.limits_eq] at hbytes
    rw [h.buffered_eq]
    exact hbytes.trans hwindow

/-- The second frame and the end arrive while the first is written. -/
theorem exists_pair_download : ∃ d, ReflTransGen (DownloadStep pairSha)
    (.opened narrowLimits 4 3 (digestText pairSha pairBytes)) d ∧ d.outcome = some (.ok ()) := by
  have hdig := validDigest_digestText pairSha pairBytes
  have hmatch := (transferDigestsMatch_iff hdig hdig).mpr rfl
  have hfirst : ReflTransGen (DownloadStep pairSha)
      (.opened narrowLimits 4 3 (digestText pairSha pairBytes)) _ :=
    .tail (.tail (.tail .refl (@DownloadStep.arrive pairSha _ (.data 1 [7, 9]) rfl
      ⟨by decide, by decide, by decide⟩)) (.next rfl rfl rfl)) (.write 1 rfl rfl)
  have hended := (hfirst.tail (@DownloadStep.arrive pairSha _ (.data 2 [11]) rfl
    ⟨by decide, by decide, by decide⟩)).tail (@DownloadStep.arrive pairSha _
      (.eof 2 3 (digestText pairSha pairBytes)) rfl ⟨by decide, by decide, by decide, hdig⟩)
  refine ⟨_, (((((hended.tail (.write 1 rfl rfl)).tail (.written rfl rfl)).tail
    (.next rfl rfl rfl)).tail (.write 1 rfl rfl)).tail (.written rfl rfl)).tail
    (.finish rfl rfl rfl rfl), ?_⟩
  refine congrArg Download.outcome (if_neg ?_)
  rintro (hfinal | hsize | hgrant | hdiffers | hdiffers)
  · exact hfinal rfl
  · exact hsize rfl
  · exact hgrant rfl
  · exact Bool.noConfusion (hdiffers.symm.trans hmatch)
  · exact Bool.noConfusion (hdiffers.symm.trans hmatch)

theorem download_integrity_pair : ∃ d, ReflTransGen (DownloadStep pairSha)
    (.opened narrowLimits 4 3 (digestText pairSha pairBytes)) d ∧ d.outcome = some (.ok ()) ∧
      d.written.length = 3 ∧ digestText pairSha d.written = digestText pairSha pairBytes := by
  obtain ⟨d, hrun, hok⟩ := exists_pair_download
  obtain ⟨-, -, -, -, hend⟩ := download_integrity pairSha ⟨4, 2, 8⟩ narrowLimits 4 3 _ (by decide)
    (validDigest_digestText pairSha pairBytes) hrun
  exact ⟨d, hrun, hok, hend hok⟩

end Transfer
