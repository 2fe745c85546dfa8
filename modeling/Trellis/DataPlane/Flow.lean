/-
# The sender window

`SenderWindow` counts the frames sent and not yet consumed, their bytes, and the bytes of
everything consumed.  `commit_frame` records a frame, `apply_credit` takes a cumulative cursor of
the other side.  The receiver of a transfer keeps the same ledger of what it admitted.

Counters are `u64`, the consumed total is `u128`, and arithmetic wraps as theirs does.  The ledger
is exact all the same, and every law of the window follows from it.  The lock is never poisoned
here.
-/
import Mathlib.Data.List.Induction
import Trellis.Lib.Checked
import Trellis.Lib.Window

namespace DataPlane

open List Nat

/-- Negotiated frame size and outstanding capacity. -/
structure FlowLimits where
  (maxFrameBytes windowFrames windowBytes : Nat)
  maxFrameBytes_lt : maxFrameBytes < 2 ^ 64
  windowFrames_lt : windowFrames < 2 ^ 64
  windowBytes_lt : windowBytes < 2 ^ 64

inductive FlowError where
  | payloadTooLarge
  | windowFull
  | invalidCursor
  | sequenceExhausted
  | unavailable
  deriving DecidableEq, Repr

/-- One bounded sender ledger.  Only consumed credit releases capacity. -/
structure SenderWindow where
  limits : FlowLimits
  (highestSent highestReceived highestConsumed : Nat)
  /-- Sequence and length of each outstanding frame, oldest first. -/
  frames : List (Nat × Nat)
  (consumedBytes outstandingBytes : Nat)

namespace SenderWindow

def new (limits : FlowLimits) : SenderWindow where
  limits
  highestSent := 0
  highestReceived := 0
  highestConsumed := 0
  frames := []
  consumedBytes := 0
  outstandingBytes := 0

variable (window : SenderWindow)

/-- Next sequence without advancing the sent watermark. -/
def nextFrameSeq : Except FlowError Nat :=
  if window.highestSent + 1 < 2 ^ 64 then .ok (window.highestSent + 1)
  else .error .sequenceExhausted

/-- Validate capacity without consuming it.  `maxFrameBytes` may narrow the limit. -/
def validateFrameSlot (len maxFrameBytes : Nat) : Except FlowError Unit :=
  if len > min window.limits.maxFrameBytes maxFrameBytes then .error .payloadTooLarge
  else if window.frames.length ≥ window.limits.windowFrames ∨
      len > window.limits.windowBytes - window.outstandingBytes then .error .windowFull
  else .ok ()

/-- Record a handoff: the answer, and the window after it. -/
def commitFrame (seq len : Nat) : Except FlowError Unit × SenderWindow :=
  match window.validateFrameSlot len window.limits.maxFrameBytes with
  | .error error => (.error error, window)
  | .ok () =>
    match window.nextFrameSeq with
    | .error error => (.error error, window)
    | .ok next =>
      if seq ≠ next then (.error .invalidCursor, window)
      else
        (.ok (), { window with
          frames := window.frames ++ [(seq, len)]
          outstandingBytes := (window.outstandingBytes + len) % 2 ^ 64
          highestSent := seq })

/-- Reject impossible or regressing cumulative cursors. -/
def validateCredit (received consumed : Nat) (consumedBytes : Option Nat) : Except FlowError Unit :=
  if consumed > received ∨ received > window.highestSent ∨ received < window.highestReceived ∨
      consumed < window.highestConsumed then .error .invalidCursor
  else
    let expected := (window.consumedBytes +
      ((window.frames.takeWhile fun frame => frame.1 ≤ consumed).map Prod.snd).sum) % 2 ^ 128
    if consumedBytes.any fun reported => reported ≠ expected then .error .invalidCursor
    else .ok ()

/-- Drop the frames up to a sequence, counting their bytes as consumed. -/
def release (consumed : Nat) : List (Nat × Nat) → Nat → Nat → List (Nat × Nat) × Nat × Nat
  | [], total, outstanding => ([], total, outstanding)
  | (seq, len) :: rest, total, outstanding =>
    if seq ≤ consumed then
      release consumed rest ((total + len) % 2 ^ 128) ((outstanding + 2 ^ 64 - len) % 2 ^ 64)
    else ((seq, len) :: rest, total, outstanding)

/-- Apply cumulative credit: the answer, and the window after it. -/
def applyCredit (received consumed : Nat) (consumedBytes : Option Nat) :
    Except FlowError Unit × SenderWindow :=
  match window.validateCredit received consumed consumedBytes with
  | .error error => (.error error, window)
  | .ok () =>
    let (frames, total, outstanding) :=
      release consumed window.frames window.consumedBytes window.outstandingBytes
    (.ok (), { window with
      frames
      consumedBytes := total
      outstandingBytes := outstanding
      highestReceived := received
      highestConsumed := consumed })

/-- Require complete consumed delivery of the declared final sequence. -/
def validateComplete (finalSeq : Nat) : Except FlowError Unit :=
  if finalSeq ≠ window.highestSent ∨ finalSeq ≠ window.highestConsumed ∨ window.frames ≠ [] then
    .error .invalidCursor
  else .ok ()

/-! ## What the operations do -/

variable {window : SenderWindow}

theorem nextFrameSeq_ok {next : Nat} : window.nextFrameSeq = .ok next ↔
    window.highestSent + 1 < 2 ^ 64 ∧
      next = window.highestSent + 1 := by
  unfold nextFrameSeq
  split
  next hlt =>
    constructor
    · intro h
      exact ⟨hlt, (Except.ok.inj h).symm⟩
    · rintro ⟨-, rfl⟩
      rfl
  next hlt =>
    constructor
    · nofun
    · rintro ⟨h, -⟩
      exact absurd h hlt

theorem validateFrameSlot_ok : window.validateFrameSlot len maxFrameBytes = .ok () ↔
      len ≤ window.limits.maxFrameBytes ∧ len ≤ maxFrameBytes ∧
        window.frames.length < window.limits.windowFrames ∧
        len ≤ window.limits.windowBytes - window.outstandingBytes := by
  unfold validateFrameSlot
  split
  · constructor
    · nofun
    · intro h
      omega
  · split
    · constructor
      · nofun
      · intro h
        omega
    · constructor
      · intro _
        omega
      · intro _
        rfl

theorem commitFrame_ok : window.commitFrame seq len = (.ok (), window') ↔
      window.validateFrameSlot len window.limits.maxFrameBytes = .ok () ∧
        window.nextFrameSeq = .ok seq ∧
        window' = { window with
          frames := window.frames ++ [(seq, len)]
          outstandingBytes := (window.outstandingBytes + len) % 2 ^ 64
          highestSent := seq } := by
  unfold commitFrame
  cases window.validateFrameSlot len window.limits.maxFrameBytes with
  | error error => exact ⟨nofun, nofun⟩
  | ok _ =>
    cases window.nextFrameSeq with
    | error error => exact ⟨nofun, nofun⟩
    | ok next =>
      dsimp only
      split
      next hne =>
        constructor
        · nofun
        · rintro ⟨-, hnext, -⟩
          exact absurd (Except.ok.inj hnext).symm hne
      next heq =>
        rw [not_not] at heq
        subst heq
        constructor
        · intro h
          exact ⟨rfl, rfl, (Prod.mk.inj h).2.symm⟩
        · rintro ⟨-, -, rfl⟩
          rfl

theorem commitFrame_error
    (h : window.commitFrame seq len = (.error error, window')) : window' = window := by
  unfold commitFrame at h
  split at h
  · exact (Prod.mk.inj h).2.symm
  split at h
  · exact (Prod.mk.inj h).2.symm
  · split at h
    · exact (Prod.mk.inj h).2.symm
    · cases (Prod.mk.inj h).1

theorem applyCredit_error
    (h : window.applyCredit received consumed bytes = (.error error, window')) :
    window' = window := by
  unfold applyCredit at h
  split at h
  · exact (Prod.mk.inj h).2.symm
  · cases (Prod.mk.inj h).1

/-- An accepted credit is applied. -/
theorem exists_applyCredit (hvalid : window.validateCredit received consumed bytes = .ok ()) :
    ∃ window', window.applyCredit received consumed bytes = (.ok (), window') := by
  unfold applyCredit
  rw [hvalid]
  exact ⟨_, rfl⟩

end SenderWindow

/-! ## The ledger -/

open Window

/-- The window accounts for the frames with the given lengths. -/
structure Ledger (window : SenderWindow) (sent : List Nat) : Prop where
  sent_length : sent.length = window.highestSent
  sent_lt : window.highestSent < 2 ^ 64
  lengths : ∀ len ∈ sent, len ≤ window.limits.maxFrameBytes
  consumed_le : window.highestConsumed ≤ window.highestReceived
  received_le : window.highestReceived ≤ window.highestSent
  frames : window.frames = numbered window.highestConsumed (sent.drop window.highestConsumed)
  consumed : window.consumedBytes = (sent.take window.highestConsumed).sum
  outstanding : window.outstandingBytes = (sent.drop window.highestConsumed).sum
  frames_le : window.frames.length ≤ window.limits.windowFrames
  bytes_le : window.outstandingBytes ≤ window.limits.windowBytes

variable (limits : FlowLimits)

theorem Ledger.new : Ledger (.new limits) [] := by
  refine ⟨rfl, Nat.two_pow_pos 64, nofun, le_refl _, le_refl _, rfl, rfl, rfl, Nat.zero_le _,
    Nat.zero_le _⟩

variable (h : Ledger window sent)

include h in
theorem Ledger.frames_length :
    window.frames.length = window.highestSent - window.highestConsumed := by
  rw [h.frames, length_numbered, length_drop, h.sent_length]

theorem Ledger.length_eq {frames : List α}
    (h : Ledger window (frames.map len)) : frames.length = window.highestSent := by
  rw [← h.sent_length, length_map]

include h

/-- The bytes of all frames fit a `u128`. -/
theorem Ledger.sum_lt : sent.sum < 2 ^ 128 := by
  have hsum := sum_le_length_mul h.lengths
  have hlen : sent.length ≤ 2 ^ 64 - 1 := by
    have := h.sent_lt
    rw [h.sent_length]
    omega
  have hframe : window.limits.maxFrameBytes ≤ 2 ^ 64 - 1 := by
    have := window.limits.maxFrameBytes_lt
    omega
  calc sent.sum ≤ sent.length * window.limits.maxFrameBytes := hsum
    _ ≤ (2 ^ 64 - 1) * (2 ^ 64 - 1) := Nat.mul_le_mul hlen hframe
    _ < 2 ^ 128 := by decide

/-- A committed frame is accounted for. -/
theorem Ledger.commit (hcom : window.commitFrame seq len = (.ok (), window')) :
    Ledger window' (sent ++ [len]) := by
  obtain ⟨hslot, hnext, rfl⟩ := SenderWindow.commitFrame_ok.mp hcom
  obtain ⟨hlt, rfl⟩ := SenderWindow.nextFrameSeq_ok.mp hnext
  obtain ⟨hframe, -, hroom, hbytes⟩ := SenderWindow.validateFrameSlot_ok.mp hslot
  have hle : window.highestConsumed ≤ sent.length := by
    rw [h.sent_length]
    exact h.consumed_le.trans h.received_le
  have hdrop : (sent ++ [len]).drop window.highestConsumed
      = sent.drop window.highestConsumed ++ [len] := drop_append_of_le_length hle
  have hbytesLt := window.limits.windowBytes_lt
  have hbytesLe := h.bytes_le
  refine ⟨?_, hlt, ?_, h.consumed_le, ?_, ?_, ?_, ?_, ?_, ?_⟩
  · rw [length_append, h.sent_length]
    rfl
  · exact Checked.forall_mem_concat h.lengths hframe
  · exact le_succ_of_le h.received_le
  · have hlen : window.highestConsumed + (sent.drop window.highestConsumed).length + 1
        = window.highestSent + 1 := by
      rw [length_drop]
      have := h.sent_length
      omega
    rw [hdrop, numbered_concat, hlen, h.frames]
  · rw [take_append_of_le_length hle, h.consumed]
  · rw [hdrop, sum_append_nat, ← h.outstanding]
    exact mod_eq_of_lt (by omega)
  · rw [length_append]
    exact hroom
  · show (window.outstandingBytes + len) % 2 ^ 64 ≤ window.limits.windowBytes
    omega

omit h

/-- Releasing numbered frames drops the first ones and counts their bytes. -/
theorem release_numbered (hstart : start ≤ upTo) (htotal : total + lens.sum < 2 ^ 128)
    (hout : lens.sum ≤ outstanding) (hlt : outstanding < 2 ^ 64) :
    SenderWindow.release upTo (numbered start lens) total outstanding
      = (numbered (min upTo (start + lens.length)) (lens.drop (upTo - start)),
          total + (lens.take (upTo - start)).sum,
          outstanding - (lens.take (upTo - start)).sum) := by
  induction lens generalizing start total outstanding with
  | nil => simp [SenderWindow.release]
  | cons len lens ih =>
    rw [sum_cons] at htotal hout
    rw [numbered_cons, SenderWindow.release]
    by_cases hle : start + 1 ≤ upTo
    · have hsub : upTo - start = upTo - (start + 1) + 1 := by omega
      have hmin : min upTo (start + 1 + lens.length) = min upTo (start + (len :: lens).length) := by
        rw [length_cons, Nat.add_right_comm start 1, Nat.add_assoc]
      have hrest : (outstanding + 2 ^ 64 - len) % 2 ^ 64 = outstanding - len := by
        have hshift : outstanding + 2 ^ 64 - len = outstanding - len + 2 ^ 64 := by omega
        rw [hshift, add_mod_right, mod_eq_of_lt (by omega)]
      rw [if_pos hle, Nat.mod_eq_of_lt (by omega), hrest,
        ih hle (by omega) (by omega) (by omega), hsub, drop_succ_cons, take_succ_cons,
        sum_cons, hmin, Nat.add_assoc, Nat.sub_sub]
    · have hsub : upTo - start = 0 := by omega
      have hmin : min upTo (start + (len :: lens).length) = start := by omega
      rw [if_neg hle, hsub, hmin]
      simp [numbered_cons]

include h

/-- Which credits are accepted. -/
theorem Ledger.validateCredit_ok {consumed : Nat} :
    window.validateCredit received consumed bytes = .ok () ↔
      consumed ≤ received ∧ received ≤ window.highestSent ∧ window.highestReceived ≤ received ∧
        window.highestConsumed ≤ consumed ∧
        ∀ reported ∈ bytes, reported = (sent.take consumed).sum := by
  unfold SenderWindow.validateCredit
  split
  · constructor
    · nofun
    · intro hcursor
      omega
  next hcursor =>
    have hle : window.highestConsumed ≤ consumed := by omega
    have htake : (sent.take window.highestConsumed).sum +
        ((sent.drop window.highestConsumed).take (consumed - window.highestConsumed)).sum
          = (sent.take consumed).sum := by
      have hsplit : consumed = window.highestConsumed + (consumed - window.highestConsumed) := by
        omega
      conv_rhs => rw [hsplit, take_add]
      rw [sum_append_nat]
    have hlt : (sent.take consumed).sum < 2 ^ 128 := by
      have hall := sum_take_add_drop sent consumed
      have := h.sum_lt
      omega
    rw [h.frames, takeWhile_numbered hle, map_snd_numbered, h.consumed, htake, mod_eq_of_lt hlt]
    have hany : (bytes.any fun reported => reported ≠ (sent.take consumed).sum) = false ↔
        ∀ reported ∈ bytes, reported = (sent.take consumed).sum := by
      cases bytes with
      | none | some reported => simp
    by_cases hbytes : ∀ reported ∈ bytes, reported = (sent.take consumed).sum
    · rw [if_neg (by rw [hany.mpr hbytes]; exact Bool.false_ne_true)]
      constructor
      · intro _
        exact ⟨by omega, by omega, by omega, hle, hbytes⟩
      · intro _
        rfl
    · rw [if_pos (by rw [← Bool.not_eq_false, hany]; exact hbytes)]
      constructor
      · nofun
      · rintro ⟨-, -, -, -, hall⟩
        exact absurd hall hbytes

/-- Applied credit keeps the account. -/
theorem Ledger.credit {consumed : Nat}
    (hcredit : window.applyCredit received consumed bytes = (.ok (), window')) :
    Ledger window' sent ∧ window'.limits = window.limits ∧
      window'.highestSent = window.highestSent ∧ window'.highestReceived = received ∧
      window'.highestConsumed = consumed := by
  unfold SenderWindow.applyCredit at hcredit
  split at hcredit
  · cases (Prod.mk.inj hcredit).1
  rename_i hvalid
  obtain ⟨hcr, hrs, hrr, hcc, -⟩ := h.validateCredit_ok.mp hvalid
  have hlen := h.sent_length
  have hsplit := sum_take_add_drop sent window.highestConsumed
  have htotal : window.consumedBytes + (sent.drop window.highestConsumed).sum < 2 ^ 128 := by
    rw [h.consumed, hsplit]
    exact h.sum_lt
  have hout : (sent.drop window.highestConsumed).sum ≤ window.outstandingBytes :=
    h.outstanding.symm.le
  have hlt : window.outstandingBytes < 2 ^ 64 :=
    lt_of_le_of_lt h.bytes_le window.limits.windowBytes_lt
  have hrelease := release_numbered hcc htotal hout hlt
  rw [← h.frames, length_drop, h.sent_length, drop_drop] at hrelease
  have hmin : min consumed (window.highestConsumed +
      (window.highestSent - window.highestConsumed)) = consumed := by
    omega
  have hadd : window.highestConsumed + (consumed - window.highestConsumed) = consumed := by omega
  rw [hmin, hadd] at hrelease
  have htake : (sent.take window.highestConsumed).sum +
      ((sent.drop window.highestConsumed).take (consumed - window.highestConsumed)).sum
        = (sent.take consumed).sum := by
    conv_rhs => rw [← hadd, take_add]
    rw [sum_append_nat]
  have hsplit' := sum_take_add_drop sent consumed
  rw [hrelease] at hcredit
  obtain rfl := (Prod.mk.inj hcredit).2
  refine ⟨⟨h.sent_length, h.sent_lt, h.lengths, hcr, hrs, rfl, ?_, ?_, ?_, ?_⟩, rfl, rfl, rfl,
    rfl⟩
  · rw [h.consumed, htake]
  · show window.outstandingBytes - _ = (sent.drop consumed).sum
    have := h.outstanding
    omega
  · rw [length_numbered, length_drop]
    have := h.frames_le
    rw [h.frames_length] at this
    show sent.length - consumed ≤ window.limits.windowFrames
    omega
  · show window.outstandingBytes - _ ≤ window.limits.windowBytes
    have := h.bytes_le
    omega

/-- A replay of the current cursor changes nothing. -/
theorem Ledger.replay
    (hreplay : window.applyCredit window.highestReceived window.highestConsumed bytes
      = (answer, window')) : window' = window := by
  cases answer with
  | error error => exact SenderWindow.applyCredit_error hreplay
  | ok _ =>
    obtain ⟨h', hlimits, hsent, hrecv, hcons⟩ := h.credit hreplay
    have hframes : window'.frames = window.frames := by rw [h'.frames, h.frames, hcons]
    have hbytes : window'.consumedBytes = window.consumedBytes := by
      rw [h'.consumed, h.consumed, hcons]
    have hout : window'.outstandingBytes = window.outstandingBytes := by
      rw [h'.outstanding, h.outstanding, hcons]
    cases window'
    simp_all

theorem Ledger.validateComplete_ok : window.validateComplete finalSeq = .ok () ↔
      finalSeq = window.highestSent ∧ window.highestConsumed = window.highestSent := by
  unfold SenderWindow.validateComplete
  constructor
  · intro hok
    split at hok
    · cases hok
    · omega
  · rintro ⟨rfl, hcons⟩
    rw [if_neg]
    rintro (hne | hne | hframes)
    · exact hne rfl
    · exact hne hcons.symm
    · refine hframes (eq_nil_of_length_eq_zero ?_)
      rw [h.frames_length, hcons, Nat.sub_self]

/-! ## Runs of calls -/

/-- The calls of the window's owner. -/
inductive FlowCall where
  | commit (seq len : Nat)
  | credit (received consumed : Nat) (bytes : Option Nat)
  deriving DecidableEq, Repr

/-- Make one call.  The lengths of the recorded frames are kept beside the window. -/
def FlowCall.perform (state : SenderWindow × List Nat) : FlowCall → SenderWindow × List Nat
  | .commit seq len =>
    match state.1.commitFrame seq len with
    | (.ok (), window) => (window, state.2 ++ [len])
    | (.error _, window) => (window, state.2)
  | .credit received consumed bytes => ((state.1.applyCredit received consumed bytes).2, state.2)

def FlowCall.run (calls : List FlowCall) : SenderWindow × List Nat :=
  calls.foldl FlowCall.perform (.new limits, [])

omit h

/-- One call keeps the account. -/
theorem Ledger.perform (h : Ledger state.1 state.2) (call : FlowCall) :
    Ledger (call.perform state).1 (call.perform state).2 ∧
      (call.perform state).1.limits = state.1.limits := by
  cases call with
  | commit seq len =>
    unfold FlowCall.perform
    dsimp only
    split
    next window hcom =>
      refine ⟨h.commit hcom, ?_⟩
      obtain ⟨-, -, rfl⟩ := SenderWindow.commitFrame_ok.mp hcom
      rfl
    next error window hcom =>
      obtain rfl := SenderWindow.commitFrame_error hcom
      exact ⟨h, rfl⟩
  | credit received consumed bytes =>
    unfold FlowCall.perform
    dsimp only
    cases hcredit : state.1.applyCredit received consumed bytes with
    | mk answer window =>
      cases answer with
      | ok _ =>
        obtain ⟨h', hlimits, -⟩ := h.credit hcredit
        exact ⟨h', hlimits⟩
      | error error =>
        obtain rfl := SenderWindow.applyCredit_error hcredit
        exact ⟨h, rfl⟩

theorem Ledger.run (calls : List FlowCall) :
    Ledger (FlowCall.run limits calls).1 (FlowCall.run limits calls).2 ∧
      (FlowCall.run limits calls).1.limits = limits := by
  unfold FlowCall.run
  induction calls using List.reverseRecOn with
  | nil => exact ⟨.new limits, rfl⟩
  | append_singleton calls call ih =>
    rw [foldl_append]
    obtain ⟨h, hlimits⟩ := ih
    obtain ⟨h', hlimits'⟩ := h.perform call
    exact ⟨h', hlimits'.trans hlimits⟩

/-- **The ledger of a sender window**, after every sequence of calls on any window. -/
theorem senderWindow_ledger (limits : FlowLimits) (calls : List FlowCall) :
    let window := (FlowCall.run limits calls).1
    let sent := (FlowCall.run limits calls).2
    (sent.length = window.highestSent ∧
      window.frames.map Prod.fst = List.range' (window.highestConsumed + 1)
        (window.highestSent - window.highestConsumed) ∧
      window.frames.map Prod.snd = sent.drop window.highestConsumed) ∧
    window.outstandingBytes = (window.frames.map Prod.snd).sum ∧
    window.consumedBytes = (sent.take window.highestConsumed).sum ∧
    (window.frames.length ≤ limits.windowFrames ∧ window.outstandingBytes ≤ limits.windowBytes) ∧
    (∀ seq len error window', window.commitFrame seq len = (.error error, window') →
      window' = window) ∧
    (∀ received consumed bytes error window',
      window.applyCredit received consumed bytes = (.error error, window') → window' = window) ∧
    (window.applyCredit window.highestReceived window.highestConsumed none = (.ok (), window) ∧
      ∀ bytes answer window', window.applyCredit window.highestReceived window.highestConsumed bytes
        = (answer, window') → window' = window) ∧
    ∀ finalSeq, window.validateComplete finalSeq = .ok () ↔
      finalSeq = window.highestSent ∧ window.highestConsumed = window.highestSent := by
  intro window sent
  obtain ⟨h, hlimits⟩ := Ledger.run limits calls
  refine ⟨⟨h.sent_length, ?_, ?_⟩, ?_, h.consumed, ⟨?_, ?_⟩, ?_, ?_, ⟨?_, ?_⟩, ?_⟩
  · rw [h.frames, map_fst_numbered, length_drop, h.sent_length]
  · rw [h.frames, map_snd_numbered]
  · rw [h.frames, map_snd_numbered]
    exact h.outstanding
  · rw [← hlimits]
    exact h.frames_le
  · rw [← hlimits]
    exact h.bytes_le
  · intro seq len error window' herror
    exact SenderWindow.commitFrame_error herror
  · intro received consumed bytes error window' herror
    exact SenderWindow.applyCredit_error herror
  · have hvalid : window.validateCredit window.highestReceived window.highestConsumed none
        = .ok () :=
      h.validateCredit_ok.mpr ⟨h.consumed_le, h.received_le, le_refl _, le_refl _, nofun⟩
    obtain ⟨window', hcredit⟩ := SenderWindow.exists_applyCredit hvalid
    rw [hcredit, h.replay hcredit]
  · intro bytes answer window' hreplay
    exact h.replay hreplay
  · intro finalSeq
    exact h.validateComplete_ok

end DataPlane
