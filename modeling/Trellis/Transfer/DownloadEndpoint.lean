/-
# The provider of a download

`run_download_transfer_endpoint`: once the consumer has activated the transfer and declared its
window, frames are gathered from the source and sent while the window has room; at the end the
content is compared with the grant and the end marker sent, and the loop ends with the consumer's
acknowledgement or its cancellation.

Messages that cannot be verified are skipped.  Whatever else ends the loop early is one step.
-/
import Trellis.DataPlane.Budget
import Trellis.Transfer.Sender

open Window DataPlane

namespace Transfer

open List Relation

/-- What `TransferGrant::validate` makes sure of, with the plan's own bound. -/
structure DownloadGrant where
  limits : FlowLimits
  (key digest : String)
  size : Nat
  maxObjectBytes : Option Nat
  fromStore : Bool
  frames_pos : 0 < limits.windowFrames
  digest_valid : ValidDigest digest

/-- `TransferControl`; cursors and byte counts are the consumer's. -/
inductive TransferControl where
  | activate (maxFrameBytes : Nat) (window : Option (Nat × Nat))
  | credit (received consumed bytes : Nat)
  | cancel (received consumed bytes : Nat)
  | endAck (finalSeq received consumed bytes : Nat)

def TransferControl.isActivate : TransferControl → Bool
  | .activate _ _ => true
  | _ => false

/-- `TransferControl::validate`, for a control with the given number. -/
def TransferControl.Valid (seq : Nat) : TransferControl → Prop
  | .activate maxFrameBytes window =>
    seq = 1 ∧ 0 < maxFrameBytes ∧ maxFrameBytes ≤ maxTransferFrameBytes ∧
      ∀ w ∈ window, validateWindow w.1 w.2 (min maxFrameBytes w.2) = .ok ()
  | .credit received consumed bytes | .cancel received consumed bytes =>
    seq ≠ 0 ∧ consumed ≤ received ∧ (consumed = 0 ↔ bytes = 0)
  | .endAck finalSeq received consumed bytes =>
    seq ≠ 0 ∧ (consumed = 0 ↔ bytes = 0) ∧ finalSeq = received ∧ finalSeq = consumed

inductive DownloadEnd where
  | ok | cancelled | failed
  deriving DecidableEq

/-- The loop's variables, active once a window is declared, with the frames that were sent. -/
structure DownloadEndpoint (Payload : Type) where
  declared : Option (Nat × Nat)
  window : SenderWindow
  staged : Option Bytes
  transferred : Nat
  hashed : Bytes
  eof : Bool
  controlSeq : Nat
  (controlBody activateBody : Option Payload)
  /-- What the source still has. -/
  rest : Bytes
  outcome : Option DownloadEnd
  sent : List (Nat × Bytes)

/-- What the store says of the object. -/
structure ObjectInfo where
  key : String
  size : Nat
  digest : Option String

namespace DownloadEndpoint

variable {Payload : Type}

def opened (grant : DownloadGrant) (source : Bytes) : DownloadEndpoint Payload :=
  ⟨none, .new grant.limits, none, 0, [], false, 0, none, none, source, none, []⟩

variable (sha : Sha256) (grant : DownloadGrant) (d : DownloadEndpoint Payload)

def fail : DownloadEndpoint Payload := { d with outcome := some .failed }

/-- The smaller of the grant and what the consumer declares. -/
def effective (grant : DownloadGrant) (maxFrameBytes frames bytes : Nat) : FlowLimits where
  maxFrameBytes := min (min grant.limits.maxFrameBytes maxFrameBytes)
    (min grant.limits.windowBytes bytes)
  windowFrames := min grant.limits.windowFrames frames
  windowBytes := min grant.limits.windowBytes bytes
  maxFrameBytes_lt := ((min_le_left _ _).trans (min_le_left _ _)).trans_lt
    grant.limits.maxFrameBytes_lt
  windowFrames_lt := (min_le_left _ _).trans_lt grant.limits.windowFrames_lt
  windowBytes_lt := (min_le_left _ _).trans_lt grant.limits.windowBytes_lt

def credited (received consumed bytes : Nat) : DownloadEndpoint Payload :=
  match d.window.applyCredit received consumed (some bytes) with
  | (.error _, window) => { d with window }.fail
  | (.ok (), window) => { d with window }

/-- The rest of an acknowledgement of the end, once its credit is applied. -/
def complete (finalSeq : Nat) : DownloadEndpoint Payload :=
  if d.outcome = none ∧ d.window.validateComplete finalSeq = .ok () then
    { d with outcome := some .ok }
  else d.fail

/-- The loop waits for what comes next: no staged frame fits. -/
def Waits : Prop :=
  ∀ bytes ∈ d.staged, d.window.validateFrameSlot bytes.length d.window.limits.maxFrameBytes ≠ .ok ()

def perform (payload : Payload) : TransferControl → DownloadEndpoint Payload
  | .activate _ none => d.fail
  | .activate maxFrameBytes (some (frames, bytes)) =>
    if d.declared.isSome then d
    else
      { d with
        declared := some (frames, bytes)
        activateBody := some payload
        window := .new (effective grant maxFrameBytes frames bytes) }
  | .credit received consumed bytes =>
    if d.declared = none ∨ bytes > d.transferred then d.fail
    else d.credited received consumed bytes
  | .cancel _ _ _ => { d with outcome := some .cancelled }
  | .endAck finalSeq received consumed bytes =>
    if d.eof = false ∨ bytes ≠ d.transferred then d.fail
    else (d.credited received consumed bytes).complete finalSeq

/-- A control is the first activation once more, the last control once more, or the next. -/
def control [DecidableEq Payload] (seq : Nat) (payload : Payload)
    (body : TransferControl) : DownloadEndpoint Payload :=
  if d.declared.isSome ∧ seq = 1 ∧ body.isActivate then
    if d.activateBody = some payload then d.perform grant payload body else d.fail
  else if seq = d.controlSeq ∧ d.controlBody ≠ some payload then d.fail
  else if seq = d.controlSeq ∧ body.isActivate = false then d
  else if seq ≠ d.controlSeq ∧ seq ≠ d.controlSeq + 1 then d.fail
  else { d with controlSeq := seq, controlBody := some payload }.perform grant payload body

/-- The end of the source: a store has to report what was sent, and the grant holds anyway. -/
def ended (info : Option ObjectInfo) : DownloadEndpoint Payload :=
  let digest := digestText sha d.hashed
  if grant.fromStore ∧ ¬ info.any fun info =>
      info.key = grant.key ∧ info.size = d.transferred ∧
        info.digest.any fun value => transferDigestsMatch value digest then d.fail
  else if d.transferred ≠ grant.size ∨ transferDigestsMatch grant.digest digest = false then d.fail
  else { d with eof := true }

/-- The steps of the loop while it runs.  A frame whose slot is valid is always committed. -/
inductive Step [DecidableEq Payload] : DownloadEndpoint Payload → DownloadEndpoint Payload → Prop
  | send {d : DownloadEndpoint Payload} {bytes : Bytes} {seq : Nat} {window : SenderWindow}
      (hrunning : d.outcome = none) (hstaged : d.staged = some bytes)
      (hslot : d.window.validateFrameSlot bytes.length d.window.limits.maxFrameBytes = .ok ())
      (hnext : d.window.nextFrameSeq = .ok seq)
      (htotal : d.transferred + bytes.length < 2 ^ 64)
      (hsize : d.transferred + bytes.length ≤ grant.size)
      (hmax : ∀ max ∈ grant.maxObjectBytes, d.transferred + bytes.length ≤ max)
      (hcommit : d.window.commitFrame seq bytes.length = (.ok (), window)) :
      Step d { d with
        staged := none
        window
        hashed := d.hashed ++ bytes
        transferred := d.transferred + bytes.length
        sent := d.sent ++ [(seq, bytes)] }
  | gather {d : DownloadEndpoint Payload} {frame rest : Bytes} {info : Option ObjectInfo}
      (hrunning : d.outcome = none) (hactive : d.declared.isSome) (heof : d.eof = false)
      (hstaged : d.staged = none)
      (h : Gathers d.window.limits.maxFrameBytes [] d.rest frame rest) :
      Step d (if frame = [] then { d with rest }.ended sha grant info
        else { d with staged := some frame, rest })
  | control {d : DownloadEndpoint Payload} {seq : Nat} {payload : Payload}
      {body : TransferControl} (hrunning : d.outcome = none)
      (hwaits : d.Waits)
      (hvalid : body.Valid seq) : Step d (d.control grant seq payload body)
  | fail {d : DownloadEndpoint Payload} (hrunning : d.outcome = none) : Step d d.fail

/-! ## The invariant -/

structure Inv (d : DownloadEndpoint Payload) : Prop where
  sent : d.sent = numbered 0 (d.sent.map Prod.snd)
  ledger : Ledger d.window (d.sent.map fun frame => frame.2.length)
  inactive : d.declared = none → d.sent = [] ∧ d.staged = none
  limits : ∀ w ∈ d.declared, d.window.limits.windowFrames = min grant.limits.windowFrames w.1 ∧
    d.window.limits.windowBytes = min grant.limits.windowBytes w.2 ∧
    0 < d.window.limits.windowFrames ∧
    d.window.limits.maxFrameBytes ≤ d.window.limits.windowBytes
  staged : ∀ bytes ∈ d.staged, bytes.length ≤ d.window.limits.maxFrameBytes
  transferred : d.transferred = (d.sent.map Prod.snd).flatten.length
  hashed : d.hashed = (d.sent.map Prod.snd).flatten
  ended : d.eof = true → d.staged = none ∧ d.transferred = grant.size ∧
    transferDigestsMatch grant.digest (digestText sha d.hashed) = true
  outcome : d.outcome = some .ok → d.eof = true ∧ d.window.highestConsumed = d.window.highestSent

variable {sha grant d}

theorem Inv.opened (source : Bytes) :
    (opened grant source : DownloadEndpoint Payload).Inv sha grant :=
  ⟨rfl, .new grant.limits, fun _ => ⟨rfl, rfl⟩, nofun, nofun, rfl, rfl, nofun, nofun⟩

variable (h : d.Inv sha grant)
include h in
theorem Inv.failed : d.fail.Inv sha grant :=
  { h with outcome := nofun }

variable (hrunning : d.outcome = none)
include h hrunning in
theorem Inv.credited : (d.credited received consumed bytes).Inv sha grant := by
  have hidle : d.outcome ≠ some .ok := by
    rw [hrunning]
    nofun
  unfold DownloadEndpoint.credited
  split
  next hcredit =>
    obtain rfl := SenderWindow.applyCredit_error hcredit
    exact h.failed
  next window hcredit =>
    obtain ⟨hledger, hlimits, -⟩ := h.ledger.credit hcredit
    refine { h with ledger := hledger, limits := ?_, staged := ?_, outcome := ?_ }
    · exact hlimits ▸ h.limits
    · exact hlimits ▸ h.staged
    · exact fun hok => absurd hok hidle

theorem credited_eof : (d.credited received consumed bytes).eof = d.eof := by
  unfold DownloadEndpoint.credited
  split <;> rfl

include h in
theorem Inv.complete (heof : d.eof = true) : (d.complete finalSeq).Inv sha grant := by
  unfold DownloadEndpoint.complete
  split
  next hok => exact { h with outcome := fun _ => ⟨heof, (h.ledger.validateComplete_ok.mp hok.2).2⟩ }
  · exact h.failed

theorem frames_pos_of_validateWindow
    (h : validateWindow frames bytes frame = .ok ()) : 0 < frames := by
  unfold validateWindow at h
  split at h
  · cases h
  next hvalid => exact Nat.pos_of_ne_zero fun hzero => hvalid (.inl hzero)

include h hrunning

theorem Inv.perform (payload : Payload) (hvalid : body.Valid seq) :
    (d.perform grant payload body).Inv sha grant := by
  cases body with
  | activate maxFrameBytes window =>
    cases window with
    | none => exact h.failed
    | some w =>
      simp only [DownloadEndpoint.perform]
      split
      · exact h
      rename_i hinactive
      -- nothing was sent yet, so the new window accounts for everything
      obtain ⟨hsent, hstaged⟩ := h.inactive (Option.not_isSome_iff_eq_none.mp hinactive)
      refine { h with ledger := ?_, inactive := nofun, limits := ?_, staged := ?_, outcome := ?_ }
      · simp only [hsent, map_nil]
        exact .new _
      · rintro _ ⟨⟩
        exact ⟨rfl, rfl, lt_min grant.frames_pos (frames_pos_of_validateWindow
          (hvalid.2.2.2 w rfl)), min_le_right _ _⟩
      · simp [hstaged]
      · simp [hrunning]
  | credit received consumed bytes =>
    simp only [DownloadEndpoint.perform]
    split
    · exact h.failed
    · exact h.credited hrunning
  | cancel => exact { h with outcome := nofun }
  | endAck finalSeq received consumed bytes =>
    simp only [DownloadEndpoint.perform]
    split
    · exact h.failed
    next hends =>
      rw [not_or, Bool.not_eq_false] at hends
      exact (h.credited hrunning).complete (credited_eof.trans hends.1)

theorem Inv.control [DecidableEq Payload] (hvalid : body.Valid seq) :
    (d.control grant seq payload body).Inv sha grant := by
  have hnumbered : ({ d with controlSeq := seq, controlBody := some payload } :
      DownloadEndpoint Payload).Inv sha grant := { h with }
  unfold DownloadEndpoint.control
  split_ifs
  · exact h.perform hrunning payload hvalid
  · exact h.failed
  · exact h.failed
  · exact h
  · exact h.failed
  · exact hnumbered.perform hrunning payload hvalid

theorem Inv.ended_step (hstaged : d.staged = none) (rest : Bytes) (info : Option ObjectInfo) :
    ({ d with rest }.ended sha grant info).Inv sha grant := by
  have hrest : ({ d with rest } : DownloadEndpoint Payload).Inv sha grant := { h with }
  unfold DownloadEndpoint.ended
  dsimp only
  split_ifs with hstore hdiffers
  · exact hrest.failed
  · exact hrest.failed
  · rw [not_or, not_not, Bool.not_eq_false] at hdiffers
    refine { hrest with ended := fun _ => ⟨hstaged, hdiffers⟩, outcome := ?_ }
    simp [hrunning]

theorem Inv.send {bytes : Bytes} {window : SenderWindow} (hstaged : d.staged = some bytes)
    (hcommit : d.window.commitFrame seq bytes.length = (.ok (), window)) : Inv sha grant { d with
      staged := none
      window
      hashed := d.hashed ++ bytes
      transferred := d.transferred + bytes.length
      sent := d.sent ++ [(seq, bytes)] } := by
  have hledger := h.ledger.commit hcommit
  have hlength := h.ledger.length_eq
  obtain ⟨-, hnext, rfl⟩ := SenderWindow.commitFrame_ok.mp hcommit
  obtain ⟨-, rfl⟩ := SenderWindow.nextFrameSeq_ok.mp hnext
  have hactive : d.declared ≠ none := by
    intro hnone
    rw [(h.inactive hnone).2] at hstaged
    cases hstaged
  have hopen : d.eof ≠ true := by
    intro heof
    rw [(h.ended heof).1] at hstaged
    cases hstaged
  refine ⟨?_, ?_, fun hnone => absurd hnone hactive, h.limits, nofun, ?_, ?_,
    fun heof => absurd heof hopen, ?_⟩
  · rw [map_append, map_singleton, numbered_concat, ← h.sent, length_map, hlength, Nat.zero_add]
  · simpa using hledger
  · simp [h.transferred]
  · simp [h.hashed]
  · simp [hrunning]

omit hrunning

theorem Inv.step [DecidableEq Payload] (hstep : Step sha grant d d') : d'.Inv sha grant := by
  cases hstep with
  | send hrunning hstaged _ _ _ _ _ hcommit => exact h.send hrunning hstaged hcommit
  | @gather frame rest info hrunning hactive heof hstaged hgathers =>
    split
    · exact h.ended_step hrunning hstaged rest info
    refine { h with inactive := ?_, staged := ?_, ended := ?_ }
    · intro hnone
      rw [hnone] at hactive
      cases hactive
    · rintro _ ⟨⟩
      exact (hgathers.spec (Nat.zero_le _)).2.2.1
    · simp [heof]
  | control hrunning hwaits hvalid => exact h.control hrunning hvalid
  | fail hrunning => exact h.failed

/-- A staged frame fits an empty ledger. -/
theorem Inv.not_waits (hstaged : d.staged ≠ none) (hempty : d.window.frames = []) : ¬ d.Waits := by
  obtain ⟨bytes, hstaged⟩ := Option.ne_none_iff_exists'.mp hstaged
  obtain ⟨w, hw⟩ : ∃ w, d.declared = some w := by
    rw [← Option.ne_none_iff_exists']
    intro hnone
    rw [(h.inactive hnone).2] at hstaged
    cases hstaged
  obtain ⟨-, -, hframes, hframe⟩ := h.limits w hw
  have hbytes : d.window.outstandingBytes = 0 := by
    have hlength := h.ledger.frames_length
    rw [hempty, length_nil] at hlength
    rw [h.ledger.outstanding, drop_eq_nil_of_le, sum_nil]
    rw [h.ledger.sent_length]
    omega
  have hle := h.staged bytes hstaged
  refine fun hwaits => hwaits bytes hstaged ?_
  rw [SenderWindow.validateFrameSlot_ok, hempty, hbytes]
  exact ⟨hle, hle, hframes, hle.trans hframe⟩

omit h

/-- **A download completes soundly.**  In every state of every run what is outstanding keeps within
the smaller of both windows, and a staged frame is not held back when nothing is outstanding.  When
the loop has ended well, the frames were sent in order, their content is that of the grant, and the
consumer's cursors have reached the end. -/
theorem download_sound [DecidableEq Payload] {source : Bytes} {d : DownloadEndpoint Payload}
    (hrun : ReflTransGen (Step sha grant) (opened grant source) d) :
    (∀ frames bytes, d.declared = some (frames, bytes) →
      d.window.frames.length ≤ min grant.limits.windowFrames frames ∧
      d.window.outstandingBytes ≤ min grant.limits.windowBytes bytes) ∧
    (d.declared = none → d.sent = []) ∧
    (d.staged ≠ none → d.window.frames = [] → ¬ d.Waits) ∧
    (d.outcome = some .ok → ∃ content : List Bytes, d.sent = numbered 0 content ∧
      content.flatten.length = grant.size ∧ digestText sha content.flatten = grant.digest ∧
      d.window.highestConsumed = content.length ∧
      d.window.consumedBytes = content.flatten.length) := by
  have hinv : d.Inv sha grant := by
    refine Run.keeps (P := Inv sha grant) ?_ hrun (.opened source)
    exact fun _ _ hstep h => h.step hstep
  refine ⟨fun frames bytes hdeclared => ?_, fun hnone => (hinv.inactive hnone).1,
    hinv.not_waits, fun hok => ⟨_, hinv.sent, ?_⟩⟩
  · obtain ⟨hframes, hbytes, -⟩ := hinv.limits _ hdeclared
    exact ⟨hframes ▸ hinv.ledger.frames_le, hbytes ▸ hinv.ledger.bytes_le⟩
  · obtain ⟨heof, hconsumed⟩ := hinv.outcome hok
    obtain ⟨-, hsize, hdigest⟩ := hinv.ended heof
    have hlength := hinv.ledger.sent_length
    rw [transferDigestsMatch_iff grant.digest_valid (validDigest_digestText sha _),
      hinv.hashed] at hdigest
    refine ⟨hinv.transferred.symm.trans hsize, hdigest.symm, ?_, ?_⟩
    · rw [hconsumed, ← hlength, length_map, length_map]
    · rw [hinv.ledger.consumed, hconsumed, ← hlength, take_length, length_flatten, List.map_map]
      rfl

/-- The grant of the two frames. -/
def pairGrant : DownloadGrant :=
  ⟨narrowLimits, "pair", digestText pairSha pairBytes, 3, none, false, Nat.succ_pos _,
    validDigest_digestText pairSha pairBytes⟩

/-- The content is two frames, and the end is acknowledged. -/
theorem download_sound_pair : ∃ d : DownloadEndpoint String,
    ReflTransGen (Step pairSha pairGrant) (opened pairGrant pairBytes) d ∧
      d.outcome = some .ok ∧ d.sent = [(1, [7, 9]), (2, [11])] ∧ ∃ content : List Bytes,
        d.sent = numbered 0 content ∧ content.flatten.length = 3 ∧
          d.window.highestConsumed = content.length := by
  have hactivate := ReflTransGen.single (@Step.control String pairSha pairGrant _
    (opened pairGrant pairBytes) 1 "activate" (.activate 4 (some (2, 8))) rfl nofun
    ⟨rfl, by decide, by decide, by rintro _ ⟨⟩; rfl⟩)
  have hfirst := (hactivate.tail (@Step.gather String pairSha pairGrant _ _ [7, 9] [11] none rfl rfl
    rfl rfl (.more 2 (by decide) (by decide) (by decide)
      (.notReady (by decide) (by decide))))).tail
    (@Step.send String pairSha pairGrant _ _ [7, 9] 1 _ rfl rfl rfl rfl (by decide) (by decide)
      nofun rfl)
  have hsecond := (hfirst.tail (@Step.gather String pairSha pairGrant _ _ [11] [] none rfl rfl
    rfl rfl (.more 1 (by decide) (by decide) (by decide) (.ended (by decide))))).tail
    (@Step.send String pairSha pairGrant _ _ [11] 2 _ rfl rfl rfl rfl (by decide) (by decide)
      nofun rfl)
  have hended := hsecond.tail (@Step.gather String pairSha pairGrant _ _ [] [] none rfl rfl rfl rfl
    (.ended (by decide)))
  have hack := hended.tail (@Step.control String pairSha pairGrant _ _ 2 "end"
    (.endAck 2 2 2 3) rfl nofun ⟨by decide, by decide, rfl, rfl⟩)
  obtain ⟨-, -, -, hsound⟩ := download_sound hack
  obtain ⟨content, hsent, hsize, -, hconsumed, -⟩ := hsound rfl
  exact ⟨_, hack, rfl, rfl, content, hsent, hsize, hconsumed⟩

end DownloadEndpoint

end Transfer
