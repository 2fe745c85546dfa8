/-
# The caller of an upload

`put_upload_grant_from_with_cancel`: frames are gathered from a byte source, sent while the
window has room, and followed by a completion; the loop answers credit and ends with the
provider's commitment.  A source is the bytes it still has; how it portions them, and when
it is not ready, is left open.

Whatever ends the loop early (expiry, lost authority, a source that fails) is one step.
-/
import Trellis.Transfer.Upload

open DataPlane

namespace Transfer

open List Checked

/-! ## Gathering frames -/

/-- `read_ready_frame`: short reads are gathered, and only the first may wait. -/
inductive Gathers (limit : Nat) : Bytes → Bytes → Bytes → Bytes → Prop
  | full {acc rest} (h : limit ≤ acc.length) : Gathers limit acc rest acc rest
  | more {acc rest frame rest'} (count) (h : acc.length < limit) (hcount : 0 < count)
      (hle : count ≤ min (limit - acc.length) rest.length)
      (hmore : Gathers limit (acc ++ rest.take count) (rest.drop count) frame rest') :
      Gathers limit acc rest frame rest'
  | notReady {acc rest} (h : acc.length < limit) (hfirst : acc ≠ []) :
      Gathers limit acc rest acc rest
  | ended {acc} (h : acc.length < limit) : Gathers limit acc [] acc []

variable {rest : Bytes}

/-- Gathering loses nothing, keeps to the limit and comes back empty only at the end. -/
theorem Gathers.spec (h : Gathers limit acc rest frame rest') (hacc : acc.length ≤ limit) :
    frame ++ rest' = acc ++ rest ∧ acc.length ≤ frame.length ∧ frame.length ≤ limit ∧
      (frame = [] → limit = 0 ∨ rest = []) := by
  induction h with
  | full hfull =>
    refine ⟨rfl, le_refl _, hacc, ?_⟩
    rintro rfl
    exact .inl (Nat.le_zero.mp hfull)
  | more count hlt hcount hle hmore ih =>
    rename_i acc rest frame rest'
    have hlen : (acc ++ rest.take count).length = acc.length + count := by
      rw [length_append, length_take]
      omega
    obtain ⟨heq, hgrows, hframe, -⟩ := ih (by omega)
    refine ⟨?_, by omega, hframe, ?_⟩
    · rw [heq, append_assoc, take_append_drop]
    · -- something was read, so the frame is not empty
      rintro rfl
      rw [length_nil] at hgrows
      omega
  | notReady hlt hfirst => exact ⟨rfl, le_refl _, hacc, fun hnil => absurd hnil hfirst⟩
  | ended hlt => exact ⟨rfl, le_refl _, hacc, fun _ => .inr rfl⟩

/-! ## The loop -/

inductive Outcome where
  | ok (finalSeq size : Nat) (digest : String)
  | failed
  deriving DecidableEq, Repr

/-- The loop's variables.  The frames that were sent are kept beside them. -/
structure Sender where
  maxBytes : Option Nat
  window : SenderWindow
  staged : Option Bytes
  (sourceDone completeSent cancelledSent : Bool)
  (transferred consumedBytes : Nat)
  hashed : Bytes
  /-- What the source still has. -/
  rest : Bytes
  outcome : Option Outcome
  sent : List Bytes

/-- Activated limits, as the caller accepts them. -/
structure Activation where
  limits : FlowLimits
  frame_pos : 0 < limits.maxFrameBytes
  frame_le : limits.maxFrameBytes ≤ maxTransferFrameBytes

def Sender.opened (activation : Activation) (maxBytes : Option Nat) (source : Bytes) : Sender where
  maxBytes
  window := .new activation.limits
  staged := none
  sourceDone := false
  completeSent := false
  cancelledSent := false
  transferred := 0
  consumedBytes := 0
  hashed := []
  rest := source
  outcome := none
  sent := []

def Sender.fail (s : Sender) : Sender :=
  { s with outcome := some .failed }

/-- An empty frame is the end of the source. -/
def Sender.gathered (s : Sender) (frame rest : Bytes) : Sender :=
  if frame = [] then { s with sourceDone := true, rest } else { s with staged := some frame, rest }

def Sender.credited (s : Sender) (received consumed bytes : Nat) : Sender :=
  if bytes < s.consumedBytes ∨ bytes > s.transferred then s.fail
  else
    match s.window.applyCredit received consumed (some bytes) with
    | (.ok (), window) => { s with window, consumedBytes := bytes }
    | (.error _, window) => { s with window }.fail

def Sender.committed (sha : Sha256) (s : Sender) (finalSeq size : Nat) (digest : String) : Sender :=
  if s.completeSent = false ∨ finalSeq ≠ s.window.highestSent ∨ size ≠ s.transferred ∨
      transferDigestsMatch digest (digestText sha s.hashed) = false then s.fail
  else { s with outcome := some (.ok finalSeq size digest) }

def Sender.signalled (sha : Sha256) (s : Sender) : UploadSignal → Sender
  | .credit received consumed bytes => s.credited received consumed bytes
  | .committed finalSeq size digest => s.committed sha finalSeq size digest
  | .cancelled => if s.cancelledSent then s.fail else s
  | .error => s.fail
  | .activated => s

inductive SenderLabel where
  | publish (message : UploadMessage)
  | take (signal : UploadSignal)
  | silent
  | outside

/-- The steps of the loop while it runs. -/
inductive SenderStep (sha : Sha256) : Sender → SenderLabel → Sender → Prop
  | gather {s frame rest} (hrunning : s.outcome = none) (hsource : s.sourceDone = false)
      (hstaged : s.staged = none) (hcancelled : s.cancelledSent = false)
      (h : Gathers s.window.limits.maxFrameBytes [] s.rest frame rest) :
      SenderStep sha s .silent (s.gathered frame rest)
  | send {s bytes seq window} (hrunning : s.outcome = none) (hstaged : s.staged = some bytes)
      (hslot : s.window.validateFrameSlot bytes.length s.window.limits.maxFrameBytes = .ok ())
      (hnext : s.window.nextFrameSeq = .ok seq) (htotal : s.transferred + bytes.length < 2 ^ 64)
      (hmax : ∀ max ∈ s.maxBytes, s.transferred + bytes.length ≤ max)
      (hvalid : (UploadMessage.data seq bytes).Valid)
      (hcommit : s.window.commitFrame seq bytes.length = (.ok (), window)) :
      SenderStep sha s (.publish (.data seq bytes))
        { s with
          staged := none
          window
          hashed := s.hashed ++ bytes
          transferred := s.transferred + bytes.length
          sent := s.sent ++ [bytes] }
  | complete {s} (hrunning : s.outcome = none) (hsource : s.sourceDone = true)
      (hcomplete : s.completeSent = false) (hstaged : s.staged = none)
      (hcancelled : s.cancelledSent = false)
      (hvalid : ValidTerminal s.window.highestSent s.transferred (digestText sha s.hashed)) :
      SenderStep sha s
        (.publish (.complete s.window.highestSent s.transferred (digestText sha s.hashed)))
        { s with completeSent := true }
  | signal {s signal} (hrunning : s.outcome = none) (hvalid : signal.Valid) :
      SenderStep sha s (.take signal) (s.signalled sha signal)
  | skip {s signal} (hrunning : s.outcome = none) (hvalid : ¬ signal.Valid) :
      SenderStep sha s (.take signal) s
  /-- The caller cancels; what was staged is dropped. -/
  | cancel {s} (hrunning : s.outcome = none) (hcancelled : s.cancelledSent = false) :
      SenderStep sha s .outside { s with cancelledSent := true, staged := none }
  | fail {s} (hrunning : s.outcome = none) : SenderStep sha s .outside s.fail

/-! ## The invariant -/

structure Sender.Inv (sha : Sha256) (source : Bytes) (s : Sender) : Prop where
  frame_pos : 0 < s.window.limits.maxFrameBytes
  ledger : Ledger s.window (s.sent.map List.length)
  frames_ne : ∀ frame ∈ s.sent, frame ≠ []
  transferred : s.transferred = s.sent.flatten.length
  hashed : s.hashed = s.sent.flatten
  staged : ∀ bytes ∈ s.staged, bytes ≠ [] ∧ bytes.length ≤ s.window.limits.maxFrameBytes
  whole : s.cancelledSent = false → source = s.sent.flatten ++ s.staged.getD [] ++ s.rest
  ended : s.sourceDone = true → s.rest = []
  complete : s.completeSent = true → s.sourceDone = true ∧ s.staged = none ∧ s.sent.flatten = source
  outcome : ∀ finalSeq size digest, s.outcome = some (.ok finalSeq size digest) →
    s.sent.flatten = source ∧ finalSeq = s.sent.length ∧ size = source.length ∧
      digest = digestText sha source

theorem Sender.Inv.opened (sha : Sha256) (activation : Activation) (maxBytes : Option Nat)
    (source : Bytes) : (Sender.opened activation maxBytes source).Inv sha source where
  frame_pos := activation.frame_pos
  ledger := .new activation.limits
  frames_ne := nofun
  transferred := rfl
  hashed := rfl
  staged := nofun
  whole := fun _ => rfl
  ended := nofun
  complete := nofun
  outcome := nofun

variable {s : Sender}

variable (h : s.Inv sha source)

include h

theorem Sender.Inv.failed : s.fail.Inv sha source :=
  { h with outcome := nofun }

/-- Gathering goes on where the source stands. -/
theorem Sender.Inv.gather (hsource : s.sourceDone = false) (hstaged : s.staged = none)
    (hcanc : s.cancelledSent = false)
    (hgathers : Gathers s.window.limits.maxFrameBytes [] s.rest frame rest) :
    (s.gathered frame rest).Inv sha source := by
  obtain ⟨heq, -, hlimit, hempty⟩ := hgathers.spec (Nat.zero_le _)
  have hall : source = s.sent.flatten ++ s.rest := by
    have := h.whole hcanc
    rw [hstaged] at this
    simpa using this
  have hcompl : s.completeSent ≠ true := by
    intro hsent
    rw [(h.complete hsent).1] at hsource
    cases hsource
  unfold Sender.gathered
  split
  next hnil =>
    have hrest : s.rest = [] := by
      rcases hempty hnil with hzero | hrest
      · have := h.frame_pos
        omega
      · exact hrest
    rw [hnil, hrest] at heq
    have hrest' : rest = [] := heq
    refine { h with whole := ?_, ended := ?_, complete := ?_, outcome := ?_ }
    · intro _
      rw [hstaged, hrest', hall, hrest]
      simp
    · intro _
      exact hrest'
    · intro hsent
      exact absurd hsent hcompl
    · exact h.outcome
  next hne =>
    refine { h with staged := ?_, whole := ?_, ended := ?_, complete := ?_ }
    · intro bytes hmem
      cases hmem
      exact ⟨hne, hlimit⟩
    · intro _
      show source = s.sent.flatten ++ frame ++ rest
      rw [append_assoc, heq]
      exact hall
    · intro hdone
      rw [hsource] at hdone
      cases hdone
    · intro hsent
      exact absurd hsent hcompl

/-- A frame that is sent is the staged one. -/
theorem Sender.Inv.send {window : SenderWindow} (hlive : s.outcome = none)
    (hstaged : s.staged = some bytes)
    (hcom : s.window.commitFrame seq bytes.length = (.ok (), window)) :
    Sender.Inv sha source { s with
      staged := none
      window
      hashed := s.hashed ++ bytes
      transferred := s.transferred + bytes.length
      sent := s.sent ++ [bytes] } := by
  have hlimits : window.limits = s.window.limits := by
    obtain ⟨-, -, rfl⟩ := SenderWindow.commitFrame_ok.mp hcom
    rfl
  have hflat : (s.sent ++ [bytes]).flatten = s.sent.flatten ++ bytes := by
    rw [flatten_append, flatten_singleton]
  have hcompl : s.completeSent ≠ true := by
    intro hsent
    rw [(h.complete hsent).2.1] at hstaged
    cases hstaged
  refine ⟨?_, ?_, ?_, ?_, ?_, nofun, ?_, h.ended, fun hsent => absurd hsent hcompl, ?_⟩
  · rw [hlimits]
    exact h.frame_pos
  · rw [map_append]
    exact h.ledger.commit hcom
  · exact forall_mem_concat h.frames_ne (h.staged bytes hstaged).1
  · rw [hflat, length_append, ← h.transferred]
  · rw [hflat, ← h.hashed]
  · intro hcanc
    show source = (s.sent ++ [bytes]).flatten ++ [] ++ s.rest
    have := h.whole hcanc
    rw [hstaged] at this
    rw [hflat, append_nil]
    exact this
  · intro finalSeq size digest hok
    rw [hlive] at hok
    cases hok

theorem Sender.Inv.credited : (s.credited received consumed bytes).Inv sha source := by
  unfold Sender.credited
  split
  · exact h.failed
  split
  next window hcredit =>
    obtain ⟨hled, hlimits, -⟩ := h.ledger.credit hcredit
    refine { h with frame_pos := ?_, ledger := hled, staged := ?_ }
    · rw [hlimits]
      exact h.frame_pos
    · rw [hlimits]
      exact h.staged
  next error window hcredit =>
    obtain rfl := SenderWindow.applyCredit_error hcredit
    exact h.failed

/-- The commitment that ends the loop is that of the whole source. -/
theorem Sender.Inv.committed (hvalid : ValidTerminal finalSeq size digest) :
    (s.committed sha finalSeq size digest).Inv sha source := by
  unfold Sender.committed
  split
  · exact h.failed
  rename_i hok
  simp only [not_or, ne_eq, not_not, Bool.not_eq_false] at hok
  obtain ⟨hcompl, hfinal, hsize, hmatch⟩ := hok
  refine { h with outcome := ?_ }
  intro finalSeq' size' digest' heq
  cases heq
  obtain ⟨-, -, hall⟩ := h.complete hcompl
  have hlen := h.ledger.sent_length
  rw [length_map] at hlen
  rw [transferDigestsMatch_iff hvalid.digest (validDigest_digestText sha _), h.hashed,
    hall] at hmatch
  exact ⟨hall, by rw [hfinal, hlen], by rw [hsize, h.transferred, hall], hmatch⟩

theorem Sender.Inv.step (hstep : SenderStep sha s label s') : s'.Inv sha source := by
  cases hstep with
  | gather hlive hsource hstaged hcanc hgathers => exact h.gather hsource hstaged hcanc hgathers
  | send hlive hstaged hslot hnext htotal hmax hvalid hcom => exact h.send hlive hstaged hcom
  | complete hlive hsource hcompl hstaged hcanc hvalid =>
    refine { h with complete := ?_ }
    intro _
    refine ⟨hsource, hstaged, ?_⟩
    have := h.whole hcanc
    rw [hstaged, h.ended hsource] at this
    simpa using this.symm
  | signal hlive hvalid =>
    rename_i signal
    cases signal with
    | activated => exact h
    | credit received consumed bytes => exact h.credited
    | committed finalSeq size digest => exact h.committed hvalid
    | cancelled =>
      show (if s.cancelledSent then s.fail else s).Inv sha source
      split
      · exact h.failed
      · exact h
    | error => exact h.failed
  | skip hlive hvalid => exact h
  | cancel hlive hcanc =>
    refine { h with staged := nofun, whole := nofun, complete := ?_ }
    intro hsent
    obtain ⟨hdone, -, hall⟩ := h.complete hsent
    exact ⟨hdone, rfl, hall⟩
  | fail hlive => exact h.failed

omit h

/-- Only a commitment ends the loop well. -/
theorem SenderStep.label_of_ok (hstep : SenderStep sha s label s')
    (hok : s'.outcome = some (.ok finalSeq size digest)) :
    label = .take (.committed finalSeq size digest) := by
  have hlive : s.outcome ≠ some (.ok finalSeq size digest) := by cases hstep <;> simp [*]
  cases hstep with
  | gather =>
    unfold Sender.gathered at hok
    split at hok
    all_goals exact absurd hok hlive
  | send | complete | skip | cancel => exact absurd hok hlive
  | @signal signal =>
    cases signal with
    | activated => exact absurd hok hlive
    | credit received consumed bytes =>
      change (s.credited received consumed bytes).outcome = _ at hok
      unfold Sender.credited at hok
      split at hok
      · cases hok
      split at hok
      · exact absurd hok hlive
      · cases hok
    | committed finalSeq' size' digest' =>
      change (s.committed sha finalSeq' size' digest').outcome = _ at hok
      unfold Sender.committed at hok
      split at hok
      · cases hok
      · cases hok
        rfl
    | cancelled =>
      change (if s.cancelledSent then s.fail else s).outcome = _ at hok
      split at hok
      · cases hok
      · exact absurd hok hlive
    | error => cases hok
  | fail => cases hok

/-- A step of the loop, whatever its label. -/
def Sender.Next (sha : Sha256) (s s' : Sender) : Prop :=
  ∃ label, SenderStep sha s label s'

theorem Sender.Inv.run (hrun : ReflTransGen (Sender.Next sha) s s') (h : s.Inv sha source) :
    s'.Inv sha source := by
  refine Run.keeps (P := Sender.Inv sha source) ?_ hrun h
  rintro s s' ⟨label, hstep⟩ h
  exact h.step hstep

end Transfer
