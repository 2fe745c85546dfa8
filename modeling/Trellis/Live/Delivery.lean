/-
# Delivery within the window

Both ends of a Live session.  The provider publishes a frame when its `SenderWindow` has room and
commits it afterwards; the consumer takes frames in sequence, and tells in its controls how far
the application has consumed.  Whatever was published or sent once may arrive at any time, any
number of times.

The sides count the same frames with the same window, so what is queued is among what the provider
holds to be outstanding, and `admit` never finds the queue too full (`admit_within_window`),
although the size it reads may be out of step with the queue.
-/
import Mathlib.Algebra.Order.BigOperators.Group.List
import Trellis.DataPlane.Flow
import Trellis.Live.Subscription

open DataPlane

namespace Live.Subscription

open List Checked Nat

variable {Value : Type}

/-! ## The session -/

/-- The window of a provider session. -/
def liveLimits : FlowLimits where
  maxFrameBytes := windowBytes
  windowFrames := windowFrames
  windowBytes := windowBytes
  maxFrameBytes_lt := by decide
  windowFrames_lt := by decide
  windowBytes_lt := by decide

/-- Between two frames, with a frame published and not yet committed, or stopped. -/
inductive Provider (Value : Type) where
  | ready
  | handing (frame : DataFrame Value)
  | stopped (lost : List (DataFrame Value))

def Provider.uncommitted : Provider Value → List (DataFrame Value)
  | .ready => []
  | .handing frame => [frame]
  | .stopped lost => lost

/-- Both ends, the frames that were published and the cursors that were sent. -/
structure Session (Value : Type) where
  core : Core Value
  provider : Provider Value
  window : SenderWindow
  sent : List (DataFrame Value)
  credits : List (Nat × Nat)

def Session.initial : Session Value where
  core := .initial
  provider := .ready
  window := .new liveLimits
  sent := []
  credits := []

/-- A step of either side.  Frames and cursors stay, to arrive once more, out of order or never.
The output lane keeps controls away from a frame that is handed over. -/
inductive SessionStep : Session Value → Session Value → Prop
  | publish {s frame maxDataBodyBytes} (hready : s.provider = .ready)
      (hseq : s.window.nextFrameSeq = .ok frame.seq)
      (hslot : s.window.validateFrameSlot frame.len maxDataBodyBytes = .ok ()) :
      SessionStep s { s with
        provider := .handing frame
        sent := s.sent ++ [frame] }
  | commit {s frame window} (hhanding : s.provider = .handing frame)
      (hcommit : s.window.commitFrame frame.seq frame.len = (.ok (), window)) :
      SessionStep s { s with
        provider := .ready
        window }
  /-- The publication fails, or the source is aborted in it. -/
  | fail {s} : SessionStep s { s with provider := .stopped s.provider.uncommitted }
  /-- The consumer takes a step; what it receives was sent.  It does not close the session. -/
  | consume {s move core} (hstep : CoreStep move s.core core) (hmove : move ≠ .abandon)
      (hsent : ∀ frame ∈ core.received, frame ∈ s.sent) :
      SessionStep s { s with core }
  /-- A control with the cursors: an acknowledgement, a pulse or the answer to the end. -/
  | credit {s} (received) :
      SessionStep s { s with credits := s.credits ++ [(received, s.core.consumedSeq)] }
  | apply {s received consumed} (hsent : (received, consumed) ∈ s.credits)
      (hlane : ∀ frame, s.provider ≠ .handing frame) :
      SessionStep s { s with window := (s.window.applyCredit received consumed none).2 }

/-! ## The queue of the consumer -/

/-- The queue has the frames received and not taken, and its counter is right but for its width and
what is still to be counted. -/
structure Contiguous (core : Core Value) : Prop where
  taken : core.consumedSeq + core.app.uncounted ≤ core.received.length
  queue : core.queue ++ core.pump.unqueued
    = core.received.drop (core.consumedSeq + core.app.uncounted)
  releasing : ∀ frame, core.app = .releasing frame → core.received[core.consumedSeq]? = some frame
  width : core.queuedBytes < 2 ^ 64
  counter : (core.queuedBytes + core.pump.uncounted) % 2 ^ 64
    = (queueBytes core.queue + core.app.unreleased) % 2 ^ 64
  fits : core.pump.Fits
  lengths : ∀ frame ∈ core.received, frame.len < 2 ^ 64

theorem Contiguous.initial : Contiguous (Core.initial : Core Value) :=
  ⟨le_refl _, rfl, nofun, Nat.two_pow_pos 64, rfl, trivial, nofun⟩

/-- A step of the application that takes nothing from the queue. -/
theorem Contiguous.app (h : Contiguous core) {app : App Value}
    (hcount : consumedSeq + app.uncounted = core.consumedSeq + core.app.uncounted)
    (hrel : ∀ frame, app ≠ .releasing frame) (hwidth : queuedBytes < 2 ^ 64)
    (hcnt : (queuedBytes + core.pump.uncounted) % 2 ^ 64
      = (queueBytes core.queue + app.unreleased) % 2 ^ 64) :
    Contiguous { core with queuedBytes, consumedSeq, app, handed } := by
  refine ⟨?_, ?_, fun frame happ => absurd happ (hrel frame), hwidth, hcnt, h.fits, h.lengths⟩
  · exact hcount.trans_le h.taken
  · show _ = core.received.drop (consumedSeq + app.uncounted)
    rw [hcount]
    exact h.queue

/-- A step of the pump within one frame. -/
theorem Contiguous.pump (h : Contiguous core) {pump : Pump Value} {queue : List (DataFrame Value)}
    (hqueue : queue ++ pump.unqueued = core.queue ++ core.pump.unqueued)
    (hwidth : queuedBytes < 2 ^ 64) (hcnt : (queuedBytes + pump.uncounted) % 2 ^ 64
      = (queueBytes queue + core.app.unreleased) % 2 ^ 64) (hfits : pump.Fits) :
    Contiguous { core with queue, queuedBytes, receivedSeq, pump } :=
  ⟨h.taken, hqueue.trans h.queue, h.releasing, hwidth, hcnt, hfits, h.lengths⟩

/-- A frame is received. -/
theorem Contiguous.receive (h : Contiguous core) (hpump : core.pump = .waiting)
    {frame : DataFrame Value} {pump : Pump Value} (hunqueued : pump.unqueued = [frame])
    (huncounted : pump.uncounted = 0) (hfits : pump.Fits)
    (hlengths : ∀ other ∈ core.received ++ [frame], other.len < 2 ^ 64)
    {receivedSeq nextExpected : Nat} : Contiguous { core with
      receivedSeq
      nextExpected
      pump
      received := core.received ++ [frame] } := by
  have hqueue := h.queue
  have hcnt := h.counter
  rw [hpump] at hqueue hcnt
  refine ⟨?_, ?_, ?_, h.width, ?_, hfits, hlengths⟩
  · exact h.taken.trans (prefix_append _ _).length_le
  · rw [hunqueued, drop_append_of_le_length h.taken, ← hqueue]
    simp [Pump.unqueued]
  · intro other happ
    have hother := h.releasing other happ
    rw [List.getElem?_append_left (List.getElem?_eq_some_iff.mp hother).1]
    exact hother
  · rw [huncounted]
    exact hcnt

/-- The application takes the first slot. -/
theorem Contiguous.take (h : Contiguous core) (hqueue : core.queue = slot :: rest) {app : App Value}
    (hbefore : core.app.uncounted = 0) (hnone : core.app.unreleased = 0)
    (hafter : app.uncounted = 1)
    (hrel : ∀ frame, app = .releasing frame → frame = slot)
    (hcnt : queueBytes rest + app.unreleased = queueBytes core.queue) :
    Contiguous { core with queue := rest, app } := by
  have hdrop := h.queue
  rw [hqueue, hbefore, add_zero] at hdrop
  have hlt : core.consumedSeq < core.received.length := by
    by_contra hge
    rw [drop_eq_nil_of_le (not_lt.mp hge)] at hdrop
    cases hdrop
  rw [drop_eq_getElem_cons hlt] at hdrop
  obtain ⟨hslot, hrest⟩ := List.cons.inj hdrop
  refine ⟨?_, ?_, ?_, h.width, ?_, h.fits, h.lengths⟩
  · rw [hafter]
    exact hlt
  · rw [hafter]
    exact hrest
  · intro frame happ
    rw [hrel frame happ, hslot]
    exact getElem?_eq_getElem hlt
  · rw [hcnt]
    have hbase := h.counter
    rw [hnone] at hbase
    exact hbase

theorem Contiguous.step (h : Contiguous core)
    (hstep : CoreStep move core core') (hmove : move ≠ .abandon)
    (hlengths : ∀ frame ∈ core'.received, frame.len < 2 ^ 64) :
    core'.pump = .ended ∨ Contiguous core' := by
  have hcnt := h.counter
  have hfits := h.fits
  cases hstep with
  | @accept _ frame hpump _ hvalue =>
    exact .inr (@Contiguous.receive _ _ h hpump frame (.loaded frame core.queuedBytes) rfl rfl
      hvalue hlengths _ _)
  | @acceptFiltered _ frame hpump _ hvalue =>
    exact .inr (@Contiguous.receive _ _ h hpump frame (.recorded frame) rfl rfl hvalue hlengths _ _)
  | @check _ frame bytes hpump =>
    rw [hpump] at hcnt hfits
    by_cases hexc : exceedsWindow core.queue.length bytes frame.len = true
    · left
      exact if_pos hexc
    · right
      rw [if_neg hexc]
      exact h.pump (by rw [hpump]; rfl) h.width hcnt hfits
  | @push _ frame hpump =>
    rw [hpump] at hcnt hfits
    refine .inr (h.pump ?_ h.width ?_ hfits)
    · rw [hpump]
      simp [Pump.unqueued]
    · rw [queueBytes_append, charge_of_value hfits]
      rw [add_right_comm, add_mod, add_mod (queueBytes core.queue + _), ← hcnt]
      rfl
  | @add _ frame hpump =>
    rw [hpump] at hcnt hfits
    refine .inr (h.pump (by rw [hpump]; rfl) (mod_lt _ (by decide)) ?_ hfits)
    show ((core.queuedBytes + frame.len) % 2 ^ 64 + 0) % 2 ^ 64 = _
    rw [add_zero, mod_mod]
    exact hcnt
  | record hpump =>
    rw [hpump] at hcnt
    exact .inr (h.pump (by rw [hpump]; rfl) h.width hcnt trivial)
  | @releaseFiltered _ frame hpump _ =>
    rw [hpump] at hcnt hfits
    refine .inr (h.pump (by rw [hpump]; simp [Pump.unqueued]) h.width ?_ trivial)
    rw [queueBytes_append, charge_of_filtered hfits]
    exact hcnt
  | refuseFiltered | stop | cancel => exact .inl rfl
  | @take _ frame rest happ hqueue =>
    right
    by_cases hvalue : frame.value.isSome = true
    · rw [if_pos hvalue]
      refine h.take hqueue (by rw [happ]; rfl) (by rw [happ]; rfl) rfl ?_ ?_
      · rintro _ ⟨⟩
        rfl
      · rw [hqueue, queueBytes_cons, charge_of_value hvalue, add_comm]
        rfl
    · rw [if_neg hvalue]
      refine h.take hqueue (by rw [happ]; rfl) (by rw [happ]; rfl) rfl (by rintro _ ⟨⟩) ?_
      rw [hqueue, queueBytes_cons, charge_of_filtered (by simpa using hvalue), zero_add]
      rfl
  | count happ | hand happ | drainCount happ | finish happ =>
    rw [happ] at hcnt
    exact .inr (h.app (by rw [happ]; rfl) (by rintro _ ⟨⟩) h.width hcnt)
  | @release _ frame happ =>
    rw [happ] at hcnt
    have hlen : frame.len < 2 ^ 64 := by
      obtain ⟨hlt, hframe⟩ := List.getElem?_eq_some_iff.mp (h.releasing frame happ)
      exact hframe ▸ h.lengths _ (List.getElem_mem hlt)
    refine .inr (h.app (by rw [happ]; rfl) (by rintro _ ⟨⟩) (mod_lt _ (by decide)) ?_)
    simp only [App.unreleased] at hcnt ⊢
    omega
  | @drain _ frame slot rest happ hqueue hslot =>
    right
    refine h.take hqueue (by rw [happ]; rfl) (by rw [happ]; rfl) rfl (by rintro _ ⟨⟩) ?_
    rw [hqueue, queueBytes_cons, charge_of_filtered hslot, zero_add]
    rfl
  | abandon => exact absurd rfl hmove

/-! ## Facts about single steps -/

section Steps

theorem CoreStep.consumed_le (h : CoreStep move core core') :
    core.consumedSeq ≤ core'.consumedSeq := by
  cases h with
  | count | hand | drainCount => exact le_succ _
  | _ => exact le_refl _

/-- The pump does not begin again. -/
theorem CoreStep.ended (h : CoreStep move core core') (hended : core.pump = .ended) :
    core'.pump = .ended := by
  cases h with
  | take | count | release | hand | drain | drainCount | finish | abandon => exact hended
  | accept hpump | acceptFiltered hpump | check hpump | push hpump | add hpump | record hpump
  | releaseFiltered hpump => exact absurd (hended.symm.trans hpump) nofun
  | refuseFiltered | stop | cancel => rfl

/-- `admit` goes by the size that it read when the frame came. -/
theorem CoreStep.loaded (h : CoreStep move core core')
    (hloaded : core'.pump = .loaded frame bytes) :
    core.pump = .loaded frame bytes ∨ (core.pump = .waiting ∧ bytes = core.queuedBytes ∧
        core'.received = core.received ++ [frame]) := by
  cases h with
  | accept hpump =>
    obtain ⟨rfl, rfl⟩ := Pump.loaded.inj hloaded
    exact .inr ⟨hpump, rfl, rfl⟩
  | take | count | release | hand | drain | drainCount | finish | abandon => exact .inl hloaded
  | check =>
    split at hloaded <;> cases hloaded
  | acceptFiltered | push | add | record | releaseFiltered | refuseFiltered | stop | cancel =>
    cases hloaded

end Steps

/-- Frames that are numbered from one and among others so numbered are the first of them. -/
theorem prefix_of_numbered {received sent : List (DataFrame Value)}
    (hrecv : received.map DataFrame.seq = List.range' 1 received.length)
    (hsent : sent.map DataFrame.seq = List.range' 1 sent.length)
    (hmem : ∀ frame ∈ received, frame ∈ sent) : received <+: sent := by
  have hseq : ∀ (frames : List (DataFrame Value)),
      frames.map DataFrame.seq = List.range' 1 frames.length →
      ∀ (i : Nat) (hi : i < frames.length), frames[i].seq = i + 1 := by
    intro frames hframes i hi
    have hget := congrArg (fun seqs => seqs[i]?) hframes
    simp only [getElem?_map, getElem?_eq_getElem hi, getElem?_range' hi,
      Option.map_some, Option.some.injEq] at hget
    omega
  apply prefix_iff_getElem?.mpr
  intro i hi
  obtain ⟨j, hj, hframe⟩ := getElem_of_mem (hmem _ (getElem_mem hi))
  -- the frame of a number is at its place
  have hij : j = i := by
    have h1 := hseq sent hsent j hj
    have h2 := hseq received hrecv i hi
    rw [hframe] at h1
    omega
  subst hij
  rw [getElem?_eq_getElem hj, hframe]

/-! ## What is outstanding -/

/-- The length of frames together. -/
def totalLength (frames : List (DataFrame Value)) : Nat := (frames.map DataFrame.len).sum

theorem totalLength_append :
    totalLength (first ++ second) = totalLength first + totalLength second := by
  rw [totalLength, map_append, sum_append_nat]
  rfl

theorem totalLength_concat : totalLength (frames ++ [frame]) = totalLength frames + frame.len :=
  totalLength_append

theorem totalLength_drop_le {frames : List (DataFrame Value)} (h : m ≤ n) :
    totalLength (frames.drop n) ≤ totalLength (frames.drop m) :=
  ((drop_sublist_drop_left frames h).map _).sum_le_sum fun _ _ => zero_le _

theorem queueBytes_le : queueBytes queue ≤ totalLength queue := by
  refine sum_le_sum fun frame _ => ?_
  unfold DataFrame.charge
  split
  · exact le_refl _
  · exact zero_le _

/-- What is queued or taken and not counted yet is among what is not consumed. -/
theorem Contiguous.size_le (h : Contiguous core) : queueBytes core.queue + core.app.unreleased
      ≤ totalLength (core.received.drop core.consumedSeq) := by
  have hqueue : queueBytes core.queue
      ≤ totalLength (core.received.drop (core.consumedSeq + core.app.uncounted)) := by
    rw [← h.queue, totalLength_append]
    exact queueBytes_le.trans (le_add_right _ _)
  cases happ : core.app with
  | releasing frame =>
    obtain ⟨hlt, hframe⟩ := List.getElem?_eq_some_iff.mp (h.releasing frame happ)
    rw [List.drop_eq_getElem_cons hlt, hframe]
    simp only [happ, App.uncounted, App.unreleased, totalLength, map_cons, sum_cons] at hqueue ⊢
    omega
  | _ => exact hqueue.trans (totalLength_drop_le (le_add_right _ _))

/-- Both sides account for the same frames. -/
structure Account (s : Session Value) : Prop where
  inOrder : InOrder s.core
  numbered : s.sent.map DataFrame.seq = List.range' 1 s.sent.length
  lengths : ∀ frame ∈ s.sent, frame.len ≤ windowBytes
  limits : s.window.limits = liveLimits
  ledger : ∃ committed, s.sent = committed ++ s.provider.uncommitted ∧
    Ledger s.window (committed.map DataFrame.len)
  frames : s.sent.length ≤ s.window.highestConsumed + windowFrames
  bytes : totalLength (s.sent.drop s.window.highestConsumed) ≤ windowBytes
  consumed : s.window.highestConsumed ≤ s.core.consumedSeq
  credits : ∀ credit ∈ s.credits, credit.2 ≤ s.core.consumedSeq
  received : s.core.received <+: s.sent
  queue : s.core.pump = .ended ∨ Contiguous s.core
  loaded : ∀ frame bytes, s.core.pump = .loaded frame bytes → bytes + frame.len ≤ windowBytes

theorem Account.initial : Account (Session.initial : Session Value) :=
  ⟨.initial, rfl, nofun, rfl, ⟨[], rfl, .new liveLimits⟩, zero_le _, zero_le _, le_refl _,
    nofun, prefix_refl _, .inr .initial, nofun⟩

section Sessions

/-- Not more is outstanding for the consumer than for the provider. -/
theorem Account.outstanding (h : Account s) {received : List (DataFrame Value)}
    (hrecv : received <+: s.sent) (hn : s.window.highestConsumed ≤ n) :
    received.length ≤ n + windowFrames ∧ totalLength (received.drop n) ≤ windowBytes := by
  constructor
  · exact (hrecv.length_le.trans h.frames).trans (Nat.add_le_add_right hn _)
  · refine le_trans ?_ ((totalLength_drop_le hn).trans h.bytes)
    obtain ⟨rest, hsent⟩ := hrecv
    rw [← hsent, drop_append, totalLength_append]
    exact le_add_right _ _

theorem Account.publish (h : Account s)
    (hready : s.provider = .ready) (hseq : s.window.nextFrameSeq = .ok frame.seq)
    (hslot : s.window.validateFrameSlot frame.len maxDataBodyBytes = .ok ()) :
    Account { s with provider := .handing frame, sent := s.sent ++ [frame] } := by
  obtain ⟨committed, hsent, hled⟩ := h.ledger
  rw [hready] at hsent
  obtain rfl : committed = s.sent := by simpa [Provider.uncommitted] using hsent.symm
  obtain ⟨-, hnext⟩ := SenderWindow.nextFrameSeq_ok.mp hseq
  obtain ⟨hlen, -, hroom, hbytes⟩ := SenderWindow.validateFrameSlot_ok.mp hslot
  rw [h.limits] at hlen hroom hbytes
  have hlength := hled.length_eq
  have hcons := hled.consumed_le.trans hled.received_le
  have hout : s.window.outstandingBytes = totalLength (s.sent.drop s.window.highestConsumed) := by
    rw [hled.outstanding, totalLength, map_drop]
  refine ⟨h.inOrder, ?_, ?_, h.limits, ⟨s.sent, rfl, hled⟩, ?_, ?_, h.consumed, h.credits, ?_,
    h.queue, h.loaded⟩
  · rw [map_append, h.numbered, length_append, length_singleton, List.range'_concat, map_singleton]
    congr 2
    omega
  · exact forall_mem_concat h.lengths hlen
  · rw [hled.frames_length] at hroom
    simp only [liveLimits, length_append, length_singleton] at hroom ⊢
    omega
  · have hle : s.window.outstandingBytes ≤ windowBytes := hout ▸ h.bytes
    simp only [liveLimits] at hbytes ⊢
    rw [drop_append_of_le_length (by omega), totalLength_concat]
    omega
  · exact h.received.trans (prefix_append _ _)

theorem Account.commit (h : Account s) (hhanding : s.provider = .handing frame)
    (hcom : s.window.commitFrame frame.seq frame.len = (.ok (), window)) :
    Account { s with provider := .ready, window } := by
  obtain ⟨committed, hsent, hled⟩ := h.ledger
  have hled' := hled.commit hcom
  obtain ⟨-, -, rfl⟩ := SenderWindow.commitFrame_ok.mp hcom
  refine { h with ledger := ⟨s.sent, ?_, ?_⟩ }
  · exact (append_nil _).symm
  · rw [hsent, hhanding, map_append]
    exact hled'

/-- The consumer takes a step. -/
theorem Account.consume (h : Account s)
    (hstep : CoreStep move s.core core) (hmove : move ≠ .abandon)
    (hsent : ∀ frame ∈ core.received, frame ∈ s.sent) : Account { s with core } := by
  have hinOrder := h.inOrder.step hstep
  have hrecv := prefix_of_numbered hinOrder.numbered h.numbered hsent
  have hcons := hstep.consumed_le
  refine ⟨hinOrder, h.numbered, h.lengths, h.limits, h.ledger, h.frames, h.bytes,
    h.consumed.trans hcons, fun credit hcredit => (h.credits credit hcredit).trans hcons,
    hrecv, ?_, ?_⟩
  · rcases h.queue with hended | hcont
    · exact .inl (hstep.ended hended)
    · refine hcont.step hstep hmove fun frame hframe => ?_
      exact lt_of_le_of_lt (h.lengths frame (hsent frame hframe)) (by decide)
  · intro frame bytes hloaded
    rcases hstep.loaded hloaded with hbefore | ⟨hwait, rfl, hnew⟩
    · exact h.loaded frame bytes hbefore
    rcases h.queue with hended | hcont
    · exact absurd (hended.symm.trans hwait) nofun
    -- the size read is that of the frames not consumed, and those fit with the new one
    have hsize := hcont.size_le
    have hcnt := hcont.counter
    simp only [hwait, Pump.uncounted] at hcnt
    have hwidth := hcont.width
    have hfit := (h.outstanding hrecv h.consumed).2
    have htaken : s.core.consumedSeq ≤ s.core.received.length :=
      (le_add_right _ _).trans hcont.taken
    rw [hnew, drop_append_of_le_length htaken, totalLength_concat] at hfit
    omega

theorem Account.apply (h : Account s) {received consumed : Nat}
    (hsent : (received, consumed) ∈ s.credits) :
    Account { s with window := (s.window.applyCredit received consumed none).2 } := by
  obtain ⟨committed, hcomm, hled⟩ := h.ledger
  cases happly : s.window.applyCredit received consumed none with
  | mk answer window =>
    cases answer with
    | error error =>
      obtain rfl := SenderWindow.applyCredit_error happly
      exact h
    | ok _ =>
      obtain ⟨hled', hlimits, -, -, hcons⟩ := hled.credit happly
      have hvalid : s.window.validateCredit received consumed none = .ok () := by
        unfold SenderWindow.applyCredit at happly
        split at happly
        · cases (Prod.mk.inj happly).1
        · assumption
      obtain ⟨-, -, -, hmore, -⟩ := hled.validateCredit_ok.mp hvalid
      refine { h with
        limits := hlimits.trans h.limits, ledger := ⟨committed, hcomm, hled'⟩
        frames := ?_, bytes := ?_, consumed := ?_ }
      · exact h.frames.trans (Nat.add_le_add_right (hcons ▸ hmore) _)
      · exact (totalLength_drop_le (hcons ▸ hmore)).trans h.bytes
      · exact hcons.le.trans (h.credits _ hsent)

theorem Account.step (h : Account s) (hstep : SessionStep s s') : Account s' := by
  cases hstep with
  | publish hready hseq hslot => exact h.publish hready hseq hslot
  | commit hhanding hcom => exact h.commit hhanding hcom
  | fail => exact { h with }
  | consume hstep hmove hsent => exact h.consume hstep hmove hsent
  | credit received => exact { h with credits := forall_mem_concat h.credits (le_refl _) }
  | apply hsent _ => exact h.apply hsent

end Sessions

/-- **The consumer's queue never overflows.**  In every state of a run of both sides, a frame that
`admit` is about to check is within both bounds, and a filtered one has room for its slot. -/
theorem admit_within_window {s : Session Value}
    (hrun : ReflTransGen SessionStep Session.initial s) :
    (∀ frame bytes, s.core.pump = .loaded frame bytes →
      exceedsWindow s.core.queue.length bytes frame.len = false) ∧
    ∀ frame, s.core.pump = .recorded frame → s.core.queue.length + 1 ≤ windowFrames := by
  have haccount : Account s :=
    Run.keeps (P := Account) (fun _ _ hstep h => h.step hstep) hrun .initial
  -- a frame that is still to be queued is not consumed
  have hroom : ∀ frame, s.core.pump ≠ .ended → s.core.pump.unqueued = [frame] →
      s.core.queue.length + 1 ≤ windowFrames := by
    intro frame hnot hunqueued
    have hcontiguous := haccount.queue.resolve_left hnot
    have hlength := congrArg List.length hcontiguous.queue
    rw [hunqueued, length_append, length_singleton, length_drop] at hlength
    have hframes := (haccount.outstanding haccount.received haccount.consumed).1
    omega
  constructor
  · intro frame bytes hloaded
    have hframes := hroom frame (by rw [hloaded]; nofun) (by rw [hloaded]; rfl)
    have hbytes := haccount.loaded frame bytes hloaded
    apply decide_eq_false
    rintro (hmore | hmore) <;> omega
  · intro frame hrecorded
    exact hroom frame (by rw [hrecorded]; nofun) (by rw [hrecorded]; rfl)

/-- A step of the consumer in a run where it has received all that was sent. -/
theorem reached_consume {s : Session Unit} (h : ReflTransGen SessionStep .initial s)
    (hstep : CoreStep move s.core core) (hsent : core.received = s.sent := by rfl)
    (hmove : move ≠ .abandon := by nofun) : ReflTransGen SessionStep .initial { s with core } :=
  h.tail (.consume hstep hmove fun _ hframe => hsent ▸ hframe)

/-- A value of half the window. -/
def halfFrame (seq : Nat) : DataFrame Unit := ⟨seq, 524288, some ()⟩

/-- Two values fill the queue; when the first is taken and acknowledged, a third one fits. -/
theorem admit_within_window_full : ∃ s : Session Unit, s.core.queue = [halfFrame 2] ∧
    s.core.pump = .loaded (halfFrame 3) 524288 ∧ s.credits = [(2, 1)] ∧
    exceedsWindow s.core.queue.length 524288 (halfFrame 3).len = false := by
  have hsent : ReflTransGen SessionStep (Session.initial : Session Unit) _ :=
    .tail (.single (@SessionStep.publish _ _ (halfFrame 1) 1048576 rfl rfl rfl)) (.commit rfl rfl)
  have hloaded := reached_consume hsent (@CoreStep.accept _ _ (halfFrame 1) rfl rfl rfl)
  have hqueued := reached_consume (reached_consume (reached_consume (reached_consume hloaded
    (.check rfl)) (.push rfl)) (.add rfl)) (.record rfl)
  have hsent₂ := (hqueued.tail (@SessionStep.publish _ _ (halfFrame 2) 1048576 rfl rfl rfl)).tail
    (.commit rfl rfl)
  have hloaded₂ := reached_consume hsent₂ (@CoreStep.accept _ _ (halfFrame 2) rfl rfl rfl)
  have hqueued₂ := reached_consume (reached_consume (reached_consume (reached_consume hloaded₂
    (.check rfl)) (.push rfl)) (.add rfl)) (.record rfl)
  have htaken := reached_consume (reached_consume (reached_consume (reached_consume hqueued₂
    (.take rfl rfl)) (.release rfl)) (.hand rfl)) (.finish rfl (by rintro _ ⟨⟩; rfl))
  have hcredited := (htaken.tail (.credit 2)).tail (.apply mem_cons_self nofun)
  have hsent₃ := hcredited.tail (@SessionStep.publish _ _ (halfFrame 3) 1048576 rfl rfl rfl)
  have hloaded₃ := reached_consume hsent₃ (@CoreStep.accept _ _ (halfFrame 3) rfl rfl rfl)
  exact ⟨_, rfl, rfl, rfl, (admit_within_window hloaded₃).1 (halfFrame 3) 524288 rfl⟩

end Live.Subscription
