/-
# The consumer of a Live session

The pump takes DATA frames in sequence, and queues the value or, for a frame that is filtered out,
an empty slot; the application takes slots from the front.  `queued_bytes` is the size of the
queued values, `received_seq` and `consumed_seq` count what each side has dealt with.

The queue is behind a lock, the counters are atomics beside it.  A value is queued before it is
counted and recorded, so the application may consume a frame that is not received yet
(`consumed_before_recorded`).  As long as nobody touches the queue in these gaps the counters are
right (`cursors_ordered_of_exclusive`).
-/
import Trellis.Lib.Run

namespace Live.Subscription

open List Checked Nat

variable {Value : Type}

/-! ## The core -/

/-- `WINDOW_FRAMES` and `WINDOW_BYTES` -/
def windowFrames : Nat := 64
def windowBytes : Nat := 1048576

/-- A DATA frame: number, length, and its value, which a filtered frame has not. -/
structure DataFrame (Value : Type) where
  (seq len : Nat)
  value : Option Value
  deriving DecidableEq

/-- What a slot adds to `queued_bytes`. -/
def DataFrame.charge (frame : DataFrame Value) : Nat :=
  if frame.value.isSome then frame.len else 0

/-- The pump: waiting; in `admit`, with the size it read, then past the check, the push and the
count; past the record of a filtered frame whose slot is to come; or ended. -/
inductive Pump (Value : Type) where
  | waiting
  | loaded (frame : DataFrame Value) (bytes : Nat)
  | checked (frame : DataFrame Value)
  | pushed (frame : DataFrame Value)
  | added (frame : DataFrame Value)
  | recorded (frame : DataFrame Value)
  | ended

/-- The application: not in `consume`; with an empty slot to count; with a value whose size is to be
taken off, that is to be counted, that is about to be returned, or with an empty slot behind it. -/
inductive App (Value : Type) where
  | idle
  | counting
  | releasing (frame : DataFrame Value)
  | handing (frame : DataFrame Value)
  | draining (frame : DataFrame Value)
  | drainCounting (frame : DataFrame Value)

/-- `ConsumerCore`, and the expected number, which the pump keeps.  `received` and `handed` record
the frames taken in sequence and the values returned. -/
structure Core (Value : Type) where
  queue : List (DataFrame Value)
  (queuedBytes receivedSeq consumedSeq nextExpected : Nat)
  pump : Pump Value
  app : App Value
  (received handed : List (DataFrame Value))

def Core.initial : Core Value where
  queue := []
  queuedBytes := 0
  receivedSeq := 0
  consumedSeq := 0
  nextExpected := 1
  pump := .waiting
  app := .idle
  received := []
  handed := []

/-- The check of `admit`. -/
def exceedsWindow (count bytes len : Nat) : Bool :=
  count + 1 > windowFrames ∨ bytes + len > windowBytes

/-! ## Steps -/

/-- The pump works or gives up the queue; the application takes a slot, drops the queue or goes on.
-/
inductive Move where
  | pump
  | cancel
  | take
  | abandon
  | app
  deriving DecidableEq

/-- One atomic step.  A frame received before changes nothing.  Emptying the queue and its counter
is one step under the lock. -/
inductive CoreStep : Move → Core Value → Core Value → Prop
  /-- A value in sequence; `admit` begins by reading the counter. -/
  | accept {core frame} (hpump : core.pump = .waiting) (hseq : frame.seq = core.nextExpected)
      (hvalue : frame.value.isSome = true) :
      CoreStep .pump core { core with
        nextExpected := frame.seq + 1
        pump := .loaded frame core.queuedBytes
        received := core.received ++ [frame] }
  /-- A filtered frame in sequence is recorded at once. -/
  | acceptFiltered {core frame} (hpump : core.pump = .waiting)
      (hseq : frame.seq = core.nextExpected) (hvalue : frame.value.isSome = false) :
      CoreStep .pump core { core with
        nextExpected := frame.seq + 1
        receivedSeq := core.receivedSeq + 1
        pump := .recorded frame
        received := core.received ++ [frame] }
  | check {core frame bytes} (hpump : core.pump = .loaded frame bytes) :
      CoreStep .pump core { core with
        pump := if exceedsWindow core.queue.length bytes frame.len then .ended
          else .checked frame }
  | push {core frame} (hpump : core.pump = .checked frame) :
      CoreStep .pump core { core with
        queue := core.queue ++ [frame]
        pump := .pushed frame }
  | add {core frame} (hpump : core.pump = .pushed frame) :
      CoreStep .pump core { core with
        queuedBytes := (core.queuedBytes + frame.len) % 2 ^ 64
        pump := .added frame }
  | record {core frame} (hpump : core.pump = .added frame) :
      CoreStep .pump core { core with
        receivedSeq := core.receivedSeq + 1
        pump := .waiting }
  /-- `release_filtered` -/
  | releaseFiltered {core frame} (hpump : core.pump = .recorded frame)
      (hroom : ¬ core.queue.length + 1 > windowFrames) :
      CoreStep .pump core { core with
        queue := core.queue ++ [frame]
        pump := .waiting }
  | refuseFiltered {core frame} (hpump : core.pump = .recorded frame)
      (hfull : core.queue.length + 1 > windowFrames) :
      CoreStep .pump core { core with pump := .ended }
  /-- A gap, a frame that cannot be decoded, the end of the stream or of the session. -/
  | stop {core} (hpump : core.pump = .waiting) : CoreStep .pump core { core with pump := .ended }
  | cancel {core} (hpump : core.pump = .waiting) :
      CoreStep .cancel core { core with
        queue := []
        queuedBytes := 0
        pump := .ended }
  | take {core frame rest} (happ : core.app = .idle) (hqueue : core.queue = frame :: rest) :
      CoreStep .take core { core with
        queue := rest
        app := if frame.value.isSome then .releasing frame else .counting }
  | count {core} (happ : core.app = .counting) :
      CoreStep .app core { core with
        consumedSeq := core.consumedSeq + 1
        app := .idle }
  | release {core frame} (happ : core.app = .releasing frame) :
      CoreStep .app core { core with
        queuedBytes := (core.queuedBytes + 2 ^ 64 - frame.len) % 2 ^ 64
        app := .handing frame }
  | hand {core frame} (happ : core.app = .handing frame) :
      CoreStep .app core { core with
        consumedSeq := core.consumedSeq + 1
        app := .draining frame }
  /-- An empty slot behind the value is passed over. -/
  | drain {core frame slot rest} (happ : core.app = .draining frame)
      (hqueue : core.queue = slot :: rest) (hslot : slot.value.isSome = false) :
      CoreStep .app core { core with
        queue := rest
        app := .drainCounting frame }
  | drainCount {core frame} (happ : core.app = .drainCounting frame) :
      CoreStep .app core { core with
        consumedSeq := core.consumedSeq + 1
        app := .draining frame }
  | finish {core frame} (happ : core.app = .draining frame)
      (hfront : ∀ slot ∈ core.queue.head?, slot.value.isSome = true) :
      CoreStep .app core { core with
        handed := core.handed ++ [frame]
        app := .idle }
  | abandon {core} (happ : core.app = .idle) :
      CoreStep .abandon core { core with
        queue := []
        queuedBytes := 0 }

/-! ## What is between two updates -/

/-- The frame that is received but not queued yet. -/
def Pump.unqueued : Pump Value → List (DataFrame Value)
  | .loaded frame _ => [frame]
  | .checked frame => [frame]
  | .recorded frame => [frame]
  | _ => []

/-- What is queued but not counted yet. -/
def Pump.uncounted : Pump Value → Nat
  | .pushed frame => frame.len
  | _ => 0

/-- Whether a value is queued but not recorded yet. -/
def Pump.unrecorded : Pump Value → Bool
  | .pushed _ => true
  | .added _ => true
  | _ => false

/-- Whether a filtered frame is recorded but not queued yet. -/
def Pump.owed : Pump Value → Nat
  | .recorded _ => 1
  | _ => 0

/-- The value the application is about to return. -/
def App.inHand : App Value → List (DataFrame Value)
  | .releasing frame => [frame]
  | .handing frame => [frame]
  | .draining frame => [frame]
  | .drainCounting frame => [frame]
  | _ => []

/-- What is taken from the queue but not from its counter yet. -/
def App.unreleased : App Value → Nat
  | .releasing frame => frame.len
  | _ => 0

/-- The slots taken but not counted as consumed yet. -/
def App.uncounted : App Value → Nat
  | .counting => 1
  | .releasing _ => 1
  | .handing _ => 1
  | .drainCounting _ => 1
  | _ => 0

/-- The size of the queued values. -/
def queueBytes (queue : List (DataFrame Value)) : Nat := (queue.map DataFrame.charge).sum

/-! ## Values in order -/

/-- What was received, in order, and where it is. -/
structure InOrder (core : Core Value) : Prop where
  next : core.nextExpected = core.received.length + 1
  numbered : core.received.map DataFrame.seq = List.range' 1 core.received.length
  places : (core.handed ++ core.app.inHand ++ core.queue ++ core.pump.unqueued).Sublist
    core.received

theorem InOrder.initial : InOrder (Core.initial : Core Value) :=
  ⟨rfl, rfl, List.Sublist.refl _⟩

theorem InOrder.handed (h : InOrder core) : core.handed.Sublist core.received := by
  refine List.Sublist.trans ?_ h.places
  rw [append_assoc, append_assoc]
  exact sublist_append_left _ _

variable {frame : DataFrame Value} {pump : Pump Value}

/-- A frame in sequence is received. -/
theorem InOrder.receive (h : InOrder core) (hseq : frame.seq = core.nextExpected) :
    frame.seq + 1 = (core.received ++ [frame]).length + 1 ∧
      (core.received ++ [frame]).map DataFrame.seq
        = List.range' 1 (core.received ++ [frame]).length := by
  have hnext : frame.seq = core.received.length + 1 := hseq.trans h.next
  constructor
  · rw [length_append, length_singleton, hnext]
  · rw [map_append, h.numbered, length_append, length_singleton, List.range'_concat, map_singleton]
    congr 2
    omega

/-- A step that moves or drops what was received. -/
theorem InOrder.move (h : InOrder core)
    (hnext : core'.nextExpected = core.nextExpected) (hrecv : core'.received = core.received)
    (hplaces : (core'.handed ++ core'.app.inHand ++ core'.queue ++ core'.pump.unqueued).Sublist
      (core.handed ++ core.app.inHand ++ core.queue ++ core.pump.unqueued)) : InOrder core' := by
  refine ⟨?_, ?_, ?_⟩
  · rw [hnext, hrecv]
    exact h.next
  · rw [hrecv]
    exact h.numbered
  · rw [hrecv]
    exact hplaces.trans h.places

variable {move : Move}

theorem InOrder.step (h : InOrder core) (hstep : CoreStep move core core') : InOrder core' := by
  cases hstep with
  | @accept _ frame hpump hseq _ | @acceptFiltered _ frame hpump hseq _ =>
    obtain ⟨hnext, hnum⟩ := h.receive hseq
    refine ⟨hnext, hnum, ?_⟩
    have hplaces := h.places
    rw [hpump] at hplaces
    simpa [Pump.unqueued] using hplaces.append_right [frame]
  | check hpump =>
    refine h.move rfl rfl ?_
    rw [hpump]
    split
    · exact List.Sublist.append_left (nil_sublist _) _
    · exact List.Sublist.refl _
  | push hpump | add hpump | record hpump | releaseFiltered hpump | refuseFiltered hpump
  | stop hpump | cancel hpump => exact h.move rfl rfl (by simp [hpump, Pump.unqueued])
  | @take _ frame rest happ hqueue =>
    refine h.move rfl rfl ?_
    rw [hqueue]
    split <;> simp [App.inHand]
  | count happ | release happ | hand happ | drainCount happ | finish happ =>
    exact h.move rfl rfl (by simp [happ, App.inHand])
  | drain happ hqueue => exact h.move rfl rfl (by simp [happ, hqueue, App.inHand])
  | abandon => exact h.move rfl rfl (by simp)

/-! ## Counters -/

/-- Nobody touches the queue in a gap of the other side: no slot is taken while a value is queued
and not recorded, and the queue is not emptied while the other side has to count. -/
def Exclusive (core : Core Value) : Move → Prop
  | .take => core.pump.unrecorded = false
  | .abandon => core.pump.uncounted = 0
  | .cancel => core.app.unreleased = 0
  | _ => True

/-- Both counters have caught up with the queue. -/
def Core.Settled (core : Core Value) : Prop :=
  core.pump.uncounted = 0 ∧ core.app.unreleased = 0

/-- The size that `admit` goes by bounds what it will count. -/
def Pump.Bounds (queuedBytes : Nat) : Pump Value → Prop
  | .loaded _ bytes => queuedBytes ≤ bytes
  | .checked frame => queuedBytes + frame.len ≤ windowBytes
  | .pushed frame => queuedBytes + frame.len ≤ windowBytes
  | _ => True

/-- `admit` is for values, and `release_filtered` for what has none. -/
def Pump.Fits : Pump Value → Prop
  | .loaded frame _ => frame.value.isSome = true
  | .checked frame => frame.value.isSome = true
  | .pushed frame => frame.value.isSome = true
  | .added frame => frame.value.isSome = true
  | .recorded frame => frame.value.isSome = false
  | _ => True

theorem Pump.Bounds.mono (h : pump.Bounds n) (hle : m ≤ n) : pump.Bounds m := by
  cases pump with
  | loaded frame bytes => exact hle.trans h
  | checked frame | pushed frame => exact (Nat.add_le_add_right hle _).trans h
  | _ => trivial

theorem Pump.uncounted_of_recorded (h : pump.unrecorded = false) : pump.uncounted = 0 := by
  cases pump with
  | pushed frame => cases h
  | _ => rfl

/-- `queued_bytes` is the size of the queue, but for what is still to be counted. -/
structure Sized (core : Core Value) : Prop where
  bytes : queueBytes core.queue + core.app.unreleased = core.queuedBytes + core.pump.uncounted
  covered : core.pump.uncounted ≤ queueBytes core.queue
  bounds : core.pump.Bounds core.queuedBytes
  small : core.queuedBytes ≤ windowBytes
  fits : core.pump.Fits

/-- The cursors, with what is still to be counted on either side. -/
structure Ordered (core : Core Value) : Prop where
  fits : core.pump.Fits
  last : core.pump.unrecorded = true → ∀ slot ∈ core.queue.getLast?, slot.value.isSome = true
  slots : core.queue.length + core.consumedSeq + core.app.uncounted + core.pump.owed
    ≤ core.receivedSeq + core.pump.unrecorded.toNat
  ordered : core.consumedSeq + core.app.uncounted ≤ core.receivedSeq

theorem queueBytes_append (queue : List (DataFrame Value)) (frame : DataFrame Value) :
    queueBytes (queue ++ [frame]) = queueBytes queue + frame.charge := by
  rw [queueBytes, map_append, List.sum_append_nat]
  rfl

theorem queueBytes_cons (frame : DataFrame Value) (queue : List (DataFrame Value)) :
    queueBytes (frame :: queue) = frame.charge + queueBytes queue := rfl

theorem charge_of_value (h : frame.value.isSome = true) : frame.charge = frame.len := if_pos h

theorem charge_of_filtered (h : frame.value.isSome = false) :
    frame.charge = 0 := if_neg (by simp [h])

theorem Sized.step (h : Sized core)
    (hexcl : Exclusive core move) (hstep : CoreStep move core core') : Sized core' := by
  obtain ⟨hbytes, hcov, hbounds, hsmall, hfits⟩ := h
  cases hstep with
  | accept hpump _ hvalue =>
    rw [hpump] at hbytes
    exact ⟨hbytes, zero_le _, le_refl _, hsmall, hvalue⟩
  | acceptFiltered hpump _ hvalue =>
    rw [hpump] at hbytes
    exact ⟨hbytes, zero_le _, trivial, hsmall, hvalue⟩
  | @check _ frame bytes hpump =>
    rw [hpump] at hbytes hbounds hfits
    by_cases hexc : exceedsWindow core.queue.length bytes frame.len = true
    · rw [if_pos hexc]
      exact ⟨hbytes, zero_le _, trivial, hsmall, trivial⟩
    rw [if_neg hexc]
    refine ⟨hbytes, zero_le _, ?_, hsmall, hfits⟩
    have hroom : ¬ bytes + frame.len > windowBytes :=
      fun hmore => hexc (decide_eq_true (.inr hmore))
    simp only [Pump.Bounds] at hbounds ⊢
    omega
  | @push _ frame hpump =>
    rw [hpump] at hbytes hbounds hfits
    have hcharge : frame.charge = frame.len := charge_of_value hfits
    refine ⟨?_, ?_, hbounds, hsmall, hfits⟩
    · simp only [queueBytes_append, Pump.uncounted] at hbytes ⊢
      omega
    · simp only [queueBytes_append, Pump.uncounted]
      omega
  | @add _ frame hpump =>
    rw [hpump] at hbytes hbounds hfits
    have hlt : core.queuedBytes + frame.len < 2 ^ 64 := lt_of_le_of_lt hbounds (by decide)
    refine ⟨?_, zero_le _, trivial, ?_, hfits⟩
    · rw [mod_eq_of_lt hlt]
      exact hbytes
    · rw [mod_eq_of_lt hlt]
      exact hbounds
  | record hpump | refuseFiltered hpump _ | stop hpump =>
    rw [hpump] at hbytes
    exact ⟨hbytes, zero_le _, trivial, hsmall, trivial⟩
  | @releaseFiltered _ frame hpump _ =>
    rw [hpump] at hbytes hfits
    refine ⟨?_, zero_le _, trivial, hsmall, trivial⟩
    rw [queueBytes_append, charge_of_filtered hfits]
    exact hbytes
  | cancel =>
    refine ⟨?_, zero_le _, trivial, zero_le _, trivial⟩
    show 0 + core.app.unreleased = 0 + 0
    rw [show core.app.unreleased = 0 from hexcl]
  | @take _ frame rest happ hqueue =>
    have hnone := Pump.uncounted_of_recorded hexcl
    rw [happ, hqueue, queueBytes_cons] at hbytes
    refine ⟨?_, ?_, hbounds, hsmall, hfits⟩
    · split
      next hvalue =>
        rw [charge_of_value hvalue, add_comm frame.len] at hbytes
        exact hbytes
      next hvalue =>
        rw [charge_of_filtered (by simpa using hvalue), zero_add] at hbytes
        exact hbytes
    · rw [hnone]
      exact zero_le _
  | count happ | hand happ | drainCount happ | finish happ =>
    rw [happ] at hbytes
    exact ⟨hbytes, hcov, hbounds, hsmall, hfits⟩
  | @release _ frame happ =>
    rw [happ] at hbytes
    have hsum : queueBytes core.queue + frame.len = core.queuedBytes + core.pump.uncounted := hbytes
    -- what was counted covers the value, as it is counted before it can be taken
    have hrest :
        (core.queuedBytes + 2 ^ 64 - frame.len) % 2 ^ 64 = core.queuedBytes - frame.len := by
      have hshift :
          core.queuedBytes + 2 ^ 64 - frame.len = core.queuedBytes - frame.len + 2 ^ 64 := by
        omega
      have hlt := lt_of_le_of_lt hsmall (show windowBytes < 2 ^ 64 by decide)
      rw [hshift, add_mod_right, mod_eq_of_lt (by omega)]
    refine ⟨?_, hcov, ?_, ?_, hfits⟩
    · show queueBytes core.queue + 0
        = (core.queuedBytes + 2 ^ 64 - frame.len) % 2 ^ 64 + core.pump.uncounted
      omega
    · show core.pump.Bounds ((core.queuedBytes + 2 ^ 64 - frame.len) % 2 ^ 64)
      exact hbounds.mono (by omega)
    · show (core.queuedBytes + 2 ^ 64 - frame.len) % 2 ^ 64 ≤ windowBytes
      omega
  | @drain _ _ slot rest happ hqueue hslot =>
    rw [happ, hqueue, queueBytes_cons, charge_of_filtered hslot, zero_add] at hbytes
    rw [hqueue, queueBytes_cons, charge_of_filtered hslot, zero_add] at hcov
    exact ⟨hbytes, hcov, hbounds, hsmall, hfits⟩
  | abandon happ =>
    have hnone : core.pump.uncounted = 0 := hexcl
    refine ⟨?_, ?_, hbounds.mono (zero_le _), zero_le _, hfits⟩
    · rw [happ, hnone]
      rfl
    · show core.pump.uncounted ≤ 0
      rw [hnone]

theorem Ordered.step (h : Ordered core)
    (hexcl : Exclusive core move) (hstep : CoreStep move core core') : Ordered core' := by
  obtain ⟨hfits, hlast, hslots, hord⟩ := h
  cases hstep with
  | accept hpump _ hvalue =>
    rw [hpump] at hslots
    exact ⟨hvalue, nofun, hslots, hord⟩
  | acceptFiltered hpump _ hvalue =>
    rw [hpump] at hslots
    exact ⟨hvalue, nofun, succ_le_succ hslots, le_succ_of_le hord⟩
  | @check _ frame bytes hpump =>
    rw [hpump] at hfits hslots
    by_cases hexc : exceedsWindow core.queue.length bytes frame.len = true
    · rw [if_pos hexc]
      exact ⟨trivial, nofun, hslots, hord⟩
    · rw [if_neg hexc]
      exact ⟨hfits, nofun, hslots, hord⟩
  | @push _ frame hpump =>
    rw [hpump] at hfits hslots
    refine ⟨hfits, ?_, ?_, hord⟩
    · intro _ slot hslot
      obtain rfl : frame = slot := by simpa using hslot
      exact hfits
    · simp only [Pump.owed, Pump.unrecorded, Bool.toNat_false, Bool.toNat_true, length_append,
        length_singleton] at hslots ⊢
      omega
  | add hpump =>
    rw [hpump] at hfits hlast hslots
    exact ⟨hfits, hlast, hslots, hord⟩
  | record hpump =>
    rw [hpump] at hslots
    exact ⟨trivial, nofun, hslots, le_succ_of_le hord⟩
  | @releaseFiltered _ frame hpump _ =>
    rw [hpump] at hslots
    refine ⟨trivial, nofun, ?_, hord⟩
    simp only [Pump.owed, Pump.unrecorded, length_append, length_singleton] at hslots ⊢
    omega
  | refuseFiltered hpump _ =>
    rw [hpump] at hslots
    exact ⟨trivial, nofun, (le_succ _).trans hslots, hord⟩
  | stop hpump =>
    rw [hpump] at hslots
    exact ⟨trivial, nofun, hslots, hord⟩
  | cancel =>
    refine ⟨trivial, nofun, ?_, hord⟩
    show 0 + core.consumedSeq + core.app.uncounted + 0 ≤ core.receivedSeq + 0
    omega
  | @take _ frame rest happ hqueue =>
    have hrec : core.pump.unrecorded = false := hexcl
    have hcount : App.uncounted (if frame.value.isSome = true then .releasing frame
        else .counting) = 1 := by
      split <;> rfl
    simp only [hqueue, hrec, length_cons, Bool.toNat_false] at hslots
    refine ⟨hfits, ?_, ?_, ?_⟩
    · simp [hrec]
    · simp only [hrec, Bool.toNat_false]
      omega
    · simp only [hcount]
      omega
  | count happ | release happ | hand happ | drainCount happ | finish happ =>
    rw [happ] at hslots hord
    exact ⟨hfits, hlast, hslots, hord⟩
  | @drain _ _ slot rest happ hqueue hslot =>
    rw [hqueue] at hlast
    simp only [hqueue, length_cons] at hslots
    -- behind an empty slot there is at least the value that is not recorded
    have hrest : core.pump.unrecorded = true → rest ≠ [] := by
      rintro hunrec rfl
      have hvalue := hlast hunrec slot rfl
      rw [hslot] at hvalue
      cases hvalue
    refine ⟨hfits, ?_, ?_, ?_⟩
    · intro hunrec other hother
      apply hlast hunrec other
      rw [getLast?_cons, Option.mem_def.mp hother]
      rfl
    · simp only [App.uncounted]
      omega
    · show core.consumedSeq + 1 ≤ core.receivedSeq
      cases hunrec : core.pump.unrecorded with
      | false =>
        simp only [hunrec, Bool.toNat_false] at hslots
        omega
      | true =>
        have hpos := length_pos_iff.mpr (hrest hunrec)
        simp only [hunrec, Bool.toNat_true] at hslots
        omega
  | abandon happ =>
    refine ⟨hfits, nofun, ?_, hord⟩
    simp only [length_nil]
    omega

/-- Runs in which every step meets a condition on the state it starts from. -/
def Reached (allowed : Core Value → Move → Prop) (core : Core Value) : Prop :=
  ReflTransGen (fun core core' => ∃ move, allowed core move ∧ CoreStep move core core')
    Core.initial core

/-- The values handed out are received frames in order, none twice; `queued_bytes` is the size of
the queue but for the frame one side has just queued or taken and is about to count; and no cursor
tells more consumed than received. -/
structure Orderly (core : Core Value) : Prop where
  handed : core.handed.Sublist core.received
  numbered : core.received.map DataFrame.seq = List.range' 1 core.received.length
  accounted : queueBytes core.queue + core.app.unreleased =
    core.queuedBytes + core.pump.uncounted
  sized : core.Settled → core.queuedBytes = queueBytes core.queue
  ordered : core.consumedSeq ≤ core.receivedSeq

/-- **Cursors are ordered as long as nobody touches the queue in a gap.** -/
theorem cursors_ordered_of_exclusive {core : Core Value} (hrun : Reached Exclusive core) :
    Orderly core := by
  have hall : InOrder core ∧ Sized core ∧ Ordered core := by
    refine Run.keeps (P := fun core => InOrder core ∧ Sized core ∧ Ordered core) ?_ hrun ?_
    · rintro _ _ ⟨move, hexclusive, hstep⟩ ⟨hinOrder, hsized, hordered⟩
      exact ⟨hinOrder.step hstep, hsized.step hexclusive hstep, hordered.step hexclusive hstep⟩
    · exact ⟨.initial, ⟨rfl, le_refl _, trivial, zero_le _, trivial⟩,
        ⟨trivial, nofun, le_refl _, le_refl _⟩⟩
  obtain ⟨hinOrder, hsized, hordered⟩ := hall
  refine ⟨hinOrder.handed, hinOrder.numbered, hsized.bytes, ?_, ?_⟩
  · rintro ⟨hpump, happ⟩
    have hbytes := hsized.bytes
    omega
  · exact (le_add_right _ _).trans hordered.ordered

theorem Reached.step
    (h : Reached allowed core) (hstep : CoreStep move core core') (hall : allowed core move) :
    Reached allowed core' :=
  h.tail ⟨move, hall, hstep⟩

/-- **Values are handed out in order, whoever takes them while the pump is at work.** -/
theorem handed_in_order {core : Core Value} (hrun : Reached allowed core) :
    core.handed.Sublist core.received ∧
      core.received.map DataFrame.seq = List.range' 1 core.received.length := by
  have hinOrder : InOrder core := by
    refine Run.keeps ?_ hrun .initial
    rintro _ _ ⟨move, -, hstep⟩ h
    exact h.step hstep
  exact ⟨hinOrder.handed, hinOrder.numbered⟩

/-- The first value. -/
def firstFrame : DataFrame Unit := ⟨1, 100, some ()⟩

/-- A value is received, taken and returned, with nobody in between. -/
theorem cursors_ordered_of_exclusive_first :
    ∃ core : Core Unit, core.handed = [firstFrame] ∧ Orderly core := by
  have hinitial : Reached Exclusive (Core.initial : Core Unit) := .refl
  have hloaded := hinitial.step (@CoreStep.accept _ _ firstFrame rfl rfl rfl) trivial
  have hrecorded := (((hloaded.step (.check rfl) trivial).step (.push rfl) trivial).step (.add rfl)
    trivial).step (.record rfl) trivial
  have htaken := hrecorded.step (.take rfl rfl) rfl
  have hreturned := ((htaken.step (.release rfl) trivial).step (.hand rfl) trivial).step
    (.finish rfl nofun) trivial
  exact ⟨_, rfl, cursors_ordered_of_exclusive hreturned⟩

/-- The application takes a value that is queued and not recorded: one consumed, none received. -/
theorem consumed_before_recorded :
    ∃ core : Core Unit, Reached (fun _ _ => True) core ∧ ¬ Orderly core := by
  have hinitial : Reached (fun _ _ => True) (Core.initial : Core Unit) := .refl
  have hloaded := hinitial.step (@CoreStep.accept _ _ firstFrame rfl rfl rfl) trivial
  have hpushed := (hloaded.step (.check rfl) trivial).step (.push rfl) trivial
  have htaken := hpushed.step (.take rfl rfl) trivial
  have hconsumed := (htaken.step (.release rfl) trivial).step (.hand rfl) trivial
  refine ⟨_, hconsumed, fun horderly => ?_⟩
  exact absurd horderly.ordered (by decide)

/-- A value is taken and returned before it is recorded. -/
theorem handed_in_order_early : ∃ core : Core Unit, core.handed = [firstFrame] ∧
    core.receivedSeq = 0 ∧ core.handed.Sublist core.received := by
  have hinitial : Reached (fun _ _ => True) (Core.initial : Core Unit) := .refl
  have hpushed := ((hinitial.step (@CoreStep.accept _ _ firstFrame rfl rfl rfl) trivial).step
    (.check rfl) trivial).step (.push rfl) trivial
  have hreturned := (((hpushed.step (.take rfl rfl) trivial).step (.release rfl) trivial).step
    (.hand rfl) trivial).step (.finish rfl nofun) trivial
  exact ⟨_, rfl, rfl, (handed_in_order hreturned).1⟩

end Live.Subscription
