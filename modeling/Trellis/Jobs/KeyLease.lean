/-
# Leases of a key's slots

An acquisition takes a slot from another attempt when its lease has run out, and it tells by
comparing the lease's text with the text of its own time.  Both come from the formatter, which
writes as many fractional digits as there are; the comparison goes wrong just where one text
ends within the other.

One expired slot is displaced, however many there are: a record that has more slots than a
lowered limit keeps as many.
-/
import Trellis.Jobs.Keys
import Trellis.Protocol.Timestamps

namespace Jobs

open Timestamp
open Protocol (whole half later whole_lt_half whole_lt_later)

variable {Value : Type}

/-- **Expiry of leases.**  The comparison of texts tells whether the lease has run out just when
neither text ends within the other; and what is taken away has run out by that comparison. -/
theorem lease_expiry_exact_iff {state : JobKeyState Value} {policy : JobKeyPolicy}
    {input : AcquireSlotInput Value} {slot : JobKeyActiveSlot Value} {lease now : Instant}
    (hslot : slot ∈ state.active) (hlease : slot.leaseExpiresAt = rfc3339 lease)
    (hnow : input.startedAt = rfc3339 now) :
    ((slot.isExpired input.startedAt = true ↔ lease.nanoseconds ≤ now.nanoseconds) ↔
      ¬ EndsWithin lease now ∧ ¬ EndsWithin now lease) ∧
    ∀ state' held staleSlots,
      acquireActiveSlot state policy input = .acquired state' held staleSlots →
      slot ∉ state'.active → slot.isExpired input.startedAt = true := by
  constructor
  · rw [← rfc3339_le_iff, JobKeyActiveSlot.isExpired, decide_eq_true_iff, hlease, hnow]
  · intro state' held staleSlots hacquired hgone
    obtain ⟨-, ⟨-, hsame⟩ | ⟨kept, hactive, hspared, -⟩⟩ := acquireActiveSlot_acquired hacquired
    · rw [hsame] at hgone
      exact absurd hslot hgone
    · by_contra hlive
      rw [Bool.not_eq_true] at hlive
      rw [hactive] at hgone
      exact hgone (List.mem_append_left _ (hspared.unexpired slot hslot hlive))

/-! ## Half a second -/

namespace HalfSecond

def policy : JobKeyPolicy where
  service := "svc"
  jobType := "render"
  key := "page"
  keyHash := "hash"
  maxActive := 1
  maxQueuedPerKey := 0
  whenFull := .reject
  stalePolicy := .failStale

/-- The slot of job `a`, until an instant. -/
def slot (lease : Instant) : JobKeyActiveSlot Unit where
  jobId := "a"
  slotToken := "t1"
  instanceId := "rust-worker"
  startedAt := "2026-10-01T00:00:00Z"
  heartbeatAt := "2026-10-01T00:00:00Z"
  leaseExpiresAt := rfc3339 lease
  tries := 1
  context := none

def record (lease : Instant) : JobKeyState Unit :=
  { newKeyState policy "2026-10-01T00:00:00Z" with active := [slot lease] }

/-- An acquisition for job `b`. -/
def input (now : Instant) : AcquireSlotInput Unit where
  jobId := "b"
  slotToken := "t2"
  instanceId := "rust-worker"
  startedAt := rfc3339 now
  leaseExpiresAt := "2026-10-01T00:00:35Z"
  tries := 1
  context := ()

end HalfSecond

open HalfSecond in
/-- At five seconds a lease until five and a half is displaced, one until five not half a second
later. -/
theorem half_second_misjudged : (whole.nanoseconds < half.nanoseconds ∧
      ∃ state, acquireActiveSlot (record half) HalfSecond.policy (input whole) =
        .acquired state (input whole).slot [slot half]) ∧
    (whole.nanoseconds ≤ half.nanoseconds ∧
      acquireActiveSlot (record whole) HalfSecond.policy (input half) =
        .blocked (record whole) .activeLimit) :=
  ⟨⟨whole_lt_half, _, rfl⟩, whole_lt_half.le, rfl⟩

open HalfSecond in
/-- A lease until five seconds has run out a second later. -/
theorem lease_expiry_exact_iff_seconds :
    rfc3339 whole = "2026-10-01T00:00:05Z" ∧ rfc3339 later = "2026-10-01T00:00:06Z" ∧
      (slot whole).isExpired (rfc3339 later) = true := by
  refine ⟨by decide, by decide, ?_⟩
  have h := @lease_expiry_exact_iff _ (record whole) HalfSecond.policy (input later) (slot whole)
    whole later List.mem_cons_self rfl rfl
  refine (h.1.mpr ⟨fun h => whole_lt_later.ne h.1, fun h => whole_lt_later.ne' h.1⟩).mpr ?_
  exact ((Instant.nanoseconds_lt_iff _ _).mpr (.inl whole_lt_later)).le

/-! ## A limit that was lowered -/

/-- **The limit of a key.**  A granted slot ends within it just when the others were within it. -/
theorem acquired_within_limit_iff {state state' : JobKeyState Value} {policy : JobKeyPolicy}
    {input : AcquireSlotInput Value} {slot : JobKeyActiveSlot Value}
    {staleSlots : List (JobKeyActiveSlot Value)}
    (h : acquireActiveSlot state policy input = .acquired state' slot staleSlots)
    (hnew : slot ∉ state.active) : state'.active.length ≤ policy.maxActive ↔
      (state.active.eraseP fun slot => slot.jobId = input.jobId).length ≤ policy.maxActive := by
  obtain ⟨-, ⟨hold, -⟩ | ⟨kept, hact, -, hroom, -⟩⟩ := acquireActiveSlot_acquired h
  · exact absurd hold hnew
  · rw [hact, List.length_append, List.length_singleton, hroom _ rfl]
    omega

open HalfSecond in
theorem acquired_within_limit_expired : ∃ state staleSlots,
    acquireActiveSlot (record whole) HalfSecond.policy (input whole) =
      .acquired state (input whole).slot staleSlots ∧
    state.active.length ≤ HalfSecond.policy.maxActive := by
  have h : acquireActiveSlot (record whole) HalfSecond.policy (input whole) =
    .acquired _ (input whole).slot _ := rfl
  exact ⟨_, _, h, (acquired_within_limit_iff h (by decide)).mpr (by decide)⟩

open HalfSecond in
/-- Two slots of a record that was built under a larger limit have expired. -/
theorem lowered_limit_exceeded : ∃ state staleSlots, acquireActiveSlot
        { record whole with active := [slot whole, { slot whole with jobId := "c" }] }
        HalfSecond.policy (input whole) = .acquired state (input whole).slot staleSlots ∧
      (input whole).slot ∉ [slot whole, { slot whole with jobId := "c" }] ∧
      state.active.length = 2 ∧ HalfSecond.policy.maxActive = 1 :=
  ⟨_, _, rfl, by decide, rfl, rfl⟩

end Jobs
