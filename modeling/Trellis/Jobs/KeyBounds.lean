/-
# The bounds of a key's record

Every change but one keeps the record within its policy's bounds, and no job in it twice.  The
exception is the one that puts a replaced job back when its replacement could not be announced:
by then the job may be running, or its place taken by others, and the change does not look.
-/
import Mathlib.Data.List.Perm.Basic
import Trellis.Jobs.Keys

namespace Jobs

open List Checked

variable {Value : Type} {policy : JobKeyPolicy} {op : KeyOp Value} {state : JobKeyState Value}
  {current : Option (JobKeyState Value)}

/-! ## Runs of a record -/

/-- A key's record, and the replaced jobs that may be put back, with what replaced them. -/
structure KeyRecord (Value : Type) where
  state : Option (JobKeyState Value)
  replaced : List (JobKeyQueuedEntry Value × String)

def KeyRecord.empty : KeyRecord Value :=
  ⟨none, []⟩

/-- What an admission leaves to be put back if it cannot be announced. -/
def AdmitJobOutcome.displaced (jobId : String) :
    AdmitJobOutcome Value → List (JobKeyQueuedEntry Value × String)
  | .replaced _ entry => [(entry, jobId)]
  | _ => []

/-- The changes that compensate nothing. -/
def KeyOp.Forward : KeyOp Value → Prop
  | .restoreReplaced _ _ _ => False
  | _ => True

def KeyOp.displaced (policy : JobKeyPolicy) (current : Option (JobKeyState Value)) :
    KeyOp Value → List (JobKeyQueuedEntry Value × String)
  | .admission input => (admitJob current policy input).displaced input.jobId
  | _ => []

/-- A committed change.  Only what was replaced is put back, and once. -/
inductive KeyStep (policy : JobKeyPolicy) : KeyRecord Value → KeyOp Value → KeyRecord Value → Prop
  | forward {r op state} (hop : op.Forward)
      (hwrite : updateKey policy r.state op = .ok (some state)) :
      KeyStep policy r op ⟨some state, op.displaced policy r.state ++ r.replaced⟩
  | restore (before) {after current entry jobId restoredAt state}
      (hwrite : updateKey policy current (.restoreReplaced entry jobId restoredAt) =
        .ok (some state)) :
      KeyStep policy ⟨current, before ++ (entry, jobId) :: after⟩
        (.restoreReplaced entry jobId restoredAt) ⟨some state, before ++ after⟩

theorem KeyStep.nextState (h : KeyStep policy r op r') : ∃ state, r'.state = some state ∧
      op.nextState policy r.state = some state := by
  cases h with
  | forward hop hwrite | restore before hwrite => exact ⟨_, rfl, updateKey_ok hwrite⟩

/-! ## The bounds -/

variable (policy) (current)

structure Bounded (state : JobKeyState Value) : Prop where
  active_le : state.active.length ≤ policy.maxActive
  queued_le : state.queued.length ≤ policy.maxQueuedPerKey + policy.maxActive
  nodup : (state.active.map JobKeyActiveSlot.jobId ++
    state.queued.map JobKeyQueuedEntry.jobId).Nodup

def KeyRecord.Bounded (r : KeyRecord Value) : Prop :=
  ∀ state ∈ r.state, Jobs.Bounded policy state

def queuedEntries : List (JobKeyQueuedEntry Value) :=
  current.elim [] JobKeyState.queued

/-- A replaced job is put back while it is not running and the queue has a place for it. -/
def KeyOp.Timely : KeyOp Value → Prop
  | .restoreReplaced entry jobId _ =>
    (∀ slot ∈ activeSlots current, slot.jobId ≠ entry.jobId) ∧
      (queuedEntries current).countP (fun other =>
        other.jobId ≠ jobId ∧ other.jobId ≠ entry.jobId) <
        policy.maxQueuedPerKey + policy.maxActive
  | _ => True

variable {policy current}

theorem bounded_newKeyState : Bounded policy (newKeyState policy timestamp : JobKeyState Value) :=
  ⟨Nat.zero_le _, Nat.zero_le _, nodup_nil⟩

variable (h : Bounded policy state)
include h

/-- Taking slots and entries away keeps the bounds. -/
theorem Bounded.shrink (hact : (state'.active.map JobKeyActiveSlot.jobId).Sublist
      (state.active.map JobKeyActiveSlot.jobId))
    (hqueued : (state'.queued.map JobKeyQueuedEntry.jobId).Sublist
      (state.queued.map JobKeyQueuedEntry.jobId)) : Bounded policy state' := by
  have hactiveLength := hact.length_le
  have hqueuedLength := hqueued.length_le
  rw [length_map, length_map] at hactiveLength hqueuedLength
  exact ⟨hactiveLength.trans h.active_le, hqueuedLength.trans h.queued_le,
    h.nodup.sublist (hact.append hqueued)⟩

/-- A job that is not in the record joins the queue behind what is left of it. -/
theorem Bounded.enqueue
    (hact : state'.active = state.active) (hqueued : state'.queued = kept ++ [entry])
    (hkept : kept.Sublist state.queued)
    (hroom : kept.length < policy.maxQueuedPerKey + policy.maxActive)
    (hnotActive : ∀ slot ∈ state.active, slot.jobId ≠ entry.jobId)
    (hnotQueued : ∀ other ∈ state.queued, other.jobId ≠ entry.jobId) : Bounded policy state' := by
  refine ⟨hact ▸ h.active_le, ?_, ?_⟩
  · rw [hqueued, length_append]
    exact hroom
  · rw [hact, hqueued, map_append, ← append_assoc]
    have hshorter := h.nodup.sublist
      ((List.Sublist.refl (state.active.map JobKeyActiveSlot.jobId)).append (hkept.map _))
    refine nodup_append.mpr ⟨hshorter, nodup_singleton _, ?_⟩
    intro id hid id' hid' heq
    rw [map_singleton, mem_singleton] at hid'
    subst heq hid'
    rcases mem_append.mp hid with hid | hid
    · obtain ⟨slot, hslot, hsame⟩ := mem_map.mp hid
      exact hnotActive slot hslot hsame
    · obtain ⟨other, hother, hsame⟩ := mem_map.mp hid
      exact hnotQueued other (hkept.subset hother) hsame

/-! ## What each change keeps -/

omit h

theorem Bounded.admitJob (h : ∀ state ∈ current, Bounded policy state)
    (hnext : (Jobs.admitJob current policy input).nextState = some state') :
    Bounded policy state' := by
  have hstart : Bounded policy (current.getD (newKeyState policy input.createdAt)) := by
    cases current with
    | none => exact bounded_newKeyState
    | some state => exact h state rfl
  generalize hstate : current.getD (newKeyState policy input.createdAt) = state at hstart
  unfold Jobs.admitJob at hnext
  rw [hstate] at hnext
  dsimp only at hnext
  split at hnext
  · cases hnext
    exact hstart.shrink (List.Sublist.refl _) (List.Sublist.refl _)
  rename_i hnew
  rw [not_or, Bool.not_eq_true, any_eq_false, Bool.not_eq_true, any_eq_false] at hnew
  have hnotActive : ∀ slot ∈ state.active, slot.jobId ≠ input.jobId := fun slot hslot hid =>
    hnew.1 slot hslot (decide_eq_true hid)
  have hnotQueued : ∀ entry ∈ state.queued, entry.jobId ≠ input.jobId := fun entry hentry hid =>
    hnew.2 entry hentry (decide_eq_true hid)
  split at hnext
  · split at hnext
    · cases hnext
    next oldest rest hwhen hqueue =>
      cases hnext
      have hlen := hstart.queued_le
      rw [hqueue, length_cons] at hlen
      exact hstart.enqueue rfl rfl (hqueue ▸ sublist_cons_self _ _) hlen hnotActive hnotQueued
    · cases hnext
    · cases hnext
  next hroom =>
    cases hnext
    exact hstart.enqueue rfl rfl (List.Sublist.refl _)
      ((Nat.lt_of_not_le hroom).trans_le (queueLimit_le _ _)) hnotActive hnotQueued

include h

theorem Bounded.acquireActiveSlot
    (hnext : (Jobs.acquireActiveSlot state policy input).nextState = some state') :
    Bounded policy state' := by
  generalize houtcome : Jobs.acquireActiveSlot state policy input = outcome at hnext
  cases outcome with
  | blocked blocked reason => cases hnext
  | acquired acquired slot staleSlots =>
    cases hnext
    obtain ⟨hqueued, ⟨-, hsame⟩ | ⟨kept, hact, hspared, hroom, hothers⟩⟩ :=
      acquireActiveSlot_acquired houtcome
    · refine h.shrink (hsame ▸ List.Sublist.refl _) ?_
      rw [hqueued]
      exact filter_sublist.map _
    · have hkeys := (nodup_append.mp h.nodup).1
      refine ⟨?_, ?_, ?_⟩
      · have hle := h.active_le
        have hothers := (eraseP_sublist (l := state.active)
          (p := fun slot => slot.jobId = input.jobId)).length_le
        rw [hact, length_append, length_singleton, hroom _ rfl]
        omega
      · rw [hqueued]
        exact (length_filter_le _ _).trans h.queued_le
      · rw [hact, hqueued, map_append, map_singleton, append_assoc]
        refine (perm_middle.nodup_iff).mpr (nodup_cons.mpr ⟨?_, ?_⟩)
        · intro hid
          rcases mem_append.mp hid with hid | hid
          · obtain ⟨other, hother, hsame⟩ := mem_map.mp hid
            exact hothers hkeys other hother hsame
          · obtain ⟨entry, hentry, hsame⟩ := mem_map.mp hid
            exact of_decide_eq_true (mem_filter.mp hentry).2 hsame
        · exact h.nodup.sublist ((hspared.sublist.map _).append (filter_sublist.map _))

/-- Putting a job back keeps the bounds just when the record still has a place for it. -/
theorem Bounded.restore_iff : Bounded policy { state with
      queued := entry :: othersQueued state entry jobId
      updatedAt := restoredAt } ↔
      KeyOp.Timely policy (some state) (.restoreReplaced entry jobId restoredAt) := by
  have hcount : (othersQueued state entry jobId).length =
      state.queued.countP fun other => other.jobId ≠ jobId ∧ other.jobId ≠ entry.jobId :=
    countP_eq_length_filter.symm
  constructor
  · intro hafter
    refine ⟨fun slot hslot hid => ?_, ?_⟩
    · -- the job would be in the record as a slot and as an entry
      have hapart := (nodup_append.mp hafter.nodup).2.2
      exact hapart _ (mem_map_of_mem hslot) _ mem_cons_self hid
    · have hle := hafter.queued_le
      rw [length_cons, hcount] at hle
      exact hle
  · rintro ⟨hnotActive, hroom⟩
    refine ⟨h.active_le, ?_, ?_⟩
    · rw [length_cons, hcount]
      exact hroom
    · refine (perm_middle.nodup_iff).mpr (nodup_cons.mpr ⟨?_, ?_⟩)
      · intro hid
        rcases mem_append.mp hid with hid | hid
        · obtain ⟨slot, hslot, hsame⟩ := mem_map.mp hid
          exact hnotActive slot hslot hsame
        · obtain ⟨other, hother, hsame⟩ := mem_map.mp hid
          exact (of_decide_eq_true (mem_filter.mp hother).2).2 hsame
      · exact h.nodup.sublist ((List.Sublist.refl _).append (filter_sublist.map _))

theorem Bounded.renew
    (hnext : (renewActiveSlot state jobId slotToken heartbeatAt leaseExpiresAt).nextState =
      some state') : Bounded policy state' := by
  unfold renewActiveSlot at hnext
  split at hnext
  · cases hnext
    refine h.shrink ?_ (List.Sublist.refl _)
    rw [updateFirst_map (g := JobKeyActiveSlot.jobId) (by intro slot; rfl)]
  · cases hnext

theorem Bounded.release
    (hnext : (releaseActiveSlot state jobId slotToken releasedAt).nextState = some state') :
    Bounded policy state' := by
  unfold releaseActiveSlot at hnext
  split at hnext
  · cases hnext
    exact h.shrink (eraseP_sublist.map _) (List.Sublist.refl _)
  · cases hnext

theorem Bounded.removeQueued
    (hnext : (removeQueuedEntry state jobId removedAt).nextState = some state') :
    Bounded policy state' := by
  unfold removeQueuedEntry at hnext
  split at hnext
  · cases hnext
    exact h.shrink (List.Sublist.refl _) (eraseP_sublist.map _)
  · cases hnext

theorem Bounded.cleanup (hnext : (cleanupTerminal state jobId removedAt).nextState = some state') :
    Bounded policy state' := by
  cases hnext
  exact h.shrink (filter_sublist.map _) (filter_sublist.map _)

omit h

/-- The value a change writes is within the bounds just when the change is timely. -/
theorem Bounded.nextState_iff (h : ∀ state ∈ current, Bounded policy state)
    (hnext : op.nextState policy current = some state') :
    Bounded policy state' ↔ op.Timely policy current := by
  cases op
  case restoreReplaced entry jobId restoredAt =>
    cases current with
    | none =>
      -- a record that is not there has the places of an empty one
      cases hnext
      exact bounded_newKeyState.restore_iff
    | some state =>
      cases hnext
      exact (h state rfl).restore_iff
  all_goals refine ⟨fun _ => trivial, fun _ => ?_⟩
  case admission => exact Bounded.admitJob h hnext
  case acquire =>
    cases current with
    | none => exact bounded_newKeyState.acquireActiveSlot hnext
    | some state => exact (h state rfl).acquireActiveSlot hnext
  all_goals obtain ⟨state, hstate, hnext⟩ := Option.bind_eq_some_iff.mp hnext
  case renew => exact (h state hstate).renew hnext
  case release => exact (h state hstate).release hnext
  case removeQueued => exact (h state hstate).removeQueued hnext
  case cleanup => exact (h state hstate).cleanup hnext

theorem KeyStep.bounded_iff (hstep : KeyStep policy r op r') (h : r.Bounded policy) :
    r'.Bounded policy ↔ op.Timely policy r.state := by
  obtain ⟨state, hstate, hnext⟩ := hstep.nextState
  rw [← Bounded.nextState_iff h hnext]
  unfold KeyRecord.Bounded
  rw [hstate]
  exact ⟨fun h => h state rfl, fun h _ hstate => Option.some.inj hstate ▸ h⟩

/-- **The record keeps its bounds** while changes are timely, and the first that is not breaks them.
-/
theorem key_record_bounded (policy : JobKeyPolicy) : (∀ r : KeyRecord Value, ReflTransGen
        (fun r r' => ∃ op, KeyStep policy r op r' ∧ op.Timely policy r.state) .empty r →
      r.Bounded policy) ∧
    ∀ (r r' : KeyRecord Value) (op : KeyOp Value), r.Bounded policy → KeyStep policy r op r' →
      (r'.Bounded policy ↔ op.Timely policy r.state) := by
  constructor
  · intro r hrun
    refine Run.keeps (P := KeyRecord.Bounded policy) ?_ hrun (fun _ h => nomatch h)
    rintro r r' ⟨op, hstep, htimely⟩ h
    exact (hstep.bounded_iff h).mpr htimely
  · intro r r' op h hstep
    exact hstep.bounded_iff h

/-! ## A job that comes back late -/

/-- One job at a time, and the newest one waiting. -/
def latestOnly : JobKeyPolicy where
  service := "svc"
  jobType := "render"
  key := "page"
  keyHash := "hash"
  maxActive := 1
  maxQueuedPerKey := 0
  whenFull := .replaceOldest
  stalePolicy := .failStale

def submission (jobId : String) : AdmitJobInput Unit :=
  ⟨jobId, "request", "2026-10-01T00:00:00Z", ()⟩

def firstAttempt (jobId slotToken : String) : AcquireSlotInput Unit where
  jobId := jobId
  slotToken := slotToken
  instanceId := "rust-worker"
  startedAt := "2026-10-01T00:00:01Z"
  leaseExpiresAt := "2026-10-01T00:00:31Z"
  tries := 1
  context := ()

/-- Job `a` is put back after it began to run, and after the one that replaced it was replaced. -/
theorem key_record_exceeds : (∃ r : KeyRecord Unit,
      ReflTransGen (fun r r' => ∃ op, KeyStep latestOnly r op r') .empty r ∧
      r.state.map (fun state => (state.active.map JobKeyActiveSlot.jobId,
        state.queued.map JobKeyQueuedEntry.jobId)) = some (["a"], ["a"]) ∧
      ¬ r.Bounded latestOnly) ∧
    ∃ r : KeyRecord Unit, ReflTransGen (fun r r' => ∃ op, KeyStep latestOnly r op r') .empty r ∧
      r.state.map (fun state => state.queued.map JobKeyQueuedEntry.jobId) = some ["a", "c"] ∧
      ¬ r.Bounded latestOnly := by
  have hqueued : ReflTransGen (fun r r' => ∃ op, KeyStep latestOnly r op r')
      (.empty : KeyRecord Unit) _ :=
    .tail (.tail .refl ⟨.admission (submission "a"), .forward trivial rfl⟩)
      ⟨.admission (submission "b"), .forward trivial rfl⟩
  constructor
  · refine ⟨_, .tail (.tail hqueued ⟨.acquire (firstAttempt "a" "t1"), .forward trivial rfl⟩)
      ⟨.restoreReplaced _ "b" "2026-10-01T00:00:02Z", .restore [] rfl⟩, by decide, ?_⟩
    intro h
    exact absurd (h _ rfl).nodup (by decide)
  · refine ⟨_, .tail (.tail hqueued ⟨.admission (submission "c"), .forward trivial rfl⟩)
      ⟨.restoreReplaced _ "b" "2026-10-01T00:00:02Z", .restore [_] rfl⟩, by decide, ?_⟩
    intro h
    exact absurd (h _ rfl).queued_le (by decide)

theorem key_record_bounded_latest : ∃ r : KeyRecord Unit, ReflTransGen
        (fun r r' => ∃ op, KeyStep latestOnly r op r' ∧ op.Timely latestOnly r.state) .empty r ∧
      r.state.map (fun state => state.queued.map JobKeyQueuedEntry.jobId) = some ["a"] ∧
      r.Bounded latestOnly := by
  have hrun : ReflTransGen
      (fun r r' => ∃ op, KeyStep latestOnly r op r' ∧ op.Timely latestOnly r.state)
      (.empty : KeyRecord Unit) _ :=
    .tail (.tail (.tail .refl ⟨.admission (submission "a"), .forward trivial rfl, trivial⟩)
      ⟨.admission (submission "b"), .forward trivial rfl, trivial⟩)
      ⟨.restoreReplaced _ "b" "2026-10-01T00:00:02Z", .restore [] rfl, nofun, by decide⟩
  exact ⟨_, hrun, by decide, (key_record_bounded latestOnly).1 _ hrun⟩

end Jobs
