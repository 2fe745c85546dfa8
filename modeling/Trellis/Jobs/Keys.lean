/-
# Keyed concurrency

Jobs that share a key share a record: the slots of its running jobs and the queue of the
others.  The functions below compute the record's next value; it is written with
compare-and-set, so that a value is computed from the one it replaces (`update_key`).

A slot's lease is compared as text with the time an acquisition starts.
-/
import Mathlib.Data.List.Basic
import Trellis.Lib.Run

namespace Jobs

open List Checked

variable {Value : Type}

/-! ## The record -/

inductive JobQueueWhenFull where
  | reject
  | coalesce
  | replaceOldest
  deriving DecidableEq, Repr

inductive JobKeyStalePolicy where
  | failStale
  | block
  deriving DecidableEq, Repr

/-- Active key slot owned by a running worker. -/
structure JobKeyActiveSlot (Value : Type) where
  (jobId slotToken instanceId startedAt heartbeatAt leaseExpiresAt : String)
  tries : Nat
  context : Option Value
  deriving DecidableEq, Repr

/-- Queued job reservation for one key. -/
structure JobKeyQueuedEntry (Value : Type) where
  (jobId createdAt requestId : String)
  context : Option Value
  deriving DecidableEq, Repr

structure JobKeyState (Value : Type) where
  version : Nat
  (service jobType key keyHash : String)
  maxActive : Nat
  maxQueuedPerKey : Option Nat
  active : List (JobKeyActiveSlot Value)
  /-- Displaced jobs that must reconcile before terminal settlement. -/
  cleanupPending : List String
  queued : List (JobKeyQueuedEntry Value)
  staleTakeoverCount : Nat
  updatedAt : String
  deriving DecidableEq, Repr

structure JobKeyPolicy where
  (service jobType key keyHash : String)
  (maxActive maxQueuedPerKey : Nat)
  whenFull : JobQueueWhenFull
  stalePolicy : JobKeyStalePolicy
  deriving DecidableEq, Repr

def newKeyState (policy : JobKeyPolicy) (timestamp : String) : JobKeyState Value where
  version := 1
  service := policy.service
  jobType := policy.jobType
  key := policy.key
  keyHash := policy.keyHash
  maxActive := policy.maxActive
  maxQueuedPerKey := some policy.maxQueuedPerKey
  active := []
  cleanupPending := []
  queued := []
  staleTakeoverCount := 0
  updatedAt := timestamp

/-- `saturating_add` of a `u64`. -/
def saturatingAdd (a b : Nat) : Nat :=
  min (a + b) (2 ^ 64 - 1)

/-- The lease has run out at a time, going by the texts. -/
def JobKeyActiveSlot.isExpired (slot : JobKeyActiveSlot Value) (now : String) : Bool :=
  slot.leaseExpiresAt ≤ now

/-! ## Admission -/

structure AdmitJobInput (Value : Type) where
  (jobId requestId createdAt : String)
  context : Value

inductive KeyRejectReason where
  | activeLimit
  | queueDepth
  | staleBlocked
  deriving DecidableEq, Repr

inductive AdmitJobOutcome (Value : Type) where
  | accepted (state : JobKeyState Value)
  | rejected (reason : KeyRejectReason) (active queued limit : Nat)
  | coalesced (existingJobId : String)
  | replaced (state : JobKeyState Value) (replaced : JobKeyQueuedEntry Value)

def AdmitJobInput.entry (input : AdmitJobInput Value) : JobKeyQueuedEntry Value :=
  ⟨input.jobId, input.createdAt, input.requestId, some input.context⟩

variable (state : JobKeyState Value)

def admissionRejectReason (policy : JobKeyPolicy) : KeyRejectReason :=
  if state.active.length ≥ policy.maxActive then .activeLimit else .queueDepth

def admissionRejectLimit (policy : JobKeyPolicy) (queueLimit : Nat) : Nat :=
  if state.active.length ≥ policy.maxActive then policy.maxActive else queueLimit

/-- Free slots may be waited for as well as the queue's own places. -/
def queueLimit (policy : JobKeyPolicy) : Nat :=
  saturatingAdd policy.maxQueuedPerKey (policy.maxActive - state.active.length)

variable (current : Option (JobKeyState Value)) {α : Type} {as : List α}

def admitJob (policy : JobKeyPolicy) (input : AdmitJobInput Value) : AdmitJobOutcome Value :=
  let state :=
    { current.getD (newKeyState policy input.createdAt) with
      maxActive := policy.maxActive
      maxQueuedPerKey := some policy.maxQueuedPerKey }
  if (state.active.any fun slot => slot.jobId = input.jobId) ∨
      state.queued.any fun entry => entry.jobId = input.jobId then .accepted state
  else if state.queued.length ≥ queueLimit state policy then
    match policy.whenFull, state.queued with
    | .coalesce, queued =>
      .coalesced (((queued.head?.map JobKeyQueuedEntry.jobId).or
        (state.active.head?.map JobKeyActiveSlot.jobId)).getD "")
    | .replaceOldest, oldest :: rest =>
      .replaced { state with queued := rest ++ [input.entry], updatedAt := input.createdAt } oldest
    | .reject, _ | .replaceOldest, [] =>
      .rejected (admissionRejectReason state policy) state.active.length state.queued.length
        (admissionRejectLimit state policy (queueLimit state policy))
  else
    .accepted { state with queued := state.queued ++ [input.entry], updatedAt := input.createdAt }

/-! ## Acquisition -/

structure AcquireSlotInput (Value : Type) where
  (jobId slotToken instanceId startedAt leaseExpiresAt : String)
  tries : Nat
  context : Value

inductive AcquireSlotOutcome (Value : Type) where
  | acquired (state : JobKeyState Value) (slot : JobKeyActiveSlot Value)
      (staleSlots : List (JobKeyActiveSlot Value))
  | blocked (state : JobKeyState Value) (reason : KeyRejectReason)

section

variable (policy : JobKeyPolicy) (input : AcquireSlotInput Value)

def AcquireSlotInput.slot : JobKeyActiveSlot Value where
  jobId := input.jobId
  slotToken := input.slotToken
  instanceId := input.instanceId
  startedAt := input.startedAt
  heartbeatAt := input.startedAt
  leaseExpiresAt := input.leaseExpiresAt
  tries := input.tries
  context := some input.context

/-- Redelivery resumes the same job with a new fencing token, once its lease has run out. -/
def reclaimOwn : Option (JobKeyState Value) :=
  match state.active.find? fun slot => slot.jobId = input.jobId with
  | none => some state
  | some slot =>
    if slot.isExpired input.startedAt then
      some
        { state with
          active := state.active.eraseP fun slot => slot.jobId = input.jobId
          staleTakeoverCount := saturatingAdd state.staleTakeoverCount 1 }
    else none

/-- With no free slot an expired one is displaced, if the policy says so. -/
def makeRoom : Except KeyRejectReason (JobKeyState Value × List (JobKeyActiveSlot Value)) :=
  if state.active.length ≥ policy.maxActive then
    match state.active.find? fun slot => slot.isExpired input.startedAt, policy.stalePolicy with
    | some displaced, .failStale =>
      .ok
        ({ state with
            active := state.active.eraseP fun slot => slot.isExpired input.startedAt
            cleanupPending :=
              if displaced.jobId ∈ state.cleanupPending then state.cleanupPending
              else state.cleanupPending ++ [displaced.jobId]
            staleTakeoverCount := saturatingAdd state.staleTakeoverCount 1 },
          [displaced])
    | some _, .block => .error .staleBlocked
    | none, _ => .error .activeLimit
  else .ok (state, [])

def acquireActiveSlot : AcquireSlotOutcome Value :=
  let state :=
    { state with
      maxActive := policy.maxActive
      queued := state.queued.filter fun entry => entry.jobId ≠ input.jobId }
  match state.active.find? fun slot =>
      slot.jobId = input.jobId ∧ slot.slotToken = input.slotToken with
  | some existing =>
    if existing.isExpired input.startedAt then .blocked state .staleBlocked
    else .acquired state existing []
  | none =>
    match reclaimOwn state input with
    | none => .blocked state .activeLimit
    | some state =>
      match makeRoom state policy input with
      | .error reason => .blocked state reason
      | .ok (state, staleSlots) =>
        .acquired
          { state with active := state.active ++ [input.slot], updatedAt := input.startedAt }
          input.slot staleSlots

def acquireActiveSlotFromState : AcquireSlotOutcome Value :=
  acquireActiveSlot (current.getD (newKeyState policy input.startedAt)) policy input

end

/-! ## Leases and reservations -/

inductive LeaseMutationOutcome (Value : Type) where
  | renewed (state : JobKeyState Value)
  | released (state : JobKeyState Value)
  | lost (state : JobKeyState Value)

/-- Change the first entry that satisfies a condition. -/
def updateFirst {α : Type} (p : α → Bool) (f : α → α) : List α → List α
  | [] => []
  | a :: rest => if p a then f a :: rest else a :: updateFirst p f rest

def JobKeyActiveSlot.isFor (jobId slotToken : String) (slot : JobKeyActiveSlot Value) : Bool :=
  slot.jobId = jobId ∧ slot.slotToken = slotToken

def renewActiveSlot
    (jobId slotToken heartbeatAt leaseExpiresAt : String) : LeaseMutationOutcome Value :=
  if state.active.any (JobKeyActiveSlot.isFor jobId slotToken) then
    .renewed
      { state with
        active := updateFirst (JobKeyActiveSlot.isFor jobId slotToken)
          (fun slot => { slot with heartbeatAt, leaseExpiresAt }) state.active
        updatedAt := heartbeatAt }
  else .lost state

def releaseActiveSlot (jobId slotToken releasedAt : String) : LeaseMutationOutcome Value :=
  if state.active.any (JobKeyActiveSlot.isFor jobId slotToken) then
    .released
      { state with
        active := state.active.eraseP (JobKeyActiveSlot.isFor jobId slotToken)
        updatedAt := releasedAt }
  else .lost state

inductive QueueMutationOutcome (Value : Type) where
  | removed (state : JobKeyState Value)
  | restored (state : JobKeyState Value)
  | missing (state : JobKeyState Value)

def removeQueuedEntry (jobId removedAt : String) : QueueMutationOutcome Value :=
  if state.queued.any fun entry => entry.jobId = jobId then
    .removed
      { state with
        queued := state.queued.eraseP fun entry => entry.jobId = jobId
        updatedAt := removedAt }
  else .missing state

/-- The queue without an entry that was replaced and without the one that replaced it. -/
def othersQueued (replaced : JobKeyQueuedEntry Value)
    (replacementJobId : String) : List (JobKeyQueuedEntry Value) :=
  state.queued.filter fun entry => entry.jobId ≠ replacementJobId ∧ entry.jobId ≠ replaced.jobId

def restoreReplacedQueuedEntry (replaced : JobKeyQueuedEntry Value)
    (replacementJobId restoredAt : String) : QueueMutationOutcome Value :=
  .restored
    { state with
      queued := replaced :: othersQueued state replaced replacementJobId
      updatedAt := restoredAt }

/-- The change `cleanup_queued_key_for_terminal` makes. -/
def cleanupTerminal (jobId removedAt : String) : QueueMutationOutcome Value :=
  .removed
    { state with
      queued := state.queued.filter fun entry => entry.jobId ≠ jobId
      active := state.active.filter fun slot => slot.jobId ≠ jobId
      cleanupPending := state.cleanupPending.filter fun id => id ≠ jobId
      updatedAt := removedAt }

/-! ## Committed changes -/

/-- The KV key of a record. -/
def coordinationKey (service jobType keyHash : String) : String :=
  service ++ "." ++ jobType ++ "." ++ keyHash

inductive NatsKeyCoordinatorError where
  | decode (key details : String)
  deriving DecidableEq, Repr

def validateLoadedState (key : String) (policy : JobKeyPolicy) (state : JobKeyState Value) :
    Except NatsKeyCoordinatorError Unit :=
  if state.version ≠ 1 ∨ state.service ≠ policy.service ∨ state.jobType ≠ policy.jobType ∨
      state.key ≠ policy.key ∨ state.keyHash ≠ policy.keyHash then
    .error (.decode key
      ("loaded key state does not match expected service/job/key/hash: expected " ++
        policy.service ++ "/" ++ policy.jobType ++ "/" ++ policy.key ++ "/" ++ policy.keyHash ++
        ", found version=" ++ toString state.version ++ " " ++ state.service ++ "/" ++
        state.jobType ++ "/" ++ state.key ++ "/" ++ state.keyHash))
  else .ok ()

/-- The changes of a key's record. -/
inductive KeyOp (Value : Type) where
  | admission (input : AdmitJobInput Value)
  | acquire (input : AcquireSlotInput Value)
  | renew (jobId slotToken heartbeatAt leaseExpiresAt : String)
  | release (jobId slotToken releasedAt : String)
  | removeQueued (jobId removedAt : String)
  | restoreReplaced (replaced : JobKeyQueuedEntry Value) (replacementJobId restoredAt : String)
  | cleanup (jobId removedAt : String)

def AdmitJobOutcome.nextState : AdmitJobOutcome Value → Option (JobKeyState Value)
  | .accepted state | .replaced state _ => some state
  | .rejected _ _ _ _ | .coalesced _ => none

def AcquireSlotOutcome.nextState : AcquireSlotOutcome Value → Option (JobKeyState Value)
  | .acquired state _ _ => some state
  | .blocked _ _ => none

def LeaseMutationOutcome.nextState : LeaseMutationOutcome Value → Option (JobKeyState Value)
  | .renewed state | .released state => some state
  | .lost _ => none

def QueueMutationOutcome.nextState : QueueMutationOutcome Value → Option (JobKeyState Value)
  | .removed state | .restored state => some state
  | .missing _ => none

/-- The value a change writes, if it writes one. -/
def KeyOp.nextState (policy : JobKeyPolicy) (current : Option (JobKeyState Value)) :
    KeyOp Value → Option (JobKeyState Value)
  | .admission input => (admitJob current policy input).nextState
  | .acquire input => (acquireActiveSlotFromState current policy input).nextState
  | .renew jobId slotToken heartbeatAt leaseExpiresAt =>
    current.bind fun state =>
      (renewActiveSlot state jobId slotToken heartbeatAt leaseExpiresAt).nextState
  | .release jobId slotToken releasedAt =>
    current.bind fun state => (releaseActiveSlot state jobId slotToken releasedAt).nextState
  | .removeQueued jobId removedAt =>
    current.bind fun state => (removeQueuedEntry state jobId removedAt).nextState
  | .restoreReplaced replaced replacementJobId restoredAt =>
    match current with
    | some state =>
      (restoreReplacedQueuedEntry state replaced replacementJobId restoredAt).nextState
    | none => some { newKeyState policy restoredAt with queued := [replaced] }
  | .cleanup jobId removedAt =>
    current.bind fun state => (cleanupTerminal state jobId removedAt).nextState

/-- One round of `update_key`: the value to write over the one that was read, if any. -/
def updateKey (policy : JobKeyPolicy) (current : Option (JobKeyState Value)) (op : KeyOp Value) :
    Except NatsKeyCoordinatorError (Option (JobKeyState Value)) :=
  match current with
  | some state =>
    match validateLoadedState (coordinationKey policy.service policy.jobType policy.keyHash)
        policy state with
    | .error error => .error error
    | .ok () => .ok (op.nextState policy (some state))
  | none => .ok (op.nextState policy none)

/-- The slots of a record; one that is not there has none. -/
def activeSlots : List (JobKeyActiveSlot Value) :=
  current.elim [] JobKeyState.active

theorem updateKey_ok {current next : Option (JobKeyState Value)}
    (h : updateKey policy current op = .ok next) :
    op.nextState policy current = next := by
  unfold updateKey at h
  split at h
  · split at h
    · cases h
    · exact Except.ok.inj h
  · exact Except.ok.inj h

/-! ## What a renewal keeps -/

theorem updateFirst_map
    (h : ∀ a, g (f a) = g a) (as : List α) : (updateFirst p f as).map g = as.map g := by
  induction as with
  | nil => rfl
  | cons a as ih =>
    rw [updateFirst]
    split
    · rw [map_cons, map_cons, h]
    · rw [map_cons, map_cons, ih]

theorem mem_updateFirst (h : a ∈ as) (hp : p a = false) : a ∈ updateFirst p f as := by
  induction as with
  | nil => cases h
  | cons b as ih =>
    rw [updateFirst]
    split
    next hb =>
      rcases mem_cons.mp h with rfl | h
      · rw [hp] at hb
        cases hb
      · exact mem_cons_of_mem _ h
    · rcases mem_cons.mp h with rfl | h
      · exact mem_cons_self
      · exact mem_cons_of_mem _ (ih h)

/-! ## What an acquisition keeps -/

theorem queueLimit_le (policy : JobKeyPolicy) :
    queueLimit state policy ≤ policy.maxQueuedPerKey + policy.maxActive := by
  unfold queueLimit saturatingAdd
  omega

/-- What an erased list has lost is its first entry of the kind. -/
theorem mem_eraseP_or_find (h : a ∈ as) : a ∈ as.eraseP p ∨ as.find? p = some a := by
  induction as with
  | nil => cases h
  | cons b as ih =>
    rw [eraseP_cons, find?_cons]
    cases hb : p b with
    | true =>
      rcases mem_cons.mp h with rfl | h
      · exact .inr rfl
      · exact .inl h
    | false =>
      rcases mem_cons.mp h with rfl | h
      · exact .inl mem_cons_self
      · exact (ih h).imp_left fun h => mem_cons_of_mem _ h

/-- Where keys are unique, erasing the first entry with a key erases them all. -/
theorem ne_of_mem_eraseP [DecidableEq κ] {key : α → κ} {k : κ}
    (hkeys : (as.map key).Nodup) (h : a ∈ as.eraseP fun a => key a = k) : key a ≠ k := by
  induction as with
  | nil => cases h
  | cons b as ih =>
    rw [map_cons, nodup_cons] at hkeys
    by_cases hb : key b = k
    · rw [eraseP_cons_of_pos (by simpa using hb)] at h
      intro ha
      rw [hb, ← ha] at hkeys
      exact hkeys.1 (mem_map_of_mem h)
    · rw [eraseP_cons_of_neg (by simpa using hb)] at h
      rcases mem_cons.mp h with rfl | h
      · exact hb
      · exact ih hkeys.2 h

/-- The slots an acquisition leaves to others: what it takes away had expired. -/
structure Spared (now : String) (active kept : List (JobKeyActiveSlot Value)) : Prop where
  sublist : kept.Sublist active
  unexpired : ∀ slot ∈ active, slot.isExpired now = false → slot ∈ kept

theorem Spared.refl (now : String) (active : List (JobKeyActiveSlot Value)) :
    Spared now active active :=
  ⟨List.Sublist.refl _, fun _ h _ => h⟩

theorem Spared.trans
    (h : Spared now active own) (h' : Spared now own kept) : Spared now active kept :=
  ⟨h'.sublist.trans h.sublist, fun slot hslot hlive =>
    h'.unexpired slot (h.unexpired slot hslot hlive) hlive⟩

/-- Taking away the first slot of a kind, when that one has expired. -/
theorem Spared.eraseP {p : JobKeyActiveSlot Value → Bool}
    (hfind : active.find? p = some old) (hexp : old.isExpired now = true) :
    Spared now active (active.eraseP p) := by
  refine ⟨eraseP_sublist, fun slot hslot hlive => ?_⟩
  rcases mem_eraseP_or_find (p := p) hslot with h | h
  · exact h
  · rw [hfind] at h
    rw [Option.some.inj h, hlive] at hexp
    cases hexp

variable {state : JobKeyState Value}

/-- An attempt reclaims its job's slot only when that has expired. -/
theorem reclaimOwn_some (h : reclaimOwn state input = some own) :
    own.queued = state.queued ∧ Spared input.startedAt state.active own.active ∧
      own.active = state.active.eraseP (fun slot => slot.jobId = input.jobId) ∧
      ((state.active.map JobKeyActiveSlot.jobId).Nodup →
        ∀ slot ∈ own.active, slot.jobId ≠ input.jobId) := by
  unfold reclaimOwn at h
  split at h
  next hnone =>
    cases h
    have hother := find?_eq_none.mp hnone
    refine ⟨rfl, Spared.refl _ _, (eraseP_of_forall_not hother).symm, fun _ slot hslot hid => ?_⟩
    exact hother slot hslot (decide_eq_true hid)
  next old hold =>
    split at h
    next hexp =>
      cases h
      exact ⟨rfl, Spared.eraseP hold hexp, rfl, fun hkeys slot hslot =>
        ne_of_mem_eraseP hkeys hslot⟩
    · cases h

/-- With room made there is a free slot, or the place of the one that was taken away. -/
theorem makeRoom_ok (h : makeRoom state policy input = .ok (kept, staleSlots)) :
    kept.queued = state.queued ∧ Spared input.startedAt state.active kept.active ∧
      kept.active.length + 1 =
        max state.active.length (min (state.active.length + 1) policy.maxActive) := by
  unfold makeRoom at h
  split at h
  next hfull =>
    split at h
    next displaced hfind hpolicy =>
      cases h
      have hmem := mem_of_find?_eq_some hfind
      have hexp := find?_some hfind
      refine ⟨rfl, Spared.eraseP hfind hexp, ?_⟩
      have hpos := length_pos_of_mem hmem
      have hlen := length_eraseP_of_mem (p := fun slot => slot.isExpired input.startedAt) hmem hexp
      dsimp only
      omega
    · cases h
    · cases h
  next hroom =>
    cases h
    exact ⟨rfl, Spared.refl _ _, by omega⟩

/-- **What an acquisition does.**  A slot already held stays; else the new one follows those spared.
-/
theorem acquireActiveSlot_acquired
    (h : acquireActiveSlot state policy input = .acquired state' slot staleSlots) :
    state'.queued = state.queued.filter (fun entry => entry.jobId ≠ input.jobId) ∧
      ((slot ∈ state.active ∧ state'.active = state.active) ∨
        ∃ kept, state'.active = kept ++ [input.slot] ∧ Spared input.startedAt state.active kept ∧
          (∀ others, state.active.eraseP (fun slot => slot.jobId = input.jobId) = others →
            kept.length + 1 = max others.length (min (others.length + 1) policy.maxActive)) ∧
          ((state.active.map JobKeyActiveSlot.jobId).Nodup →
            ∀ slot ∈ kept, slot.jobId ≠ input.jobId)) := by
  unfold acquireActiveSlot at h
  dsimp only at h
  split at h
  next existing hfound =>
    split at h
    · cases h
    · obtain ⟨rfl, rfl, -⟩ := AcquireSlotOutcome.acquired.inj h
      exact ⟨rfl, .inl ⟨mem_of_find?_eq_some hfound, rfl⟩⟩
  · split at h
    · cases h
    rename_i own hown
    split at h
    · cases h
    rename_i kept stale hkept
    obtain ⟨rfl, -, -⟩ := AcquireSlotOutcome.acquired.inj h
    obtain ⟨hqueued, hspared, hown, hothers⟩ := reclaimOwn_some hown
    obtain ⟨hqueued', hspared', hroom⟩ := makeRoom_ok hkept
    refine ⟨hqueued'.trans hqueued, .inr ⟨kept.active, rfl, hspared.trans hspared', ?_, ?_⟩⟩
    · rintro _ rfl
      exact hown ▸ hroom
    · intro hkeys slot hslot
      exact hothers hkeys slot (hspared'.sublist.subset hslot)

end Jobs
