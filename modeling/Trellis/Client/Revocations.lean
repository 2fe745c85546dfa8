/-
# Observed retirements and the coverage of their mirror

A runtime vouches for an authority (`assert_current`) only while a mirror of the signed
retirements covers it, and never for a session it has seen retired
(`client/authorization/provider_cache.rs`).

Retirements are pruned when they are past, merged by session and, at capacity, replaced by one
deadline for every session.  Coverage is handed from run to run of `run_revocations` through
three epoch slots.  Each section under the state lock is one step.
-/
import Trellis.Lib.Run
import Trellis.Protocol.SessionEvents

namespace Revocations

open List Checked SessionEvents
open TransportAuthorization (ProtocolError)

/-! ## The authority owner -/

inductive AuthorityIssuerState where
  | active
  | retired
  | revoked
  deriving DecidableEq

structure AuthorityIssuerKey where
  (keyId publicKey : String)
  state : AuthorityIssuerState

structure SignedSessionRevocation where
  (issuerKeyId authorizationSessionId : String)
  (effectiveCutoff latestContextExpiry : Int)
  /-- Whatever else is signed, with the signature. -/
  signed : String
  deriving DecidableEq

inductive TrellisClientError where
  | authorizationUnavailable (message : String)
  | protocol (error : ProtocolError)

/-- What of an owner is fixed, and the signature check for its instance and account. -/
structure AuthorizationOwner where
  (instanceId account runtimeId sessionPublicKey : String)
  verify : SignedSessionRevocation → AuthorityIssuerKey → Except ProtocolError Unit

/-- An epoch is known by its run, which a slot or the run itself still holds. -/
structure OwnerState where
  issuers : String → Option AuthorityIssuerKey
  issuerRetirements : String → Option Int := fun _ => none
  own : Option String := none
  revocations : List SignedSessionRevocation := []
  revocationOverflowUntil : Int := 0
  (revocationEpoch revocationPredecessorEpoch revocationPendingEpoch : Option Nat := none)
  revocationCovered : Bool := false

/-- A verified authority, with the parts of what it signs that its owner compares. -/
structure SessionAuthority (Key : Type) extends VerifiedSessionAuthority Key where
  (trellisInstanceId audienceNatsAccount runtimeId sessionPublicKey issuerKeyId
    authorizationSessionId : String)

def maxObservedRevocations : Nat := 4096

/-- `accept_revocation` of a verified record. -/
def observe (known : List SignedSessionRevocation) (overflowUntil now : Int)
    (record : SignedSessionRevocation) :
    List SignedSessionRevocation × Int × Except TrellisClientError Unit :=
  let kept := known.filter fun row => now < row.latestContextExpiry
  if record.latestContextExpiry ≤ now then (kept, overflowUntil, .ok ())
  else match kept.find? fun row => row.authorizationSessionId = record.authorizationSessionId with
    | some row =>
      if row.effectiveCutoff ≠ record.effectiveCutoff then
        (kept, overflowUntil, .error (.authorizationUnavailable "conflicting session cutoff"))
      else if row.latestContextExpiry < record.latestContextExpiry then
        (kept.map fun other => if other = row then record else other, overflowUntil, .ok ())
      else (kept, overflowUntil, .ok ())
    | none =>
      if kept.length < maxObservedRevocations then (record :: kept, overflowUntil, .ok ())
      else (kept, max overflowUntil record.latestContextExpiry,
        .error (.authorizationUnavailable "revocation capacity reached"))

namespace OwnerState

variable (owner : AuthorizationOwner) (state : OwnerState) (now : Int)

def issuer (keyId : String) : Option AuthorityIssuerKey :=
  (state.issuers keyId).map fun issuer =>
    if issuer.state = .active ∧ (state.issuerRetirements keyId).any (· ≤ now) then
      { issuer with state := .retired }
    else issuer

def acceptRevocation (record : SignedSessionRevocation) :
    OwnerState × Except TrellisClientError Unit :=
  match state.issuer now record.issuerKeyId with
  | none => (state, .error (.authorizationUnavailable "revocation issuer unavailable"))
  | some issuer =>
    match owner.verify record issuer with
    | .error error => (state, .error (.protocol error))
    | .ok _ =>
      let (revocations, revocationOverflowUntil, result) :=
        observe state.revocations state.revocationOverflowUntil now record
      ({ state with revocations, revocationOverflowUntil }, result)

def assertCurrent (policy : SessionAuthorityVerificationPolicy) (authority : SessionAuthority Key) :
    Except TrellisClientError Unit := do
  if !state.revocationCovered then
    .error (.authorizationUnavailable "revocation mirror is not current")
  if authority.trellisInstanceId ≠ owner.instanceId ∨
      authority.audienceNatsAccount ≠ owner.account ∨
      (authority.runtimeId = owner.runtimeId ∧ authority.sessionPublicKey = owner.sessionPublicKey ∧
        state.own ≠ some authority.digest) ∨
      policy.nowUnixSeconds < state.revocationOverflowUntil ∨
      ¬ (state.issuer policy.nowUnixSeconds authority.issuerKeyId).any (·.state = .active) then
    .error (.authorizationUnavailable "authority no longer trusted")
  (authority.toVerifiedSessionAuthority.assertCurrent policy (state.revocations.any fun known =>
    known.authorizationSessionId = authority.authorizationSessionId)).mapError .protocol

variable (epoch : Nat) (connected : Nat → Bool)

/-- `RevocationCoverage::ready`. -/
def ready : Option OwnerState :=
  if state.revocationPendingEpoch ≠ some epoch ∨ now < state.revocationOverflowUntil then none
  else some { state with
    revocationPredecessorEpoch := if state.revocationCovered then state.revocationEpoch else none
    revocationEpoch := some epoch
    revocationPendingEpoch := none
    revocationCovered := true }

/-- The drop of a `RevocationCoverage`. -/
def drop : OwnerState :=
  let pending := state.revocationPendingEpoch.filter (· ≠ epoch)
  let predecessor := state.revocationPredecessorEpoch.filter (· ≠ epoch)
  if state.revocationEpoch = some epoch then
    -- a predecessor that never stopped remains valid coverage
    { state with
      revocationEpoch := predecessor.filter connected
      revocationPredecessorEpoch := none
      revocationPendingEpoch := pending
      revocationCovered := (predecessor.filter connected).isSome }
  else { state with
    revocationPredecessorEpoch := predecessor, revocationPendingEpoch := pending }

def retireRevocationCoverage : OwnerState :=
  { state with
    revocationCovered := false
    revocationEpoch := none
    revocationPredecessorEpoch := none
    revocationPendingEpoch := none }

def fenceRevocationCoverage : OwnerState :=
  if state.revocationEpoch.any connected then { state with revocationPendingEpoch := none }
  else state.retireRevocationCoverage

end OwnerState

/-- Where a run of `run_revocations` is: its snapshot is staged, or complete. -/
inductive RunPhase where
  | idle
  | staging
  | complete
  | ended

/-- An owner with the runs of its mirror. -/
structure World where
  state : OwnerState
  phase : Nat → RunPhase := fun _ => .idle
  now : Int

inductive Step (owner : AuthorizationOwner) : World → World → Prop
  | tick (h : now ≤ now') : Step owner ⟨state, phase, now⟩ ⟨state, phase, now'⟩
  | accept : Step owner ⟨state, phase, now⟩
      ⟨(state.acceptRevocation owner now record).1, phase, now⟩
  /-- An issuer rotation, or a new authority of the runtime's own. -/
  | trust : Step owner ⟨state, phase, now⟩
      ⟨{ state with issuers, issuerRetirements, own }, phase, now⟩
  | start (h : phase run = .idle) : Step owner ⟨state, phase, now⟩
      ⟨{ state with revocationPendingEpoch := some run }, Function.update phase run .staging, now⟩
  | ready (h : phase run = .staging) (hready : state.ready now run = some state') :
      Step owner ⟨state, phase, now⟩ ⟨state', Function.update phase run .complete, now⟩
  | drop (h : phase run = .staging ∨ phase run = .complete) (connected) :
      Step owner ⟨state, phase, now⟩
        ⟨state.drop run connected, Function.update phase run .ended, now⟩
  | fence (connected) :
      Step owner ⟨state, phase, now⟩ ⟨state.fenceRevocationCoverage connected, phase, now⟩
  | retire : Step owner ⟨state, phase, now⟩ ⟨state.retireRevocationCoverage, phase, now⟩

/-! ## Retirements are sticky -/

/-- A retirement of the session until the deadline is remembered. -/
def Remembered (session : String) (deadline : Int) (known : List SignedSessionRevocation)
    (overflowUntil : Int) : Prop :=
  (∃ row ∈ known, row.authorizationSessionId = session ∧ deadline ≤ row.latestContextExpiry) ∨
    deadline ≤ overflowUntil

/-- Until the deadline, no record makes the owner forget. -/
theorem Remembered.observe (hnow : now < deadline)
    (h : Remembered session deadline known overflowUntil) :
    Remembered session deadline (observe known overflowUntil now record).1
      (observe known overflowUntil now record).2.1 := by
  unfold Revocations.observe
  rcases h with ⟨row, hrow, hsession, hle⟩ | hle
  · have hkept : row ∈ known.filter fun row => now < row.latestContextExpiry :=
      mem_filter.mpr ⟨hrow, decide_eq_true (hnow.trans_le hle)⟩
    refine .inl ?_
    dsimp only
    split
    · exact ⟨row, hkept, hsession, hle⟩
    split
    next first hfirst =>
      split
      · exact ⟨row, hkept, hsession, hle⟩
      split
      · -- the row itself may be the one that is replaced, by a later one of its session
        rename_i hlater
        by_cases hsame : row = first
        · subst hsame
          refine ⟨record, mem_map.mpr ⟨row, hkept, if_pos rfl⟩, ?_, hle.trans hlater.le⟩
          exact (of_find? hfirst).symm.trans hsession
        · exact ⟨row, mem_map.mpr ⟨row, hkept, if_neg hsame⟩, hsession, hle⟩
      · exact ⟨row, hkept, hsession, hle⟩
    · split
      · exact ⟨row, mem_cons_of_mem _ hkept, hsession, hle⟩
      · exact ⟨row, hkept, hsession, hle⟩
  · refine .inr ?_
    dsimp only
    repeat' split
    all_goals first | exact hle | exact le_max_of_le_left hle

def Retired (session : String) (deadline : Int) (w : World) : Prop :=
  w.now < deadline → Remembered session deadline w.state.revocations w.state.revocationOverflowUntil

theorem Retired.step (hstep : Step owner w w') (h : Retired session deadline w) :
    Retired session deadline w' := by
  intro hnow
  cases hstep with
  | tick hle => exact h (hle.trans_lt hnow)
  | accept =>
    unfold OwnerState.acceptRevocation
    split
    · exact h hnow
    split
    · exact h hnow
    · exact (h hnow).observe hnow
  | ready _ hready =>
    unfold OwnerState.ready at hready
    split at hready <;> cases hready
    exact h hnow
  | drop =>
    dsimp only [OwnerState.drop]
    split <;> exact h hnow
  | fence =>
    dsimp only [OwnerState.fenceRevocationCoverage]
    split <;> exact h hnow
  | trust | start | retire => exact h hnow

/-- **Observed retirements are sticky.**  Once a verified record of a session is taken in, or finds
no room, no later state accepts an authority of it that ends by the record's deadline. -/
theorem retirement_sticky {owner : AuthorizationOwner} {w later : World}
    {record : SignedSessionRevocation} (hresult :
      (w.state.acceptRevocation owner w.now record).2 = .ok () ∨
      (w.state.acceptRevocation owner w.now record).2
        = .error (.authorizationUnavailable "revocation capacity reached"))
    (hnow : w.now < record.latestContextExpiry) (hrun : ReflTransGen (Step owner)
      { w with state := (w.state.acceptRevocation owner w.now record).1 } later)
    {authority : SessionAuthority Key}
    (hsession : authority.authorizationSessionId = record.authorizationSessionId)
    (hexpires : authority.expiresAt ≤ record.latestContextExpiry)
    (policy : SessionAuthorityVerificationPolicy) (hpolicy : policy.nowUnixSeconds = later.now) :
    later.state.assertCurrent owner policy authority ≠ .ok () := by
  have hfirst : Remembered record.authorizationSessionId record.latestContextExpiry
      (w.state.acceptRevocation owner w.now record).1.revocations
      (w.state.acceptRevocation owner w.now record).1.revocationOverflowUntil := by
    unfold OwnerState.acceptRevocation at hresult ⊢
    split at hresult
    · simp at hresult
    split at hresult
    · simp at hresult
    unfold observe at hresult ⊢
    dsimp only at hresult ⊢
    rw [if_neg (not_le.mpr hnow)] at hresult ⊢
    split at hresult
    next first hfirst =>
      have hmem := mem_of_find?_eq_some hfirst
      have hsession := of_find? hfirst
      split at hresult
      · simp at hresult
      rename_i hcutoff
      rw [if_neg hcutoff]
      split
      · exact .inl ⟨record, mem_map.mpr ⟨first, hmem, if_pos rfl⟩, rfl, le_rfl⟩
      next hlater => exact .inl ⟨first, hmem, hsession, not_lt.mp hlater⟩
    · split
      · exact .inl ⟨record, mem_cons_self, rfl, le_rfl⟩
      · exact .inr (le_max_right _ _)
  have hlater : Retired record.authorizationSessionId record.latestContextExpiry later :=
    Run.keeps (fun _ _ => .step) hrun fun _ => hfirst
  intro h
  unfold OwnerState.assertCurrent at h
  simp only [error_bind, guard_eq_ok, not_or] at h
  obtain ⟨-, ⟨-, -, -, hoverflow, -⟩, h⟩ := h
  cases hcheck : authority.toVerifiedSessionAuthority.assertCurrent policy _ with
  | error error =>
    rw [hcheck] at h
    cases h
  | ok =>
  obtain ⟨⟨hknown, -⟩, hcurrent⟩ := assertCurrent_ok hcheck
  rw [hpolicy] at hoverflow hcurrent
  rcases hlater (hcurrent.trans_le hexpires) with ⟨row, hrow, hid, -⟩ | hle
  · exact any_eq_false.mp hknown row hrow (decide_eq_true (hid.trans hsession.symm))
  · exact hoverflow (hcurrent.trans_le (hexpires.trans hle))

/-- An owner that trusts one issuer, and mirrors. -/
def trusting : World where
  state := { issuers := fun _ => some ⟨"issuer", "key", .active⟩, revocationCovered := true }
  now := 0

def anyOwner : AuthorizationOwner := ⟨"instance", "account", "runtime", "key", fun _ _ => .ok ()⟩

def peerAuthority : SessionAuthority Unit :=
  ⟨⟨0, 10, [], "digest", (), .live, none⟩, "instance", "account", "peer", "key", "issuer",
    "session"⟩

def peerRetirement : SignedSessionRevocation := ⟨"issuer", "session", 0, 10, ""⟩

theorem retirement_sticky_peer :
    trusting.state.assertCurrent anyOwner ⟨0, 30⟩ peerAuthority = .ok () ∧
    (trusting.state.acceptRevocation anyOwner 0 peerRetirement).1.assertCurrent anyOwner ⟨5, 30⟩
      peerAuthority ≠ .ok () :=
  ⟨rfl, @retirement_sticky _ anyOwner trusting ⟨_, _, 5⟩ peerRetirement (.inl rfl) (by decide)
    (.single (.tick (by decide))) _ rfl (by decide) ⟨5, 30⟩ rfl⟩

/-! ## Coverage is real -/

/-- What the slots hold. -/
structure Inv (w : World) : Prop where
  covered : w.state.revocationCovered = w.state.revocationEpoch.isSome
  epoch : ∀ run, w.state.revocationEpoch = some run → w.phase run = .complete
  predecessor : ∀ run, w.state.revocationPredecessorEpoch = some run → w.phase run = .complete
  pending : ∀ run, w.state.revocationPendingEpoch = some run → w.phase run = .staging

theorem Inv.step (hstep : Step owner w w') (h : Inv w) : Inv w' := by
  obtain ⟨hcovered, hepoch, hpredecessor, hpending⟩ := h
  cases hstep
  -- a section moves an epoch from slot to slot or clears it, with the phase of one run
  all_goals
    constructor <;> grind [OwnerState.acceptRevocation, OwnerState.ready, OwnerState.drop,
      OwnerState.fenceRevocationCoverage, OwnerState.retireRevocationCoverage,
      Function.update_apply, Option.filter_eq_some_iff]

/-- A run whose snapshot can no longer be taken up. -/
def Displaced (run : Nat) (w : World) : Prop :=
  w.phase run = .staging ∧ w.state.revocationPendingEpoch ≠ some run ∨ w.phase run = .ended

theorem Displaced.step (hstep : Step owner w w') (h : Displaced run w) : Displaced run w' := by
  cases hstep
  all_goals
    grind [Displaced, OwnerState.acceptRevocation, OwnerState.ready, OwnerState.drop,
      OwnerState.fenceRevocationCoverage, OwnerState.retireRevocationCoverage,
      Function.update_apply, Option.filter_eq_some_iff]

end Revocations
