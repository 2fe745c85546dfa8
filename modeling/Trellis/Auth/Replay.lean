/-
# Replay ids of DPoP proofs

The replay ids that the OAuth storage of
`runtime/src/platform/auth/oauth/storage.rs` keeps in its table of artifacts,
and the cleanup that removes expired artifacts.  Instants have nanoseconds; the
table has seconds.
-/
import Trellis.Auth.Evaluation

open List Checked

namespace Auth

inductive ArtifactKind
  | authorization | upstream | code | device | deviceSelection | token | refresh | dpopReplay
  | client
  deriving DecidableEq

/-- A row of `auth_oauth_artifacts`. -/
structure Artifact where
  kind : ArtifactKind
  lookupHash : String
  (clientId familyLookupHash : Option String)
  (grantEstablishedAtNs expiresAt : Int)
  deriving DecidableEq

structure OAuthStore where
  /-- In the order of their row ids. -/
  artifacts : List Artifact
  /-- The refresh families and when they expire. -/
  families : List (String × Int)

/-- The whole seconds of an instant, which counts nanoseconds from the epoch. -/
def seconds (value : Int) : Except String Int :=
  if value < 0 ∨ i64Max < value / 10 ^ 9 then .error "OAuth record time outside supported range"
  else .ok (value / 10 ^ 9)

def nanos (value : Int) : Except String Int :=
  if value < 0 ∨ i64Max < value then .error "OAuth record time outside supported range"
  else .ok value

/-- `stale` are the clients that the first pass removes. -/
def cleanupExpiredIn (store : OAuthStore) (stale : List String) (now : Int) : OAuthStore :=
  let artifacts := store.artifacts.filter fun a => ¬ (a.kind = .client ∧ a.clientId.any (· ∈ stale))
  let due := artifacts.filter fun a => a.kind ≠ .client ∧ a.expiresAt ≤ now ∧
    (a.kind ≠ .refresh ∨ ¬ ∃ f ∈ store.families, some f.1 = a.familyLookupHash ∧ now < f.2)
  let page := (due.mergeSort fun a b => a.expiresAt ≤ b.expiresAt).take 256
  { store with artifacts := artifacts.filter (· ∉ page) }

variable (hash : String → String)

def isReplay (replayId : String) (a : Artifact) : Bool :=
  a.kind = .dpopReplay ∧ a.lookupHash = hash replayId

def unexpired (store : OAuthStore) (replayId : String) (second : Int) : List Artifact :=
  store.artifacts.filter fun a => ¬ (isReplay hash replayId a ∧ a.expiresAt ≤ second)

def claimReplayId (store : OAuthStore) (replayId : String) (expiresAt now : Int) :
    Except String (OAuthStore × Bool) := do
  let artifacts := unexpired hash store replayId (← seconds now)
  if artifacts.any (isReplay hash replayId) then return ({ store with artifacts }, false)
  let row := ⟨.dpopReplay, hash replayId, none, none, ← nanos now, ← seconds expiresAt⟩
  return ({ store with
    artifacts := upsertRow artifacts (isReplay hash replayId) (fun _ => row) row }, true)

/-- A transaction that commits, at an instant that is not before the last one. -/
inductive ReplayStep : OAuthStore × Int → OAuthStore × Int → Prop
  | claim (hnow : last ≤ now)
      (h : claimReplayId hash store replayId expiresAt now = .ok (store', claimed)) :
      ReplayStep (store, last) (store', now)
  | cleanup (hnow : last ≤ now) (h : seconds now = .ok second) :
      ReplayStep (store, last) (cleanupExpiredIn store stale second, now)

/-- No claim of the id succeeds again before its expiry, whatever commits in between. -/
def ClaimedOnce (store : OAuthStore) (now : Int) (replayId : String) (expiresAt : Int) : Prop :=
  ∀ s, ReflTransGen (ReplayStep hash) (store, now) s → ∀ later, s.2 ≤ later →
    later < expiresAt → ∀ expires store',
      claimReplayId hash s.1 replayId expires later ≠ .ok (store', true)

variable {hash} {store store' : OAuthStore} {replay : String} {now : Int}

theorem seconds_eq_ok : seconds now = .ok second ↔
    ¬ (now < 0 ∨ i64Max < now / 10 ^ 9) ∧ now / 10 ^ 9 = second := by
  rw [seconds, guard_eq_ok, Except.ok.injEq]

theorem mem_unexpired : a ∈ unexpired hash store replay second ↔
    a ∈ store.artifacts ∧ (isReplay hash replay a → second < a.expiresAt) := by
  grind [unexpired]

/-- A claim succeeds exactly when every row of its id has expired, to the second. -/
theorem claimReplayId_eq_true : claimReplayId hash store replay expires now = .ok (store', true) ↔
      (0 ≤ now ∧ now ≤ i64Max) ∧ ¬ (expires < 0 ∨ i64Max < expires / 10 ^ 9) ∧
      (∀ a ∈ store.artifacts, isReplay hash replay a → a.expiresAt ≤ now / 10 ^ 9) ∧
      { store with artifacts := unexpired hash store replay (now / 10 ^ 9) ++
        [⟨.dpopReplay, hash replay, none, none, now, expires / 10 ^ 9⟩] } = store' := by
  rw [claimReplayId, bind_eq_ok]
  constructor
  · rintro ⟨_, hsecond, h⟩
    obtain ⟨-, rfl⟩ := seconds_eq_ok.mp hsecond
    simp only [upsertRow] at h
    split at h
    · cases h
    · simp only [bind_eq_ok, nanos, guard_eq_ok, seconds_eq_ok, pure_eq_ok] at h
      grind [mem_unexpired]
  · rintro ⟨hnow, hexpires, hfree, rfl⟩
    have hnone : ¬ (unexpired hash store replay (now / 10 ^ 9)).any (isReplay hash replay) := by
      grind [mem_unexpired]
    refine ⟨_, seconds_eq_ok.mpr ⟨by omega, rfl⟩, ?_⟩
    simp only [upsertRow, if_neg hnone, bind_eq_ok, nanos, guard_eq_ok, seconds_eq_ok, pure_eq_ok]
    grind

theorem unexpired_subset (h : claimReplayId hash store replay expires now = .ok (store', claimed)) :
    unexpired hash store replay (now / 10 ^ 9) ⊆ store'.artifacts := by
  obtain ⟨_, hsecond, h⟩ := bind_eq_ok.mp h
  obtain ⟨-, rfl⟩ := seconds_eq_ok.mp hsecond
  simp only [upsertRow] at h
  split at h
  · cases h
    exact Subset.refl _
  · simp only [bind_eq_ok, pure_eq_ok] at h
    grind

/-- A replay id that has not expired, to the second, stays. -/
theorem ReplayStep.keeps (hstep : ReplayStep hash s s') (hkind : a.kind = .dpopReplay)
    (h : a ∈ s.1.artifacts ∨ a.expiresAt ≤ s.2 / 10 ^ 9) :
    s.2 ≤ s'.2 ∧ (a ∈ s'.1.artifacts ∨ a.expiresAt ≤ s'.2 / 10 ^ 9) := by
  cases hstep with
  | claim hnow hclaim =>
    have hsubset := @unexpired_subset _ _ _ _ _ _ _ hclaim a
    grind [mem_unexpired]
  | cleanup hnow hsecond =>
    obtain ⟨-, rfl⟩ := seconds_eq_ok.mp hsecond
    grind [cleanupExpiredIn, mem_of_mem_take, mem_mergeSort]

/-- **A replay id is claimed at most once before its expiry exactly when the expiry is a whole
second, has passed when the id is claimed, or lies in a second past those of any claim.** -/
theorem claimed_once_iff (h : claimReplayId hash store replay expires now = .ok (store', true)) :
    ClaimedOnce hash store' now replay expires ↔
      expires % 10 ^ 9 = 0 ∨ expires ≤ now ∨ i64Max < expires / 10 ^ 9 * 10 ^ 9 := by
  obtain ⟨hnow, hrange, hfree, rfl⟩ := claimReplayId_eq_true.mp h
  constructor
  · -- a claim in the expiry's own second finds the row expired
    intro honce
    by_contra hcond
    refine honce _ .refl (max now (expires / 10 ^ 9 * 10 ^ 9)) (le_max_left _ _) (by omega)
      expires _
      (claimReplayId_eq_true.mpr ⟨by omega, hrange, ?_, rfl⟩)
    grind [mem_unexpired]
  · intro hcond s hrun later hlater hlt expires' next hclaim
    obtain ⟨hle, hkept⟩ := Run.keeps
      (P := fun s => now ≤ s.2 ∧ (_ ∈ s.1.artifacts ∨ expires / 10 ^ 9 ≤ s.2 / 10 ^ 9))
      (fun s s' hstep hs => (hstep.keeps rfl hs.2).imp_left hs.1.trans) hrun
      ⟨le_rfl, .inl (mem_append_right _ mem_cons_self)⟩
    obtain ⟨hrange', -, hexpired, -⟩ := claimReplayId_eq_true.mp hclaim
    have hdue : expires / 10 ^ 9 ≤ later / 10 ^ 9 := by
      rcases hkept with hrow | hpast
      · exact hexpired _ hrow (decide_eq_true ⟨rfl, rfl⟩)
      · omega
    omega

theorem claimed_once_second :
    ClaimedOnce id ⟨[⟨.dpopReplay, "jti", none, none, 0, 2⟩], []⟩ 0 "jti" 2000000000 :=
  have h : claimReplayId id ⟨[], []⟩ "jti" 2000000000 0 = .ok (_, true) := rfl
  (claimed_once_iff h).mpr (.inl rfl)

/-- An id that holds for a second and a half is claimed again after a second. -/
theorem claimed_twice : ∃ store store',
    claimReplayId id ⟨[], []⟩ "jti" 1500000000 0 = .ok (store, true) ∧
      claimReplayId id store "jti" 1500000000 1000000000 = .ok (store', true) :=
  ⟨_, _, rfl, rfl⟩

end Auth
