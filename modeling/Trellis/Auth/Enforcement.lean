/-
# Enforcement of policy changes

Authorization sessions with the authorities issued to them, the enforcement work a
policy change enqueues and the pages that process it (`enforce_next_page`): each page
evaluates a bounded number of sessions in the work's scope and retires those that
lost authority.

Effects after the commit (signed revocations, kicks) are left out; they follow the
retirement and change none of these tables.
-/
import Mathlib.Data.List.Sort
import Mathlib.Data.String.Basic
import Trellis.Auth.Evaluation

open Catalog

namespace Auth

open List Checked

variable {Claims : Type}

/-! ## Sessions and work -/

inductive CredentialKind where
  | oauthGrant
  | provisionedIdentity
  deriving DecidableEq, Repr

inductive SessionState where
  | active
  | superseded
  | revoked
  deriving DecidableEq, Repr

structure AuthorizationSession where
  (authorizationSessionId principalId : String)
  credentialKind : CredentialKind
  (oauthGrantId refreshFamilyLookupHash identityKeyId : Option String)
  state : SessionState
  deriving DecidableEq, Repr

/-- What reduction checks compare in an issued authority. -/
structure ReductionProjection where
  capabilities : List CapabilityAuthority
  apis : List (ApiId × Nat)
  providers : List AuthorityProvider
  resourceBindingsDigest : Option String
  deriving DecidableEq, Repr

/-- A row of `auth_session_authorities`. -/
structure IssuedAuthority where
  (authorizationSessionId issuerKeyId : String)
  projection : ReductionProjection
  (expiresAt maximumAcceptanceDeadline : Int)
  deriving DecidableEq, Repr

inductive WorkState where
  | queued
  | running
  | completed
  deriving DecidableEq, Repr

structure EnforcementWork where
  workId : String
  scope : EnforcementScope
  lane : Nat
  cursor : Option String
  state : WorkState
  (scannedSessions retiredSessions : Nat)
  (nextAttemptAt createdAt : Int)
  deriving DecidableEq, Repr

structure AuthStore (Claims : Type) where
  policy : PolicyTables Claims
  native : NativeTables
  sessions : List AuthorizationSession
  authorities : List IssuedAuthority
  /-- The capabilities and the APIs each session's authorities carry. -/
  sessionCapabilities : List (String × CapabilityId) := []
  sessionApis : List (String × ApiId) := []
  work : List EnforcementWork := []
  /-- Whether the current issuer can sign. -/
  signer : Bool

/-- Work naming one credential or identity takes the targeted lane. -/
def EnforcementScope.lane : EnforcementScope → Nat
  | .principal _ | .login _ | .grant _ | .identity _ | .deployment _ | .session _ => 0
  | .role _ | .capability _ | .api _ | .client _ | .oidcProvider _ | .issuer _ | .all => 1

section

variable (library : Library Claims) (store : AuthStore Claims) (scopeHard : Bool)

def enqueueScope (scope : EnforcementScope) (workId : String) (now : Int) :
    Except AuthError (AuthStore Claims) :=
  if store.work.any fun row => row.workId = workId then .error .storage
  else .ok { store with
    work := store.work ++ [⟨workId, scope, scope.lane, none, .queued, 0, 0, now, now⟩] }

/-- Apply a policy mutation and enqueue its enforcement. -/
def applyAndEnqueue (mutation : PolicyMutation) (workId : String) (now : Int) :
    Except AuthError (AuthStore Claims × EnforcementScope) := do
  let (policy, scope, _) ← applyPolicy library store.policy mutation now
  let store ← enqueueScope { store with policy } scope workId now
  return (store, scope)

/-- The sessions of the OAuth grants that satisfy `select`. -/
def ofGrant (tables : PolicyTables Claims) (session : AuthorizationSession)
    (select : OAuthGrant → Bool) : Bool :=
  tables.grants.any fun g => some g.oauthGrantId = session.oauthGrantId ∧ select g

/-- `session_scope`: whether the scope covers a session. -/
def sessionScope (scope : EnforcementScope) (session : AuthorizationSession) : Bool :=
  let tables := store.policy
  match scope with
  | .principal key => session.principalId = key
  | .login key => ofGrant tables session fun g => g.loginSessionId = key
  | .grant key => session.oauthGrantId = some key
  | .identity key => session.identityKeyId = some key
  | .client key => ofGrant tables session fun g => g.clientId = key
  | .oidcProvider key => ofGrant tables session fun g =>
    tables.logins.any fun l => l.loginSessionId = g.loginSessionId ∧ l.providerId = some key
  | .role key =>
    (tables.roleAssignments.any fun row =>
        row.principalId = session.principalId ∧ row.roleId = key) ||
      ofGrant tables session fun g =>
        tables.logins.any fun l => l.loginSessionId = g.loginSessionId ∧
          tables.oidcMappings.any fun m => some m.providerId = l.providerId ∧
            tables.mappingRoles.any fun row => row.mappingId = m.mappingId ∧ row.roleId = key
  | .capability key => (session.authorizationSessionId, key) ∈ store.sessionCapabilities
  | .api key => (session.authorizationSessionId, key) ∈ store.sessionApis
  | .deployment key => store.native.identities.any fun i =>
    some i.identityKeyId = session.identityKeyId ∧ i.deploymentId = key
  | .issuer key => store.authorities.any fun row =>
    row.authorizationSessionId = session.authorizationSessionId ∧ row.issuerKeyId = key
  | .session key => session.authorizationSessionId = key
  | .all => true

/-! ## Loss of authority -/

def AuthorizationSession.credential (session : AuthorizationSession) :
    Except AuthError Credential :=
  match session.credentialKind, session.oauthGrantId, session.identityKeyId with
  | .oauthGrant, some grant, none => .ok (.oauthGrant grant)
  | .provisionedIdentity, none, some identity => .ok (.provisionedIdentity identity)
  | _, _, _ => .error .denied

section

variable (sessions : List AuthorizationSession) (id : String)

def findSession : Option AuthorizationSession :=
  sessions.find? fun row => row.authorizationSessionId = id

def sessionCredential : Except AuthError Credential :=
  match findSession sessions id with
  | none => .error .notFound
  | some session => session.credential

/-- Whether an issued authority carries more than the evaluation gives. -/
def exceeds (current : Evaluation) (old : ReductionProjection) (expiresAt : Int) : Bool :=
  decide (current.rootNotAfter < expiresAt) ||
  (old.capabilities.any fun held =>
    decide (held ∉ current.capabilities) ||
      (current.capabilityDeadlines held.capabilityId).any fun deadline => deadline < expiresAt) ||
  (old.apis.any fun api => (current.apis api.1).all fun next => next.generation ≠ api.2) ||
  (old.providers.any fun provider => decide (provider ∉ current.providers)) ||
  decide (old.resourceBindingsDigest ≠ current.resourceBindingsDigest)

/-- The authorities of a session that verifiers still accept. -/
def liveAuthorities (now : Int) : List IssuedAuthority :=
  store.authorities.filter fun row =>
    row.authorizationSessionId = id ∧ now < row.maximumAcceptanceDeadline

def latestExpiry : List IssuedAuthority → Int
  | [] => 0
  | [row] => row.expiresAt
  | row :: rows => max row.expiresAt (latestExpiry rows)

/-- Each distinct projection with the latest expiry it was issued under. -/
def latestProjections (rows : List IssuedAuthority) : List (ReductionProjection × Int) :=
  (rows.map IssuedAuthority.projection).dedup.map fun projection =>
    (projection, latestExpiry (rows.filter fun row => row.projection = projection))

def familyUnavailable (now : Int) : Bool :=
  (findSession store.sessions id).any fun session =>
    store.policy.families.any fun family =>
      some family.familyLookupHash = session.refreshFamilyLookupHash ∧
        some family.oauthGrantId = session.oauthGrantId ∧
        (family.revoked ∨ family.expiresAt ≤ now)

def losesAuthority (current : Evaluation) (now : Int) : Bool :=
  familyUnavailable store id now ||
    (latestProjections (liveAuthorities store id now)).any fun row => exceeds current row.1 row.2

end

/-! ## Pages -/

/-- Retire an active session; any other state is final. -/
def retireSession (id : String) (hard : Bool) : Except AuthError (AuthStore Claims × Bool) :=
  match findSession store.sessions id with
  | none => .error .notFound
  | some session =>
    if session.state ≠ .active then .ok (store, false)
    else if !store.signer then .error .unavailable
    else .ok ({ store with
      sessions := store.sessions.map fun row =>
        if row.authorizationSessionId = id ∧ row.state = .active then
          { row with state := if hard then .revoked else .superseded }
        else row }, true)

/-- Whether a session has to be retired, and if so whether for good. -/
def verdict (now : Int) (id : String) : Except AuthError (Option Bool) := do
  let credential ← sessionCredential store.sessions id
  match evaluate library store.policy store.native credential now with
  | .ok current =>
    if scopeHard then return some true
    return if current.requiredMissing ≠ [] || losesAuthority store id current now then some false
      else none
  | .error .denied => return some true
  | .error .notFound => return some true
  | .error .requiredMissing => return some scopeHard
  | .error error => if scopeHard then return some true else .error error

end

def enforceSession (library : Library Claims) (scopeHard : Bool) (now : Int)
    (state : AuthStore Claims × Nat) (id : String) : Except AuthError (AuthStore Claims × Nat) := do
  match ← verdict library state.1 scopeHard now id with
  | none => return state
  | some hard =>
    let (store, retired) ← retireSession state.1 id hard
    return (store, if retired then state.2 + 1 else state.2)

/-- Order of due work: lane, creation, ID. -/
def EnforcementWork.before (a b : EnforcementWork) : Bool :=
  decide (a.lane < b.lane) ||
    (decide (a.lane = b.lane) && (decide (a.createdAt < b.createdAt) ||
      (decide (a.createdAt = b.createdAt) && decide (a.workId ≤ b.workId))))

def nextWork (work : List EnforcementWork) (now : Int) : Option EnforcementWork :=
  let due := work.filter fun row => row.state ≠ .completed ∧ row.nextAttemptAt ≤ now
  due.find? fun row => due.all row.before

section

variable (library : Library Claims) (store : AuthStore Claims)

/-- The sessions of one page: active, in scope and past the cursor, in order. -/
def pageSessions (work : EnforcementWork) (pageSize : Nat) : List String :=
  (((store.sessions.filter fun session => session.state = .active ∧
      sessionScope store work.scope session ∧
      work.cursor.getD "" < session.authorizationSessionId).map
    AuthorizationSession.authorizationSessionId).insertionSort (· ≤ ·)).take pageSize

def EnforcementScope.hard : EnforcementScope → Bool
  | .session _ | .issuer _ => true
  | _ => false

/-- The work's row after a page. -/
def EnforcementWork.advance (work : EnforcementWork) (scanned : List String) (retired : Nat)
    (pageSize : Nat) : EnforcementWork :=
  { work with
    state := if scanned.length < pageSize then .completed else .running
    cursor := scanned.getLast?.or work.cursor
    scannedSessions := work.scannedSessions + scanned.length
    retiredSessions := work.retiredSessions + retired }

/-- Process one bounded page of the next due work; `none` when nothing is due. -/
def enforceNextPage (pageSize : Nat) (now : Int) :
    Except AuthError (AuthStore Claims × Option String) :=
  match nextWork store.work now with
  | none => .ok (store, none)
  | some work => do
      let scanned := pageSessions store work pageSize
      let (store, retired) ← scanned.foldlM (enforceSession library work.scope.hard now) (store, 0)
      return ({ store with
        work := store.work.map fun row =>
          if row.workId = work.workId then work.advance scanned retired pageSize else row },
        some work.workId)

/-! ## What a page guarantees -/

section

variable (session : AuthorizationSession) (now : Int)

/-- The evaluation of a session's credential. -/
def sessionEvaluation : Except AuthError Evaluation :=
  session.credential.bind fun credential =>
    evaluate library store.policy store.native credential now

/-- Whether an authority of a session grants no more than its evaluation gives. -/
def grantsNoMore (authority : IssuedAuthority) : Bool :=
  match sessionEvaluation library store session now with
  | .ok current => !exceeds current authority.projection authority.expiresAt
  | .error _ => false

/-- No authority of the session that is still acceptable grants more. -/
def HoldsNoMore : Prop :=
  ∀ authority ∈ liveAuthorities store session.authorizationSessionId now,
    grantsNoMore library store session now authority = true

end

/-- No active session holds a still acceptable authority beyond what `evaluate` gives. -/
def NoExcess (now : Int) : Prop :=
  ∀ session ∈ store.sessions, session.state = .active → HoldsNoMore library store session now

instance (session : AuthorizationSession) (now : Int) :
    Decidable (HoldsNoMore library store session now) :=
  inferInstanceAs (Decidable (∀ authority ∈
    liveAuthorities store session.authorizationSessionId now,
    grantsNoMore library store session now authority = true))

instance (now : Int) : Decidable (NoExcess library store now) :=
  inferInstanceAs (Decidable (∀ session ∈ store.sessions, session.state = .active →
    HoldsNoMore library store session now))

end

theorem exceeds_eq_false_of_le (hle : expiresAt ≤ later) (h : exceeds current old later = false) :
    exceeds current old expiresAt = false := by
  unfold exceeds at h ⊢
  simp only [Bool.or_eq_false_iff, decide_eq_false_iff_not, any_eq_false] at h ⊢
  obtain ⟨⟨⟨⟨hroot, hcaps⟩, hapis⟩, hprovs⟩, hres⟩ := h
  refine ⟨⟨⟨⟨by omega, ?_⟩, hapis⟩, hprovs⟩, hres⟩
  intro held hheld
  have hcap := hcaps held hheld
  rw [Bool.or_eq_true, not_or] at hcap ⊢
  refine ⟨hcap.1, ?_⟩
  cases hdue : current.capabilityDeadlines held.capabilityId with
  | none => simp
  | some deadline =>
    have hlater := hcap.2
    rw [hdue] at hlater
    simp only [Option.any_some, decide_eq_true_eq] at hlater ⊢
    omega

theorem le_latestExpiry (h : row ∈ rows) : row.expiresAt ≤ latestExpiry rows := by
  induction rows with
  | nil => cases h
  | cons first rest ih =>
    cases rest with
    | nil =>
      obtain rfl := mem_singleton.mp h
      exact Int.le_refl _
    | cons second rest =>
      show row.expiresAt ≤ max first.expiresAt (latestExpiry (second :: rest))
      rcases mem_cons.mp h with rfl | h
      · omega
      · have hrest := ih h
        omega

variable {id : String}

theorem exceeds_eq_false_of_losesAuthority (h : losesAuthority store id current now = false)
    (hlive : authority ∈ liveAuthorities store id now) :
    exceeds current authority.projection authority.expiresAt = false := by
  obtain ⟨-, hrows⟩ := Bool.or_eq_false_iff.mp h
  -- the projection is compared at its latest expiry, which is no earlier
  have hproj : authority.projection ∈
      ((liveAuthorities store id now).map IssuedAuthority.projection).dedup :=
    mem_dedup.mpr (mem_map_of_mem hlive)
  have hlast := any_eq_false.mp hrows _ (mem_map_of_mem hproj)
  refine exceeds_eq_false_of_le ?_ (Bool.eq_false_iff.mpr hlast)
  exact le_latestExpiry (mem_filter.mpr ⟨hlive, by simp⟩)

theorem findSession_eq_some (hnd : (sessions.map AuthorizationSession.authorizationSessionId).Nodup)
    (hmem : session ∈ sessions) :
    findSession sessions session.authorizationSessionId = some session := by
  unfold findSession
  induction sessions with
  | nil => cases hmem
  | cons first rest ih =>
    obtain ⟨hfirst, hrest⟩ := nodup_cons.mp hnd
    rcases mem_cons.mp hmem with rfl | hmem
    · exact find?_cons_of_pos (by simp)
    have hne : first.authorizationSessionId ≠ session.authorizationSessionId := by
      intro heq
      exact hfirst (heq ▸ mem_map_of_mem hmem)
    rw [find?_cons_of_neg (by simpa using hne)]
    exact ih hrest hmem

/-- A session the page lets stand holds no more than its evaluation gives. -/
theorem holdsNoMore_of_verdict
    (hfind : findSession store.sessions session.authorizationSessionId = some session)
    (h : verdict library store scopeHard now session.authorizationSessionId = .ok none) :
    HoldsNoMore library store session now := by
  obtain ⟨credential, hcred, h⟩ := bind_eq_ok.mp h
  have hsession : session.credential = .ok credential := by
    unfold sessionCredential at hcred
    rwa [hfind] at hcred
  intro authority hlive
  unfold grantsNoMore sessionEvaluation
  rw [hsession]
  show (match evaluate library store.policy store.native credential now with
    | .ok current => !exceeds current authority.projection authority.expiresAt
    | .error _ => false) = true
  split at h
  next current hcur =>
    rw [hcur]
    split at h
    · cases h
    split at h
    · cases h
    rename_i hkeep
    rw [Bool.not_eq_true, Bool.or_eq_false_iff] at hkeep
    show (!exceeds current authority.projection authority.expiresAt) = true
    rw [exceeds_eq_false_of_losesAuthority hkeep.2 hlive]
    rfl
  · cases h
  · cases h
  · cases h
  · split at h
    · cases h
    · cases h

/-! ## Sessions are only ever retired -/

/-- The store changes in the states of sessions only, and only away from active. -/
structure OnlyRetires (store store' : AuthStore Claims) : Prop where
  policy : store'.policy = store.policy
  native : store'.native = store.native
  authorities : store'.authorities = store.authorities
  sessionCapabilities : store'.sessionCapabilities = store.sessionCapabilities
  sessionApis : store'.sessionApis = store.sessionApis
  ids : store'.sessions.map AuthorizationSession.authorizationSessionId
    = store.sessions.map AuthorizationSession.authorizationSessionId
  active : ∀ session ∈ store'.sessions, session.state = .active → session ∈ store.sessions

theorem OnlyRetires.refl (store : AuthStore Claims) : OnlyRetires store store :=
  ⟨rfl, rfl, rfl, rfl, rfl, rfl, fun _ hmem _ => hmem⟩

theorem OnlyRetires.trans (h : OnlyRetires s t) (h' : OnlyRetires t u) : OnlyRetires s u :=
  ⟨h'.policy.trans h.policy, h'.native.trans h.native, h'.authorities.trans h.authorities,
    h'.sessionCapabilities.trans h.sessionCapabilities, h'.sessionApis.trans h.sessionApis,
    h'.ids.trans h.ids,
    fun session hmem hact => h.active session (h'.active session hmem hact) hact⟩

theorem OnlyRetires.sessionScope_eq (h : OnlyRetires store store') :
    sessionScope store' scope session = sessionScope store scope session := by
  unfold sessionScope
  rw [h.policy, h.native, h.authorities, h.sessionCapabilities, h.sessionApis]

theorem OnlyRetires.holdsNoMore (h : OnlyRetires store store')
    (hholds : HoldsNoMore library store session now) : HoldsNoMore library store' session now := by
  unfold HoldsNoMore liveAuthorities grantsNoMore sessionEvaluation at *
  rw [h.policy, h.native, h.authorities]
  exact hholds

theorem retireSession_ok
    (hnd : (store.sessions.map AuthorizationSession.authorizationSessionId).Nodup)
    (h : retireSession store id hard = .ok (store', retired)) :
    OnlyRetires store store' ∧ store'.work = store.work ∧
      ∀ session ∈ store'.sessions, session.authorizationSessionId = id →
        session.state ≠ .active := by
  unfold retireSession at h
  split at h
  · cases h
  rename_i found hfound
  split at h
  next hstate =>
    cases h
    refine ⟨OnlyRetires.refl _, rfl, ?_⟩
    rintro session hmem rfl
    rw [findSession_eq_some hnd hmem] at hfound
    exact Option.some.inj hfound ▸ hstate
  · split at h
    · cases h
    cases h
    refine ⟨⟨rfl, rfl, rfl, rfl, rfl, ?_, ?_⟩, rfl, ?_⟩
    · exact map_key_map fun _ => key_ite rfl
    · intro session hmem hact
      obtain ⟨row, hrow, rfl⟩ := mem_map.mp hmem
      split at hact
      · cases hard <;> cases hact
      next hkeep =>
        rw [if_neg hkeep]
        exact hrow
    · intro session hmem hid hact
      obtain ⟨row, hrow, rfl⟩ := mem_map.mp hmem
      split at hact
      · cases hard <;> cases hact
      next hkeep =>
        rw [if_neg hkeep] at hid
        exact hkeep ⟨hid, hact⟩

/-- After its turn in a page a session is retired or holds no more. -/
theorem enforceSession_ok
    (hnd : (state.1.sessions.map AuthorizationSession.authorizationSessionId).Nodup)
    (h : enforceSession library scopeHard now state id = .ok state') :
    OnlyRetires state.1 state'.1 ∧ state'.1.work = state.1.work ∧
      ∀ session ∈ state'.1.sessions, session.authorizationSessionId = id →
        session.state = .active → HoldsNoMore library state'.1 session now := by
  obtain ⟨decision, hverdict, h⟩ := bind_eq_ok.mp h
  cases decision with
  | none =>
    cases h
    refine ⟨OnlyRetires.refl _, rfl, ?_⟩
    rintro session hmem rfl -
    exact holdsNoMore_of_verdict (findSession_eq_some hnd hmem) hverdict
  | some hard =>
    obtain ⟨⟨store', retired⟩, hretire, h⟩ := bind_eq_ok.mp h
    cases h
    obtain ⟨honly, hwork, hinactive⟩ := retireSession_ok hnd hretire
    exact ⟨honly, hwork, fun session hmem hid hact => absurd hact (hinactive session hmem hid)⟩

theorem enforceSessions_ok {scanned : List String}
    (hnd : (state.1.sessions.map AuthorizationSession.authorizationSessionId).Nodup)
    (h : scanned.foldlM (enforceSession library scopeHard now) state = .ok state') :
    OnlyRetires state.1 state'.1 ∧ state'.1.work = state.1.work ∧
      ∀ session ∈ state'.1.sessions, session.authorizationSessionId ∈ scanned →
        session.state = .active → HoldsNoMore library state'.1 session now := by
  induction scanned generalizing state with
  | nil =>
    cases h
    refine ⟨OnlyRetires.refl _, rfl, ?_⟩
    intro session _ hid
    cases hid
  | cons id rest ih =>
    obtain ⟨middle, hfirst, hrest⟩ := bind_eq_ok.mp h
    obtain ⟨honly, hwork, hheld⟩ := enforceSession_ok hnd hfirst
    obtain ⟨honly', hwork', hheld'⟩ := ih (honly.ids ▸ hnd) hrest
    refine ⟨honly.trans honly', hwork'.trans hwork, ?_⟩
    intro session hmem hid hact
    rcases mem_cons.mp hid with hid | hid
    · -- judged first, and still standing in what follows
      exact honly'.holdsNoMore (hheld session (honly'.active session hmem hact) hid hact)
    · exact hheld' session hmem hid hact

/-! ## Work processed to completion -/

/-- One call of `enforce_next_page` that succeeds. -/
def Page (library : Library Claims) (pageSize : Nat) (now : Int)
    (store store' : AuthStore Claims) : Prop :=
  ∃ id, enforceNextPage library store pageSize now = .ok (store', id)

/-- A page reaches every session up to its new cursor, and all when it completes. -/
theorem mem_pageSessions (hmem : session ∈ store.sessions) (hact : session.state = .active)
    (hscope : sessionScope store work.scope session = true)
    (hcursor : work.cursor.getD "" < session.authorizationSessionId)
    (hreach : (work.advance (pageSessions store work pageSize) retired pageSize).state
        = .completed ∨
      session.authorizationSessionId ≤
        ((work.advance (pageSessions store work pageSize) retired pageSize).cursor).getD "") :
    session.authorizationSessionId ∈ pageSessions store work pageSize := by
  unfold pageSessions at hreach ⊢
  generalize hcands : ((store.sessions.filter fun session => session.state = .active ∧
      sessionScope store work.scope session ∧
      work.cursor.getD "" < session.authorizationSessionId).map
    AuthorizationSession.authorizationSessionId).insertionSort (· ≤ ·) = ids at hreach
  have hsorted : ids.Pairwise (· ≤ ·) := by
    rw [← hcands]
    exact pairwise_insertionSort _ _
  have hin : session.authorizationSessionId ∈ ids := by
    rw [← hcands, mem_insertionSort]
    exact mem_map_of_mem (mem_filter.mpr ⟨hmem, decide_eq_true ⟨hact, hscope, hcursor⟩⟩)
  rcases hreach with hdone | hcursor'
  · -- a page shorter than its size holds every candidate
    unfold EnforcementWork.advance at hdone
    split at hdone
    next hshort =>
      rw [length_take] at hshort
      rw [take_of_length_le (by omega)]
      exact hin
    · cases hdone
  · cases hlast : (ids.take pageSize).getLast? with
    | none =>
      -- an empty page leaves the cursor where it was
      unfold EnforcementWork.advance at hcursor'
      rw [hlast] at hcursor'
      exact absurd hcursor (not_lt.mpr hcursor')
    | some last =>
      unfold EnforcementWork.advance at hcursor'
      rw [hlast] at hcursor'
      rw [← take_append_drop pageSize ids] at hin hsorted
      rcases mem_append.mp hin with hin | hin
      · exact hin
      · have hmem := mem_of_getLast? hlast
        have hge := (pairwise_append.mp hsorted).2.2 last hmem _ hin
        exact le_antisymm hcursor' hge ▸ hmem

/-- Sessions that the work has passed or does not scope hold no more than they are given. -/
structure Progress (library : Library Claims) (scope : EnforcementScope) (workId : String)
    (now : Int) (store : AuthStore Claims) : Prop where
  nodup : (store.sessions.map AuthorizationSession.authorizationSessionId).Nodup
  outside : ∀ session ∈ store.sessions, session.state = .active →
    sessionScope store scope session = false → HoldsNoMore library store session now
  scope_eq : ∀ row ∈ store.work, row.workId = workId → row.scope = scope
  passed : ∀ row ∈ store.work, row.workId = workId → ∀ session ∈ store.sessions,
    session.state = .active → sessionScope store scope session = true →
    (row.state = .completed ∨ session.authorizationSessionId ≤ row.cursor.getD "") →
    HoldsNoMore library store session now

theorem progress_page (store store' : AuthStore Claims)
    (hpage : Page library pageSize now store store')
    (h : Progress library scope workId now store) : Progress library scope workId now store' := by
  obtain ⟨id, hpage⟩ := hpage
  unfold enforceNextPage at hpage
  split at hpage
  · cases hpage
    exact h
  rename_i work hnext
  obtain ⟨⟨middle, retired⟩, hfold, hpage⟩ := bind_eq_ok.mp hpage
  cases hpage
  obtain ⟨honly, hsame, hheld⟩ := enforceSessions_ok h.nodup hfold
  have hwork : work ∈ store.work := (mem_filter.mp (mem_of_find?_eq_some hnext)).1
  replace honly : ∀ work, OnlyRetires store { middle with work } := fun _ =>
    ⟨honly.policy, honly.native, honly.authorities, honly.sessionCapabilities,
      honly.sessionApis, honly.ids, honly.active⟩
  refine ⟨(honly _).ids ▸ h.nodup, ?_, ?_, ?_⟩
  · intro session hmem hact hscope
    rw [(honly _).sessionScope_eq] at hscope
    exact (honly _).holdsNoMore (h.outside session ((honly _).active session hmem hact) hact hscope)
  · intro row hrow hid
    obtain ⟨old, hold, rfl⟩ := mem_map.mp hrow
    rw [hsame] at hold
    split at hid
    next hsame =>
      rw [if_pos hsame]
      exact h.scope_eq work hwork hid
    next hother =>
      rw [if_neg hother]
      exact h.scope_eq old hold hid
  · intro row hrow hid session hmem hact hscope hreach
    have hbefore := (honly _).active session hmem hact
    rw [(honly _).sessionScope_eq] at hscope
    obtain ⟨old, hold, rfl⟩ := mem_map.mp hrow
    rw [hsame] at hold
    split at hid
    next hsame =>
      rw [if_pos hsame] at hreach
      have hscope_eq : work.scope = scope := h.scope_eq work hwork hid
      by_cases hcursor : work.cursor.getD "" < session.authorizationSessionId
      · refine hheld session hmem ?_ hact
        exact mem_pageSessions hbefore hact (hscope_eq ▸ hscope) hcursor hreach
      · exact (honly _).holdsNoMore
          (h.passed work hwork hid session hbefore hact hscope (.inr (not_lt.mp hcursor)))
    next hother =>
      rw [if_neg hother] at hreach
      exact (honly _).holdsNoMore (h.passed old hold hid session hbefore hact hscope hreach)

/-- Once the work is completed, no active session holds more. -/
theorem noExcess_of_completed (h : Progress library scope workId now store)
    (hdone : ∃ row ∈ store.work, row.workId = workId ∧ row.state = .completed) :
    NoExcess library store now := by
  obtain ⟨row, hrow, hid, hcompleted⟩ := hdone
  intro session hmem hact
  cases hscope : sessionScope store scope session with
  | false => exact h.outside session hmem hact hscope
  | true => exact h.passed row hrow hid session hmem hact hscope (.inl hcompleted)

end Auth
