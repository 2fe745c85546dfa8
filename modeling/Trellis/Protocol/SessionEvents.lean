/-
# Verifying events

A session event is accepted on the authority of the session that published it
(`verify_session_event`), live or out of a stream that kept it.  Two times are read from texts,
the publisher's and the broker's, and both have to lie where the authority was valid and not
revoked.
-/
import Trellis.Protocol.TransportPolicy

namespace SessionEvents

open List Checked TransportAuthorization

abbrev Bytes := List UInt8

/-- The one answer to a wrong publication. -/
def reject : ProtocolError :=
  ⟨.invalidEventProof, [], "event identity or publication evidence rejected"⟩

/-- Times in nanoseconds since 1970, identifiers, encoded bytes and cryptography. -/
structure Library (Key : Type) where
  parseRfc3339 : String → Option Int
  validateApiId : String → Except ProtocolError Unit
  validateId : String → String → Except ProtocolError Unit
  decodeBase64url : Nat → String → Except ProtocolError Bytes
  sha256 : Bytes → Bytes
  verifyStrict : Key → Bytes → Bytes → Bool

variable {Key : Type} (library : Library Key)

/-! ## What is signed -/

def validateSubject (value : String) : Except ProtocolError Unit := do
  validateText value ["subject"]
  if "" ∈ Text.split '.' value ∨ value.toList.any fun c => c = '*' ∨ c = '>' ∨ Text.isWhitespace c
  then .error ⟨.invalidFormat, ["subject"], "literal NATS subject required"⟩

structure SessionEvent where
  (authorityDigest apiId : String)
  (apiGeneration acceptedRevision : Nat)
  (action subject eventId eventTime : String)
  deriving DecidableEq, Repr

/-- `to_be_bytes` of an integer with that many bytes. -/
def toBeBytes : Nat → Nat → Bytes
  | 0, _ => []
  | width + 1, n => toBeBytes width (n / 256) ++ [UInt8.ofNat n]

def pushComponent (bytes value : Bytes) : Except ProtocolError Bytes :=
  if value.length < 2 ^ 32 then .ok (bytes ++ toBeBytes 4 value.length ++ value)
  else .error ⟨.invalidFormat, [], "proof component too large"⟩

def eventSigningDigestSha256 (event : SessionEvent) (payloadSha256 : Bytes) :
    Except ProtocolError Bytes := do
  library.validateApiId event.apiId
  validateText event.action ["action"]
  validateSubject event.subject
  library.validateId event.eventId "eventId"
  validateText event.eventTime ["eventTime"]
  if event.apiGeneration = 0 ∨ event.acceptedRevision = 0 then
    .error ⟨.invalidFormat, [], "event API counters must be nonzero"⟩
  let authorityDigest ← library.decodeBase64url 32 event.authorityDigest
  let utf8 := fun text : String => text.toByteArray.data.toList
  let bytes ← [utf8 "trellis.message.event.v1", authorityDigest, utf8 event.apiId,
    toBeBytes 8 event.apiGeneration, toBeBytes 8 event.acceptedRevision, utf8 event.action,
    utf8 event.subject, utf8 event.eventId, utf8 event.eventTime, payloadSha256].foldlM
      pushComponent []
  return library.sha256 bytes

/-! ## Verification -/

inductive SessionAuthorityPurpose where
  | live
  | historicalEvent
  deriving DecidableEq, Repr

structure AuthorityApi where
  apiId : String
  (generation acceptedRevision : Nat)
  deriving DecidableEq, Repr

/-- A signature-checked authority.  Of what it signs, the parts that events are judged by. -/
structure VerifiedSessionAuthority (Key : Type) where
  (notBefore expiresAt : Int)
  apis : List AuthorityApi
  digest : String
  sessionKey : Key
  purpose : SessionAuthorityPurpose
  revocationCutoff : Option Int

structure SessionAuthorityVerificationPolicy where
  nowUnixSeconds : Int
  allowedClockSkewSeconds : Nat

/-- What the broker stored of the publication. -/
structure OriginalEventPublication where
  publishedAt : String
  streamSequence : Nat

structure SessionEventVerificationInput (Key : Type) where
  authority : VerifiedSessionAuthority Key
  event : SessionEvent
  payloadSha256 : Bytes
  proof : String
  policy : SessionAuthorityVerificationPolicy
  originalPublication : Option OriginalEventPublication
  knownRevoked : Bool

structure VerifiedSessionEvent (Key : Type) where
  authority : VerifiedSessionAuthority Key
  event : SessionEvent
  originalPublication : Option OriginalEventPublication
  digest : Bytes

section

variable (authority : VerifiedSessionAuthority Key)

def VerifiedSessionAuthority.assertCurrent (policy : SessionAuthorityVerificationPolicy)
    (knownRevoked : Bool) : Except ProtocolError Unit := do
  if authority.purpose ≠ .live then .error ⟨.historicalContext, [], "historical-only authority"⟩
  if knownRevoked ∨ authority.revocationCutoff.isSome then
    .error ⟨.sessionRevoked, [], "logical session revoked"⟩
  if policy.nowUnixSeconds < authority.notBefore then
    .error ⟨.contextNotYetValid, [], "authority not yet valid"⟩
  if authority.expiresAt ≤ policy.nowUnixSeconds then
    .error ⟨.contextExpired, [], "authority expired"⟩

/-- The comparison of a time with the window and the cutoff, whose units are seconds. -/
def VerifiedSessionAuthority.excludes (time : Int) : Bool :=
  time < authority.notBefore * 1000000000 ∨ authority.expiresAt * 1000000000 ≤ time ∨
    authority.revocationCutoff.any fun cutoff => cutoff * 1000000000 ≤ time

/-- A live event needs a current authority, one out of a stream its publication. -/
def checkPurpose (input : SessionEventVerificationInput Key) : Except ProtocolError Unit :=
  if input.authority.purpose = .live then
    input.authority.assertCurrent input.policy input.knownRevoked
  else if input.originalPublication.isNone ∨
      (input.knownRevoked ∧ input.authority.revocationCutoff.isNone) then .error reject
  else .ok ()

/-- The time of a text. -/
def parseTime (text : String) : Except ProtocolError Int :=
  (library.parseRfc3339 text).elim (.error reject) .ok

def verifyPublication : Option OriginalEventPublication → Except ProtocolError Unit
  | none => .ok ()
  | some publication => do
    let publishedAt ← parseTime library publication.publishedAt
    if publication.streamSequence = 0 ∨ authority.excludes publishedAt then .error reject

end

def verifySessionEvent (input : SessionEventVerificationInput Key) :
    Except ProtocolError (VerifiedSessionEvent Key) := do
  let authority := input.authority
  let event := input.event
  checkPurpose input
  if event.authorityDigest ≠ authority.digest ∨ ¬ authority.apis.any fun api =>
      api = ⟨event.apiId, event.apiGeneration, event.acceptedRevision⟩ then .error reject
  let eventTime ← parseTime library event.eventTime
  if authority.excludes eventTime ∨ (authority.purpose = .live ∧
      input.policy.allowedClockSkewSeconds <
        (eventTime / 1000000000 - input.policy.nowUnixSeconds).natAbs) then .error reject
  verifyPublication library authority input.originalPublication
  let digest ← eventSigningDigestSha256 library event input.payloadSha256
  let signature ← library.decodeBase64url 64 input.proof
  if !library.verifyStrict authority.sessionKey digest signature then .error reject
  return ⟨authority, event, input.originalPublication, digest⟩

/-! ## The window -/

/-- A time at which the authority was valid and its session not revoked. -/
def VerifiedSessionAuthority.Admits (authority : VerifiedSessionAuthority Key)
    (time : Int) : Prop :=
  authority.notBefore * 1000000000 ≤ time ∧ time < authority.expiresAt * 1000000000 ∧
    ∀ cutoff ∈ authority.revocationCutoff, time < cutoff * 1000000000

variable {library}

theorem admits_of_not_excludes {authority : VerifiedSessionAuthority Key}
    (h : ¬ authority.excludes time = true) : authority.Admits time := by
  simp only [VerifiedSessionAuthority.excludes, decide_eq_true_eq, not_or, not_lt, not_le,
    Option.any_eq_true, not_exists, not_and] at h
  exact h

theorem parseTime_ok :
    parseTime library text = .ok time ↔ library.parseRfc3339 text = some time := by
  unfold parseTime
  cases library.parseRfc3339 text <;> simp

theorem assertCurrent_ok {authority : VerifiedSessionAuthority Key}
    (h : authority.assertCurrent policy revoked = .ok ()) :
    (revoked = false ∧ authority.revocationCutoff = none) ∧
      policy.nowUnixSeconds < authority.expiresAt := by
  obtain ⟨-, h⟩ := guard_eq_ok.mp h
  obtain ⟨hnot, h⟩ := guard_eq_ok.mp h
  obtain ⟨-, h⟩ := guard_eq_ok.mp h
  obtain ⟨hlive, -⟩ := guard_eq_ok.mp h
  exact ⟨by simpa using hnot, not_le.mp hlive⟩

/-- **Events are accepted within the window of their authority.**  The publisher's time and the
broker's lie in it and before any cutoff; one out of a stream comes with its publication, and that
of a revoked session with a cutoff; a live one is of a session that is not revoked. -/
theorem verifySessionEvent_window (library : Library Key)
    (input : SessionEventVerificationInput Key)
    (verified : VerifiedSessionEvent Key) (h : verifySessionEvent library input = .ok verified) :
    (∃ time, library.parseRfc3339 input.event.eventTime = some time ∧ input.authority.Admits time) ∧
      (∀ publication ∈ input.originalPublication, publication.streamSequence ≠ 0 ∧ ∃ time,
        library.parseRfc3339 publication.publishedAt = some time ∧ input.authority.Admits time) ∧
      (input.authority.purpose = .historicalEvent → input.originalPublication.isSome ∧
        (input.knownRevoked → input.authority.revocationCutoff.isSome)) ∧
      (input.authority.purpose = .live →
        input.knownRevoked = false ∧ input.authority.revocationCutoff = none) := by
  obtain ⟨_, hmode, h⟩ := bind_eq_ok.mp h
  obtain ⟨-, h⟩ := guard_eq_ok.mp h
  obtain ⟨time, htime, h⟩ := bind_eq_ok.mp h
  obtain ⟨hin, h⟩ := guard_eq_ok.mp h
  obtain ⟨_, hpub, -⟩ := bind_eq_ok.mp h
  refine ⟨⟨time, parseTime_ok.mp htime, admits_of_not_excludes (not_or.mp hin).1⟩, ?_, ?_, ?_⟩
  · intro publication hsome
    rw [Option.mem_def.mp hsome] at hpub
    obtain ⟨time, htime, hpub⟩ := bind_eq_ok.mp hpub
    obtain ⟨hseq, hin⟩ := not_or.mp (guard_eq_ok.mp hpub).1
    exact ⟨hseq, time, parseTime_ok.mp htime, admits_of_not_excludes hin⟩
  · intro hpurpose
    rw [checkPurpose, if_neg (by rw [hpurpose]; nofun)] at hmode
    obtain ⟨hnot, -⟩ := guard_eq_ok.mp hmode
    simpa [Option.isSome_iff_ne_none] using hnot
  · intro hpurpose
    rw [checkPurpose, if_pos hpurpose] at hmode
    exact (assertCurrent_ok hmode).1

/-- A kept event of a session that was revoked half a second after its publication. -/
def keptEvent : SessionEventVerificationInput Unit where
  authority := ⟨0, 10, [⟨"clock@v1", 1, 1⟩], "digest", (), .historicalEvent, some 6⟩
  event := ⟨"digest", "clock@v1", 1, 1, "Tick", "events.v1.clock.Tick",
    "01ARZ3NDEKTSV4RRFFQ69G5FAV", "1970-01-01T00:00:05Z"⟩
  payloadSha256 := []
  proof := "proof"
  policy := ⟨100, 30⟩
  originalPublication := some ⟨"1970-01-01T00:00:05.5Z", 7⟩
  knownRevoked := true

/-- The times of the event and of its publication are read as what they are. -/
def keptLibrary : Library Unit where
  parseRfc3339
    | "1970-01-01T00:00:05Z" => some 5000000000
    | "1970-01-01T00:00:05.5Z" => some 5500000000
    | _ => none
  validateApiId _ := .ok ()
  validateId _ _ := .ok ()
  decodeBase64url _ _ := .ok []
  sha256 bytes := bytes
  verifyStrict _ _ _ := true

theorem verifySessionEvent_window_kept : ∃ time,
    keptLibrary.parseRfc3339 "1970-01-01T00:00:05Z" = some time ∧
      keptEvent.authority.Admits time := by
  have h : verifySessionEvent keptLibrary keptEvent = .ok _ := rfl
  exact (verifySessionEvent_window keptLibrary keptEvent _ h).1

end SessionEvents
