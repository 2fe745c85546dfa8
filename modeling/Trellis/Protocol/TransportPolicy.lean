/-
# Transport policies

A transport policy (`TransportAuthorizationV1`) grants one account subjects to publish and
to subscribe, perhaps an allowance to respond, and has a deadline or none.  `classify`
compares the policy an attachment was admitted with against the one allowed now.

What a policy is for is the set of things it permits (`Permits`).  Over valid policies
`is_covered_by` is inclusion of these sets, so it is reflexive and transitive, and the
three classes tell how the two sets lie to each other.
-/
import Trellis.Protocol.TransportAuthorization
import Trellis.Lib.Checked

namespace TransportAuthorization

open List Checked

/-! ## Policies -/

def transportAuthorizationFormatV1 : String := "trellis.transport-authorization.v1"

def maximumSafeJsonInteger : Nat := 9007199254740991

/-- A bounded response allowance. -/
structure TransportResponseAuthorizationV1 where
  (maxMessages ttlMs : Nat)
  deriving DecidableEq, Repr

/-- The exact policy that one attachment is admitted with. -/
structure TransportAuthorizationV1 where
  (format account : String)
  (publishAllow subscribeAllow : List String)
  response : Option TransportResponseAuthorizationV1
  hardExpiresAt : Option Int
  deriving DecidableEq, Repr

inductive TransportPolicyClass where
  | current
  | upgradeAvailable
  | reductionRequired
  deriving DecidableEq, Repr

/-! ## Validation -/

def isProtocolText (value : String) : Bool :=
  value ≠ "" ∧ value.utf8ByteSize ≤ 1024 ∧ Text.trim value = value ∧
    !value.toList.any Text.isAsciiControl

def validateText (value : String) (path : List String) : Except ProtocolError Unit :=
  if isProtocolText value then .ok ()
  else .error ⟨.invalidFormat, path, "value must be bounded nonempty protocol-safe text"⟩

def isUtf16StrictlySorted : List String → Bool
  | first :: second :: values =>
    Text.encodeUtf16 first < Text.encodeUtf16 second ∧ isUtf16StrictlySorted (second :: values)
  | _ => true

/-- The loop of `validate_subject_pattern_set`, from a position of the set on. -/
def validatePatterns (field : String) : Nat → List String → Except ProtocolError Unit
  | _, [] => .ok ()
  | index, pattern :: patterns =>
    match parsePattern pattern with
    | .error reason => .error ⟨.invalidFormat, [field, toString index], reason⟩
    | .ok _ => validatePatterns field (index + 1) patterns

def validateSubjectPatternSet (patterns : List String) (field : String) :
    Except ProtocolError Unit := do
  validatePatterns field 0 patterns
  if !isUtf16StrictlySorted patterns then
    .error ⟨.nonCanonicalSet, [field], "subject patterns must be sorted and unique"⟩

/-- One number of a response allowance: first that it is positive, then that it is safe. -/
def validateAllowance (value : Nat) (field message : String) : Except ProtocolError Unit := do
  if value = 0 then .error ⟨.invalidFormat, ["response", field], message⟩
  if maximumSafeJsonInteger < value then
    .error ⟨.unsafeJsonInteger, ["response", field],
      "integer must be within the interoperable JSON safe-integer range"⟩

def validateResponse : Option TransportResponseAuthorizationV1 → Except ProtocolError Unit
  | none => .ok ()
  | some response => do
      validateAllowance response.maxMessages "maxMessages" "response message count must be positive"
      validateAllowance response.ttlMs "ttlMs" "response expiry must be positive"

def validateDeadline : Option Int → Except ProtocolError Unit
  | none => .ok ()
  | some deadline =>
    if ¬ (1 ≤ deadline ∧ deadline ≤ maximumSafeJsonInteger) then
      .error ⟨.unsafeJsonInteger, ["hardExpiresAt"],
        "hard deadline must be a positive interoperable JSON integer"⟩
    else .ok ()

namespace TransportAuthorizationV1

def validate (policy : TransportAuthorizationV1) : Except ProtocolError Unit := do
  if policy.format ≠ transportAuthorizationFormatV1 then
    .error ⟨.invalidFormat, ["format"], "unsupported transport-authorization format"⟩
  validateText policy.account ["account"]
  validateSubjectPatternSet policy.publishAllow "publishAllow"
  validateSubjectPatternSet policy.subscribeAllow "subscribeAllow"
  validateResponse policy.response
  validateDeadline policy.hardExpiresAt

end TransportAuthorizationV1

/-! ## Comparing policies -/

def responseCovered : Option TransportResponseAuthorizationV1 →
    Option TransportResponseAuthorizationV1 → Bool
  | none, _ => true
  | some _, none => false
  | some admitted, some allowed =>
    admitted.maxMessages ≤ allowed.maxMessages ∧ admitted.ttlMs ≤ allowed.ttlMs

/-- `i64::MAX`, which stands for no deadline. -/
def noDeadline : Int := 2 ^ 63 - 1

def deadlineCovered (admitted allowed : Option Int) : Bool :=
  admitted.getD noDeadline ≤ allowed.getD noDeadline

namespace TransportAuthorizationV1

def isCoveredBy (policy allowed : TransportAuthorizationV1) : Except ProtocolError Bool := do
  policy.validate
  allowed.validate
  if policy.account ≠ allowed.account then return false
  if !(← subjectUnionCoveredBy policy.publishAllow allowed.publishAllow) then return false
  if !(← subjectUnionCoveredBy policy.subscribeAllow allowed.subscribeAllow) then return false
  if !responseCovered policy.response allowed.response then return false
  if !deadlineCovered policy.hardExpiresAt allowed.hardExpiresAt then return false
  return true

/-- The deadline is not later than a time. -/
def elapsed (policy : TransportAuthorizationV1) (now : Int) : Bool :=
  policy.hardExpiresAt.any fun deadline => deadline ≤ now

/-- Classify an admitted policy.  Equal policies are compared only when their deadline has not
elapsed, and without a look at their subjects. -/
def classify (policy allowed : TransportAuthorizationV1) (now : Int) :
    Except ProtocolError TransportPolicyClass := do
  if policy = allowed then
    policy.validate
  if policy.elapsed now then return .reductionRequired
  if policy = allowed then return .current
  if !(← policy.isCoveredBy allowed) then return .reductionRequired
  if ← allowed.isCoveredBy policy then return .current
  else return .upgradeAvailable

end TransportAuthorizationV1

/-! ## What a policy permits -/

/-- To publish on a subject of an account, to subscribe to one, outstanding responses that live for
some time, and to be attached at a time. -/
inductive Permission where
  | publish (account : String) (subject : ConcreteSubject)
  | subscribe (account : String) (subject : ConcreteSubject)
  | respond (account : String) (messages ttlMs : Nat)
  | attach (account : String) (time : Int)

/-- Some pattern of the list permits the subject. -/
def PermittedBy (patterns : List String) (subject : ConcreteSubject) : Prop :=
  ∃ pattern : SubjectPattern, pattern.text ∈ patterns ∧ pattern.Permits subject

def TransportAuthorizationV1.Permits (policy : TransportAuthorizationV1) : Permission → Prop
  | .publish account subject => account = policy.account ∧ PermittedBy policy.publishAllow subject
  | .subscribe account subject =>
    account = policy.account ∧ PermittedBy policy.subscribeAllow subject
  | .respond account messages ttlMs =>
    account = policy.account ∧
      ∃ response ∈ policy.response, messages ≤ response.maxMessages ∧ ttlMs ≤ response.ttlMs
  | .attach account time =>
    account = policy.account ∧ ∀ deadline ∈ policy.hardExpiresAt, time < deadline

/-! ## Valid policies -/

theorem validatePatterns_ok : ∀ {index : Nat}, validatePatterns field index patterns = .ok () →
      ∃ parsed : List SubjectPattern, parsed.map SubjectPattern.text = patterns := by
  induction patterns with
  | nil =>
    intro index _
    exact ⟨[], rfl⟩
  | cons pattern patterns ih =>
    intro index h
    rw [validatePatterns] at h
    split at h
    · cases h
    rename_i tokens hparse
    obtain ⟨first, rfl, -⟩ := (parsePattern_eq_ok_iff pattern tokens).mp hparse
    obtain ⟨parsed, rfl⟩ := ih h
    exact ⟨first :: parsed, rfl⟩

theorem validateSubjectPatternSet_ok (h : validateSubjectPatternSet patterns field = .ok ()) :
    ∃ parsed : List SubjectPattern, parsed.map SubjectPattern.text = patterns := by
  obtain ⟨_, hpats, -⟩ := bind_eq_ok.mp h
  exact validatePatterns_ok hpats

/-- Subjects are well-formed patterns, and the deadline is below the value that stands for none. -/
structure Valid (policy : TransportAuthorizationV1) : Prop where
  validate : policy.validate = .ok ()
  publish : ∃ parsed : List SubjectPattern, parsed.map SubjectPattern.text = policy.publishAllow
  subscribe : ∃ parsed : List SubjectPattern, parsed.map SubjectPattern.text = policy.subscribeAllow
  deadline : ∀ d ∈ policy.hardExpiresAt, d < noDeadline

theorem Valid.of_validate (h : policy.validate = .ok ()) : Valid policy := by
  have hchecks := h
  unfold TransportAuthorizationV1.validate at hchecks
  simp only [error_bind, guard_eq_ok, bind_eq_ok] at hchecks
  obtain ⟨-, _, -, _, hpub, _, hsub, _, -, hdue⟩ := hchecks
  refine ⟨h, validateSubjectPatternSet_ok hpub, validateSubjectPatternSet_ok hsub, ?_⟩
  intro d hd
  rw [Option.mem_def.mp hd] at hdue
  have hle := (not_not.mp (guard_eq_ok.mp hdue).1).2
  unfold noDeadline
  unfold maximumSafeJsonInteger at hle
  omega

/-! ## Coverage is inclusion -/

section Coverage

theorem permittedBy_map {patterns : List SubjectPattern} :
    PermittedBy (patterns.map SubjectPattern.text) subject ↔
      ∃ pattern ∈ patterns, pattern.Permits subject := by
  constructor
  · rintro ⟨pattern, hmem, hperm⟩
    obtain ⟨other, hother, htext⟩ := mem_map.mp hmem
    refine ⟨other, hother, ?_⟩
    -- what a pattern permits is told by its text
    unfold SubjectPattern.Permits SubjectPattern.tokens
    rw [htext]
    exact hperm
  · rintro ⟨pattern, hmem, hperm⟩
    exact ⟨pattern, mem_map_of_mem hmem, hperm⟩

theorem subjectUnionCoveredBy_ok
    (hsource : ∃ parsed : List SubjectPattern, parsed.map SubjectPattern.text = source)
    (hdestination : ∃ parsed : List SubjectPattern, parsed.map SubjectPattern.text = destination) :
    ∃ covered, subjectUnionCoveredBy source destination = .ok covered ∧
      (covered = true ↔
        ∀ subject, PermittedBy source subject → PermittedBy destination subject) := by
  obtain ⟨source, rfl⟩ := hsource
  obtain ⟨destination, rfl⟩ := hdestination
  refine ⟨_, subjectUnionCoveredBy_text source destination, ?_⟩
  rw [unionCovered_iff]
  simp only [permittedBy_map]

theorem responseCovered_iff {admitted allowed : Option TransportResponseAuthorizationV1} :
    responseCovered admitted allowed = true ↔ ∀ messages ttlMs,
      (∃ response ∈ admitted, messages ≤ response.maxMessages ∧ ttlMs ≤ response.ttlMs) →
        ∃ response ∈ allowed, messages ≤ response.maxMessages ∧ ttlMs ≤ response.ttlMs := by
  cases admitted with
  | none => simp [responseCovered]
  | some admitted =>
    cases allowed with
    | none =>
      refine ⟨nofun, fun h => ?_⟩
      obtain ⟨_, hnone, -⟩ := h 0 0 ⟨admitted, rfl, Nat.zero_le _, Nat.zero_le _⟩
      cases hnone
    | some allowed =>
      rw [responseCovered, decide_eq_true_iff]
      constructor
      · rintro ⟨hmsgs, httl⟩ messages ttlMs ⟨_, ⟨⟩, hm, ht⟩
        exact ⟨allowed, rfl, hm.trans hmsgs, ht.trans httl⟩
      · intro h
        obtain ⟨_, ⟨⟩, hm, ht⟩ := h _ _ ⟨admitted, rfl, Nat.le_refl _, Nat.le_refl _⟩
        exact ⟨hm, ht⟩

theorem deadlineCovered_iff {admitted allowed : Option Int}
    (hadm : ∀ d ∈ admitted, d < noDeadline) (hall : ∀ d ∈ allowed, d < noDeadline) :
    deadlineCovered admitted allowed = true ↔ ∀ time : Int,
      (∀ d ∈ admitted, time < d) → ∀ d ∈ allowed, time < d := by
  rw [deadlineCovered, decide_eq_true_iff]
  cases admitted with
  | none =>
    cases allowed with
    | none => simp
    | some b =>
      have hb := hall b rfl
      refine ⟨fun h => absurd h (not_le.mpr hb), fun h => ?_⟩
      exact absurd (h b nofun b rfl) (lt_irrefl b)
  | some a =>
    cases allowed with
    | none =>
      refine ⟨fun _ _ _ => nofun, fun _ => ?_⟩
      exact le_of_lt (hadm a rfl)
    | some b =>
      constructor
      · rintro h time ha d hd
        obtain rfl := Option.mem_some_iff.mp hd
        exact (ha a rfl).trans_le h
      · intro h
        -- the last time before the admitted deadline
        have hlast := h (a - 1) (by rintro _ ⟨⟩; omega) b rfl
        show a ≤ b
        omega

/-- The parts that `is_covered_by` compares. -/
structure Covers (allowed policy : TransportAuthorizationV1) : Prop where
  account : policy.account = allowed.account
  publish : ∀ subject, PermittedBy policy.publishAllow subject →
    PermittedBy allowed.publishAllow subject
  subscribe : ∀ subject, PermittedBy policy.subscribeAllow subject →
    PermittedBy allowed.subscribeAllow subject
  response : responseCovered policy.response allowed.response = true
  deadline : deadlineCovered policy.hardExpiresAt allowed.hardExpiresAt = true

variable (hpolicy : Valid policy)

variable (hall : Valid allowed)

include hpolicy hall

theorem isCoveredBy_ok : ∃ covered, policy.isCoveredBy allowed = .ok covered ∧
      (covered = true ↔ Covers allowed policy) := by
  obtain ⟨publish, hpub, hpublishIff⟩ := subjectUnionCoveredBy_ok hpolicy.publish hall.publish
  obtain ⟨subscribe, hsub, hsubscribeIff⟩ :=
    subjectUnionCoveredBy_ok hpolicy.subscribe hall.subscribe
  unfold TransportAuthorizationV1.isCoveredBy
  rw [hpolicy.validate, hall.validate, hpub, hsub]
  simp only [ok_bind]
  -- the checks in their order; the first that fails answers `false`
  split
  next hacct => exact ⟨false, rfl, nofun, fun h => absurd h.account hacct⟩
  rename_i hacct
  split
  next hnot => exact ⟨false, rfl, nofun, fun h => by simp [hpublishIff.mpr h.publish] at hnot⟩
  rename_i hcov
  split
  next hnot => exact ⟨false, rfl, nofun, fun h => by simp [hsubscribeIff.mpr h.subscribe] at hnot⟩
  rename_i hsubscribed
  split
  next hnot => exact ⟨false, rfl, nofun, fun h => by simp [h.response] at hnot⟩
  rename_i hresponse
  split
  next hnot => exact ⟨false, rfl, nofun, fun h => by simp [h.deadline] at hnot⟩
  next hdue =>
    refine ⟨true, rfl, fun _ => ?_, fun _ => rfl⟩
    exact ⟨not_not.mp hacct, hpublishIff.mp (by simpa using hcov),
      hsubscribeIff.mp (by simpa using hsubscribed), by simpa using hresponse,
      by simpa using hdue⟩

theorem covers_iff_permits :
    Covers allowed policy ↔
      ∀ permission, policy.Permits permission → allowed.Permits permission := by
  constructor
  · rintro h (⟨account, subject⟩ | ⟨account, subject⟩ | ⟨account, messages, ttlMs⟩ |
      ⟨account, time⟩) ⟨rfl, hperm⟩
    · exact ⟨h.account, h.publish subject hperm⟩
    · exact ⟨h.account, h.subscribe subject hperm⟩
    · exact ⟨h.account, responseCovered_iff.mp h.response messages ttlMs hperm⟩
    · exact ⟨h.account, (deadlineCovered_iff hpolicy.deadline hall.deadline).mp h.deadline
        time hperm⟩
  · intro h
    have hacct : policy.account = allowed.account := by
      -- some time is before any deadline
      have hatt : policy.Permits (.attach policy.account (policy.hardExpiresAt.getD 0 - 1)) := by
        refine ⟨rfl, ?_⟩
        intro d hd
        rw [Option.mem_def.mp hd, Option.getD_some]
        omega
      exact (h _ hatt).1
    refine ⟨hacct, ?_, ?_, ?_, ?_⟩
    · exact fun subject hperm => (h (.publish policy.account subject) ⟨rfl, hperm⟩).2
    · exact fun subject hperm => (h (.subscribe policy.account subject) ⟨rfl, hperm⟩).2
    · refine responseCovered_iff.mpr fun messages ttlMs hperm => ?_
      exact (h (.respond policy.account messages ttlMs) ⟨rfl, hperm⟩).2
    · refine (deadlineCovered_iff hpolicy.deadline hall.deadline).mpr fun time hperm => ?_
      exact (h (.attach policy.account time) ⟨rfl, hperm⟩).2

/-- **Over valid policies `is_covered_by` is inclusion** of what they permit. -/
theorem isCoveredBy_iff_permits :
    ∃ covered, policy.isCoveredBy allowed = .ok covered ∧ (covered = true ↔
      ∀ permission, policy.Permits permission → allowed.Permits permission) := by
  obtain ⟨covered, hok, hiff⟩ := isCoveredBy_ok hpolicy hall
  exact ⟨covered, hok, hiff.trans (covers_iff_permits hpolicy hall)⟩

theorem isCoveredBy_eq_true_iff : policy.isCoveredBy allowed = .ok true ↔
      ∀ permission, policy.Permits permission → allowed.Permits permission := by
  obtain ⟨covered, hok, hiff⟩ := isCoveredBy_iff_permits hpolicy hall
  rw [hok, Except.ok.injEq, hiff]

end Coverage

/-! ## The classes -/

/-- How the permissions of the admitted policy lie to those of the allowed one. -/
def Classifies (policy allowed : TransportAuthorizationV1) (now : Int) : TransportPolicyClass → Prop
  | .reductionRequired => policy.elapsed now = true ∨
      ∃ permission, policy.Permits permission ∧ ¬ allowed.Permits permission
  | .current => policy.elapsed now = false ∧
      ∀ permission, policy.Permits permission ↔ allowed.Permits permission
  | .upgradeAvailable => policy.elapsed now = false ∧
      (∀ permission, policy.Permits permission → allowed.Permits permission) ∧
      ∃ permission, allowed.Permits permission ∧ ¬ policy.Permits permission

/-- The classes exclude each other. -/
theorem Classifies.unique (hfirst : Classifies policy allowed now first)
    (hsecond : Classifies policy allowed now second) : first = second := by
  cases first <;> cases second <;> simp only [Classifies] at hfirst hsecond <;> grind

theorem classify_classifies (hpolicy : Valid policy) (hall : Valid allowed) :
    ∃ cls, policy.classify allowed now = .ok cls ∧ Classifies policy allowed now cls := by
  unfold TransportAuthorizationV1.classify
  rw [hpolicy.validate]
  simp only [ok_bind, ite_self]
  split
  next helapsed => exact ⟨_, rfl, .inl helapsed⟩
  rename_i hlive
  have hlive : policy.elapsed now = false := by simpa using hlive
  split
  next hsame => exact ⟨_, rfl, hlive, fun permission => hsame ▸ Iff.rfl⟩
  obtain ⟨covered, hcov, hcoveredIff⟩ := isCoveredBy_iff_permits hpolicy hall
  obtain ⟨back, hback, hbackIff⟩ := isCoveredBy_iff_permits hall hpolicy
  rw [hcov, hback]
  cases covered with
  | false =>
    refine ⟨_, rfl, .inr ?_⟩
    by_contra hnone
    push Not at hnone
    exact absurd (hcoveredIff.mpr hnone) nofun
  | true =>
    have hincluded := hcoveredIff.mp rfl
    cases back with
    | true => exact ⟨_, rfl, hlive, fun p => ⟨hincluded p, hbackIff.mp rfl p⟩⟩
    | false =>
      refine ⟨_, rfl, hlive, hincluded, ?_⟩
      by_contra hnone
      push Not at hnone
      exact absurd (hbackIff.mpr hnone) nofun

/-- **Classification is exact.**  On valid policies `classify` succeeds, with the class that tells
how their permissions lie; and `is_covered_by` is reflexive and transitive. -/
theorem classify_iff_classifies :
    (∀ policy allowed : TransportAuthorizationV1, policy.validate = .ok () →
      allowed.validate = .ok () → ∀ now : Int, ∃ cls, policy.classify allowed now = .ok cls ∧
        ∀ other, cls = other ↔ Classifies policy allowed now other) ∧
    (∀ policy : TransportAuthorizationV1, policy.validate = .ok () →
      policy.isCoveredBy policy = .ok true) ∧
    ∀ first second third : TransportAuthorizationV1, first.validate = .ok () →
      second.validate = .ok () → third.validate = .ok () →
      first.isCoveredBy second = .ok true → second.isCoveredBy third = .ok true →
        first.isCoveredBy third = .ok true := by
  refine ⟨?_, ?_, ?_⟩
  · intro policy allowed hpolicy hallowed now
    obtain ⟨cls, hok, hclass⟩ := classify_classifies (.of_validate hpolicy) (.of_validate hallowed)
    refine ⟨cls, hok, fun other => ⟨?_, fun hother => hclass.unique hother⟩⟩
    rintro rfl
    exact hclass
  · intro policy hpolicy
    have hvalid := Valid.of_validate hpolicy
    exact (isCoveredBy_eq_true_iff hvalid hvalid).mpr fun _ h => h
  · intro first second third hfirst hsecond hthird hone htwo
    have hfirst := Valid.of_validate hfirst
    have hsecond := Valid.of_validate hsecond
    have hthird := Valid.of_validate hthird
    rw [isCoveredBy_eq_true_iff hfirst hsecond] at hone
    rw [isCoveredBy_eq_true_iff hsecond hthird] at htwo
    exact (isCoveredBy_eq_true_iff hfirst hthird).mpr fun p h => htwo p (hone p h)

/-- A policy that may publish and respond. -/
def sample (publish : List String) (deadline : Option Int) : TransportAuthorizationV1 where
  format := transportAuthorizationFormatV1
  account := "ACCOUNT"
  publishAllow := publish
  subscribeAllow := []
  response := some ⟨10, 1000⟩
  hardExpiresAt := deadline

/-- The allowed policy spells the admitted subjects as two patterns, and has a later deadline. -/
theorem classify_iff_classifies_sample :
    Classifies (sample ["a.>"] (some 100)) (sample ["a.*", "a.*.>"] (some 200)) 10
      .upgradeAvailable := by
  have hpolicy : (sample ["a.>"] (some 100)).validate = .ok () := by decide +kernel
  have hallowed : (sample ["a.*", "a.*.>"] (some 200)).validate = .ok () := by decide +kernel
  obtain ⟨cls, hok, hclass⟩ := classify_iff_classifies.1 _ _ hpolicy hallowed 10
  have hupgrade : (sample ["a.>"] (some 100)).classify (sample ["a.*", "a.*.>"] (some 200)) 10
      = .ok .upgradeAvailable := by
    decide +kernel
  exact (hclass _).mp (Except.ok.inj (hok.symm.trans hupgrade))

end TransportAuthorization
