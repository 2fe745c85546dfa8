/-
# Reviews of API definitions and the policy they saw

A review records a digest of the policy that concerns its API: the roles, mappings and direct
grants that reach one of its capabilities, each with its revision, and the deployments that
provide it.  Accepting the review compares it with the digest of that moment (`policy_snapshot`).

Equal digests mean equal keys and revisions, and for roles, which only move forward, equal roles.
A grant or mapping that comes back starts again at the first revision, and the deployments are
selected by a field that stored implementations do not have.
-/
import Mathlib.Data.List.Sort
import Trellis.Auth.PolicyRevisions
import Trellis.Deployments.Transactions
import Trellis.Lib.Text

open Catalog Auth Versioned

namespace Deployments

open List Checked

variable {Claims Evidence Edit : Type}

/-! ## The snapshot -/

/-- `capability_prefix`: `trellis.auth@v1` becomes `trellis.auth.v1`. -/
def capabilityPrefix (api : ApiId) : String :=
  match api.toList.reverse.span (· ≠ '@') with
  | (_, []) => api
  | (major, _ :: name) => String.ofList name.reverse ++ "." ++ String.ofList major.reverse

/-- The text of a capability ID. -/
def capabilityText (id : CapabilityId) : String :=
  capabilityPrefix id.api ++ ":" ++ id.name

variable (tables : PolicyTables Claims) (identities : List CapabilityIdentity) (api : ApiId)

/-- The identity rows of an API's capability generation. -/
def identitiesOf (id : CapabilityId) (generation : Nat) : List CapabilityIdentity :=
  identities.filter fun row =>
    row.capabilityId = id ∧ row.identityGeneration = generation ∧ row.capabilityId.api = api

def roleLine (role : Role) : String :=
  role.roleId ++ ":" ++ toString role.identityGeneration ++ ":" ++ toString role.revision

def mappingLine (mapping : OidcMapping) : String :=
  mapping.mappingId ++ ":" ++ toString mapping.revision

def grantLine (row : DirectCapability) : String :=
  row.principalId ++ ":" ++ capabilityText row.capabilityId ++ ":" ++
    toString row.capabilityGeneration ++ ":" ++ toString row.revision

def bindingLine (binding : Binding) : String :=
  binding.deploymentId ++ ":" ++ toString binding.revision

def roleLines : List String :=
  tables.roles.flatMap fun role =>
    (capabilitiesOf tables role).flatMap fun row =>
      (identitiesOf identities api row.capabilityId row.capabilityGeneration).map fun _ =>
        roleLine role

def mappingLines : List String :=
  tables.oidcMappings.flatMap fun mapping =>
    (rolesOf tables mapping).flatMap fun assigned =>
      (tables.roleCapabilities.filter fun row =>
          row.roleId = assigned.roleId ∧ row.roleGeneration = assigned.roleGeneration).flatMap
        fun row =>
          (identitiesOf identities api row.capabilityId row.capabilityGeneration).map fun _ =>
            mappingLine mapping

def grantLines : List String :=
  tables.directCapabilities.flatMap fun row =>
    (identitiesOf identities api row.capabilityId row.capabilityGeneration).map fun _ =>
      grantLine row

/-- The deployments whose stored implementations name the API in a field. -/
def namingBindings (field : String) (bindings : List Binding) (api : ApiId) : List Binding :=
  bindings.filter fun binding => binding.providedApis.any fun value =>
    jsonExtract value field = some (.text api)

def sortLines (lines : List String) : List String :=
  lines.insertionSort (· ≤ ·)

/-- The rows `policy_snapshot` selects, one list for each of its queries. -/
def policyRows (policy : PolicyTables Claims × List Binding) (identities : List CapabilityIdentity)
    (api : ApiId) : List (List String) :=
  [sortLines (roleLines policy.1 identities api),
    sortLines (mappingLines policy.1 identities api).dedup,
    sortLines (grantLines policy.1 identities api),
    sortLines ((namingBindings "apiId" policy.2 api).map bindingLine)]

/-- The platform's snapshot is the digest of the selected rows. -/
def TakesSnapshots (platform : Platform Claims Evidence Edit)
    (digest : List (List String) → String) : Prop :=
  ∀ policy identities api, platform.catalog.policySnapshot policy identities api
    = digest (policyRows policy identities api)

/-! ## What concerns an API -/

section

variable (store : Store Claims Evidence) (api : ApiId) (id : CapabilityId)

/-- The capability generation is one the API has had. -/
def Concerns (generation : Nat) : Prop :=
  id.api = api ∧ HasIdentity store.policy.catalog.identities id generation

def RelevantRole (entry : RoleEntry) : Prop :=
  ∃ row ∈ entry.2, Concerns store api row.capabilityId row.capabilityGeneration

def RelevantMapping (entry : MappingEntry) : Prop :=
  ∃ assigned ∈ entry.2, ∃ row ∈ store.policy.roleCapabilities,
    (row.roleId = assigned.roleId ∧ row.roleGeneration = assigned.roleGeneration) ∧
      Concerns store api row.capabilityId row.capabilityGeneration

def RelevantGrant (row : DirectCapability) : Prop :=
  Concerns store api row.capabilityId row.capabilityGeneration

instance (generation : Nat) : Decidable (Concerns store api id generation) :=
  inferInstanceAs (Decidable (_ ∧ ∃ row ∈ store.policy.catalog.identities, _))

instance (entry : RoleEntry) : Decidable (RelevantRole store api entry) :=
  inferInstanceAs (Decidable (∃ row ∈ entry.2, _))

instance (entry : MappingEntry) : Decidable (RelevantMapping store api entry) :=
  inferInstanceAs (Decidable (∃ assigned ∈ entry.2, ∃ row ∈ store.policy.roleCapabilities, _))

instance (row : DirectCapability) : Decidable (RelevantGrant store api row) :=
  inferInstanceAs (Decidable (Concerns store api _ _))

def relevantMappings : List MappingEntry :=
  (mappingEntries store.policy).filter fun entry => RelevantMapping store api entry

def relevantGrants : List DirectCapability :=
  store.policy.directCapabilities.filter fun row => RelevantGrant store api row

/-- The bindings of the deployments that provide an API. -/
def providers : List Binding :=
  namingBindings "api_id" store.bindings api

end

/-- Two stores hold the same policy for an API. -/
structure SamePolicy (api : ApiId) (store₀ store : Store Claims Evidence) : Prop where
  roles : ∀ entry, (entry ∈ roleEntries store.policy ∧ RelevantRole store api entry) ↔
    (entry ∈ roleEntries store₀.policy ∧ RelevantRole store₀ api entry)
  mappings : ∀ entry, (entry ∈ mappingEntries store.policy ∧ RelevantMapping store api entry) ↔
    (entry ∈ mappingEntries store₀.policy ∧ RelevantMapping store₀ api entry)
  grants : ∀ row, (row ∈ store.policy.directCapabilities ∧ RelevantGrant store api row) ↔
    (row ∈ store₀.policy.directCapabilities ∧ RelevantGrant store₀ api row)
  providers : ∀ binding, binding ∈ providers store api ↔ binding ∈ providers store₀ api

/-! ## Lines determine keys and revisions -/

theorem roleLine_inj {role role' : Role} (h : roleLine role = roleLine role') :
    roleKey role = roleKey role' ∧ role.revision = role'.revision := by
  obtain ⟨h, hrev⟩ := Text.append_nat_inj h
  obtain ⟨hid, hgen⟩ := Text.append_nat_inj h
  exact ⟨Prod.ext hid hgen, hrev⟩

variable {api : ApiId} {store store' : Store Claims Evidence} {id : CapabilityId}
  {rows : List DirectCapability} {platform : Platform Claims Evidence Edit}

/-- The grants of one API, whose capability names hold no separator. -/
theorem grantLine_eq_iff (hapi : row.capabilityId.api = api) (hapi' : row'.capabilityId.api = api)
    (hname : ':' ∉ row.capabilityId.name.toList) (hname' : ':' ∉ row'.capabilityId.name.toList) :
    grantLine row = grantLine row' ↔
      grantKey row = grantKey row' ∧ row.revision = row'.revision := by
  constructor
  · intro h
    obtain ⟨h, hrev⟩ := Text.append_nat_inj h
    obtain ⟨h, hgen⟩ := Text.append_nat_inj h
    rw [capabilityText, capabilityText, hapi, hapi'] at h
    have hlist : (row.principalId.toList ++ ':' :: (capabilityPrefix api).toList) ++
          ':' :: row.capabilityId.name.toList
        = (row'.principalId.toList ++ ':' :: (capabilityPrefix api).toList) ++
          ':' :: row'.capabilityId.name.toList := by
      simpa [String.toList_append] using congrArg String.toList h
    obtain ⟨hleft, hright⟩ := Text.append_sep_inj_right hname hname' hlist
    have hprin := String.toList_injective (append_cancel_right hleft)
    have hid : row.capabilityId = row'.capabilityId := by
      cases hrow : row.capabilityId
      cases hrow' : row'.capabilityId
      rw [hrow] at hapi hright
      rw [hrow'] at hapi' hright
      exact congrArg₂ CapabilityId.mk (hapi.trans hapi'.symm) (String.toList_injective hright)
    exact ⟨by rw [grantKey, grantKey, hprin, hid, hgen], hrev⟩
  · rintro ⟨hkey, hrev⟩
    obtain ⟨hprin, hkey⟩ := Prod.mk.inj hkey
    obtain ⟨hid, hgen⟩ := Prod.mk.inj hkey
    rw [grantLine, grantLine, hprin, hid, hgen, hrev]

theorem identitiesOf_ne_nil :
    (∃ row, row ∈ identitiesOf store.policy.catalog.identities api id generation) ↔
      Concerns store api id generation := by
  constructor
  · rintro ⟨row, hrow⟩
    obtain ⟨hmem, hkey⟩ := mem_filter.mp hrow
    obtain ⟨hid, hgen, hapi⟩ := of_decide_eq_true hkey
    exact ⟨hid ▸ hapi, row, hmem, hid, hgen⟩
  · rintro ⟨hapi, row, hmem, hid, hgen⟩
    exact ⟨row, mem_filter.mpr ⟨hmem, decide_eq_true ⟨hid, hgen, hid ▸ hapi⟩⟩⟩

theorem mem_roleLines : line ∈ roleLines store.policy store.policy.catalog.identities api ↔
      ∃ entry ∈ roleEntries store.policy, RelevantRole store api entry ∧
        roleLine entry.1 = line := by
  unfold roleLines
  simp only [mem_flatMap, mem_map]
  constructor
  · rintro ⟨role, hrole, row, hrow, identity, hident, hline⟩
    exact ⟨(role, capabilitiesOf store.policy role), mem_roleEntries.mpr ⟨hrole, rfl⟩,
      ⟨row, hrow, identitiesOf_ne_nil.mp ⟨identity, hident⟩⟩, hline⟩
  · rintro ⟨entry, hentry, ⟨row, hrow, hconc⟩, hline⟩
    obtain ⟨hrole, hcaps⟩ := mem_roleEntries.mp hentry
    obtain ⟨identity, hident⟩ := identitiesOf_ne_nil.mpr hconc
    exact ⟨entry.1, hrole, row, hcaps ▸ hrow, identity, hident, hline⟩

theorem mem_mappingLines : line ∈ mappingLines store.policy store.policy.catalog.identities api ↔
      ∃ entry ∈ mappingEntries store.policy, RelevantMapping store api entry ∧
        mappingLine entry.1 = line := by
  unfold mappingLines
  simp only [mem_flatMap, mem_map, mem_filter, decide_eq_true_eq]
  constructor
  · rintro ⟨mapping, hmap, assigned, hassigned, row, ⟨hrow, hrole⟩, identity, hident, hline⟩
    exact ⟨(mapping, rolesOf store.policy mapping), mem_mappingEntries.mpr ⟨hmap, rfl⟩,
      ⟨assigned, hassigned, row, hrow, hrole, identitiesOf_ne_nil.mp ⟨identity, hident⟩⟩, hline⟩
  · rintro ⟨entry, hentry, ⟨assigned, hassigned, row, hrow, hrole, hconc⟩, hline⟩
    obtain ⟨hmap, hroles⟩ := mem_mappingEntries.mp hentry
    obtain ⟨identity, hident⟩ := identitiesOf_ne_nil.mpr hconc
    exact ⟨entry.1, hmap, assigned, hroles ▸ hassigned, row, ⟨hrow, hrole⟩, identity, hident, hline⟩

theorem mem_grantLines : line ∈ grantLines store.policy store.policy.catalog.identities api ↔
      ∃ row ∈ store.policy.directCapabilities, RelevantGrant store api row ∧
        grantLine row = line := by
  unfold grantLines
  simp only [mem_flatMap, mem_map]
  constructor
  · rintro ⟨row, hrow, identity, hident, hline⟩
    exact ⟨row, hrow, identitiesOf_ne_nil.mp ⟨identity, hident⟩, hline⟩
  · rintro ⟨row, hrow, hconc, hline⟩
    obtain ⟨identity, hident⟩ := identitiesOf_ne_nil.mpr hconc
    exact ⟨row, hrow, identity, hident, hline⟩

theorem mem_sortLines : line ∈ sortLines lines ↔ line ∈ lines :=
  (perm_insertionSort _ _).mem_iff

/-! ## Writes and the policy tables -/

theorem insertGrants_inserts (grants : List (String × CapabilityAuthority))
    (expiresAt : Option Int) (hnd : (rows.map grantKey).Nodup) :
    Inserts grantKey rows (insertGrants grants expiresAt rows) := by
  induction grants generalizing rows with
  | nil => exact .refl hnd
  | cons grant rest ih =>
    have hfirst : Inserts grantKey rows (insertGrant rows grant.1 grant.2 expiresAt) := by
      by_cases hheld : HoldsAt rows grant.1 grant.2
      · rw [insertGrant_of_holdsAt hheld]
        exact .refl hnd
      · rw [insertGrant_of_not_holdsAt hheld]
        exact .append hnd fun old hold hkey =>
          hheld ⟨old, hold, of_decide_eq_true (grantKey_eq_iff.mpr hkey)⟩
    exact hfirst.trans (ih hfirst.nodup)

variable (hnd : (rows.map grantKey).Nodup)

include hnd

theorem insertNewGrant_inserts (h : insertNewGrant principal expiresAt rows authority = .ok rows') :
    Inserts grantKey rows rows' := by
  obtain ⟨hfree, rfl⟩ := insertUnique_ok h
  exact .append hnd fun old hold hkey =>
    absurd (grantKey_eq_iff.mpr hkey) (Bool.eq_false_iff.mp (hfree old hold))

theorem foldlM_insertNewGrant_inserts {authorities : List CapabilityAuthority}
    (h : authorities.foldlM (insertNewGrant principal expiresAt) rows = .ok rows') :
    Inserts grantKey rows rows' := by
  induction authorities generalizing rows with
  | nil =>
    cases h
    exact .refl hnd
  | cons authority rest ih =>
    obtain ⟨middle, hmiddle, h⟩ := bind_eq_ok.mp h
    have hfirst := insertNewGrant_inserts hnd hmiddle
    exact hfirst.trans (ih hfirst.nodup h)

/-- What a moved instance is granted anew is not what is withdrawn from it. -/
theorem moved_advances {next : List CapabilityId}
    (h : addGrants catalog principal expiresAt previous next
      (withdrawGrants rows principal previous next) = .ok rows') :
    (rows'.map grantKey).Nodup ∧ Advances grantKey DirectCapability.revision rows rows' := by
  obtain ⟨authorities, hsel, rfl⟩ := addGrants_ok h
  have hins := insertGrants_inserts (authorities.map fun authority => (principal, authority))
    expiresAt (nodup_filter_key (fun row => decide (¬ (row.principalId = principal ∧
      row.capabilityId ∈ previous ∧ row.capabilityId ∉ next))) hnd)
  refine ⟨hins.nodup, .of_free fun row hrow => ?_⟩
  rcases hins.free row hrow with hkept | hfree
  · exact .inl (mem_filter.mp hkept).1
  refine .inr fun old hold hkey => ?_
  by_cases hwithdrawn : old.principalId = principal ∧ old.capabilityId ∈ previous ∧
      old.capabilityId ∉ next
  · rcases mem_insertGrants hrow with hmem | ⟨grant, hgrant, -, hid, -⟩
    · exact hfree row hmem rfl
    · obtain ⟨authority, hauth, rfl⟩ := mem_map.mp hgrant
      have hsame := (Prod.mk.inj (Prod.mk.inj hkey).2).1
      exact hwithdrawn.2.2 (hsame.trans hid ▸ (hsel authority hauth).1)
  · exact hfree old (mem_filter.mpr ⟨hold, decide_eq_true hwithdrawn⟩) hkey

variable (h : Write platform store store')

omit hnd

include h

/-- **Every write advances the policy tables.** -/
theorem Write.advances
    (hkeys : PolicyKeys store.policy) : PolicyAdvances store.policy store'.policy := by
  have hsame : PolicyAdvances store.policy store.policy := .frame hkeys rfl rfl rfl rfl rfl
  cases h with
  | policy h => exact applyPolicy_advances hkeys h
  | review | instanceState | updates => exact hsame
  | accept | closeClaim => exact .frame hkeys rfl rfl rfl rfl rfl
  | install hadm h =>
    obtain ⟨-, plan, -, hinstalls⟩ := installDeployment_ok h
    obtain ⟨rows, hrows, hpolicy⟩ := hinstalls.grants
    rw [hpolicy]
    have hins : Inserts grantKey store.policy.directCapabilities rows := by
      rcases grantConsumers_ok hrows with ⟨-, rfl⟩ | ⟨-, authority, -, rfl⟩
      · exact .refl hkeys.grants
      · exact insertGrants_inserts _ _ hkeys.grants
    exact .of_grants hkeys rfl rfl rfl rfl hins.nodup hins.advances
  | provision h =>
    obtain ⟨d, b, state, rows, identities, -, -, -, ⟨authorities, hrows⟩, rfl⟩ :=
      provisionInstance_ok h
    have hins := foldlM_insertNewGrant_inserts hkeys.grants hrows
    exact .of_grants hkeys rfl rfl rfl rfl hins.nodup hins.advances
  | move h =>
    obtain ⟨i, -, ⟨-, rfl⟩ | ⟨-, _, _, _, rows, -, -, hrows, rfl⟩⟩ := moveInstance_ok h
    · exact hsame
    · obtain ⟨hnd, hadv⟩ := moved_advances hkeys.grants hrows
      exact .of_grants hkeys rfl rfl rfl rfl hnd hadv
  | lifecycle h =>
    obtain ⟨_, _, _, _, -, -, rfl⟩ := changeDeployment_ok h
    exact hsame
  | createClaim hfresh h =>
    obtain ⟨authority, rows, hrows, rfl⟩ := createClaim_ok h
    have hins := insertNewGrant_inserts hkeys.grants hrows
    exact .of_grants hkeys rfl rfl rfl rfl hins.nodup hins.advances

/-! ## Writes, the catalog and the reviews -/

/-- A write leaves the catalog and the reviews, records a review, or accepts a recorded one. -/
theorem Write.catalog :
    (store'.policy.catalog = store.policy.catalog ∧ (store'.reviews = store.reviews ∨
      ∃ review, store'.reviews = store.reviews ++ [review] ∧
        review.reviewId = store.reviews.length)) ∨
    ∃ review force, store.policy.catalog.stamp review.apiId
          = (review.expectedGeneration, review.expectedRevision) ∧
        store'.policy.catalog = (installReview store.policy.catalog review force).1 ∧
        store'.reviews = store.reviews.map fun row =>
          if row.reviewId = review.reviewId then { row with consumed := true } else row := by
  cases h with
  | policy h => exact .inl ⟨(applyPolicy_frame h).1, .inl rfl⟩
  | review h =>
    rw [(reviewApi_ok h).1]
    exact .inl ⟨rfl, .inr ⟨_, rfl, (reviewApi_recorded h).1⟩⟩
  | accept hedits h =>
    obtain ⟨review, -, -, hstamp, htables, -, hreviews⟩ := acceptApi_ok h
    exact .inr ⟨review, _, hstamp, htables, hreviews⟩
  | install hadm h =>
    obtain ⟨-, plan, -, hins⟩ := installDeployment_ok h
    obtain ⟨rows, -, hpolicy⟩ := hins.grants
    exact .inl ⟨by rw [hpolicy], .inl hins.reviews⟩
  | provision h =>
    obtain ⟨_, _, _, _, _, -, -, -, -, rfl⟩ := provisionInstance_ok h
    exact .inl ⟨rfl, .inl rfl⟩
  | move h =>
    obtain ⟨_, -, ⟨-, rfl⟩ | ⟨-, _, _, _, _, -, -, -, rfl⟩⟩ := moveInstance_ok h
    · exact .inl ⟨rfl, .inl rfl⟩
    · exact .inl ⟨rfl, .inl rfl⟩
  | lifecycle h =>
    obtain ⟨_, _, _, _, -, -, rfl⟩ := changeDeployment_ok h
    exact .inl ⟨rfl, .inl rfl⟩
  | createClaim hfresh h =>
    obtain ⟨_, _, -, rfl⟩ := createClaim_ok h
    exact .inl ⟨rfl, .inl rfl⟩
  | instanceState | updates | closeClaim => exact .inl ⟨rfl, .inl rfl⟩

/-- What an acceptance of the review is held against. -/
def ApiReview.fence (review : ApiReview) : ApiId × String × Nat × Nat :=
  (review.apiId, review.policyDigest, review.expectedGeneration, review.expectedRevision)

/-- A write keeps the reviews that are recorded. -/
theorem Write.reviews : store.reviews.length ≤ store'.reviews.length ∧
      ∀ review' ∈ store'.reviews, review'.reviewId < store.reviews.length →
        ∃ review ∈ store.reviews, review.reviewId = review'.reviewId ∧
          ApiReview.fence review = ApiReview.fence review' := by
  rcases h.catalog with ⟨-, hsame | ⟨review, hnew, hid⟩⟩ | ⟨review, force, -, -, hconsumed⟩
  · rw [hsame]
    exact ⟨Nat.le_refl _, fun review hreview _ => ⟨review, hreview, rfl, rfl⟩⟩
  · rw [hnew]
    refine ⟨by rw [length_append]; exact Nat.le_add_right _ _, forall_mem_concat ?_ ?_⟩
    · exact fun review hreview _ => ⟨review, hreview, rfl, rfl⟩
    · exact fun hold => absurd hold (hid ▸ Nat.lt_irrefl _)
  · rw [hconsumed]
    refine ⟨by rw [length_map], forall_mem_map.mpr fun row hrow _ => ⟨row, hrow, ?_⟩⟩
    split
    · exact ⟨rfl, rfl⟩
    · exact ⟨rfl, rfl⟩

/-! ## From a review to its acceptance -/

/-- What schema and compiler see to: primary keys, review IDs drawn once, and capability names
without a separator. -/
structure Schema (store : Store Claims Evidence) : Prop where
  keys : PolicyKeys store.policy
  reviews : ∀ review ∈ store.reviews, review.reviewId < store.reviews.length
  names : ∀ row ∈ store.policy.catalog.identities, ':' ∉ row.capabilityId.name.toList

/-- A write between the review of `store₀` and its acceptance that brings back no grant and no
mapping the review saw, and leaves the API's providers. -/
structure Clean (api : ApiId) (store₀ store store' : Store Claims Evidence) : Prop where
  mappings : NoReturn (fun entry => entry.1.mappingId) (relevantMappings store₀ api)
    (mappingEntries store.policy) (mappingEntries store'.policy)
  grants : NoReturn grantKey (relevantGrants store₀ api) store.policy.directCapabilities
    store'.policy.directCapabilities
  providers : ∀ binding, binding ∈ providers store' api ↔ binding ∈ providers store api

/-- What holds of every store between a review and its acceptance. -/
structure SinceReview (api : ApiId) (store₀ : Store Claims Evidence) (review : ApiReview)
    (store : Store Claims Evidence) : Prop where
  keys : PolicyKeys store.policy
  roles : Since (fun entry => roleKey entry.1) (fun entry => entry.1.revision)
    (roleEntries store₀.policy) (roleEntries store.policy)
  roleKept : ∀ role ∈ store₀.policy.roles, ∃ role' ∈ store.policy.roles,
    roleKey role' = roleKey role
  mappings : Since (fun entry => entry.1.mappingId) (fun entry => entry.1.revision)
    (relevantMappings store₀ api) (mappingEntries store.policy)
  grants : Since grantKey DirectCapability.revision (relevantGrants store₀ api)
    store.policy.directCapabilities
  providers : ∀ binding, binding ∈ providers store api ↔ binding ∈ providers store₀ api
  -- the API stands where it stood, or it has moved on for good
  catalog : (store.policy.catalog.stamp api = store₀.policy.catalog.stamp api ∧
      ∀ id generation, Concerns store api id generation ↔ Concerns store₀ api id generation) ∨
    toLex (store₀.policy.catalog.stamp api) < toLex (store.policy.catalog.stamp api)
  recorded : review.reviewId < store.reviews.length
  fence : ∀ row ∈ store.reviews, row.reviewId = review.reviewId →
    ApiReview.fence row = ApiReview.fence review

omit h

/-- No role is given up, revisions never fall, and equal revisions mean equal capabilities. -/
def RolesSince (policy₀ policy : PolicyTables Claims) : Prop :=
  (∀ role ∈ policy₀.roles, ∃ role' ∈ policy.roles, roleKey role' = roleKey role) ∧
    Since (fun entry => roleKey entry.1) (fun entry => entry.1.revision)
      (roleEntries policy₀) (roleEntries policy)

theorem RolesSince.refl (hkeys : PolicyKeys policy) : RolesSince policy policy := by
  refine ⟨fun role hrole => ⟨role, hrole, rfl⟩, .of_subset ?_ (List.Subset.refl _)⟩
  rw [roleEntries, map_map]
  exact hkeys.roles

theorem RolesSince.advance (h : RolesSince policy₀ policy) (hadv : PolicyAdvances policy policy') :
    RolesSince policy₀ policy' := by
  refine ⟨fun role hrole => ?_, h.2.step hadv.roles ?_⟩
  · obtain ⟨role', hrole', hkey⟩ := h.1 role hrole
    obtain ⟨role'', hrole'', hkey'⟩ := hadv.roleKept role' hrole'
    exact ⟨role'', hrole'', hkey'.trans hkey⟩
  · -- no role is ever dropped
    rintro entry' - ⟨entry, hentry, hkey⟩
    obtain ⟨role, hrole, hkept⟩ := h.1 entry.1 (mem_roleEntries.mp hentry).1
    exact ⟨(role, capabilitiesOf policy role), mem_roleEntries.mpr ⟨hrole, rfl⟩, hkept.trans hkey⟩

/-- **A clean write keeps what holds since the review.** -/
theorem SinceReview.write (hwrite : Write platform store store' ∧ Clean api store₀ store store')
    (h : SinceReview api store₀ review store) : SinceReview api store₀ review store' := by
  obtain ⟨hwrite, hclean⟩ := hwrite
  have hadv := hwrite.advances h.keys
  obtain ⟨hlen, hreviews⟩ := hwrite.reviews
  obtain ⟨hkept, hroles⟩ := RolesSince.advance ⟨h.roleKept, h.roles⟩ hadv
  refine ⟨hadv.keys, hroles, hkept, h.mappings.step hadv.mappings hclean.mappings,
    h.grants.step hadv.grants hclean.grants,
    fun binding => (hclean.providers binding).trans (h.providers binding),
    ?_, Nat.lt_of_lt_of_le h.recorded hlen, ?_⟩
  · rcases hwrite.catalog with ⟨hsame, -⟩ | ⟨accepted, force, hstamp, hcat, -⟩
    · unfold Concerns
      rw [hsame]
      exact h.catalog
    · by_cases hapi : api = accepted.apiId
      · have hlater := stamp_installReview_self force hstamp
        rw [← hcat, ← hapi] at hlater
        rcases h.catalog with ⟨hstood, -⟩ | hmoved
        · exact .inr (hstood ▸ hlater)
        · exact .inr (hmoved.trans hlater)
      · rw [hcat, stamp_installReview_of_ne _ _ _ hapi]
        refine h.catalog.imp_left fun ⟨hstood, hconc⟩ => ⟨hstood, fun id generation => ?_⟩
        rw [← hconc]
        refine and_congr_right fun hid => ?_
        rw [hcat]
        exact hasIdentity_installReview_of_ne _ _ _ (hid ▸ hapi)
  · intro row hrow hid
    obtain ⟨old, hold, hsame, hfence⟩ := hreviews row hrow (hid ▸ h.recorded)
    rw [← hfence]
    exact h.fence old hold (hsame.trans hid)

/-- **A role at the revision it had is the role it was**, along every run. -/
theorem roles_since {store₀ store : Store Claims Evidence} (hkeys : PolicyKeys store₀.policy)
    (hrun : Writes platform store₀ store) : RolesSince store₀.policy store.policy := by
  refine (Run.keeps (P := fun store => PolicyKeys store.policy ∧
    RolesSince store₀.policy store.policy) ?_ hrun ⟨hkeys, .refl hkeys⟩).2
  rintro store store' hwrite ⟨hkeys, hsince⟩
  have hadv := hwrite.advances hkeys
  exact ⟨hadv.keys, hsince.advance hadv⟩

/-- The catalog transactions' view of a store. -/
def catalogStore (store : Store Claims Evidence) :
    Catalog.Store (PolicyTables Claims × List Binding) :=
  ⟨store.policy.catalog, store.reviews, (store.policy, store.bindings)⟩

theorem SinceReview.initial (hschema : Schema store₀)
    (hreview : reviewApi platform.catalog (catalogStore store₀) definition api now
      = .ok (reviewed, review)) :
    SinceReview api store₀ review { store₀ with reviews := reviewed.reviews } := by
  obtain ⟨rfl, -⟩ := reviewApi_ok hreview
  obtain ⟨hid, -, -, -⟩ := reviewApi_recorded hreview
  obtain ⟨hkept, hroles⟩ := RolesSince.refl hschema.keys
  refine ⟨hschema.keys, hroles, hkept, .of_subset ?_ fun _ hmem => (mem_filter.mp hmem).1,
    .of_subset hschema.keys.grants fun _ hmem => (mem_filter.mp hmem).1,
    fun _ => Iff.rfl, .inl ⟨rfl, fun _ _ => Iff.rfl⟩, ?_, ?_⟩
  · rw [mappingEntries, map_map]
    exact hschema.keys.mappings
  · rw [hid]
    rw [length_append]
    exact Nat.lt_succ_self _
  · refine forall_mem_concat (fun row hrow hsame => ?_) fun _ => rfl
    rw [hid] at hsame
    exact absurd hsame (Nat.ne_of_lt (hschema.reviews row hrow))

theorem name_of_concerns (hschema : Schema store) (h : Concerns store api id generation) :
    ':' ∉ id.name.toList := by
  obtain ⟨-, row, hrow, hid, -⟩ := h
  exact hid ▸ hschema.names row hrow

/-- Where the API stands where it stood and the snapshots agree, so does the policy. -/
theorem SinceReview.samePolicy (hschema : Schema store₀) (h : SinceReview api store₀ review store)
    (hstamp : store.policy.catalog.stamp api = store₀.policy.catalog.stamp api)
    (hrows : policyRows (store.policy, store.bindings) store.policy.catalog.identities api
      = policyRows (store₀.policy, store₀.bindings) store₀.policy.catalog.identities api) :
    SamePolicy api store₀ store := by
  have hconc : ∀ id generation,
      Concerns store api id generation ↔ Concerns store₀ api id generation := by
    rcases h.catalog with ⟨-, hconc⟩ | hlater
    · exact hconc
    · exact absurd hlater (hstamp ▸ lt_irrefl _)
  -- equal snapshots list the same lines
  obtain ⟨hroles, hrows⟩ := List.cons.inj hrows
  obtain ⟨hmaps, hrows⟩ := List.cons.inj hrows
  obtain ⟨hgrants, -⟩ := List.cons.inj hrows
  refine ⟨h.roles.mem_iff (fun _ _ _ _ _ _ hread => roleLine_inj hread) ?_, ?_, ?_, h.providers⟩
  · intro line
    rw [← mem_roleLines, ← mem_roleLines, ← mem_sortLines, hroles, mem_sortLines]
  · intro entry
    rw [h.mappings.mem_iff (p := RelevantMapping store₀ api) (q := RelevantMapping store api)
      (fun x _ _ y _ _ (hread : mappingLine x.1 = mappingLine y.1) => Text.append_nat_inj hread)
      ?_ entry]
    · unfold relevantMappings
      rw [mem_filter, decide_eq_true_eq, and_assoc, and_self]
    · intro line
      rw [← mem_mappingLines, ← mem_dedup, ← mem_sortLines, hmaps, mem_sortLines, mem_dedup,
        mem_mappingLines]
      unfold relevantMappings
      simp only [mem_filter, decide_eq_true_eq, and_assoc, and_self_left]
  · intro row
    have hread : ∀ row ∈ store.policy.directCapabilities, RelevantGrant store api row →
        ∀ row₀ ∈ relevantGrants store₀ api, RelevantGrant store₀ api row₀ →
        grantLine row = grantLine row₀ →
          grantKey row = grantKey row₀ ∧ row.revision = row₀.revision := by
      intro row _ hrow row₀ _ hrow₀ hline
      exact (grantLine_eq_iff hrow.1 hrow₀.1 (name_of_concerns hschema ((hconc _ _).mp hrow))
        (name_of_concerns hschema hrow₀)).mp hline
    rw [h.grants.mem_iff hread ?_ row]
    · unfold relevantGrants
      rw [mem_filter, decide_eq_true_eq, and_assoc, and_self]
    · intro line
      rw [← mem_grantLines, ← mem_sortLines, hgrants, mem_sortLines, mem_grantLines]
      unfold relevantGrants
      simp only [mem_filter, decide_eq_true_eq, and_assoc, and_self_left]

/-- **An API definition is accepted only under the policy its review saw**, as long as no grant or
mapping it saw comes back after it was taken away and the API's providers stay. -/
theorem accepted_under_reviewed_policy {platform : Platform Claims Evidence Edit}
    {digest : List (List String) → String} (hsnapshots : TakesSnapshots platform digest)
    (hdigest : Function.Injective digest) {definition : ApiDefinition} {api : ApiId} {now : Int}
    {store₀ store : Store Claims Evidence} {review : ApiReview}
    {reviewed : Catalog.Store (PolicyTables Claims × List Binding)} (hschema : Schema store₀)
    (hreview : reviewApi platform.catalog (catalogStore store₀) definition api now
      = .ok (reviewed, review)) (hrun : ReflTransGen
      (fun before after => Write platform before after ∧ Clean api store₀ before after)
      { store₀ with reviews := reviewed.reviews } store)
    {acceptance : ApiAcceptance Edit} (hid : acceptance.reviewId = review.reviewId) {later : Int}
    {accepted : Catalog.Store (PolicyTables Claims × List Binding) × CatalogSnapshot}
    (haccept : acceptApi platform.catalog (catalogStore store) acceptance later = .ok accepted) :
    SamePolicy api store₀ store := by
  have hsince := Run.keeps (P := SinceReview api store₀ review)
    (fun _ _ hwrite => SinceReview.write hwrite) hrun (.initial hschema hreview)
  obtain ⟨-, hapi, hpolicy, hexpected⟩ := reviewApi_recorded hreview
  obtain ⟨row, hrow, ⟨hrowId, hrowPolicy⟩, hstamp, -⟩ := acceptApi_ok haccept
  obtain ⟨hrowApi, hfence⟩ := Prod.mk.inj (hsince.fence row hrow (hrowId.trans hid))
  obtain ⟨hrowDigest, hrowExpected⟩ := Prod.mk.inj hfence
  rw [hrowApi, hapi] at hrowPolicy hstamp
  refine hsince.samePolicy hschema ?_ ?_
  · exact hstamp.trans (hrowExpected.trans hexpected)
  · apply hdigest
    rw [← hsnapshots, ← hsnapshots]
    exact hrowPolicy.symm.trans (hrowDigest.trans hpolicy)

/-! ## Policies that go unnoticed -/

/-- A text of a list in which its elements are found again. -/
def spellList {α : Type} (f : α → List Char) : List α → List Char
  | [] => ['.']
  | a :: rest => ',' :: (f a ++ spellList f rest)

theorem spellList_inj (hf : ∀ a b r s, f a ++ r = f b ++ s → a = b ∧ r = s)
    (h : spellList f xs ++ r = spellList f ys ++ s) : xs = ys ∧ r = s := by
  induction xs generalizing ys with
  | nil =>
    cases ys with
    | nil => exact ⟨rfl, (List.cons.inj h).2⟩
    | cons b ys => exact absurd (List.cons.inj h).1 (by decide)
  | cons a xs ih =>
    cases ys with
    | nil => exact absurd (List.cons.inj h).1 (by decide)
    | cons b ys =>
      have htail : f a ++ spellList f xs ++ r = f b ++ spellList f ys ++ s := (List.cons.inj h).2
      rw [append_assoc, append_assoc] at htail
      obtain ⟨rfl, hrest⟩ := hf _ _ _ _ htail
      obtain ⟨rfl, hend⟩ := ih hrest
      exact ⟨rfl, hend⟩

def spell (rows : List (List String)) : String :=
  String.ofList (spellList (spellList fun line => spellList (fun c => [c]) line.toList) rows)

theorem spell_injective : Function.Injective spell := by
  intro rows rows' h
  have hlist := congrArg (· ++ ([] : List Char)) (String.ofList_injective h)
  refine (spellList_inj
    (fun a b r s hlines => spellList_inj (fun line line' r s hline => ?_) hlines)
    hlist).1
  obtain ⟨hchars, hrest⟩ := spellList_inj (fun c d r s hc => List.cons.inj hc) hline
  exact ⟨String.toList_injective hchars, hrest⟩

/-- The clock's platform with snapshots that spell the selected rows. -/
def timesPlatform : Platform Unit Participant Unit :=
  { clockPlatform with
    catalog := { clockCatalog with
      policySnapshot := fun policy identities api => spell (policyRows policy identities api) } }

def times : ApiId := "acme.times@v1"

def timesDefinition : ApiDefinition where
  actions := []
  capabilities := [("times.read", ⟨"Read the times.", []⟩)]
  groups := []
  names_nodup := nodup_singleton _
  allows_declared := by decide

/-- A role and a mapping to it. -/
def readers : String := "01ARZ3NDEKTSV4RRFFQ69G5FAV"
def staff : String := "01BX5ZZKBKACTAV9WEVGEMMVRZ"

/-- A deployment that provides the times, a principal that may read them for a while, and a
mapping to a role of readers. -/
def timesStore : Store Unit Participant :=
  { clockStore [⟨"first", readTimes, 1, 1, some 100⟩] with
    policy := { (clockStore [⟨"first", readTimes, 1, 1, some 100⟩]).policy with
      principals := [⟨"root", .user, .active, 1⟩, ⟨"first", .service, .active, 1⟩]
      bootstrapAdministrators := ["root"]
      roles := [⟨readers, 1, 1, true⟩]
      roleCapabilities := [⟨readers, 1, readTimes, 1⟩]
      oidcMappings := [⟨staff, "idp", "/group", "staff", 1⟩]
      mappingRoles := [⟨staff, readers, 1⟩] }
    bindings :=
      [⟨"clocks", 1, "times.read", [providerJson ⟨times, 1, ""⟩], [], [readTimes], {}, 1⟩] }

/-- The store once the definition is reviewed. -/
def reviewedStore : Store Unit Participant :=
  { timesStore with reviews := [reviewOf timesPlatform.catalog (catalogStore timesStore)
      timesDefinition times 0] }

/-- An acceptance of the review. -/
def acceptTimes : ApiAcceptance Unit := ⟨0, "", false, false, false, [], []⟩

theorem writes_policies {store : Store Unit Participant} (first second : PolicyMutation)
    {between after : PolicyTables Unit × EnforcementScope × Nat}
    (hfirst : applyPolicy timesPlatform.library store.policy first 0 = .ok between)
    (hsecond : applyPolicy timesPlatform.library between.1 second 0 = .ok after) :
    Writes timesPlatform store { store with policy := after.1 } :=
  (Relation.ReflTransGen.single (.policy hfirst)).tail
    (@Write.policy _ _ _ timesPlatform { store with policy := between.1 } _ _ _ hsecond)

theorem exists_of_isOk {x : Except ε α} (h : x.isOk = true) : ∃ a, x = .ok a := by
  cases x with
  | error e => cases h
  | ok a => exact ⟨a, rfl⟩

theorem not_same_of_new {xs ys : List α} {P Q : α → Prop} (h : ∃ x ∈ xs, P x ∧ x ∉ ys) :
    ¬ ∀ x, (x ∈ xs ∧ P x) ↔ (x ∈ ys ∧ Q x) := by
  obtain ⟨x, hx, hP, hnew⟩ := h
  exact fun h => hnew ((h x).mp ⟨hx, hP⟩).1

/-- A provider is disabled, a grant for a while is revoked and given for good, a mapping is
deleted and put again for other users: the review is accepted all the same. -/
theorem accepted_under_changed_policy : (∃ store, Writes timesPlatform reviewedStore store ∧
      (acceptApi timesPlatform.catalog (catalogStore store) acceptTimes 1).isOk = true ∧
      ¬ ∀ binding, binding ∈ providers store times ↔ binding ∈ providers timesStore times) ∧
    (∃ store, Writes timesPlatform reviewedStore store ∧
      (acceptApi timesPlatform.catalog (catalogStore store) acceptTimes 1).isOk = true ∧
      ¬ ∀ row, (row ∈ store.policy.directCapabilities ∧ RelevantGrant store times row) ↔
        (row ∈ timesStore.policy.directCapabilities ∧ RelevantGrant timesStore times row)) ∧
    ∃ store, Writes timesPlatform reviewedStore store ∧
      (acceptApi timesPlatform.catalog (catalogStore store) acceptTimes 1).isOk = true ∧
      ¬ ∀ entry, (entry ∈ mappingEntries store.policy ∧ RelevantMapping store times entry) ↔
        (entry ∈ mappingEntries timesStore.policy ∧ RelevantMapping timesStore times entry) := by
  refine ⟨?_, ?_, ?_⟩
  · refine ⟨_, .single (@Write.lifecycle _ _ _ timesPlatform _ "root" "clocks" 1 .disabled 0 _ rfl),
      by decide +kernel, fun h => ?_⟩
    have hsub : ∀ binding ∈ providers _ times, binding ∈ providers timesStore times :=
      fun binding => (h binding).mp
    revert hsub
    decide
  · exact ⟨_, writes_policies (.capabilityRevoke "first" readTimes 1)
      (.capabilityGrant "first" readTimes 0 none) rfl rfl, by decide +kernel,
      not_same_of_new (by decide)⟩
  · exact ⟨_, writes_policies (.oidcMappingDelete staff 1)
      (.oidcMappingPut staff "idp" "/group" "visitors" [readers] 0) rfl rfl,
      by decide +kernel, not_same_of_new (by decide)⟩

/-- The readers lose their capability and are deleted: a later revision stands in their place. -/
theorem roles_since_readers : ∃ store, Writes timesPlatform timesStore store ∧
    store.policy.roles = [⟨readers, 1, 3, false⟩] ∧
      RolesSince timesStore.policy store.policy := by
  have hrun : Writes timesPlatform timesStore _ :=
    writes_policies (.rolePut readers 1 "R" "" []) (.roleDelete readers 2) rfl rfl
  exact ⟨_, hrun, rfl, roles_since ⟨by decide, by decide, by decide⟩ hrun⟩

theorem timesStore_schema : Schema timesStore :=
  ⟨⟨by decide, by decide, by decide⟩, fun _ hreview => absurd hreview not_mem_nil, by decide⟩

/-- A grant of another API in between: the review is accepted, under the policy it saw. -/
theorem accepted_under_reviewed_policy_times : ∃ store, Writes timesPlatform reviewedStore store ∧
      store.policy.directCapabilities ≠ timesStore.policy.directCapabilities ∧
      (acceptApi timesPlatform.catalog (catalogStore store) acceptTimes 1).isOk = true ∧
      SamePolicy times timesStore store := by
  have hwrite := @Write.policy _ _ _ timesPlatform reviewedStore
    (.capabilityGrant "first" consumerRuntimeCapability 0 none) 0 _ rfl
  refine ⟨_, .single hwrite, by decide, by decide +kernel, ?_⟩
  refine accepted_under_reviewed_policy (fun _ _ _ => rfl) spell_injective timesStore_schema rfl
    (.single ⟨hwrite, .of_subset ?_, ?_, fun _ => Iff.rfl⟩) rfl
    (@exists_of_isOk _ _ (acceptApi _ _ acceptTimes 1) (by decide +kernel)).choose_spec
  · decide
  · unfold NoReturn
    decide

end Deployments
