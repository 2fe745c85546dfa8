/-
# Administrative capabilities cannot be escalated

The checks a policy mutation passes before it is applied, and what they
guarantee: whoever changes who is entitled to an administrative capability,
through direct grants, roles, groups or identity-provider mappings, was entitled
to manage the platform.
-/
import Trellis.Auth.Policy

open Catalog

namespace Auth

open List Checked

variable {Claims : Type} {id : CapabilityId} {library : Library Claims}
  {tables : PolicyTables Claims}

/-! ## The checks -/

/-- Whether a capability ID is one of the administrative capabilities. -/
def isAdministrative (id : CapabilityId) : Bool :=
  Administration.all.any fun administration => administration.capabilityId = id

/-- Whether a capability is administrative, or a group contains one. -/
def administrative (catalog : Tables) (id : CapabilityId) : Bool :=
  isAdministrative id || (currentMembers catalog id).any fun members => members.any isAdministrative

variable (library) (tables)

/-- Whether the principal holds the capability through any path, whatever the account's state. -/
def held (principal : String) (clock : Int) (id : CapabilityId) : Bool :=
  let live := tables.logins.filter fun login =>
    login.principalId = principal ∧ !login.revoked ∧ clock < login.expiresAt
  (none :: live.map fun login => some login.loginSessionId).any fun login =>
    (entitlements library tables principal login clock id).isSome

def holds (actor : String) (clock : Int) (id : CapabilityId) : Bool :=
  ((tables.principals.find? fun row => row.principalId = actor).any fun row =>
      row.state = .active) &&
    held library tables actor clock id

def requireAdministration (actor : String) (administration : Administration) (clock : Int) :
    Except AuthError Unit :=
  if holds library tables actor clock administration.capabilityId then .ok () else .error .denied

/-- Only the default administrator acts on the default administrator's account. -/
def requireAccountAccess (actor target : String) (clock : Int) : Except AuthError Unit := do
  requireAdministration library tables actor .manageAccounts clock
  if target ∈ tables.bootstrapAdministrators ∧ target ≠ actor then .error .denied

section

variable (actor : String) (mutation : PolicyMutation)

/-- Changing who holds an administrative capability is the power to manage the
platform. -/
def requirePlatformFor (capabilities : List CapabilityId) (clock : Int) : Except AuthError Unit :=
  if capabilities.any (administrative tables.catalog) then
    requireAdministration library tables actor .managePlatform clock
  else .ok ()

/-- The capabilities recorded for a role, under any of its generations. -/
def roleCapabilitiesOf (roleId : String) : List CapabilityId :=
  (tables.roleCapabilities.filter fun row =>
      row.roleId = roleId ∧ tables.roles.any fun role =>
        role.roleId = row.roleId ∧ role.identityGeneration = row.roleGeneration).map
    RoleCapability.capabilityId

def mappingRolesOf (mappingId : String) : List String :=
  (tables.mappingRoles.filter fun row => row.mappingId = mappingId).map MappingRole.roleId

/-- What the role, grant or mapping of a mutation carries before and after it. -/
def capabilitiesInvolved : PolicyMutation → List CapabilityId
  | .rolePut roleId _ _ _ next => next ++ roleCapabilitiesOf tables roleId
  | .roleDelete roleId _ => roleCapabilitiesOf tables roleId
  | .roleAssign _ roleId _ _ => roleCapabilitiesOf tables roleId
  | .roleRevoke _ roleId _ => roleCapabilitiesOf tables roleId
  | .capabilityGrant _ capabilityId _ _ => [capabilityId]
  | .capabilityRevoke _ capabilityId _ => [capabilityId]
  | .oidcMappingPut mappingId _ _ _ roleIds _ =>
    (roleIds ++ mappingRolesOf tables mappingId).flatMap (roleCapabilitiesOf tables)
  | .oidcMappingDelete mappingId _ =>
    (mappingRolesOf tables mappingId).flatMap (roleCapabilitiesOf tables)
  | .clientState .. => []
  | .principalState .. => []
  | .consentRevoke .. => []

def administrativeCapabilitiesInvolved : List CapabilityId :=
  (capabilitiesInvolved tables mutation).filter (administrative tables.catalog)

/-- The administration the kind of mutation asks for. -/
def requireForMutation (clock : Int) : Except AuthError Unit :=
  match mutation with
  | .clientState .. => requireAdministration library tables actor .manageClients clock
  | .principalState principalId _ _ =>
    match tables.principals.find? fun row => row.principalId = principalId with
    | none => .error .notFound
    | some row =>
      if row.kind = .user then requireAccountAccess library tables actor principalId clock
      else requireAdministration library tables actor .managePrincipals clock
  | .consentRevoke principalId _ _ _ _ =>
    if principalId = actor then .ok ()
    else requireAdministration library tables actor .managePrincipals clock
  | _ => requireAdministration library tables actor .manageRoles clock

/-- `apply_policy_in_transaction`, up to the work it enqueues.  The checks read the clock. -/
def applyPolicyInTransaction (now clock : Int) :
    Except AuthError (PolicyTables Claims × EnforcementScope × Nat) := do
  requireForMutation library tables actor mutation clock
  requirePlatformFor library tables actor (administrativeCapabilitiesInvolved tables mutation) clock
  applyPolicy library tables mutation now

end

variable {library tables}

/-! ## Entitlement by paths -/

/-- Holding `id` gives `target`: it is `target`, or a group with it as a member. -/
def Gives (catalog : Tables) (id target : CapabilityId) : Prop :=
  id = target ∨ target ∈ (currentMembers catalog id).getD []

theorem administrative_of_gives
    {administration : Administration} (h : Gives catalog id administration.capabilityId) :
    administrative catalog id = true := by
  have hself : isAdministrative administration.capabilityId = true := by
    cases administration <;> rfl
  rw [administrative, Bool.or_eq_true]
  rcases h with rfl | hmem
  · exact .inl hself
  right
  cases hmembers : currentMembers catalog id with
  | none =>
    rw [hmembers] at hmem
    cases hmem
  | some members =>
    rw [hmembers] at hmem
    exact any_eq_true.mpr ⟨_, hmem, hself⟩

theorem entitlementOf_isSome :
    (entitlementOf sources id).isSome = true ↔ ∃ deadline, (id, deadline) ∈ sources := by
  unfold entitlementOf
  constructor
  · intro h
    cases hfilter : (sources.filter fun source => source.1 = id).map Prod.snd with
    | nil => simp [hfilter] at h
    | cons first rest =>
      have hmem : first ∈ (sources.filter fun source => source.1 = id).map Prod.snd := by
        rw [hfilter]
        exact mem_cons_self
      obtain ⟨source, hsource, rfl⟩ := mem_map.mp hmem
      obtain ⟨hsource, hid⟩ := mem_filter.mp hsource
      have hid : source.1 = id := by simpa using hid
      exact ⟨source.2, hid ▸ hsource⟩
  · rintro ⟨deadline, hmem⟩
    have hmem' : deadline ∈ (sources.filter fun source => source.1 = id).map Prod.snd :=
      mem_map.mpr ⟨(id, deadline), mem_filter.mpr ⟨hmem, by simp⟩, rfl⟩
    split
    next hnil =>
      rw [hnil] at hmem'
      cases hmem'
    · rfl

/-- A principal is entitled exactly when one of its paths gives the capability. -/
theorem entitlements_isSome :
    (entitlements library tables principal login now target).isSome = true ↔
      ∃ source ∈ heldSources library tables principal login now,
        Gives tables.catalog source.1 target := by
  rw [entitlements, entitlementOf_isSome]
  constructor
  · rintro ⟨deadline, hmem⟩
    rcases mem_append.mp hmem with hmem | hmem
    · exact ⟨_, hmem, .inl rfl⟩
    obtain ⟨source, hsource, hmemb⟩ := mem_flatMap.mp hmem
    obtain ⟨member, hin, heq⟩ := mem_map.mp hmemb
    cases heq
    exact ⟨source, hsource, .inr hin⟩
  · rintro ⟨source, hsource, rfl | hmemb⟩
    · exact ⟨source.2, mem_append_left _ hsource⟩
    · refine ⟨source.2, mem_append_right _ ?_⟩
      exact mem_flatMap.mpr ⟨source, hsource, mem_map.mpr ⟨target, hmemb, rfl⟩⟩

/-- A role generation carries something that satisfies `P`. -/
def RoleGives (tables : PolicyTables Claims) (P : CapabilityId → Prop) (roleId : String)
    (generation : Nat) : Prop :=
  ∃ id ∈ roleGrants tables roleId generation, P id

/-- The paths of a principal to something that satisfies `P`, kind by kind. -/
theorem exists_heldSources_iff :
    (∃ source ∈ heldSources library tables principal login now, P source.1) ↔
      (∃ row ∈ tables.directCapabilities, row.principalId = principal ∧
        inForce row.expiresAt now = true ∧
        identityActive tables.catalog row.capabilityId row.capabilityGeneration = true ∧
        P row.capabilityId) ∨
      (∃ row ∈ tables.roleAssignments, row.principalId = principal ∧
        inForce row.expiresAt now = true ∧ RoleGives tables P row.roleId row.roleGeneration) ∨
      (∃ latest,
        (login.bind fun login => freshObservation tables principal login now) = some latest ∧
        ∃ mapping ∈ tables.oidcMappings, some mapping.providerId = latest.providerId ∧
          claimMatches (library.pointer latest.verifiedClaims mapping.claimName)
            mapping.claimValue = true ∧
          ∃ row ∈ tables.mappingRoles, row.mappingId = mapping.mappingId ∧
            RoleGives tables P row.roleId row.roleGeneration) ∨
      (principal ∈ tables.bootstrapAdministrators ∧
        ∃ administration ∈ Administration.all, P administration.capabilityId) := by
  unfold heldSources
  simp only [mem_append, or_and_right, exists_or, or_assoc]
  refine or_congr ?_ (or_congr ?_ (or_congr ?_ ?_))
  · unfold directSources
    simp only [mem_filterMap]
    constructor
    · rintro ⟨source, ⟨row, hrow, heq⟩, hP⟩
      split at heq
      next hcond =>
        cases heq
        exact ⟨row, hrow, hcond.1, hcond.2.1, hcond.2.2, hP⟩
      · cases heq
    · rintro ⟨row, hrow, hprin, hforce, hact, hP⟩
      exact ⟨_, ⟨row, hrow, if_pos ⟨hprin, hforce, hact⟩⟩, hP⟩
  · unfold roleSources
    simp only [mem_flatMap]
    constructor
    · rintro ⟨source, ⟨row, hrow, hmem⟩, hP⟩
      split at hmem
      next hcond =>
        obtain ⟨id, hid, rfl⟩ := mem_map.mp hmem
        exact ⟨row, hrow, hcond.1, hcond.2, id, hid, hP⟩
      · cases hmem
    · rintro ⟨row, hrow, hprin, hforce, id, hid, hP⟩
      refine ⟨(id, row.expiresAt), ⟨row, hrow, ?_⟩, hP⟩
      rw [if_pos ⟨hprin, hforce⟩]
      exact mem_map.mpr ⟨id, hid, rfl⟩
  · unfold oidcSources
    cases login.bind fun login => freshObservation tables principal login now with
    | none => simp
    | some latest =>
      simp only [mem_flatMap, Option.some.injEq, exists_eq_left']
      constructor
      · rintro ⟨source, ⟨mapping, hmap, hmem⟩, hP⟩
        split at hmem
        next hcond =>
          obtain ⟨row, hrow, hmem⟩ := mem_flatMap.mp hmem
          obtain ⟨hrow, hid⟩ := mem_filter.mp hrow
          obtain ⟨id, hgrant, rfl⟩ := mem_map.mp hmem
          exact ⟨mapping, hmap, hcond.1, hcond.2, row, hrow, by simpa using hid, id, hgrant, hP⟩
        · cases hmem
      · rintro ⟨mapping, hmap, hprov, hclaim, row, hrow, hid, id, hgrant, hP⟩
        refine ⟨(id, some latest.freshUntil), ⟨mapping, hmap, ?_⟩, hP⟩
        rw [if_pos ⟨hprov, hclaim⟩]
        refine mem_flatMap.mpr ⟨row, mem_filter.mpr ⟨hrow, by simpa using hid⟩, ?_⟩
        exact mem_map.mpr ⟨id, hgrant, rfl⟩
  · unfold administratorSources
    by_cases hprotected : principal ∈ tables.bootstrapAdministrators
    · simp only [hprotected, if_true, mem_map, true_and]
      constructor
      · rintro ⟨source, ⟨administration, hall, rfl⟩, hP⟩
        exact ⟨administration, hall, hP⟩
      · rintro ⟨administration, hall, hP⟩
        exact ⟨_, ⟨administration, hall, rfl⟩, hP⟩
    · simp [hprotected]

/-- The tables give the same paths to what satisfies `P`. -/
structure SamePaths (P : CapabilityId → Prop) (tables tables' : PolicyTables Claims) : Prop where
  catalog : tables'.catalog = tables.catalog
  logins : tables'.logins = tables.logins
  providers : tables'.oidcProviders = tables.oidcProviders
  administrators : tables'.bootstrapAdministrators = tables.bootstrapAdministrators
  direct : ∀ row, P row.capabilityId →
    (row ∈ tables'.directCapabilities ↔ row ∈ tables.directCapabilities)
  roles : ∀ roleId generation,
    RoleGives tables' P roleId generation ↔ RoleGives tables P roleId generation
  assignments : ∀ row, RoleGives tables P row.roleId row.roleGeneration →
    (row ∈ tables'.roleAssignments ↔ row ∈ tables.roleAssignments)
  mappings : ∀ mapping row, row.mappingId = mapping.mappingId →
    RoleGives tables P row.roleId row.roleGeneration →
    (mapping ∈ tables'.oidcMappings ∧ row ∈ tables'.mappingRoles ↔
      mapping ∈ tables.oidcMappings ∧ row ∈ tables.mappingRoles)

theorem SamePaths.refl (P : CapabilityId → Prop) (tables : PolicyTables Claims) :
    SamePaths P tables tables :=
  ⟨rfl, rfl, rfl, rfl, fun _ _ => Iff.rfl, fun _ _ => Iff.rfl, fun _ _ => Iff.rfl,
    fun _ _ _ _ => Iff.rfl⟩

theorem SamePaths.exists_heldSources_iff (h : SamePaths P tables tables')
    (library : Library Claims) (principal : String) (login : Option String) (now : Int) :
    (∃ source ∈ heldSources library tables' principal login now, P source.1) ↔
      ∃ source ∈ heldSources library tables principal login now, P source.1 := by
  rw [Auth.exists_heldSources_iff, Auth.exists_heldSources_iff]
  refine or_congr ?_ (or_congr ?_ (or_congr ?_ ?_))
  · refine exists_congr fun row => ?_
    rw [h.catalog]
    exact and_congr_left fun hrest => h.direct row hrest.2.2.2
  · refine exists_congr fun row => ?_
    rw [h.roles]
    exact and_congr_left fun hrest => h.assignments row hrest.2.2
  · refine exists_congr fun latest => ?_
    simp only [freshObservation, h.logins, h.providers, h.roles]
    refine and_congr_right fun _ => ?_
    constructor
    · rintro ⟨mapping, hmap, hprov, hclaim, row, hrow, hid, hgives⟩
      obtain ⟨hmap', hrow'⟩ := (h.mappings mapping row hid hgives).mp ⟨hmap, hrow⟩
      exact ⟨mapping, hmap', hprov, hclaim, row, hrow', hid, hgives⟩
    · rintro ⟨mapping, hmap, hprov, hclaim, row, hrow, hid, hgives⟩
      obtain ⟨hmap', hrow'⟩ := (h.mappings mapping row hid hgives).mpr ⟨hmap, hrow⟩
      exact ⟨mapping, hmap', hprov, hclaim, row, hrow', hid, hgives⟩
  · rw [h.administrators]

/-! ## Mutations that involve nothing administrative -/

/-- A role generation gives something when it is active and one of its rows does. -/
theorem roleGives_iff : RoleGives tables P roleId generation ↔
      roleActive tables roleId generation = true ∧
        ∃ row ∈ tables.roleCapabilities, row.roleId = roleId ∧ row.roleGeneration = generation ∧
          identityActive tables.catalog row.capabilityId row.capabilityGeneration = true ∧
          P row.capabilityId := by
  unfold RoleGives roleGrants
  constructor
  · rintro ⟨id, hid, hP⟩
    split at hid
    next hact =>
      obtain ⟨row, hrow, rfl⟩ := mem_map.mp hid
      obtain ⟨hrow, hcond⟩ := mem_filter.mp hrow
      obtain ⟨hrole, hgen, hident⟩ := of_decide_eq_true hcond
      exact ⟨hact, row, hrow, hrole, hgen, hident, hP⟩
    · cases hid
  · rintro ⟨hact, row, hrow, hrole, hgen, hident, hP⟩
    rw [if_pos hact]
    refine ⟨row.capabilityId, mem_map.mpr ⟨row, ?_, rfl⟩, hP⟩
    exact mem_filter.mpr ⟨hrow, decide_eq_true ⟨hrole, hgen, hident⟩⟩

/-- What a role gives under any generation is recorded for it. -/
theorem RoleGives.exists_recorded (h : RoleGives tables P roleId generation) :
    ∃ id ∈ roleCapabilitiesOf tables roleId, P id := by
  obtain ⟨hact, row, hrow, hrole, hgeneration, -, hP⟩ := roleGives_iff.mp h
  obtain ⟨role, hmem, hmatch⟩ := any_eq_true.mp hact
  obtain ⟨hid, hgen, -⟩ := of_decide_eq_true hmatch
  have hrecd : (tables.roles.any fun role =>
      role.roleId = row.roleId ∧ role.identityGeneration = row.roleGeneration) = true := by
    refine any_eq_true.mpr ⟨role, hmem, decide_eq_true ⟨?_, ?_⟩⟩
    · rw [hid, hrole]
    · rw [hgen, hgeneration]
  refine ⟨row.capabilityId, mem_map.mpr ⟨row, ?_, rfl⟩, hP⟩
  exact mem_filter.mpr ⟨hrow, decide_eq_true ⟨hrole, hrecd⟩⟩

theorem rolePut_samePaths
    (h : rolePut library tables roleId expectedRevision title description capabilities
      = .ok tables') (hP : ∀ id ∈ capabilities ++ roleCapabilitiesOf tables roleId, ¬ P id) :
    SamePaths P tables tables' := by
  obtain ⟨roles, generation, added, hput, hadded, rfl⟩ := rolePut_ok h
  refine { SamePaths.refl P tables with roles := ?_ }
  intro other otherGeneration
  -- rows of this role generation are replaced; all other rows and states stay
  by_cases hsame : other = roleId ∧ otherGeneration = generation
  · obtain ⟨rfl, rfl⟩ := hsame
    constructor
    · intro hgives
      obtain ⟨-, row, hrow, hrole, hgen, -, hProw⟩ := roleGives_iff.mp hgives
      rcases mem_append.mp hrow with hrow | hrow
      · exact absurd ⟨hrole, hgen⟩ (of_decide_eq_true (mem_filter.mp hrow).2)
      · exact absurd hProw (hP _ (mem_append_left _ (hadded row hrow).2.2))
    · intro hgives
      obtain ⟨id, hid, hPid⟩ := hgives.exists_recorded
      exact absurd hPid (hP id (mem_append_right _ hid))
  · rw [roleGives_iff, roleGives_iff]
    apply and_congr (Eq.to_iff (congrArg (· = true) (roleActive_putRoleRow hput hsame)))
    refine exists_congr fun row => ?_
    constructor
    · rintro ⟨hrow, hrole, hgen, hrest⟩
      rcases mem_append.mp hrow with hrow | hrow
      · exact ⟨(mem_filter.mp hrow).1, hrole, hgen, hrest⟩
      · obtain ⟨hrole', hgen', -⟩ := hadded row hrow
        exact absurd ⟨hrole.symm.trans hrole', hgen.symm.trans hgen'⟩ hsame
    · rintro ⟨hrow, hrole, hgen, hrest⟩
      refine ⟨mem_append_left _ (mem_filter.mpr ⟨hrow, decide_eq_true ?_⟩), hrole, hgen, hrest⟩
      rintro ⟨hrole', hgen'⟩
      exact hsame ⟨hrole.symm.trans hrole', hgen.symm.trans hgen'⟩

theorem roleDelete_samePaths (h : roleDelete tables roleId expectedRevision = .ok tables')
    (hP : ∀ id ∈ roleCapabilitiesOf tables roleId, ¬ P id) : SamePaths P tables tables' := by
  obtain ⟨generation, rfl⟩ := roleDelete_ok h
  refine { SamePaths.refl P tables with roles := ?_ }
  intro other otherGeneration
  constructor
  · intro hgives
    obtain ⟨hactive, hrow⟩ := roleGives_iff.mp hgives
    refine roleGives_iff.mpr ⟨?_, hrow⟩
    obtain ⟨role, hrole, hmatch⟩ := any_eq_true.mp hactive
    obtain ⟨hid, hgen, hact⟩ := of_decide_eq_true hmatch
    obtain ⟨old, hold, rfl⟩ := mem_map.mp hrole
    -- an active row afterwards is one the deletion did not touch
    by_cases hdeleted : old.roleId = roleId ∧ old.identityGeneration = generation
    · rw [if_pos hdeleted] at hact
      cases hact
    · rw [if_neg hdeleted] at hid hgen hact
      exact any_eq_true.mpr ⟨old, hold, decide_eq_true ⟨hid, hgen, hact⟩⟩
  · intro hgives
    have hother : other ≠ roleId := by
      rintro rfl
      obtain ⟨id, hid, hPid⟩ := hgives.exists_recorded
      exact hP id hid hPid
    obtain ⟨hactive, hrow⟩ := roleGives_iff.mp hgives
    refine roleGives_iff.mpr ⟨?_, hrow⟩
    obtain ⟨role, hrole, hmatch⟩ := any_eq_true.mp hactive
    refine any_eq_true.mpr ⟨role, mem_map.mpr ⟨role, hrole, if_neg ?_⟩, hmatch⟩
    rintro ⟨hid, -⟩
    exact hother ((of_decide_eq_true hmatch).1.symm.trans hid)

theorem not_roleGives (hP : ∀ id ∈ roleCapabilitiesOf tables roleId, ¬ P id) :
    ¬ RoleGives tables P roleId generation := by
  intro hgives
  obtain ⟨id, hid, hPid⟩ := hgives.exists_recorded
  exact hP id hid hPid

theorem roleAssign_samePaths
    (h : roleAssign tables principalId roleId expectedRevision expiresAt now = .ok tables')
    (hP : ∀ id ∈ roleCapabilitiesOf tables roleId, ¬ P id) : SamePaths P tables tables' := by
  obtain ⟨generation, rfl⟩ := roleAssign_ok h
  refine { SamePaths.refl P tables with assignments := ?_ }
  intro row hgives
  refine mem_upsertRow (decide_eq_true ⟨rfl, rfl, rfl⟩) (fun _ hrow => hrow) (decide_eq_false ?_)
  rintro ⟨-, hrole, -⟩
  rw [hrole] at hgives
  exact not_roleGives hP hgives

/-- A row that a deletion does not match. -/
theorem mem_filter_not_decide {rows : List α} [DecidablePred p] {row : α}
    (h : ¬ p row) : row ∈ rows.filter (fun row => !decide (p row)) ↔ row ∈ rows := by
  rw [mem_filter, and_iff_left_iff_imp]
  intro _
  rw [Bool.not_eq_true']
  exact decide_eq_false h

theorem roleRevoke_samePaths
    (h : roleRevoke tables principalId roleId expectedRevision = .ok tables')
    (hP : ∀ id ∈ roleCapabilitiesOf tables roleId, ¬ P id) : SamePaths P tables tables' := by
  obtain ⟨generation, rfl⟩ := roleRevoke_ok h
  refine { SamePaths.refl P tables with assignments := ?_ }
  intro row hgives
  apply mem_filter_not_decide
  rintro ⟨-, hrole, -⟩
  rw [hrole] at hgives
  exact not_roleGives hP hgives

theorem capabilityGrant_samePaths
    (h : capabilityGrant tables principalId capabilityId expectedRevision expiresAt now
      = .ok tables') (hP : ¬ P capabilityId) : SamePaths P tables tables' := by
  obtain ⟨generation, -, rfl⟩ := capabilityGrant_ok h
  refine { SamePaths.refl P tables with direct := ?_ }
  intro row hProw
  refine mem_upsertRow (decide_eq_true ⟨rfl, rfl, rfl⟩) (fun _ hrow => hrow) (decide_eq_false ?_)
  rintro ⟨-, hid, -⟩
  exact hP (hid ▸ hProw)

theorem capabilityRevoke_samePaths
    (h : capabilityRevoke tables principalId capabilityId expectedRevision = .ok tables')
    (hP : ¬ P capabilityId) : SamePaths P tables tables' := by
  obtain ⟨generation, rfl⟩ := capabilityRevoke_ok h
  refine { SamePaths.refl P tables with direct := ?_ }
  intro row hProw
  apply mem_filter_not_decide
  rintro ⟨-, hid, -⟩
  exact hP (hid ▸ hProw)

/-- A mapping row of a role that gives something is not one of the mapping's. -/
theorem mappingId_ne_of_roleGives
    (hP : ∀ roleId ∈ mappingRolesOf tables mappingId, ∀ id ∈ roleCapabilitiesOf tables roleId,
      ¬ P id)
    (hrow : row ∈ tables.mappingRoles) (hgives : RoleGives tables P row.roleId row.roleGeneration) :
    row.mappingId ≠ mappingId := by
  intro heq
  have hmem : row.roleId ∈ mappingRolesOf tables mappingId :=
    mem_map.mpr ⟨row, mem_filter.mpr ⟨hrow, decide_eq_true heq⟩, rfl⟩
  exact not_roleGives (hP _ hmem) hgives

theorem oidcMappingPut_samePaths
    (h : oidcMappingPut library tables mappingId providerId claimName claimValue roleIds
      expectedRevision = .ok tables') (hP : ∀ roleId ∈ roleIds ++ mappingRolesOf tables mappingId,
      ∀ id ∈ roleCapabilitiesOf tables roleId, ¬ P id) : SamePaths P tables tables' := by
  obtain ⟨added, hadded, -, rfl⟩ := oidcMappingPut_ok h
  refine { SamePaths.refl P tables with mappings := ?_ }
  intro mapping row hid hgives
  have hother : mapping.mappingId ≠ mappingId →
      (mapping ∈ upsertRow tables.oidcMappings (fun row => row.mappingId = mappingId)
        (fun row => { row with
          providerId, claimName, claimValue, revision := expectedRevision + 1 })
        ⟨mappingId, providerId, claimName, claimValue, expectedRevision + 1⟩ ↔
      mapping ∈ tables.oidcMappings) := fun hne =>
    mem_upsertRow (decide_eq_true rfl) (fun _ hrow => hrow) (decide_eq_false hne)
  constructor
  · rintro ⟨hmap, hrow⟩
    rcases mem_append.mp hrow with hrow | hrow
    · obtain ⟨hrow, hne⟩ := mem_filter.mp hrow
      have hne : row.mappingId ≠ mappingId := of_decide_eq_true hne
      exact ⟨(hother (hid ▸ hne)).mp hmap, hrow⟩
    · exact absurd hgives (not_roleGives (hP _ (mem_append_left _ (hadded row hrow).2)))
  · rintro ⟨hmap, hrow⟩
    have hne : row.mappingId ≠ mappingId :=
      mappingId_ne_of_roleGives (fun _ hmem => hP _ (mem_append_right _ hmem)) hrow hgives
    exact ⟨(hother (hid ▸ hne)).mpr hmap,
      mem_append_left _ (mem_filter.mpr ⟨hrow, decide_eq_true hne⟩)⟩

theorem oidcMappingDelete_samePaths
    (h : oidcMappingDelete tables mappingId expectedRevision = .ok tables')
    (hP : ∀ roleId ∈ mappingRolesOf tables mappingId,
      ∀ id ∈ roleCapabilitiesOf tables roleId, ¬ P id) : SamePaths P tables tables' := by
  obtain ⟨-, rfl⟩ := oidcMappingDelete_ok h
  refine { SamePaths.refl P tables with mappings := ?_ }
  intro mapping row hid hgives
  constructor
  · rintro ⟨hmap, hrow⟩
    exact ⟨(mem_filter.mp hmap).1, (mem_filter.mp hrow).1⟩
  · rintro ⟨hmap, hrow⟩
    have hne : row.mappingId ≠ mappingId := mappingId_ne_of_roleGives hP hrow hgives
    refine ⟨(mem_filter_not_decide ?_).mpr hmap, mem_filter.mpr ⟨hrow, decide_eq_true hne⟩⟩
    rintro ⟨heq, -⟩
    exact hne (hid.trans heq)

/-- A mutation keeps every path to what none of the capabilities it involves satisfies. -/
theorem applyPolicy_samePaths
    (h : applyPolicy library tables mutation now = .ok (tables', scope, revision))
    (hP : ∀ id ∈ capabilitiesInvolved tables mutation, ¬ P id) : SamePaths P tables tables' := by
  cases applyPolicy_applied h with
  | rolePut h => exact rolePut_samePaths h hP
  | roleDelete h => exact roleDelete_samePaths h hP
  | roleAssign h => exact roleAssign_samePaths h hP
  | roleRevoke h => exact roleRevoke_samePaths h hP
  | capabilityGrant h => exact capabilityGrant_samePaths h (hP _ mem_cons_self)
  | capabilityRevoke h => exact capabilityRevoke_samePaths h (hP _ mem_cons_self)
  | clientState h =>
    obtain ⟨state, rfl⟩ := setClientState_ok h
    exact { SamePaths.refl P tables with }
  | principalState h =>
    obtain ⟨state, rfl⟩ := setPrincipalState_ok h
    exact { SamePaths.refl P tables with }
  | consentRevoke => exact { SamePaths.refl P tables with }
  | oidcMappingPut h =>
    exact oidcMappingPut_samePaths h fun _ hrole _ hid => hP _ (mem_flatMap.mpr ⟨_, hrole, hid⟩)
  | oidcMappingDelete h =>
    exact oidcMappingDelete_samePaths h fun _ hrole _ hid => hP _ (mem_flatMap.mpr ⟨_, hrole, hid⟩)

/-! ## No escalation -/

/-- Who is entitled to a capability at a time: principals, with the login they act under. -/
def entitledTo (library : Library Claims) (tables : PolicyTables Claims) (id : CapabilityId)
    (time : Int) : Set (String × Option String) :=
  { holder | (entitlements library tables holder.1 holder.2 time id).isSome = true }

/-- **Whoever changes who is entitled to an administrative capability may manage the platform.** -/
theorem managePlatform_of_entitledTo_ne {library : Library Claims}
    {tables tables' : PolicyTables Claims} {actor : String} {mutation : PolicyMutation}
    {now clock : Int} {scope : EnforcementScope} {revision : Nat}
    (happly : applyPolicyInTransaction library tables actor mutation now clock
      = .ok (tables', scope, revision)) {administration : Administration} {time : Int}
    (hchanged : entitledTo library tables' administration.capabilityId time
      ≠ entitledTo library tables administration.capabilityId time) : ∃ login, (actor, login) ∈
      entitledTo library tables Administration.managePlatform.capabilityId clock := by
  obtain ⟨_, -, happly⟩ := bind_eq_ok.mp happly
  obtain ⟨_, hplatform, happly⟩ := bind_eq_ok.mp happly
  unfold requirePlatformFor at hplatform
  split at hplatform
  · unfold requireAdministration at hplatform
    split at hplatform
    next hholds =>
      obtain ⟨-, hholds⟩ := Bool.and_eq_true_iff.mp hholds
      obtain ⟨login, -, hholds⟩ := any_eq_true.mp hholds
      exact ⟨login, hholds⟩
    · cases hplatform
  · -- nothing administrative is involved, so no path to the capability changes
    rename_i hnone
    have hpaths := applyPolicy_samePaths (P := (Gives tables.catalog · administration.capabilityId))
      happly ?_
    · refine absurd ?_ hchanged
      ext holder
      change (entitlements library tables' holder.1 holder.2 time _).isSome = true ↔
        (entitlements library tables holder.1 holder.2 time _).isSome = true
      rw [entitlements_isSome, entitlements_isSome, hpaths.catalog]
      exact hpaths.exists_heldSources_iff library holder.1 holder.2 time
    · intro id hid hgives
      have hadministrative := administrative_of_gives hgives
      exact hnone (any_eq_true.mpr ⟨id, mem_filter.mpr ⟨hid, hadministrative⟩, hadministrative⟩)

/-- A fresh installation: the default administrator and one more user. -/
def bootstrapTables : PolicyTables Unit where
  catalog := { Tables.empty with
    identities := Administration.all.map fun administration =>
      ⟨administration.capabilityId, 1, 1, true, .capability⟩ }
  principals := [⟨"root", .user, .active, 1⟩, ⟨"alice", .user, .active, 1⟩]
  bootstrapAdministrators := ["root"]

theorem managePlatform_of_entitledTo_ne_bootstrap : ∃ login, ("root", login) ∈
      entitledTo noClaims bootstrapTables Administration.managePlatform.capabilityId 0 := by
  let tables' : PolicyTables Unit := { bootstrapTables with
    directCapabilities := [⟨"alice", Administration.manageRoles.capabilityId, 1, 1, none⟩] }
  have happly : applyPolicyInTransaction noClaims bootstrapTables "root"
      (.capabilityGrant "alice" Administration.manageRoles.capabilityId 0 none) 0 0
      = .ok (tables', .principal "alice", 1) := rfl
  have hchanged : entitledTo noClaims tables' Administration.manageRoles.capabilityId 0
      ≠ entitledTo noClaims bootstrapTables Administration.manageRoles.capabilityId 0 := by
    intro heq
    have hafter : ("alice", none) ∈
        entitledTo noClaims tables' Administration.manageRoles.capabilityId 0 := by
      show (entitlements noClaims tables' "alice" none 0
        Administration.manageRoles.capabilityId).isSome = true
      decide
    rw [heq] at hafter
    exact absurd hafter (by
      show ¬ (entitlements noClaims bootstrapTables "alice" none 0
        Administration.manageRoles.capabilityId).isSome = true
      decide)
  exact managePlatform_of_entitledTo_ne happly hchanged

end Auth
