/-
# Policy tables, entitlements and policy mutations

Principals, roles, direct grants, identity-provider mappings, clients, consent and OAuth grants,
with the one entitlement union every decision uses (`entitlements`) and the policy mutations
(`apply_policy`).

A table is the list of its rows.  A row that the schema's constraints would refuse is accepted
here, so what is proved holds of the stores the database admits.  Columns that only display or
audit are left out.
-/
import Mathlib.Data.List.Dedup
import Mathlib.Data.List.MinMax
import Trellis.Auth.Catalog

open Catalog

namespace Auth

open List Checked

/-! ## Tables -/

inductive PrincipalKind where
  | user
  | service
  | device
  deriving DecidableEq, Repr

inductive PrincipalState where
  | active
  | disabled
  | revoked
  deriving DecidableEq, Repr

inductive ClientState where
  | active
  | disabled
  | deleted
  deriving DecidableEq, Repr

structure Principal where
  principalId : String
  kind : PrincipalKind
  state : PrincipalState
  version : Nat
  deriving DecidableEq, Repr

structure Role where
  roleId : String
  (identityGeneration revision : Nat)
  active : Bool
  deriving DecidableEq, Repr

structure RoleCapability where
  roleId : String
  roleGeneration : Nat
  capabilityId : CapabilityId
  capabilityGeneration : Nat
  deriving DecidableEq, Repr

structure RoleAssignment where
  (principalId roleId : String)
  (roleGeneration revision : Nat)
  expiresAt : Option Int
  deriving DecidableEq, Repr

structure DirectCapability where
  principalId : String
  capabilityId : CapabilityId
  (capabilityGeneration revision : Nat)
  expiresAt : Option Int
  deriving DecidableEq, Repr

structure OidcProvider where
  providerId : String
  active : Bool
  deriving DecidableEq, Repr

structure OidcMapping where
  (mappingId providerId claimName claimValue : String)
  revision : Nat
  deriving DecidableEq, Repr

structure MappingRole where
  (mappingId roleId : String)
  roleGeneration : Nat
  deriving DecidableEq, Repr

/-- A login session.  The upstream columns are set for identity-provider logins. -/
structure LoginSession (Claims : Type) where
  (loginSessionId principalId : String)
  providerId : Option String
  upstreamSubject : String
  verifiedClaims : Claims
  observationOrder : Nat
  (freshUntil expiresAt : Int)
  revoked : Bool

structure OAuthClient where
  clientId : String
  state : ClientState
  revision : Nat
  deriving DecidableEq, Repr

/-- `GrantConsentBasis` with the capability it is kept under. -/
structure GrantConsentBasis where
  capabilityId : CapabilityId
  revision : Nat
  expiresAt : Option Int
  deriving DecidableEq, Repr

structure OAuthGrant where
  (oauthGrantId principalId loginSessionId clientId : String)
  (bindingKind bindingValue durableDpopJkt : String)
  (required optional : List CapabilityId)
  approved : List CapabilityAuthority
  consentBasis : List GrantConsentBasis
  expiresAt : Int
  revoked : Bool
  deriving DecidableEq, Repr

structure OAuthFamily where
  (familyLookupHash oauthGrantId : String)
  expiresAt : Int
  revoked : Bool
  deriving DecidableEq, Repr

structure RememberedConsent where
  (principalId clientId bindingKind bindingValue : String)
  capabilityId : CapabilityId
  (capabilityGeneration consentRevision : Nat)
  approved : Bool
  expiresAt : Option Int
  revision : Nat
  deriving DecidableEq, Repr

/-- The policy tables over the catalog tables. -/
structure PolicyTables (Claims : Type) where
  catalog : Tables
  principals : List Principal := []
  bootstrapAdministrators : List String := []
  roles : List Role := []
  roleCapabilities : List RoleCapability := []
  roleAssignments : List RoleAssignment := []
  directCapabilities : List DirectCapability := []
  oidcProviders : List OidcProvider := []
  oidcMappings : List OidcMapping := []
  mappingRoles : List MappingRole := []
  logins : List (LoginSession Claims) := []
  clients : List OAuthClient := []
  cimdClients : List String := []
  grants : List OAuthGrant := []
  families : List OAuthFamily := []
  consents : List RememberedConsent := []

/-- A value a JSON pointer finds in verified claims, as far as mappings look. -/
inductive ClaimNode where
  | text (value : String)
  | items (values : List (Option String))
  | other

/-- JSON pointers into claims and the ULID syntax. -/
structure Library (Claims : Type) where
  pointer : Claims → String → Option ClaimNode
  isUlid : String → Bool

/-- Logins without claims, and every text an ID. -/
def noClaims : Library Unit where
  pointer := fun _ _ => none
  isUlid := fun _ => true

/-! ## Entitlements -/

variable {Claims : Type}

variable (catalog : Tables)

/-- Whether a capability or group identity of this generation is active. -/
def identityActive (id : CapabilityId) (generation : Nat) : Bool :=
  catalog.identities.any fun row =>
    row.capabilityId = id ∧ row.identityGeneration = generation ∧ row.active

variable (library : Library Claims) (tables : PolicyTables Claims)

def roleActive (roleId : String) (generation : Nat) : Bool :=
  tables.roles.any fun role =>
    role.roleId = roleId ∧ role.identityGeneration = generation ∧ role.active

/-- Whether a deadline column leaves the row in force. -/
def inForce (expiresAt : Option Int) (now : Int) : Bool :=
  expiresAt.all fun deadline => now < deadline

/-- `current_members`: the active members of an active group. -/
def currentMembers (id : CapabilityId) : Option (List CapabilityId) :=
  (catalog.identities.find? fun row =>
      row.capabilityId = id ∧ row.active ∧ row.kind = .group).map fun group =>
    ((catalog.groupMembers.filter fun row =>
        row.group = id ∧ row.groupGeneration = group.identityGeneration).map
      GroupMember.member).filter fun member => (activeIdentity catalog.identities member).isSome

/-- One path to a capability or group, with its deadline. -/
abbrev Source := CapabilityId × Option Int

def directSources (principal : String) (now : Int) : List Source :=
  tables.directCapabilities.filterMap fun row =>
    if row.principalId = principal ∧ inForce row.expiresAt now ∧
        identityActive tables.catalog row.capabilityId row.capabilityGeneration then
      some (row.capabilityId, row.expiresAt)
    else none

/-- The active capabilities an active role generation carries. -/
def roleGrants (roleId : String) (generation : Nat) : List CapabilityId :=
  if roleActive tables roleId generation then
    (tables.roleCapabilities.filter fun row =>
        row.roleId = roleId ∧ row.roleGeneration = generation ∧
          identityActive tables.catalog row.capabilityId row.capabilityGeneration).map
      RoleCapability.capabilityId
  else []

def roleSources (principal : String) (now : Int) : List Source :=
  tables.roleAssignments.flatMap fun row =>
    if row.principalId = principal ∧ inForce row.expiresAt now then
      (roleGrants tables row.roleId row.roleGeneration).map fun id => (id, row.expiresAt)
    else []

/-- The newest observation of a live login's upstream identity, if live, fresh and of an active
provider. -/
def freshObservation (principal login : String) (now : Int) : Option (LoginSession Claims) :=
  (tables.logins.flatMap fun own =>
    if own.loginSessionId = login ∧ own.principalId = principal ∧ !own.revoked ∧
        now < own.expiresAt ∧ own.providerId.isSome then
      let observations := tables.logins.filter fun row =>
        row.principalId = own.principalId ∧ row.providerId = own.providerId ∧
          row.upstreamSubject = own.upstreamSubject
      observations.filter fun latest =>
        (∀ row ∈ observations, row.observationOrder ≤ latest.observationOrder) ∧
          !latest.revoked ∧ now < latest.expiresAt ∧ now < latest.freshUntil ∧
          tables.oidcProviders.any fun provider =>
            some provider.providerId = latest.providerId ∧ provider.active
    else []).head?

/-- Whether a claim carries the value, itself or among its items. -/
def claimMatches (claim : Option ClaimNode) (value : String) : Bool :=
  match claim with
  | some (.text text) => text = value
  | some (.items values) => some value ∈ values
  | _ => false

section

variable (principal : String) (login : Option String) (now : Int)

def oidcSources : List Source :=
  match login.bind fun login => freshObservation tables principal login now with
  | none => []
  | some latest =>
    tables.oidcMappings.flatMap fun mapping =>
      if some mapping.providerId = latest.providerId ∧
          claimMatches (library.pointer latest.verifiedClaims mapping.claimName)
            mapping.claimValue then
        (tables.mappingRoles.filter fun row => row.mappingId = mapping.mappingId).flatMap
          fun row => (roleGrants tables row.roleId row.roleGeneration).map fun id =>
            (id, some latest.freshUntil)
      else []

/-- The installation-wide powers of the builtin Auth contract. -/
inductive Administration where
  | manageAccounts
  | managePrincipals
  | manageRoles
  | acceptApis
  | forceReplaceApis
  | manageClients
  | managePlatform
  deriving DecidableEq, Repr

def Administration.all : List Administration :=
  [.manageAccounts, .managePrincipals, .manageRoles, .acceptApis, .forceReplaceApis,
    .manageClients, .managePlatform]

def Administration.capabilityId : Administration → CapabilityId
  | .manageAccounts => ⟨"trellis.auth@v1", "accounts.manage"⟩
  | .managePrincipals => ⟨"trellis.auth@v1", "users.manage"⟩
  | .manageRoles => ⟨"trellis.auth@v1", "roles.manage"⟩
  | .acceptApis => ⟨"trellis.auth@v1", "apis.accept"⟩
  | .forceReplaceApis => ⟨"trellis.auth@v1", "apis.forceReplace"⟩
  | .manageClients => ⟨"trellis.auth@v1", "clients.manage"⟩
  | .managePlatform => ⟨"trellis.auth@v1", "platform.manage"⟩

/-- The default administrator holds every administrative capability. -/
def administratorSources : List Source :=
  if principal ∈ tables.bootstrapAdministrators then
    Administration.all.map fun administration => (administration.capabilityId, none)
  else []

/-- The paths to what a principal holds, before groups stand for their members. -/
def heldSources : List Source :=
  directSources tables principal now ++ roleSources tables principal now
    ++ oidcSources library tables principal login now ++ administratorSources tables principal

/-- Holding a group is also holding its current members. -/
def withGroupMembers (sources : List Source) : List Source :=
  sources ++ sources.flatMap fun source =>
    ((currentMembers catalog source.1).getD []).map fun member => (member, source.2)

/-- Deadlines are unioned: losing one path cannot remove another. -/
def unionDeadline : Option Int → Option Int → Option Int
  | some a, some b => some (max a b)
  | _, _ => none

/-- The entry for a capability: none without a path, else the union of its paths' deadlines. -/
def entitlementOf (sources : List Source) (id : CapabilityId) : Option (Option Int) :=
  match (sources.filter fun source => source.1 = id).map Prod.snd with
  | [] => none
  | first :: rest => some (rest.foldl unionDeadline first)

def entitlements : CapabilityId → Option (Option Int) :=
  entitlementOf (withGroupMembers tables.catalog (heldSources library tables principal login now))

end

/-! ## Policy mutations -/

inductive PolicyMutation where
  | rolePut (roleId : String) (expectedRevision : Nat) (title description : String)
      (capabilities : List CapabilityId)
  | roleDelete (roleId : String) (expectedRevision : Nat)
  | roleAssign (principalId roleId : String) (expectedRevision : Nat) (expiresAt : Option Int)
  | roleRevoke (principalId roleId : String) (expectedRevision : Nat)
  | capabilityGrant (principalId : String) (capabilityId : CapabilityId) (expectedRevision : Nat)
      (expiresAt : Option Int)
  | capabilityRevoke (principalId : String) (capabilityId : CapabilityId) (expectedRevision : Nat)
  | clientState (clientId : String) (expectedRevision : Nat) (state : String)
  | principalState (principalId : String) (expectedRevision : Nat) (state : String)
  | consentRevoke (principalId clientId bindingKind bindingValue : String)
      (capabilityId : Option CapabilityId)
  | oidcMappingPut (mappingId providerId claimName claimValue : String) (roleIds : List String)
      (expectedRevision : Nat)
  | oidcMappingDelete (mappingId : String) (expectedRevision : Nat)

/-- Which sessions a unit of enforcement work scans. -/
inductive EnforcementScope where
  | principal (key : String)
  | role (key : String)
  | capability (key : CapabilityId)
  | api (key : ApiId)
  | client (key : String)
  | oidcProvider (key : String)
  | login (key : String)
  | grant (key : String)
  | identity (key : String)
  | deployment (key : String)
  | issuer (key : String)
  | session (key : String)
  | all
  deriving DecidableEq, Repr

/-- `policy::capability`. -/
def capability (id : CapabilityId) : Except AuthError CapabilityAuthority :=
  match captureCapability catalog id with
  | some authority => .ok authority
  | none => .error .notFound

section

variable (roleId : String) (expectedRevision : Nat)

/-- `policy::role`: the active generation of a role and its revision. -/
def role : Except AuthError (Nat × Nat) :=
  match tables.roles.find? fun row => row.roleId = roleId ∧ row.active with
  | some row => .ok (row.identityGeneration, row.revision)
  | none => .error .notFound

def selfHealthCapability : CapabilityId := ⟨"trellis.health@v1", "health.report"⟩

def heartbeatAction : CatalogActionIdentity := ⟨.event, "Heartbeat", .publish⟩

/-- `native_health_capability`, which must allow publishing heartbeats and nothing else. -/
def nativeHealthCapability : Except AuthError CapabilityAuthority := do
  let authority ← capability catalog selfHealthCapability
  let members := (catalog.currentCatalog "trellis.health@v1").toList.flatMap fun snapshot =>
    (snapshot.capabilities.filter fun entry =>
        entry.capabilityId = selfHealthCapability ∧
          entry.identityGeneration = authority.identityGeneration).flatMap fun entry =>
      entry.memberships.map CatalogCapabilityMembership.action
  if members ≠ [heartbeatAction] then .error .denied
  return authority

/-- Insert a row, or update the one with the same key. -/
def upsertRow {α : Type} (rows : List α) (sameKey : α → Bool) (update : α → α) (new : α) : List α :=
  if rows.any sameKey then rows.map fun row => if sameKey row then update row else row
  else rows ++ [new]

/-- Update the rows that match, which must be exactly one. -/
def updateOne {α : Type} (rows : List α) (select : α → Bool) (update : α → α) :
    Except AuthError (List α) :=
  if (rows.filter select).length ≠ 1 then .error .conflict
  else .ok (rows.map fun row => if select row then update row else row)

/-- Delete the rows that match, which must be exactly one. -/
def deleteOne {α : Type} (rows : List α) (select : α → Bool) : Except AuthError (List α) :=
  if (rows.filter select).length ≠ 1 then .error .conflict
  else .ok (rows.filter fun row => !select row)

/-- Make the role's active generation, or a new one, ready to take capabilities. -/
def putRoleRow : Except AuthError (List Role × Nat) :=
  match role tables roleId with
  | .ok (generation, revision) =>
    if revision = expectedRevision then
      .ok (tables.roles.map fun row =>
          if row.roleId = roleId ∧ row.identityGeneration = generation then
            { row with revision := row.revision + 1 }
          else row,
        generation)
    else .error .conflict
  | .error _ =>
    if expectedRevision = 0 then
      let generation := ((tables.roles.filter fun row => row.roleId = roleId).map
        Role.identityGeneration).foldr max 0 + 1
      .ok (tables.roles ++ [⟨roleId, generation, 1, true⟩], generation)
    else .error .conflict

def rolePut (title description : String) (capabilities : List CapabilityId) :
    Except AuthError (PolicyTables Claims) := do
  if !library.isUlid roleId || title.isEmpty || title.utf8ByteSize > 256
      || description.utf8ByteSize > 4096 then
    .error (.invalid "invalid role")
  let (roles, generation) ← putRoleRow tables roleId expectedRevision
  let added ← capabilities.dedup.mapM fun name => do
    let authority ← capability tables.catalog name
    return (⟨roleId, generation, name, authority.identityGeneration⟩ : RoleCapability)
  let kept := tables.roleCapabilities.filter fun row =>
    ¬ (row.roleId = roleId ∧ row.roleGeneration = generation)
  return { tables with roles, roleCapabilities := kept ++ added }

def roleDelete : Except AuthError (PolicyTables Claims) := do
  let (generation, revision) ← role tables roleId
  if revision ≠ expectedRevision then .error .conflict
  return { tables with
    roles := tables.roles.map fun row =>
      if row.roleId = roleId ∧ row.identityGeneration = generation then
        { row with active := false, revision := row.revision + 1 }
      else row }

end

def roleAssign (principalId roleId : String) (expectedRevision : Nat) (expiresAt : Option Int)
    (now : Int) : Except AuthError (PolicyTables Claims) := do
  if expiresAt.any fun deadline => deadline ≤ now then .error (.invalid "expired assignment")
  let (generation, _) ← role tables roleId
  let sameKey := fun row : RoleAssignment =>
    decide (row.principalId = principalId ∧ row.roleId = roleId ∧ row.roleGeneration = generation)
  if ((tables.roleAssignments.find? sameKey).map RoleAssignment.revision).getD 0
      ≠ expectedRevision then
    .error .conflict
  return { tables with
    roleAssignments := upsertRow tables.roleAssignments sameKey
      (fun row => { row with revision := expectedRevision + 1, expiresAt })
      ⟨principalId, roleId, generation, expectedRevision + 1, expiresAt⟩ }

def roleRevoke (principalId roleId : String) (expectedRevision : Nat) :
    Except AuthError (PolicyTables Claims) := do
  let (generation, _) ← role tables roleId
  let roleAssignments ← deleteOne tables.roleAssignments fun row =>
    row.principalId = principalId ∧ row.roleId = roleId ∧ row.roleGeneration = generation ∧
      row.revision = expectedRevision
  return { tables with roleAssignments }

def capabilityGrant (principalId : String)
    (capabilityId : CapabilityId) (expectedRevision : Nat) (expiresAt : Option Int) (now : Int) :
    Except AuthError (PolicyTables Claims) := do
  if expiresAt.any fun deadline => deadline ≤ now then .error (.invalid "expired grant")
  let authority ← capability tables.catalog capabilityId
  if capabilityId = selfHealthCapability then
    if !(tables.principals.any fun row => row.principalId = principalId ∧ row.kind ≠ .user) then
      .error .denied
    let _ ← nativeHealthCapability tables.catalog
  let sameKey := fun row : DirectCapability =>
    decide (row.principalId = principalId ∧ row.capabilityId = capabilityId ∧
      row.capabilityGeneration = authority.identityGeneration)
  if ((tables.directCapabilities.find? sameKey).map DirectCapability.revision).getD 0
      ≠ expectedRevision then
    .error .conflict
  return { tables with
    directCapabilities := upsertRow tables.directCapabilities sameKey
      (fun row => { row with revision := expectedRevision + 1, expiresAt })
      ⟨principalId, capabilityId, authority.identityGeneration, expectedRevision + 1, expiresAt⟩ }

def capabilityRevoke (principalId : String) (capabilityId : CapabilityId) (expectedRevision : Nat) :
    Except AuthError (PolicyTables Claims) := do
  let authority ← capability tables.catalog capabilityId
  let directCapabilities ← deleteOne tables.directCapabilities fun row =>
    row.principalId = principalId ∧ row.capabilityId = capabilityId ∧
      row.capabilityGeneration = authority.identityGeneration ∧ row.revision = expectedRevision
  return { tables with directCapabilities }

def parseClientState : String → Option ClientState
  | "active" => some .active
  | "disabled" => some .disabled
  | "deleted" => some .deleted
  | _ => none

def parsePrincipalState : String → Option PrincipalState
  | "active" => some .active
  | "disabled" => some .disabled
  | "revoked" => some .revoked
  | _ => none

def setClientState (clientId : String) (expectedRevision : Nat)
    (state : String) : Except AuthError (PolicyTables Claims) := do
  let some state := parseClientState state
    | .error (.invalid "invalid client state")
  let clients ← updateOne tables.clients
    (fun row => row.clientId = clientId ∧ row.revision = expectedRevision ∧ row.state ≠ .deleted)
    fun row => { row with state, revision := row.revision + 1 }
  return { tables with clients }

def setPrincipalState (principalId : String) (expectedRevision : Nat) (state : String) :
    Except AuthError (PolicyTables Claims) := do
  let some state := parsePrincipalState state
    | .error (.invalid "invalid principal state")
  if principalId ∈ tables.bootstrapAdministrators ∧ state ≠ .active then .error .denied
  let principals ← updateOne tables.principals
    (fun row => row.principalId = principalId ∧ row.version = expectedRevision ∧
      row.state ≠ .revoked)
    fun row => { row with state, version := row.version + 1 }
  return { tables with principals }

/-- Decline the remembered choices of one binding and drop them from its live grants; without a
capability the grants themselves are revoked. -/
def consentRevoke (principalId clientId bindingKind bindingValue : String)
    (capabilityId : Option CapabilityId) :
    PolicyTables Claims :=
  { tables with
    consents := tables.consents.map fun row =>
      if row.principalId = principalId ∧ row.clientId = clientId ∧ row.bindingKind = bindingKind ∧
          row.bindingValue = bindingValue ∧ capabilityId.all (fun id => row.capabilityId = id) then
        { row with approved := false, revision := row.revision + 1 }
      else row
    grants := tables.grants.map fun row =>
      if row.principalId = principalId ∧ row.clientId = clientId ∧ row.bindingKind = bindingKind ∧
          row.bindingValue = bindingValue ∧ !row.revoked then
        { row with
          approved := row.approved.filter fun held =>
            capabilityId.any fun id => id ≠ held.capabilityId
          revoked := capabilityId.isNone }
      else row }

def oidcMappingPut (mappingId providerId claimName claimValue : String) (roleIds : List String)
    (expectedRevision : Nat) : Except AuthError (PolicyTables Claims) := do
  if !library.isUlid mappingId || claimName.toList.head? ≠ some '/' then
    .error (.invalid "invalid OIDC mapping")
  let sameKey := fun row : OidcMapping => decide (row.mappingId = mappingId)
  if ((tables.oidcMappings.find? sameKey).map OidcMapping.revision).getD 0 ≠ expectedRevision then
    .error .conflict
  let added ← roleIds.dedup.mapM fun roleId => do
    let (generation, _) ← role tables roleId
    return (⟨mappingId, roleId, generation⟩ : MappingRole)
  return { tables with
    oidcMappings := upsertRow tables.oidcMappings sameKey
      (fun row => { row with providerId, claimName, claimValue, revision := expectedRevision + 1 })
      ⟨mappingId, providerId, claimName, claimValue, expectedRevision + 1⟩
    mappingRoles := (tables.mappingRoles.filter fun row => row.mappingId ≠ mappingId) ++ added }

/-- Deleting a mapping deletes its role rows with it. -/
def oidcMappingDelete (mappingId : String)
    (expectedRevision : Nat) : Except AuthError (PolicyTables Claims) := do
  let oidcMappings ← deleteOne tables.oidcMappings fun row =>
    row.mappingId = mappingId ∧ row.revision = expectedRevision
  return { tables with
    oidcMappings
    mappingRoles := tables.mappingRoles.filter fun row => row.mappingId ≠ mappingId }

/-- `apply_policy`: the changed tables, the sessions to enforce on and the new revision. -/
def applyPolicy (mutation : PolicyMutation) (now : Int) :
    Except AuthError (PolicyTables Claims × EnforcementScope × Nat) := do
  match mutation with
  | .rolePut roleId expectedRevision title description capabilities =>
    let tables ← rolePut library tables roleId expectedRevision title description capabilities
    return (tables, .role roleId, expectedRevision + 1)
  | .roleDelete roleId expectedRevision =>
    let tables ← roleDelete tables roleId expectedRevision
    return (tables, .role roleId, expectedRevision + 1)
  | .roleAssign principalId roleId expectedRevision expiresAt =>
    let tables ← roleAssign tables principalId roleId expectedRevision expiresAt now
    return (tables, .principal principalId, expectedRevision + 1)
  | .roleRevoke principalId roleId expectedRevision =>
    let tables ← roleRevoke tables principalId roleId expectedRevision
    return (tables, .principal principalId, expectedRevision + 1)
  | .capabilityGrant principalId capabilityId expectedRevision expiresAt =>
    let tables ← capabilityGrant tables principalId capabilityId expectedRevision expiresAt now
    return (tables, .principal principalId, expectedRevision + 1)
  | .capabilityRevoke principalId capabilityId expectedRevision =>
    let tables ← capabilityRevoke tables principalId capabilityId expectedRevision
    return (tables, .principal principalId, expectedRevision + 1)
  | .clientState clientId expectedRevision state =>
    let tables ← setClientState tables clientId expectedRevision state
    return (tables, .client clientId, expectedRevision + 1)
  | .principalState principalId expectedRevision state =>
    let tables ← setPrincipalState tables principalId expectedRevision state
    return (tables, .principal principalId, expectedRevision + 1)
  | .consentRevoke principalId clientId bindingKind bindingValue capabilityId =>
    return (consentRevoke tables principalId clientId bindingKind bindingValue capabilityId,
      .principal principalId, 1)
  | .oidcMappingPut mappingId providerId claimName claimValue roleIds expectedRevision =>
    let tables ← oidcMappingPut library tables mappingId providerId claimName claimValue roleIds
      expectedRevision
    return (tables, .all, expectedRevision + 1)
  | .oidcMappingDelete mappingId expectedRevision =>
    let tables ← oidcMappingDelete tables mappingId expectedRevision
    return (tables, .all, expectedRevision + 1)

/-- The table change of one applied mutation. -/
inductive PolicyApplied (library : Library Claims) (tables : PolicyTables Claims) (now : Int) :
    PolicyMutation → PolicyTables Claims → Prop
  | rolePut {roleId expected title description capabilities tables'}
      (h : rolePut library tables roleId expected title description capabilities = .ok tables') :
      PolicyApplied library tables now (.rolePut roleId expected title description capabilities)
        tables'
  | roleDelete {roleId expected tables'} (h : roleDelete tables roleId expected = .ok tables') :
      PolicyApplied library tables now (.roleDelete roleId expected) tables'
  | roleAssign {principalId roleId expected expiresAt tables'}
      (h : roleAssign tables principalId roleId expected expiresAt now = .ok tables') :
      PolicyApplied library tables now (.roleAssign principalId roleId expected expiresAt) tables'
  | roleRevoke {principalId roleId expected tables'}
      (h : roleRevoke tables principalId roleId expected = .ok tables') :
      PolicyApplied library tables now (.roleRevoke principalId roleId expected) tables'
  | capabilityGrant {principalId capabilityId expected expiresAt tables'}
      (h : capabilityGrant tables principalId capabilityId expected expiresAt now = .ok tables') :
      PolicyApplied library tables now
        (.capabilityGrant principalId capabilityId expected expiresAt) tables'
  | capabilityRevoke {principalId capabilityId expected tables'}
      (h : capabilityRevoke tables principalId capabilityId expected = .ok tables') :
      PolicyApplied library tables now (.capabilityRevoke principalId capabilityId expected) tables'
  | clientState {clientId expected state tables'}
      (h : setClientState tables clientId expected state = .ok tables') :
      PolicyApplied library tables now (.clientState clientId expected state) tables'
  | principalState {principalId expected state tables'}
      (h : setPrincipalState tables principalId expected state = .ok tables') :
      PolicyApplied library tables now (.principalState principalId expected state) tables'
  | consentRevoke {principalId clientId bindingKind bindingValue capabilityId} :
      PolicyApplied library tables now
        (.consentRevoke principalId clientId bindingKind bindingValue capabilityId)
        (consentRevoke tables principalId clientId bindingKind bindingValue capabilityId)
  | oidcMappingPut {mappingId providerId claimName claimValue roleIds expected tables'}
      (h : oidcMappingPut library tables mappingId providerId claimName claimValue roleIds expected
        = .ok tables') :
      PolicyApplied library tables now
        (.oidcMappingPut mappingId providerId claimName claimValue roleIds expected) tables'
  | oidcMappingDelete {mappingId expected tables'}
      (h : oidcMappingDelete tables mappingId expected = .ok tables') :
      PolicyApplied library tables now (.oidcMappingDelete mappingId expected) tables'

variable {library : Library Claims} {tables : PolicyTables Claims} {α : Type}

theorem applyPolicy_applied
    (h : applyPolicy library tables mutation now = .ok (tables', scope, revision)) :
    PolicyApplied library tables now mutation tables' := by
  unfold applyPolicy at h
  cases mutation <;>
    simp only [bind_eq_ok, pure_eq_ok] at h
  case consentRevoke =>
    obtain ⟨rfl, -, -⟩ := h
    exact .consentRevoke
  all_goals
    obtain ⟨_, h, rfl, -, -⟩ := h
    constructor
    exact h

/-! ## What an applied mutation changes -/

theorem putRoleRow_ok (h : putRoleRow tables roleId expectedRevision = .ok (roles, generation)) :
    roles = (tables.roles.map fun row =>
        if row.roleId = roleId ∧ row.identityGeneration = generation then
          { row with revision := row.revision + 1 } else row) ∨
      roles = tables.roles ++ [⟨roleId, generation, 1, true⟩] ∧
        ∀ row ∈ tables.roles, row.roleId = roleId → row.identityGeneration < generation := by
  unfold putRoleRow at h
  split at h
  · split at h
    · cases h
      exact .inl rfl
    · cases h
  · split at h
    · cases h
      refine .inr ⟨rfl, fun row hrow hid => Nat.lt_succ_of_le ?_⟩
      exact le_max_of_le' 0
        (mem_map_of_mem (mem_filter.mpr ⟨hrow, decide_eq_true hid⟩)) (Nat.le_refl _)
    · cases h

theorem rolePut_ok
    (h : rolePut library tables roleId expectedRevision title description capabilities
      = .ok tables') :
    ∃ roles generation added, putRoleRow tables roleId expectedRevision = .ok (roles, generation) ∧
      (∀ row ∈ added, row.roleId = roleId ∧ row.roleGeneration = generation ∧
        row.capabilityId ∈ capabilities) ∧
      tables' = { tables with
        roles
        roleCapabilities := (tables.roleCapabilities.filter fun row =>
          ¬ (row.roleId = roleId ∧ row.roleGeneration = generation)) ++ added } := by
  unfold rolePut at h
  simp only [error_bind, guard_eq_ok, bind_eq_ok, pure_eq_ok] at h
  obtain ⟨-, ⟨roles, generation⟩, hrow, added, hadded, rfl⟩ := h
  refine ⟨roles, generation, added, hrow, ?_, rfl⟩
  intro row hmem
  obtain ⟨name, hname, hname'⟩ := exists_of_mem_mapM hadded hmem
  obtain ⟨authority, -, hrow'⟩ := bind_eq_ok.mp hname'
  cases hrow'
  exact ⟨rfl, rfl, mem_dedup.mp hname⟩

theorem roleDelete_ok (h : roleDelete tables roleId expectedRevision = .ok tables') :
    ∃ generation, tables' = { tables with
      roles := tables.roles.map fun row =>
        if row.roleId = roleId ∧ row.identityGeneration = generation then
          { row with active := false, revision := row.revision + 1 }
        else row } := by
  unfold roleDelete at h
  simp only [error_bind, guard_eq_ok, bind_eq_ok, pure_eq_ok] at h
  obtain ⟨⟨generation, revision⟩, -, -, rfl⟩ := h
  exact ⟨generation, rfl⟩

theorem roleAssign_ok
    (h : roleAssign tables principalId roleId expectedRevision expiresAt now = .ok tables') :
    ∃ generation, tables' = { tables with
      roleAssignments := upsertRow tables.roleAssignments
        (fun row => row.principalId = principalId ∧ row.roleId = roleId ∧
          row.roleGeneration = generation)
        (fun row => { row with revision := expectedRevision + 1, expiresAt })
        ⟨principalId, roleId, generation, expectedRevision + 1, expiresAt⟩ } := by
  unfold roleAssign at h
  simp only [error_bind, guard_eq_ok, bind_eq_ok, pure_eq_ok] at h
  obtain ⟨-, ⟨generation, revision⟩, -, -, rfl⟩ := h
  exact ⟨generation, rfl⟩

theorem deleteOne_ok
    (h : deleteOne rows select = .ok rows') : rows' = rows.filter fun row => !select row := by
  unfold deleteOne at h
  rw [guard_eq_ok] at h
  exact (Except.ok.inj h.2).symm

theorem exists_of_deleteOne
    (h : deleteOne rows select = .ok rows') : ∃ row ∈ rows, select row = true := by
  unfold deleteOne at h
  rw [guard_eq_ok, not_not] at h
  obtain ⟨row, hrow⟩ := exists_mem_of_length_pos (Nat.lt_of_lt_of_eq Nat.one_pos h.1.symm)
  exact ⟨row, mem_filter.mp hrow⟩

theorem roleRevoke_ok (h : roleRevoke tables principalId roleId expectedRevision = .ok tables') :
    ∃ generation, tables' = { tables with
      roleAssignments := tables.roleAssignments.filter fun row =>
        !decide (row.principalId = principalId ∧ row.roleId = roleId ∧
          row.roleGeneration = generation ∧ row.revision = expectedRevision) } := by
  unfold roleRevoke at h
  simp only [bind_eq_ok, pure_eq_ok] at h
  obtain ⟨⟨generation, revision⟩, -, rows, hrows, rfl⟩ := h
  exact ⟨generation, by rw [deleteOne_ok hrows]⟩

theorem capabilityGrant_ok
    (h : capabilityGrant tables principalId capabilityId expectedRevision expiresAt now
      = .ok tables') :
    ∃ generation, ((tables.directCapabilities.find? fun row => row.principalId = principalId ∧
          row.capabilityId = capabilityId ∧ row.capabilityGeneration = generation).map
        DirectCapability.revision).getD 0 = expectedRevision ∧
      tables' = { tables with
        directCapabilities := upsertRow tables.directCapabilities
          (fun row => row.principalId = principalId ∧ row.capabilityId = capabilityId ∧
            row.capabilityGeneration = generation)
          (fun row => { row with revision := expectedRevision + 1, expiresAt })
          ⟨principalId, capabilityId, generation, expectedRevision + 1, expiresAt⟩ } := by
  unfold capabilityGrant at h
  simp only [error_bind, guard_eq_ok, bind_eq_ok] at h
  obtain ⟨-, authority, -, h⟩ := h
  refine ⟨authority.identityGeneration, ?_⟩
  split at h
  · simp only [guard_eq_ok, bind_eq_ok, pure_eq_ok] at h
    obtain ⟨-, -, -, hrev, rfl⟩ := h
    exact ⟨not_not.mp hrev, rfl⟩
  · simp only [guard_eq_ok, pure_eq_ok] at h
    obtain ⟨hrev, rfl⟩ := h
    exact ⟨not_not.mp hrev, rfl⟩

theorem capabilityRevoke_ok
    (h : capabilityRevoke tables principalId capabilityId expectedRevision = .ok tables') :
    ∃ generation, tables' = { tables with
      directCapabilities := tables.directCapabilities.filter fun row =>
        !decide (row.principalId = principalId ∧ row.capabilityId = capabilityId ∧
          row.capabilityGeneration = generation ∧ row.revision = expectedRevision) } := by
  unfold capabilityRevoke at h
  simp only [bind_eq_ok, pure_eq_ok] at h
  obtain ⟨authority, -, rows, hrows, rfl⟩ := h
  exact ⟨authority.identityGeneration, by rw [deleteOne_ok hrows]⟩

theorem updateOne_ok (h : updateOne rows select update = .ok rows') :
    rows' = rows.map fun row => if select row then update row else row := by
  unfold updateOne at h
  rw [guard_eq_ok] at h
  exact (Except.ok.inj h.2).symm

theorem setClientState_ok
    (h : setClientState tables clientId expectedRevision state = .ok tables') :
    ∃ state : ClientState, tables' = { tables with
      clients := tables.clients.map fun row =>
        if decide (row.clientId = clientId ∧ row.revision = expectedRevision ∧
            row.state ≠ .deleted) then
          { row with state, revision := row.revision + 1 }
        else row } := by
  unfold setClientState at h
  split at h
  next state _ =>
    obtain ⟨rows, hrows, h⟩ := bind_eq_ok.mp h
    cases h
    exact ⟨state, by rw [updateOne_ok hrows]⟩
  · cases h

theorem setPrincipalState_ok
    (h : setPrincipalState tables principalId expectedRevision state = .ok tables') :
    ∃ state : PrincipalState, tables' = { tables with
      principals := tables.principals.map fun row =>
        if decide (row.principalId = principalId ∧ row.version = expectedRevision ∧
            row.state ≠ .revoked) then
          { row with state, version := row.version + 1 }
        else row } := by
  unfold setPrincipalState at h
  split at h
  next state _ =>
    simp only [error_bind, guard_eq_ok, bind_eq_ok, pure_eq_ok] at h
    obtain ⟨-, rows, hrows, rfl⟩ := h
    exact ⟨state, by rw [updateOne_ok hrows]⟩
  · cases h

theorem oidcMappingPut_ok
    (h : oidcMappingPut library tables mappingId providerId claimName claimValue roleIds
      expectedRevision = .ok tables') :
    ∃ added : List MappingRole, (∀ row ∈ added, row.mappingId = mappingId ∧ row.roleId ∈ roleIds) ∧
      ((tables.oidcMappings.find? fun row => row.mappingId = mappingId).map
        OidcMapping.revision).getD 0 = expectedRevision ∧
      tables' = { tables with
        oidcMappings := upsertRow tables.oidcMappings (fun row => row.mappingId = mappingId)
          (fun row => { row with
            providerId, claimName, claimValue, revision := expectedRevision + 1 })
          ⟨mappingId, providerId, claimName, claimValue, expectedRevision + 1⟩
        mappingRoles := (tables.mappingRoles.filter fun row => row.mappingId ≠ mappingId)
          ++ added } := by
  unfold oidcMappingPut at h
  simp only [error_bind, guard_eq_ok, bind_eq_ok, pure_eq_ok] at h
  obtain ⟨-, hrev, added, hadded, rfl⟩ := h
  refine ⟨added, ?_, not_not.mp hrev, rfl⟩
  intro row hmem
  obtain ⟨roleId, hroleId, hrow⟩ := exists_of_mem_mapM hadded hmem
  obtain ⟨generation, -, hrow⟩ := bind_eq_ok.mp hrow
  cases hrow
  exact ⟨rfl, mem_dedup.mp hroleId⟩

theorem oidcMappingDelete_ok
    (h : oidcMappingDelete tables mappingId expectedRevision = .ok tables') :
    (∃ row ∈ tables.oidcMappings, row.mappingId = mappingId ∧ row.revision = expectedRevision) ∧
      tables' = { tables with
        oidcMappings := tables.oidcMappings.filter fun row =>
          !decide (row.mappingId = mappingId ∧ row.revision = expectedRevision)
        mappingRoles := tables.mappingRoles.filter fun row => row.mappingId ≠ mappingId } := by
  unfold oidcMappingDelete at h
  simp only [bind_eq_ok, pure_eq_ok] at h
  obtain ⟨rows, hrows, rfl⟩ := h
  obtain ⟨row, hrow, hkey⟩ := exists_of_deleteOne hrows
  exact ⟨⟨row, hrow, of_decide_eq_true hkey⟩, by rw [deleteOne_ok hrows]⟩

/-- A policy mutation leaves the catalog alone and only rewrites principals. -/
theorem applyPolicy_frame
    (h : applyPolicy library tables mutation now = .ok (tables', scope, revision)) :
    tables'.catalog = tables.catalog ∧ tables'.principals.map Principal.principalId
      = tables.principals.map Principal.principalId := by
  cases applyPolicy_applied h with
  | rolePut h =>
    obtain ⟨_, _, _, -, -, rfl⟩ := rolePut_ok h
    exact ⟨rfl, rfl⟩
  | roleDelete h =>
    obtain ⟨_, rfl⟩ := roleDelete_ok h
    exact ⟨rfl, rfl⟩
  | roleAssign h =>
    obtain ⟨_, rfl⟩ := roleAssign_ok h
    exact ⟨rfl, rfl⟩
  | roleRevoke h =>
    obtain ⟨_, rfl⟩ := roleRevoke_ok h
    exact ⟨rfl, rfl⟩
  | capabilityGrant h =>
    obtain ⟨_, -, rfl⟩ := capabilityGrant_ok h
    exact ⟨rfl, rfl⟩
  | capabilityRevoke h =>
    obtain ⟨_, rfl⟩ := capabilityRevoke_ok h
    exact ⟨rfl, rfl⟩
  | clientState h =>
    obtain ⟨_, rfl⟩ := setClientState_ok h
    exact ⟨rfl, rfl⟩
  | principalState h =>
    obtain ⟨_, rfl⟩ := setPrincipalState_ok h
    exact ⟨rfl, map_key_map fun _ => key_ite rfl⟩
  | consentRevoke => exact ⟨rfl, rfl⟩
  | oidcMappingPut h =>
    obtain ⟨_, -, -, rfl⟩ := oidcMappingPut_ok h
    exact ⟨rfl, rfl⟩
  | oidcMappingDelete h =>
    obtain ⟨-, rfl⟩ := oidcMappingDelete_ok h
    exact ⟨rfl, rfl⟩

/-- An upsert leaves every row of another key as it was. -/
theorem mem_upsertRow
    (hnew : sameKey new = true) (hupd : ∀ row, sameKey row = true → sameKey (update row) = true)
    (hrow : sameKey row = false) : row ∈ upsertRow rows sameKey update new ↔ row ∈ rows := by
  unfold upsertRow
  split
  · rw [mem_map]
    constructor
    · rintro ⟨old, hold, rfl⟩
      by_cases hkey : sameKey old = true
      · rw [if_pos hkey, hupd old hkey] at hrow
        cases hrow
      · rwa [if_neg hkey]
    · intro hmem
      exact ⟨row, hmem, by rw [hrow]; rfl⟩
  · rw [mem_append, mem_singleton]
    constructor
    · rintro (hmem | rfl)
      · exact hmem
      · rw [hnew] at hrow
        cases hrow
    · exact .inl

theorem nodup_upsertRow (hsame : ∀ row, sameKey row = true ↔ key row = k)
    (hnew : key new = k) (hupd : ∀ row, sameKey row = true → key (update row) = k)
    (h : (rows.map key).Nodup) : ((upsertRow rows sameKey update new).map key).Nodup := by
  unfold upsertRow
  split
  · rw [map_key_map]
    · exact h
    · intro row
      split
      next hrow => rw [hupd row hrow, (hsame row).mp hrow]
      · rfl
  next hany =>
    rw [map_append, map_singleton, hnew]
    refine nodup_append.mpr ⟨h, nodup_singleton _, ?_⟩
    rintro a ha b hb rfl
    obtain ⟨row, hrow, hid⟩ := mem_map.mp ha
    exact hany (any_eq_true.mpr ⟨row, hrow, (hsame row).mpr (hid.trans (mem_singleton.mp hb))⟩)

/-- Writing a role leaves the other role generations active or inactive as they were. -/
theorem roleActive_putRoleRow
    (h : putRoleRow tables roleId expectedRevision = .ok (roles, generation))
    (hne : ¬ (other = roleId ∧ otherGeneration = generation)) :
    roleActive { tables with roles } other otherGeneration
      = roleActive tables other otherGeneration := by
  unfold roleActive
  rcases putRoleRow_ok h with rfl | ⟨rfl, -⟩
  · rw [any_map]
    congr 1
    funext row
    dsimp only [Function.comp]
    split
    · rfl
    · rfl
  · have hnew : decide (roleId = other ∧ generation = otherGeneration ∧ true = true) = false := by
      apply decide_eq_false
      rintro ⟨rfl, rfl, -⟩
      exact hne ⟨rfl, rfl⟩
    rw [any_append, any_cons, any_nil, hnew, Bool.or_false, Bool.or_false]

end Auth
