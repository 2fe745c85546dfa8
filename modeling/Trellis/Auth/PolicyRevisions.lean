/-
# Revision counters of the policy tables

A policy mutation advances the tables of roles, identity-provider mappings and direct grants: what
it rewrites goes to a later revision, and what it adds is under a free key.  A role generation
stays in its table, so its key is never free again; a deleted mapping or grant frees its key, and
the next row under it starts at the first revision.

A role counts with the capabilities recorded for its generation, a mapping with its roles.
-/
import Trellis.Auth.Policy
import Trellis.Lib.Versioned

open Catalog Versioned

namespace Auth

open List Checked

variable {Claims : Type}

/-! ## Entries -/

/-- A role generation with the capabilities recorded for it. -/
abbrev RoleEntry := Role × List RoleCapability

/-- A mapping with its roles. -/
abbrev MappingEntry := OidcMapping × List MappingRole

variable (tables : PolicyTables Claims)

def capabilitiesOf (role : Role) : List RoleCapability :=
  tables.roleCapabilities.filter fun row =>
    row.roleId = role.roleId ∧ row.roleGeneration = role.identityGeneration

def rolesOf (mapping : OidcMapping) : List MappingRole :=
  tables.mappingRoles.filter fun row => row.mappingId = mapping.mappingId

def roleEntries : List RoleEntry :=
  tables.roles.map fun role => (role, capabilitiesOf tables role)

def mappingEntries : List MappingEntry :=
  tables.oidcMappings.map fun mapping => (mapping, rolesOf tables mapping)

def roleKey (role : Role) : String × Nat := (role.roleId, role.identityGeneration)

def grantKey (row : DirectCapability) : String × CapabilityId × Nat :=
  (row.principalId, row.capabilityId, row.capabilityGeneration)

/-- The primary keys of the tables. -/
structure PolicyKeys (tables : PolicyTables Claims) : Prop where
  roles : (tables.roles.map roleKey).Nodup
  mappings : (tables.oidcMappings.map OidcMapping.mappingId).Nodup
  grants : (tables.directCapabilities.map grantKey).Nodup

/-- What a change of the policy tables may do to the rows with revisions. -/
structure PolicyAdvances (tables tables' : PolicyTables Claims) : Prop where
  keys : PolicyKeys tables'
  roles : Advances (fun entry => roleKey entry.1) (fun entry => entry.1.revision)
    (roleEntries tables) (roleEntries tables')
  roleKept : ∀ role ∈ tables.roles, ∃ role' ∈ tables'.roles, roleKey role' = roleKey role
  mappings : Advances (fun entry => entry.1.mappingId) (fun entry => entry.1.revision)
    (mappingEntries tables) (mappingEntries tables')
  grants : Advances grantKey DirectCapability.revision tables.directCapabilities
    tables'.directCapabilities

variable {tables : PolicyTables Claims}

theorem mem_map_pair {rows : List α} {f : α → β} :
    entry ∈ rows.map (fun row => (row, f row)) ↔ entry.1 ∈ rows ∧ entry.2 = f entry.1 := by
  rw [mem_map]
  constructor
  · rintro ⟨row, hrow, rfl⟩
    exact ⟨hrow, rfl⟩
  · rintro ⟨hrow, heq⟩
    exact ⟨entry.1, hrow, by rw [← heq]⟩

theorem mem_roleEntries : entry ∈ roleEntries tables ↔
    entry.1 ∈ tables.roles ∧ entry.2 = capabilitiesOf tables entry.1 :=
  mem_map_pair

theorem mem_mappingEntries : entry ∈ mappingEntries tables ↔
    entry.1 ∈ tables.oidcMappings ∧ entry.2 = rolesOf tables entry.1 :=
  mem_map_pair

/-! ## Single tables -/

/-- Where a row after an upsert comes from. -/
theorem upsertRow_cases (h : x' ∈ upsertRow rows sameKey update new) :
    (x' ∈ rows ∧ sameKey x' = false) ∨ (∃ x ∈ rows, sameKey x = true ∧ x' = update x) ∨
      (x' = new ∧ ∀ x ∈ rows, sameKey x = false) := by
  unfold upsertRow at h
  split at h
  · obtain ⟨x, hx, rfl⟩ := mem_map.mp h
    cases hkey : sameKey x with
    | true => exact .inr (.inl ⟨x, hx, hkey, rfl⟩)
    | false => exact .inl ⟨hx, hkey⟩
  next hany =>
    have hfree : ∀ x ∈ rows, sameKey x = false := fun x hx =>
      Bool.eq_false_of_not_eq_true fun hkey => hany (any_eq_true.mpr ⟨x, hx, hkey⟩)
    rcases mem_append.mp h with h | h
    · exact .inl ⟨h, hfree x' h⟩
    · exact .inr (.inr ⟨mem_singleton.mp h, hfree⟩)

/-- The row an upsert found is the only one of its key. -/
theorem revision_of_find {rows : List α} (hnd : (rows.map key).Nodup)
    (hsame : ∀ row, sameKey row = true ↔ key row = k)
    (hfind : ((rows.find? sameKey).map revision).getD 0 = expected) (hrow : row ∈ rows)
    (hkey : sameKey row = true) : revision row = expected := by
  cases hfound : rows.find? sameKey with
  | none => exact absurd hkey (find?_eq_none.mp hfound row hrow)
  | some found =>
    have hmem := mem_of_find?_eq_some hfound
    have hfoundKey := (hsame found).mp (find?_some hfound)
    rw [hfound] at hfind
    rw [inj_on_of_nodup_map hnd hrow hmem (((hsame row).mp hkey).trans hfoundKey.symm)]
    exact hfind

theorem grantKey_eq_iff : decide (row.principalId = principalId ∧ row.capabilityId = capabilityId ∧
      row.capabilityGeneration = generation) = true ↔
      grantKey row = (principalId, capabilityId, generation) := by
  rw [decide_eq_true_iff, grantKey, Prod.mk.injEq, Prod.mk.injEq]

theorem nodup_filter_key {rows : List α} (p : α → Bool)
    (h : (rows.map key).Nodup) : ((rows.filter p).map key).Nodup :=
  h.sublist (filter_sublist.map key)

/-! ## Changes of one kind -/

variable (hkeys : PolicyKeys tables)
include hkeys

/-- Of the rows with revisions, a change touches direct grants only. -/
theorem PolicyAdvances.of_grants (hroles : tables'.roles = tables.roles)
    (hroleCapabilities : tables'.roleCapabilities = tables.roleCapabilities)
    (hmaps : tables'.oidcMappings = tables.oidcMappings)
    (hmappingRoles : tables'.mappingRoles = tables.mappingRoles)
    (hnd : (tables'.directCapabilities.map grantKey).Nodup)
    (hgrants : Advances grantKey DirectCapability.revision tables.directCapabilities
      tables'.directCapabilities) : PolicyAdvances tables tables' := by
  have hroleEntries : roleEntries tables' = roleEntries tables := by
    unfold roleEntries capabilitiesOf
    rw [hroles, hroleCapabilities]
  have hmappingEntries : mappingEntries tables' = mappingEntries tables := by
    unfold mappingEntries rolesOf
    rw [hmaps, hmappingRoles]
  refine ⟨⟨hroles ▸ hkeys.roles, hmaps ▸ hkeys.mappings, hnd⟩, ?_,
    fun role hrole => ⟨role, hroles ▸ hrole, rfl⟩, ?_, hgrants⟩
  · rw [hroleEntries]
    exact .of_subset (List.Subset.refl _)
  · rw [hmappingEntries]
    exact .of_subset (List.Subset.refl _)

/-- A change that touches none of the rows with revisions. -/
theorem PolicyAdvances.frame (hroles : tables'.roles = tables.roles)
    (hroleCapabilities : tables'.roleCapabilities = tables.roleCapabilities)
    (hmaps : tables'.oidcMappings = tables.oidcMappings)
    (hmappingRoles : tables'.mappingRoles = tables.mappingRoles)
    (hgrants : tables'.directCapabilities = tables.directCapabilities) :
    PolicyAdvances tables tables' :=
  .of_grants hkeys hroles hroleCapabilities hmaps hmappingRoles (hgrants ▸ hkeys.grants)
    (hgrants ▸ .of_subset (List.Subset.refl _))

/-- A change of roles and their capabilities only. -/
theorem PolicyAdvances.of_roles {roles : List Role} (hnd : (roles.map roleKey).Nodup)
    (hroles : Advances (fun entry => roleKey entry.1) (fun entry => entry.1.revision)
      (roleEntries tables) (roleEntries { tables with roles, roleCapabilities }))
    (hkept : ∀ role ∈ tables.roles, ∃ role' ∈ roles, roleKey role' = roleKey role) :
    PolicyAdvances tables { tables with roles, roleCapabilities } where
  keys := ⟨hnd, hkeys.mappings, hkeys.grants⟩
  roles := hroles
  roleKept := hkept
  mappings := .of_subset (List.Subset.refl _)
  grants := .of_subset (List.Subset.refl _)

/-- A change of mappings and their roles only. -/
theorem PolicyAdvances.of_mappings (hnd : (oidcMappings.map OidcMapping.mappingId).Nodup)
    (hmaps : Advances (fun entry => entry.1.mappingId) (fun entry => entry.1.revision)
      (mappingEntries tables) (mappingEntries { tables with oidcMappings, mappingRoles })) :
    PolicyAdvances tables { tables with oidcMappings, mappingRoles } where
  keys := ⟨hkeys.roles, hnd, hkeys.grants⟩
  roles := .of_subset (List.Subset.refl _)
  roleKept := fun role hrole => ⟨role, hrole, rfl⟩
  mappings := hmaps
  grants := .of_subset (List.Subset.refl _)

omit hkeys

theorem capabilitiesOf_replaced
    (hadded : ∀ row ∈ added, row.roleId = roleId ∧ row.roleGeneration = generation) {role : Role}
    (hne : roleKey role ≠ (roleId, generation)) : capabilitiesOf { tables with
      roles
      roleCapabilities := (tables.roleCapabilities.filter fun row =>
        ¬ (row.roleId = roleId ∧ row.roleGeneration = generation)) ++ added } role
      = capabilitiesOf tables role := by
  apply filter_replaced hadded
  rintro row ⟨hid, hgen⟩ ⟨hid', hgen'⟩
  exact hne (Prod.ext (hid.symm.trans hid') (hgen.symm.trans hgen'))

include hkeys

/-- Rows of one role generation are rewritten to their next revision. -/
theorem PolicyAdvances.rewriteRole
    {update : Role → Role} (hkey : ∀ role, roleKey (update role) = roleKey role)
    (hrev : ∀ role, role.revision < (update role).revision)
    (hcaps : ∀ role, roleKey role ≠ (roleId, generation) →
      capabilitiesOf { tables with roleCapabilities } role = capabilitiesOf tables role) :
    PolicyAdvances tables { tables with
      roles := tables.roles.map fun row =>
        if row.roleId = roleId ∧ row.identityGeneration = generation then update row else row
      roleCapabilities } := by
  have hsame : ∀ row, roleKey (if row.roleId = roleId ∧ row.identityGeneration = generation then
      update row else row) = roleKey row := fun row => key_ite (hkey row)
  refine .of_roles hkeys (nodup_key_map hsame hkeys.roles) ?_
    fun role hrole => ⟨_, mem_map_of_mem hrole, hsame role⟩
  rintro ⟨role', capabilities'⟩ hentry
  obtain ⟨hrole, hcaps'⟩ := mem_roleEntries.mp hentry
  obtain ⟨role, hmem, rfl⟩ := mem_map.mp hrole
  by_cases hid : role.roleId = roleId ∧ role.identityGeneration = generation
  · refine .inr (.inl ⟨(role, capabilitiesOf tables role), mem_roleEntries.mpr ⟨hmem, rfl⟩,
      (hsame role).symm, ?_⟩)
    rw [if_pos hid]
    exact hrev role
  · rw [if_neg hid] at hcaps' ⊢
    exact .inl (mem_roleEntries.mpr ⟨hmem, hcaps'.trans (hcaps role fun hkey =>
      hid (Prod.mk.inj hkey))⟩)

theorem rolePut_advances
    (h : rolePut library tables roleId expectedRevision title description capabilities
      = .ok tables') : PolicyAdvances tables tables' := by
  obtain ⟨roles, generation, added, hrow, hadded, rfl⟩ := rolePut_ok h
  have hadded' : ∀ row ∈ added, row.roleId = roleId ∧ row.roleGeneration = generation :=
    fun row hmem => ⟨(hadded row hmem).1, (hadded row hmem).2.1⟩
  rcases putRoleRow_ok hrow with rfl | ⟨rfl, hnew⟩
  · refine .rewriteRole hkeys ?_ ?_ fun _ => capabilitiesOf_replaced hadded'
    · exact fun _ => rfl
    · exact fun _ => Nat.lt_succ_self _
  · have hfree : ∀ role ∈ tables.roles, roleKey role ≠ (roleId, generation) := by
      intro role hrole hkey
      obtain ⟨hid, hgen⟩ := Prod.mk.inj hkey
      exact absurd hgen (Nat.ne_of_lt (hnew role hrole hid))
    refine .of_roles hkeys (nodup_map_concat hkeys.roles hfree) ?_
      fun role hrole => ⟨role, mem_append_left _ hrole, rfl⟩
    rintro ⟨role', capabilities'⟩ hentry
    obtain ⟨hrole, hcaps⟩ := mem_roleEntries.mp hentry
    rcases mem_append.mp hrole with hrole | hrole
    · refine .inl (mem_roleEntries.mpr ⟨hrole, hcaps.trans ?_⟩)
      exact capabilitiesOf_replaced hadded' (hfree role' hrole)
    · obtain rfl : role' = _ := mem_singleton.mp hrole
      exact .inr (.inr fun old hold => hfree old.1 (mem_roleEntries.mp hold).1)

theorem roleDelete_advances (h : roleDelete tables roleId expectedRevision = .ok tables') :
    PolicyAdvances tables tables' := by
  obtain ⟨generation, rfl⟩ := roleDelete_ok h
  refine .rewriteRole hkeys ?_ ?_ fun _ _ => rfl
  · exact fun _ => rfl
  · exact fun _ => Nat.lt_succ_self _

theorem capabilityGrant_advances
    (h : capabilityGrant tables principalId capabilityId expectedRevision expiresAt now
      = .ok tables') : PolicyAdvances tables tables' := by
  obtain ⟨generation, hrev, rfl⟩ := capabilityGrant_ok h
  refine PolicyAdvances.of_grants hkeys rfl rfl rfl rfl
    (nodup_upsertRow (fun _ => grantKey_eq_iff) rfl
    (fun _ hrow => grantKey_eq_iff.mp hrow) hkeys.grants) fun row' hrow' => ?_
  rcases upsertRow_cases hrow' with ⟨hold, -⟩ | ⟨row, hrow, hkey, rfl⟩ | ⟨rfl, hfree⟩
  · exact .inl hold
  · have hfound := revision_of_find hkeys.grants (fun _ => grantKey_eq_iff) hrev hrow hkey
    refine .inr (.inl ⟨row, hrow, rfl, ?_⟩)
    rw [hfound]
    exact Nat.lt_succ_self _
  · refine .inr (.inr fun row hrow hkey => ?_)
    exact absurd (grantKey_eq_iff.mpr hkey) (Bool.eq_false_iff.mp (hfree row hrow))

omit hkeys

theorem rolesOf_replaced {mappingId : String} {added : List MappingRole}
    (hadded : ∀ row ∈ added, row.mappingId = mappingId) {mapping : OidcMapping}
    (hne : mapping.mappingId ≠ mappingId) : rolesOf { tables with
      oidcMappings := mappings
      mappingRoles := (tables.mappingRoles.filter fun row => row.mappingId ≠ mappingId) ++ added }
      mapping = rolesOf tables mapping := by
  apply filter_replaced hadded
  intro row hrow hsame
  exact hne (hrow.symm.trans hsame)

include hkeys

theorem oidcMappingPut_advances
    (h : oidcMappingPut library tables mappingId providerId claimName claimValue roleIds
      expectedRevision = .ok tables') : PolicyAdvances tables tables' := by
  obtain ⟨added, hadded, hrev, rfl⟩ := oidcMappingPut_ok h
  have hadded' : ∀ row ∈ added, row.mappingId = mappingId := fun row hmem => (hadded row hmem).1
  refine .of_mappings hkeys (nodup_upsertRow (fun _ => decide_eq_true_iff) rfl
    (fun _ hrow => of_decide_eq_true hrow) hkeys.mappings) fun entry hentry => ?_
  obtain ⟨hmap, hroles⟩ := mem_mappingEntries.mp hentry
  rcases upsertRow_cases hmap with ⟨hold, hne⟩ | ⟨row, hrow, hkey, heq⟩ | ⟨heq, hfree⟩
  · refine .inl (mem_mappingEntries.mpr ⟨hold, ?_⟩)
    rw [hroles]
    exact rolesOf_replaced hadded' (of_decide_eq_false hne)
  · have hfound := revision_of_find hkeys.mappings (fun _ => decide_eq_true_iff) hrev hrow hkey
    refine .inr (.inl ⟨(row, rolesOf tables row), mem_mappingEntries.mpr ⟨hrow, rfl⟩, ?_, ?_⟩)
    · dsimp only
      rw [heq]
    · dsimp only
      rw [heq, hfound]
      exact Nat.lt_succ_self _
  · refine .inr (.inr fun old hold hkey => ?_)
    dsimp only at hkey
    rw [heq] at hkey
    exact of_decide_eq_false (hfree old.1 (mem_mappingEntries.mp hold).1) hkey

theorem oidcMappingDelete_advances
    (h : oidcMappingDelete tables mappingId expectedRevision = .ok tables') :
    PolicyAdvances tables tables' := by
  obtain ⟨⟨row, hrow, hid, hrev⟩, rfl⟩ := oidcMappingDelete_ok h
  refine .of_mappings hkeys (nodup_filter_key _ hkeys.mappings) ?_
  rintro ⟨mapping, roles⟩ hentry
  obtain ⟨hmap, hroles⟩ := mem_mappingEntries.mp hentry
  obtain ⟨hmem, hkept⟩ := mem_filter.mp hmap
  have hne : mapping.mappingId ≠ mappingId := by
    intro heq
    -- the deleted row is the only one under the identity
    obtain rfl := inj_on_of_nodup_map hkeys.mappings hmem hrow (heq.trans hid.symm)
    rw [decide_eq_true ⟨hid, hrev⟩] at hkept
    cases hkept
  refine .inl (mem_mappingEntries.mpr ⟨hmem, hroles.trans ?_⟩)
  have hreplaced := @rolesOf_replaced _ tables tables.oidcMappings mappingId []
    (fun _ hmem => absurd hmem not_mem_nil) mapping hne
  rwa [append_nil] at hreplaced

/-! ## Policy mutations -/

/-- A policy mutation advances the tables. -/
theorem applyPolicy_advances
    (h : applyPolicy library tables mutation now = .ok (tables', scope, revision)) :
    PolicyAdvances tables tables' := by
  cases applyPolicy_applied h with
  | rolePut h => exact rolePut_advances hkeys h
  | roleDelete h => exact roleDelete_advances hkeys h
  | roleAssign h =>
    obtain ⟨_, rfl⟩ := roleAssign_ok h
    exact .frame hkeys rfl rfl rfl rfl rfl
  | roleRevoke h =>
    obtain ⟨_, rfl⟩ := roleRevoke_ok h
    exact .frame hkeys rfl rfl rfl rfl rfl
  | capabilityGrant h => exact capabilityGrant_advances hkeys h
  | capabilityRevoke h =>
    obtain ⟨_, rfl⟩ := capabilityRevoke_ok h
    exact .of_grants hkeys rfl rfl rfl rfl (nodup_filter_key _ hkeys.grants)
      (.of_subset fun _ hrow => (mem_filter.mp hrow).1)
  | clientState h =>
    obtain ⟨_, rfl⟩ := setClientState_ok h
    exact .frame hkeys rfl rfl rfl rfl rfl
  | principalState h =>
    obtain ⟨_, rfl⟩ := setPrincipalState_ok h
    exact .frame hkeys rfl rfl rfl rfl rfl
  | consentRevoke => exact .frame hkeys rfl rfl rfl rfl rfl
  | oidcMappingPut h => exact oidcMappingPut_advances hkeys h
  | oidcMappingDelete h => exact oidcMappingDelete_advances hkeys h

end Auth
