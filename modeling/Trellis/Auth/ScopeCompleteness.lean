/-
# Policy enforcement reaches every session a mutation affects

A policy mutation leaves the evaluation of every session outside the scope it enqueues as it was,
so once that work is processed no active session holds more than `evaluate` gives.

This needs that a session's principal is the one its credential resolves to.  For OAuth grants a
foreign key says so.  For a provisioned identity nothing does: approving a service claim gives its
key to a new principal, while a session opened on the claim keeps the claim's.
-/
import Mathlib.Data.List.Find
import Trellis.Auth.Enforcement

open Catalog

namespace Auth

open List Checked

variable {Claims : Type} {id grant : String} {store : AuthStore Claims}
  {session : AuthorizationSession}

/-! ## Roots of credentials -/

theorem oauthRecord_eq_some (h : oauthRecord tables id now = some (g, deadline)) :
    g ∈ tables.grants ∧ g.oauthGrantId = id := by
  obtain ⟨g', hg', hmem⟩ := mem_flatMap.mp (mem_of_mem_head? h)
  split at hmem
  next hcond =>
    obtain ⟨l, -, hmem⟩ := mem_flatMap.mp hmem
    split at hmem
    · obtain ⟨p, -, heq⟩ := mem_filterMap.mp hmem
      split at heq
      · obtain ⟨rfl, -⟩ := Prod.mk.inj (Option.some.inj heq)
        exact ⟨hg', hcond.1⟩
      · cases heq
    · cases hmem
  · cases hmem

theorem identityRecord_eq_some
    (h : identityRecord tables native identity now = some (i, deadline)) :
    i ∈ native.identities ∧ i.identityKeyId = identity ∧
      ∃ r ∈ native.instances, r.instanceId = i.instanceId ∧ r.principalId = i.principalId := by
  obtain ⟨i', hi', hmem⟩ := mem_flatMap.mp (mem_of_mem_head? h)
  split at hmem
  next hcond =>
    obtain ⟨p, -, hmem⟩ := mem_flatMap.mp hmem
    split at hmem
    · obtain ⟨d, -, heq⟩ := mem_filterMap.mp hmem
      split at heq
      next hdep =>
        obtain ⟨rfl, -⟩ := Prod.mk.inj (Option.some.inj heq)
        obtain ⟨r, hr, hmatch⟩ := any_eq_true.mp hdep.2.2.2.2.2
        obtain ⟨hid, -, hprin, -⟩ := of_decide_eq_true hmatch
        exact ⟨hi', hcond.1, r, hr, hid, hprin⟩
      · cases heq
    · cases hmem
  · cases hmem

/-- Tables evaluate a credential alike when its root and its principal's paths are the same. -/
theorem evaluate_congr (hcat : tables'.catalog = tables.catalog)
    (hroot : credentialSnapshot tables' native credential now
      = credentialSnapshot tables native credential now)
    (hheld : ∀ root, credentialSnapshot tables native credential now = .ok root →
      heldSources library tables' root.principalId root.loginSessionId now
        = heldSources library tables root.principalId root.loginSessionId now) :
    evaluate library tables' native credential now
      = evaluate library tables native credential now := by
  unfold evaluate
  rw [hroot, hcat]
  cases hsnap : credentialSnapshot tables native credential now with
  | error error => rfl
  | ok root =>
    dsimp only [ok_bind]
    unfold entitlements
    rw [hheld root hsnap, hcat]

/-! ## Paths a mutation does not touch -/

/-- Rows that read alike for whoever looks at one principal only. -/
def ReadAlike {α : Type} (owner : α → String) (principal : String) (rows rows' : List α) : Prop :=
  ∀ (β : Type) (f : α → List β), (∀ row, owner row ≠ principal → f row = []) →
    rows'.flatMap f = rows.flatMap f

section Alike

variable {α : Type}

theorem ReadAlike.refl : ReadAlike owner principal rows rows :=
  fun _ _ _ => rfl

/-- An upsert of a row of another principal. -/
theorem ReadAlike.upsertRow (hnew : owner new ≠ principal)
    (hrow : ∀ row, sameKey row = true → owner row ≠ principal ∧ owner (update row) ≠ principal) :
    ReadAlike owner principal rows (Auth.upsertRow rows sameKey update new) := by
  intro β f hskip
  unfold Auth.upsertRow
  split
  · rw [flatMap_map]
    apply flatMap_congr
    intro row _
    by_cases hkey : sameKey row = true
    · rw [if_pos hkey, hskip _ (hrow row hkey).1, hskip _ (hrow row hkey).2]
    · rw [if_neg hkey]
  · rw [flatMap_append, flatMap_singleton, hskip new hnew, append_nil]

/-- Rows of another principal are deleted. -/
theorem ReadAlike.delete {gone : α → Bool} (h : ∀ row, gone row = true → owner row ≠ principal) :
    ReadAlike owner principal rows (rows.filter fun row => !gone row) := by
  intro β f hskip
  induction rows with
  | nil => rfl
  | cons row rows ih =>
    cases hgone : gone row with
    | true =>
      rw [filter_cons_of_neg (by simp [hgone]), ih, flatMap_cons, hskip row (h row hgone),
        nil_append]
    | false => rw [filter_cons_of_pos (by simp [hgone]), flatMap_cons, flatMap_cons, ih]

end Alike

/-! ## Roles -/

/-- Whether a role is one of those a principal reaches under a login. -/
structure Reaches (tables : PolicyTables Claims) (principal : String) (login : Option String)
    (P : String → Prop) : Prop where
  assigned : ∀ row ∈ tables.roleAssignments, row.principalId = principal → P row.roleId
  mapped : ∀ own ∈ tables.logins, login = some own.loginSessionId →
    ∀ mapping ∈ tables.oidcMappings, some mapping.providerId = own.providerId →
    ∀ row ∈ tables.mappingRoles, row.mappingId = mapping.mappingId → P row.roleId

/-- Changes to roles a principal does not reach keep its paths. -/
theorem heldSources_of_roles (h : Reaches tables principal login fun roleId => ∀ generation,
      roleGrants { tables with roles, roleCapabilities } roleId generation
        = roleGrants tables roleId generation) :
    heldSources library { tables with roles, roleCapabilities } principal login now
      = heldSources library tables principal login now := by
  have hassigned : roleSources { tables with roles, roleCapabilities } principal now
      = roleSources tables principal now := by
    apply flatMap_congr
    intro row hrow
    by_cases hcond : row.principalId = principal ∧ inForce row.expiresAt now = true
    · rw [if_pos hcond, if_pos hcond, h.assigned row hrow hcond.1]
    · rw [if_neg hcond, if_neg hcond]
  have hmapped : oidcSources library { tables with roles, roleCapabilities } principal login now
      = oidcSources library tables principal login now := by
    have hsame login : freshObservation { tables with roles, roleCapabilities } principal login now
        = freshObservation tables principal login now := rfl
    simp only [oidcSources, hsame]
    cases hlast : login.bind fun login => freshObservation tables principal login now with
    | none => rfl
    | some latest =>
      obtain ⟨id, hid, hfresh⟩ := Option.bind_eq_some_iff.mp hlast
      obtain ⟨own, hown, hmem⟩ := mem_flatMap.mp (mem_of_mem_head? hfresh)
      split at hmem
      next hlogin =>
        obtain ⟨hobs, -⟩ := mem_filter.mp hmem
        have hprov := (of_decide_eq_true (mem_filter.mp hobs).2).2.1
        apply flatMap_congr
        intro mapping hmap
        split
        next hcond =>
          apply flatMap_congr
          intro row hrow
          obtain ⟨hrow, hmappingId⟩ := mem_filter.mp hrow
          rw [h.mapped own hown (hid.trans (congrArg some hlogin.1.symm)) mapping hmap
            (hcond.1.trans hprov) row hrow (of_decide_eq_true hmappingId)]
        · rfl
      · cases hmem
  unfold heldSources
  rw [hassigned, hmapped]
  rfl

theorem roleGrants_rolePut
    (h : rolePut library tables roleId expectedRevision title description capabilities
      = .ok tables') (hne : other ≠ roleId) (generation : Nat) :
    roleGrants tables' other generation = roleGrants tables other generation := by
  obtain ⟨roles, written, added, hput, hadded, rfl⟩ := rolePut_ok h
  have hact := roleActive_putRoleRow hput (fun hsame : other = roleId ∧ generation = written =>
    hne hsame.1)
  unfold roleGrants
  congr 2
  apply filter_replaced (fun row hrow => ⟨(hadded row hrow).1, (hadded row hrow).2.1⟩)
  rintro row ⟨hrole, -⟩ ⟨hrole', -⟩
  exact hne (hrole.symm.trans hrole')

theorem roleGrants_roleDelete (h : roleDelete tables roleId expectedRevision = .ok tables')
    (hne : other ≠ roleId) (generation : Nat) :
    roleGrants tables' other generation = roleGrants tables other generation := by
  obtain ⟨deleted, rfl⟩ := roleDelete_ok h
  unfold roleGrants
  have hact : roleActive { tables with
      roles := tables.roles.map fun row =>
        if row.roleId = roleId ∧ row.identityGeneration = deleted then
          { row with active := false, revision := row.revision + 1 }
        else row } other generation = roleActive tables other generation := by
    unfold roleActive
    rw [any_map]
    apply any_congr rfl
    intro row
    dsimp only [Function.comp]
    split
    next hdeleted =>
      rw [decide_eq_false fun hcond => hne (hcond.1.symm.trans hdeleted.1),
        decide_eq_false fun hcond => hne (hcond.1.symm.trans hdeleted.1)]
    · rfl
  rw [hact]

/-! ## Snapshots a mutation does not touch -/

theorem grantSnapshot_congr (hrec : oauthRecord tables' id now = oauthRecord tables id now)
    (hclient : ∀ g ∈ tables.grants, g.oauthGrantId = id →
      clientUsable tables' g.clientId = clientUsable tables g.clientId)
    (hlogin : ∀ login, loginProviderActive tables' login = loginProviderActive tables login)
    (hfamily : familyDeadline tables' id now = familyDeadline tables id now)
    (happr : ∀ g ∈ tables.grants, g.oauthGrantId = id →
      currentApproval tables' g now = currentApproval tables g now) :
    grantSnapshot tables' id now = grantSnapshot tables id now := by
  unfold grantSnapshot
  rw [hrec]
  cases hfound : oauthRecord tables id now with
  | none => rfl
  | some record =>
    obtain ⟨g, deadline⟩ := record
    obtain ⟨hmem, hid⟩ := oauthRecord_eq_some hfound
    dsimp only
    rw [hclient g hmem hid, hlogin, hfamily, happr g hmem hid]

section PrincipalStates

variable {f : Principal → Principal} (hid : ∀ row, (f row).principalId = row.principalId)
  (hsame : ∀ row, row.principalId ≠ principalId → f row = row)
include hid hsame

/-- A reader of another principal's row does not see the change. -/
theorem reads_other (hne : other ≠ principalId) (P : Principal → Prop) (row : Principal) :
    (f row).principalId = other ∧ P (f row) ↔ row.principalId = other ∧ P row := by
  by_cases hrow : row.principalId = principalId
  · have hother : row.principalId ≠ other := fun heq => hne (heq.symm.trans hrow)
    rw [hid]
    exact ⟨fun h => absurd h.1 hother, fun h => absurd h.1 hother⟩
  · rw [hsame row hrow]

theorem any_principals {principals : List Principal} (hne : other ≠ principalId) :
    ((principals.map f).any fun row => row.principalId = other ∧ row.state = .active)
      = principals.any fun row => row.principalId = other ∧ row.state = .active := by
  rw [any_map]
  apply any_congr rfl
  intro row
  exact decide_eq_decide.mpr (reads_other hid hsame hne (fun row => row.state = .active) row)

theorem identityRecord_setState
    (hident : ∀ i ∈ native.identities, i.identityKeyId = identity → i.principalId ≠ principalId) :
    identityRecord { tables with principals := tables.principals.map f } native identity now
      = identityRecord tables native identity now := by
  unfold identityRecord
  congr 1
  apply flatMap_congr
  intro i hi
  split
  next hcond =>
    rw [flatMap_map]
    apply flatMap_congr
    intro row _
    have hread := reads_other hid hsame (hident i hi hcond.1)
      (fun row => row.state = .active ∧ row.kind = i.kind) row
    exact if_congr hread rfl rfl
  · rfl

/-- Setting the state of a principal leaves the identities of others as they were. -/
theorem identitySnapshot_setState
    (hinsts : ∀ a ∈ native.instances, ∀ b ∈ native.instances, a.instanceId = b.instanceId → a = b)
    (hident : ∀ i ∈ native.identities, i.identityKeyId = identity → i.principalId ≠ principalId)
    (hclaim : ∀ c ∈ native.claims, c.waiting = true → c.identityKeyId = identity →
      c.principalId ≠ principalId) :
    identitySnapshot { tables with principals := tables.principals.map f } native identity now
      = identitySnapshot tables native identity now := by
  unfold identitySnapshot
  rw [identityRecord_setState hid hsame hident]
  cases hrec : identityRecord tables native identity now with
  | none =>
    show claimSnapshot _ native identity = claimSnapshot tables native identity
    unfold claimSnapshot
    congr 1
    apply find?_congr
    intro c hc
    apply decide_eq_decide.mpr
    refine and_congr_right fun hkey => and_congr_right fun hwait => ?_
    rw [any_principals hid hsame (hclaim c hc hwait hkey)]
  | some record =>
    obtain ⟨i, deadline⟩ := record
    obtain ⟨hi, hkey, r, hr, hinst, hprin⟩ := identityRecord_eq_some hrec
    have hproj : projectInstance { tables with principals := tables.principals.map f } native
        i.instanceId now = projectInstance tables native i.instanceId now := by
      refine if_congr ?_ rfl rfl
      rw [any_eq_true, any_eq_true]
      refine exists_congr fun other => and_congr_right fun hother => ?_
      rw [decide_eq_true_iff, decide_eq_true_iff]
      refine and_congr_right fun hsameId => ?_
      rw [any_principals hid hsame]
      -- instance IDs are unique, so this is the identity's own instance
      rw [hinsts other hother r hr (hsameId.trans hinst.symm), hprin]
      exact hident i hi hkey
    dsimp only
    rw [hproj]

end PrincipalStates

/-! ## Sessions outside the scope -/

/-- What the schema guarantees: primary keys, non-empty session IDs, and that a session's grant
belongs to its principal. -/
structure Keyed (store : AuthStore Claims) : Prop where
  sessionIds_nodup : (store.sessions.map AuthorizationSession.authorizationSessionId).Nodup
  sessionIds_ne : ∀ session ∈ store.sessions, session.authorizationSessionId ≠ ""
  instances_unique : ∀ a ∈ store.native.instances, ∀ b ∈ store.native.instances,
    a.instanceId = b.instanceId → a = b
  grant_principal : ∀ session ∈ store.sessions, ∀ g ∈ store.policy.grants,
    session.oauthGrantId = some g.oauthGrantId → g.principalId = session.principalId

/-- The session's identity key, where it has one, belongs to the session's principal. -/
structure IdentityPrincipal (store : AuthStore Claims) (session : AuthorizationSession) : Prop where
  provisioned : ∀ i ∈ store.native.identities, session.identityKeyId = some i.identityKeyId →
    i.principalId = session.principalId
  claimed : ∀ c ∈ store.native.claims, c.waiting = true →
    session.identityKeyId = some c.identityKeyId → c.principalId = session.principalId

theorem credential_eq_oauthGrant
    (h : session.credential = .ok (.oauthGrant grant)) : session.oauthGrantId = some grant := by
  unfold AuthorizationSession.credential at h
  split at h
  next id _ hid _ =>
    obtain rfl : id = grant := by simpa using h
    exact hid
  · simp at h
  · cases h

theorem credential_eq_provisionedIdentity
    (h : session.credential = .ok (.provisionedIdentity identity)) :
    session.identityKeyId = some identity := by
  unfold AuthorizationSession.credential at h
  split at h
  · simp at h
  next id _ _ hid =>
    obtain rfl : id = identity := by simpa using h
    exact hid
  · cases h

/-- A session's credential has the session's principal as its root, under a login of its grant. -/
theorem root_of_session (hkeyed : Keyed store) (hmem : session ∈ store.sessions)
    (hown : IdentityPrincipal store session)
    (hcredential : session.credential = .ok credential)
    (hroot : credentialSnapshot store.policy store.native credential now = .ok root) :
    root.principalId = session.principalId ∧
      ∀ login, root.loginSessionId = some login → ∃ g ∈ store.policy.grants,
        some g.oauthGrantId = session.oauthGrantId ∧ g.loginSessionId = login := by
  cases credential with
  | oauthGrant grant =>
    have hgrant := credential_eq_oauthGrant hcredential
    change grantSnapshot store.policy grant now = .ok root at hroot
    unfold grantSnapshot at hroot
    split at hroot
    next g deadline hrec =>
      simp only [error_bind, guard_eq_ok, bind_eq_ok, pure_eq_ok] at hroot
      obtain ⟨-, -, family, -, approvals, -, binding, -, rfl⟩ := hroot
      obtain ⟨hg, rfl⟩ := oauthRecord_eq_some hrec
      refine ⟨hkeyed.grant_principal session hmem g hg hgrant, ?_⟩
      intro login hsome
      exact ⟨g, hg, hgrant.symm, Option.some.inj hsome⟩
    · cases hroot
  | provisionedIdentity identity =>
    have hident := credential_eq_provisionedIdentity hcredential
    change identitySnapshot store.policy store.native identity now = .ok root at hroot
    unfold identitySnapshot at hroot
    split at hroot
    · unfold claimSnapshot at hroot
      split at hroot
      · cases hroot
      rename_i c hc
      cases hroot
      have hmatch := find?_some hc
      obtain ⟨rfl, hwait, -⟩ := of_decide_eq_true hmatch
      exact ⟨hown.claimed c (mem_of_find?_eq_some hc) hwait hident, nofun⟩
    next i deadline hrec =>
      simp only [bind_eq_ok, pure_eq_ok] at hroot
      obtain ⟨projection, -, binding, -, health, -, rfl⟩ := hroot
      obtain ⟨hi, rfl, -⟩ := identityRecord_eq_some hrec
      exact ⟨hown.provisioned i hi hident, nofun⟩

section Outside

variable (hkeyed : Keyed store) (hmem : session ∈ store.sessions)
  (hown : IdentityPrincipal store session) (hcredential : session.credential = .ok credential)
include hkeyed hmem hown hcredential

/-- A mutation of what principals hold, but not the session's. -/
theorem evaluate_of_held (hcat : policy.catalog = store.policy.catalog)
    (hroot : credentialSnapshot policy store.native credential now
      = credentialSnapshot store.policy store.native credential now)
    (hheld : ∀ login, (∀ id, login = some id → ∃ g ∈ store.policy.grants,
        some g.oauthGrantId = session.oauthGrantId ∧ g.loginSessionId = id) →
      heldSources library policy session.principalId login now
        = heldSources library store.policy session.principalId login now) :
    evaluate library policy store.native credential now
      = evaluate library store.policy store.native credential now := by
  apply evaluate_congr hcat hroot
  intro root hsnap
  obtain ⟨hprin, hlogin⟩ := root_of_session hkeyed hmem hown hcredential hsnap
  rw [hprin]
  exact hheld _ hlogin

/-- A mutation of the entitlements of other principals. -/
theorem evaluate_of_other_principal
    (hroles : ReadAlike RoleAssignment.principalId session.principalId store.policy.roleAssignments
      roleAssignments) (hdirect : ReadAlike DirectCapability.principalId session.principalId
      store.policy.directCapabilities directCapabilities) :
    evaluate library { store.policy with roleAssignments, directCapabilities } store.native
        credential now = evaluate library store.policy store.native credential now := by
  refine evaluate_of_held hkeyed hmem hown hcredential rfl (by cases credential <;> rfl) ?_
  intro login _
  have hpaths : directSources { store.policy with roleAssignments, directCapabilities }
      session.principalId now = directSources store.policy session.principalId now := by
    unfold directSources
    rw [filterMap_eq_flatMap_toList, filterMap_eq_flatMap_toList]
    apply hdirect _ _
    intro row hother
    rw [if_neg fun hcond => hother hcond.1]
    rfl
  have hassigned : roleSources { store.policy with roleAssignments, directCapabilities }
      session.principalId now = roleSources store.policy session.principalId now :=
    hroles _ _ fun row hother => if_neg fun hcond => hother hcond.1
  unfold heldSources
  rw [hpaths, hassigned]
  rfl

/-- A mutation of roles the session does not reach. -/
theorem evaluate_of_other_roles (hgrants : ∀ other, other ≠ roleId → ∀ generation,
      roleGrants { store.policy with roles, roleCapabilities } other generation
        = roleGrants store.policy other generation)
    (hscope : sessionScope store (.role roleId) session = false) :
    evaluate library { store.policy with roles, roleCapabilities } store.native credential now
      = evaluate library store.policy store.native credential now := by
  refine evaluate_of_held hkeyed hmem hown hcredential rfl (by cases credential <;> rfl) ?_
  intro login hlogin
  obtain ⟨hassigned, hmapped⟩ := Bool.or_eq_false_iff.mp hscope
  refine heldSources_of_roles ⟨?_, ?_⟩
  · intro row hrow hprin
    refine hgrants _ fun hrole => ?_
    exact any_eq_false.mp hassigned row hrow (decide_eq_true ⟨hprin, hrole⟩)
  · intro own hown hid mapping hmap hprov row hrow hmappingId
    refine hgrants _ fun hrole => ?_
    obtain ⟨g, hg, hgrant, hlogin⟩ := hlogin _ hid
    refine any_eq_false.mp hmapped g hg (decide_eq_true ⟨hgrant, ?_⟩)
    refine any_eq_true.mpr ⟨own, hown, decide_eq_true ⟨hlogin.symm, ?_⟩⟩
    refine any_eq_true.mpr ⟨mapping, hmap, decide_eq_true ⟨hprov, ?_⟩⟩
    exact any_eq_true.mpr ⟨row, hrow, decide_eq_true ⟨hmappingId, hrole⟩⟩

omit hown hcredential in
theorem grant_of_other (hne : session.principalId ≠ principalId)
    (hgrant : session.oauthGrantId = some grant) :
    ∀ g ∈ store.policy.grants, g.oauthGrantId = grant → g.principalId ≠ principalId := by
  intro g hg hid
  rw [hkeyed.grant_principal session hmem g hg (hgrant.trans (congrArg some hid.symm))]
  exact hne

omit hkeyed hmem hown in
theorem evaluate_clientState
    (h : setClientState store.policy clientId expectedRevision state = .ok policy)
    (hscope : sessionScope store (.client clientId) session = false) :
    evaluate library policy store.native credential now
      = evaluate library store.policy store.native credential now := by
  obtain ⟨next, rfl⟩ := setClientState_ok h
  refine evaluate_congr rfl ?_ fun _ _ => rfl
  cases credential with
  | provisionedIdentity identity => rfl
  | oauthGrant grant =>
    refine grantSnapshot_congr rfl ?_ (fun _ => rfl) rfl fun _ _ _ => rfl
    intro g hg hid
    have hclient : g.clientId ≠ clientId := fun hclient => any_eq_false.mp hscope g hg
      (decide_eq_true ⟨hid ▸ (credential_eq_oauthGrant hcredential).symm, decide_eq_true hclient⟩)
    unfold clientUsable
    rw [find?_map_of_skipped]
    · intro row
      split <;> rfl
    · intro row hrow
      refine if_neg fun hsel => ?_
      exact hclient ((of_decide_eq_true hrow).symm.trans (of_decide_eq_true hsel).1)

theorem evaluate_principalState
    (h : setPrincipalState store.policy principalId expectedRevision state = .ok policy)
    (hne : session.principalId ≠ principalId) : evaluate library policy store.native credential now
      = evaluate library store.policy store.native credential now := by
  obtain ⟨next, rfl⟩ := setPrincipalState_ok h
  let f : Principal → Principal := fun row =>
    if decide (row.principalId = principalId ∧ row.version = expectedRevision ∧
        row.state ≠ .revoked) then
      { row with state := next, version := row.version + 1 }
    else row
  have hid : ∀ row, (f row).principalId = row.principalId := fun _ => key_ite rfl
  have hsame : ∀ row, row.principalId ≠ principalId → f row = row := by
    intro row hrow
    exact if_neg fun hsel => hrow (of_decide_eq_true hsel).1
  refine evaluate_congr rfl ?_ fun _ _ => rfl
  cases credential with
  | oauthGrant grant =>
    refine grantSnapshot_congr ?_ (fun _ _ _ => rfl) (fun _ => rfl) rfl fun _ _ _ => rfl
    have hother := grant_of_other hkeyed hmem hne (credential_eq_oauthGrant hcredential)
    unfold oauthRecord
    congr 1
    apply flatMap_congr
    intro g hg
    split
    next hcond =>
      apply flatMap_congr
      intro l _
      split
      · rw [filterMap_map]
        apply filterMap_congr
        intro row _
        have hread := reads_other hid hsame (hother g hg hcond.1)
          (fun row => row.state = .active) row
        exact if_congr hread rfl rfl
      · rfl
    · rfl
  | provisionedIdentity identity =>
    have hident := credential_eq_provisionedIdentity hcredential
    refine identitySnapshot_setState hid hsame hkeyed.instances_unique ?_ ?_
    · intro i hi hkey
      rw [hown.provisioned i hi (hident.trans (congrArg some hkey.symm))]
      exact hne
    · intro c hc hwait hkey
      rw [hown.claimed c hc hwait (hident.trans (congrArg some hkey.symm))]
      exact hne

omit hown in
theorem evaluate_consentRevoke (hne : session.principalId ≠ principalId) : evaluate library
        (consentRevoke store.policy principalId clientId bindingKind bindingValue capabilityId)
        store.native credential now
      = evaluate library store.policy store.native credential now := by
  refine evaluate_congr rfl ?_ fun _ _ => rfl
  cases credential with
  | provisionedIdentity identity => rfl
  | oauthGrant grant =>
    have hother := grant_of_other hkeyed hmem hne (credential_eq_oauthGrant hcredential)
    refine grantSnapshot_congr ?_ (fun _ _ _ => rfl) (fun _ => rfl) rfl ?_
    · unfold oauthRecord consentRevoke
      congr 1
      rw [flatMap_map]
      apply flatMap_congr
      intro g hg
      by_cases hrevoked : g.principalId = principalId ∧ g.clientId = clientId ∧
          g.bindingKind = bindingKind ∧ g.bindingValue = bindingValue ∧ (!g.revoked) = true
      · have hid : g.oauthGrantId ≠ grant := fun hid => hother g hg hid hrevoked.1
        rw [if_pos hrevoked, if_neg fun hcond => hid hcond.1, if_neg fun hcond => hid hcond.1]
      · rw [if_neg hrevoked]
    · intro g hg hid
      funext held
      unfold currentApproval consentRevoke
      rw [find?_map_of_skipped]
      · intro row
        split <;> rfl
      · intro row hrow
        refine if_neg fun hsel => ?_
        exact hother g hg hid ((of_decide_eq_true hrow).1.symm.trans hsel.1)

/-- A mutation leaves the evaluation of every session outside its scope as it was. -/
theorem evaluate_of_not_scope
    (h : applyPolicy library store.policy mutation now = .ok (policy, scope, revision))
    (hscope : sessionScope { store with policy } scope session = false) :
    evaluate library policy store.native credential now
      = evaluate library store.policy store.native credential now := by
  unfold applyPolicy at h
  cases mutation
  case consentRevoke =>
    cases h
    exact evaluate_consentRevoke hkeyed hmem hcredential (of_decide_eq_false hscope)
  all_goals
    simp only [bind_eq_ok] at h
    obtain ⟨_, h, ⟨⟩⟩ := h
  case rolePut =>
    have hgrants := fun other (hne : other ≠ _) => roleGrants_rolePut h hne
    obtain ⟨roles, generation, added, -, -, rfl⟩ := rolePut_ok h
    exact evaluate_of_other_roles hkeyed hmem hown hcredential hgrants hscope
  case roleDelete =>
    have hgrants := fun other (hne : other ≠ _) => roleGrants_roleDelete h hne
    obtain ⟨generation, rfl⟩ := roleDelete_ok h
    exact evaluate_of_other_roles hkeyed hmem hown hcredential hgrants hscope
  case roleAssign =>
    obtain ⟨generation, rfl⟩ := roleAssign_ok h
    have hne := Ne.symm (of_decide_eq_false hscope)
    refine evaluate_of_other_principal hkeyed hmem hown hcredential (.upsertRow hne ?_) .refl
    intro row hrow
    rw [(of_decide_eq_true hrow).1]
    exact ⟨hne, hne⟩
  case roleRevoke =>
    obtain ⟨generation, rfl⟩ := roleRevoke_ok h
    refine evaluate_of_other_principal hkeyed hmem hown hcredential (.delete ?_) .refl
    intro row hrow
    rw [(of_decide_eq_true hrow).1]
    exact Ne.symm (of_decide_eq_false hscope)
  case capabilityGrant =>
    obtain ⟨generation, -, rfl⟩ := capabilityGrant_ok h
    have hne := Ne.symm (of_decide_eq_false hscope)
    refine evaluate_of_other_principal hkeyed hmem hown hcredential .refl (.upsertRow hne ?_)
    intro row hrow
    rw [(of_decide_eq_true hrow).1]
    exact ⟨hne, hne⟩
  case capabilityRevoke =>
    obtain ⟨generation, rfl⟩ := capabilityRevoke_ok h
    refine evaluate_of_other_principal hkeyed hmem hown hcredential .refl (.delete ?_)
    intro row hrow
    rw [(of_decide_eq_true hrow).1]
    exact Ne.symm (of_decide_eq_false hscope)
  case clientState =>
    apply evaluate_clientState hcredential h
    obtain ⟨next, rfl⟩ := setClientState_ok h
    exact hscope
  case principalState =>
    exact evaluate_principalState hkeyed hmem hown hcredential h (of_decide_eq_false hscope)
  case oidcMappingPut | oidcMappingDelete => cases hscope

end Outside

/-! ## Completeness -/

/-- What `applyAndEnqueue` changes, and the work it leaves. -/
theorem applyAndEnqueue_ok
    (h : applyAndEnqueue library store mutation workId now = .ok (store', scope)) :
    ∃ policy revision, applyPolicy library store.policy mutation now =
      .ok (policy, scope, revision) ∧
      (∀ row ∈ store.work, row.workId ≠ workId) ∧
      store' = { store with
        policy
        work := store.work ++ [⟨workId, scope, scope.lane, none, .queued, 0, 0, now, now⟩] } := by
  unfold applyAndEnqueue enqueueScope at h
  obtain ⟨⟨policy, scope', revision⟩, hpolicy, h⟩ := bind_eq_ok.mp h
  obtain ⟨queued, hqueued, h⟩ := bind_eq_ok.mp h
  rw [guard_eq_ok] at hqueued
  obtain ⟨hfresh, hqueued⟩ := hqueued
  cases hqueued
  cases h
  refine ⟨policy, revision, hpolicy, ?_, rfl⟩
  intro row hrow hid
  exact hfresh (any_eq_true.mpr ⟨row, hrow, decide_eq_true hid⟩)

theorem empty_lt (h : s ≠ "") : "" < s := by
  rw [String.lt_iff_toList_lt]
  cases hchars : s.toList with
  | nil => exact absurd (String.toList_eq_nil_iff.mp hchars) h
  | cons c cs => exact nil_lt_cons c cs

/-- In a store where sessions carry the principal of their identity key, a mutation changes the
evaluation of sessions in its scope only, and once its work is processed no active session holds
more than `evaluate` gives.  All of it is at one `now`: expiry by itself is no mutation. -/
theorem noExcess_of_enforced {library : Library Claims} {store store₁ store₂ : AuthStore Claims}
    {mutation : PolicyMutation} {workId : String} {now : Int} {scope : EnforcementScope}
    {pageSize : Nat} (hkeyed : Keyed store)
    (hown : ∀ session ∈ store.sessions, session.state = .active → IdentityPrincipal store session)
    (hbefore : NoExcess library store now)
    (happly : applyAndEnqueue library store mutation workId now = .ok (store₁, scope))
    (hpages : ReflTransGen (Page library pageSize now) store₁ store₂)
    (hdone : ∃ row ∈ store₂.work, row.workId = workId ∧ row.state = .completed) :
    (∀ session ∈ store.sessions, session.state = .active →
        sessionEvaluation library store₁ session now ≠ sessionEvaluation library store session now →
        sessionScope store₁ scope session = true) ∧
      NoExcess library store₂ now := by
  have hsame : ∀ session ∈ store.sessions, session.state = .active →
      sessionScope store₁ scope session = false →
      sessionEvaluation library store₁ session now
        = sessionEvaluation library store session now := by
    intro session hmem hactive hscope
    obtain ⟨policy, revision, hpolicy, -, rfl⟩ := applyAndEnqueue_ok happly
    unfold sessionEvaluation
    cases hcredential : session.credential with
    | error error => rfl
    | ok credential =>
      exact evaluate_of_not_scope hkeyed hmem (hown session hmem hactive) hcredential hpolicy
        hscope
  refine ⟨?_, ?_⟩
  · intro session hmem hactive hchanged
    by_contra hscope
    exact hchanged (hsame session hmem hactive (Bool.not_eq_true _ ▸ hscope))
  · obtain ⟨policy, revision, -, hfresh, rfl⟩ := applyAndEnqueue_ok happly
    refine noExcess_of_completed (Run.keeps (P := Progress library scope workId now)
      progress_page hpages ⟨hkeyed.sessionIds_nodup, ?_, ?_, ?_⟩) hdone
    · intro session hmem hactive hscope
      have h := hbefore session hmem hactive
      unfold HoldsNoMore grantsNoMore at *
      rw [hsame session hmem hactive hscope]
      exact h
    · exact forall_mem_concat (fun row hrow hid => absurd hid (hfresh row hrow)) fun _ => rfl
    · -- nothing is passed yet: the work is queued and its cursor before every session
      intro row hrow hid session hmem _ _ hpassed
      rcases mem_append.mp hrow with hrow | hrow
      · exact absurd hid (hfresh row hrow)
      obtain rfl := mem_singleton.mp hrow
      rcases hpassed with hstate | hcursor
      · cases hstate
      · exact absurd (empty_lt (hkeyed.sessionIds_ne session hmem)) (not_lt.mpr hcursor)

/-! ## A service whose claim was approved -/

def nativeApi : AcceptedApi where
  generation := 1
  acceptedRevision := 1
  definitionDigest := ""
  definition := .empty

/-- The Auth and Health APIs with the capabilities of a service. -/
def nativeCatalog : Tables where
  accepted := fun api =>
    if api = "trellis.auth@v1" ∨ api = "trellis.health@v1" then some nativeApi else none
  identities := [⟨serviceUpdateCapability, 1, 1, true, .capability⟩,
    ⟨selfHealthCapability, 1, 1, true, .capability⟩]
  groupMembers := []
  snapshots := [⟨"trellis.auth@v1", 1, 1, "", [], []⟩,
    ⟨"trellis.health@v1", 1, 1, "", [], [⟨selfHealthCapability, 1, 1, [⟨heartbeatAction, 1⟩]⟩]⟩]

/-- A service instance whose key a waiting claim had before.  Its session belongs to `owner`. -/
def serviceStore (owner : String) : AuthStore Unit where
  policy := {
    catalog := nativeCatalog
    principals := [⟨"claim", .service, .active, 1⟩, ⟨"instance", .service, .active, 1⟩]
    directCapabilities := [⟨"instance", serviceUpdateCapability, 1, 1, none⟩,
      ⟨"instance", selfHealthCapability, 1, 1, none⟩] }
  native := {
    identities := [⟨"key", "instance", "deployment", "runtime", "worker", .service, true⟩]
    deployments := [⟨"deployment", "worker", true, none⟩]
    instances := [⟨"runtime", "deployment", "instance", true⟩]
    bindings := ["deployment"]
    devices := []
    claims := [⟨"claim", "claim", "key", false⟩]
    projected := fun _ => .ok ⟨⟨false, false, false, "none"⟩, [], [], []⟩
    defaultResources := ⟨false, false, false, "none"⟩ }
  sessions := [⟨"session", owner, .provisionedIdentity, none, none, some "key", .active⟩]
  authorities := [⟨"session", "issuer",
    ⟨[⟨serviceUpdateCapability, 1, 1⟩], [("trellis.auth@v1", 1)], [], some "none"⟩, 100, 130⟩]
  signer := true

/-- The store after the instance's right is revoked, with the enqueued work as given. -/
def revokedStore (owner : String) (state : SessionState) (work : EnforcementWork) :
    AuthStore Unit :=
  let store := serviceStore owner
  { store with
    policy := { store.policy with
      directCapabilities := [⟨"instance", selfHealthCapability, 1, 1, none⟩] }
    sessions := [⟨"session", owner, .provisionedIdentity, none, none, some "key", state⟩]
    work := [work] }

theorem serviceStore_keyed : Keyed (serviceStore owner) where
  sessionIds_nodup := nodup_singleton _
  sessionIds_ne := by
    intro session hmem
    obtain rfl := mem_singleton.mp hmem
    show "session" ≠ ""
    decide
  instances_unique := by
    intro a ha b hb _
    exact (mem_singleton.mp ha).trans (mem_singleton.mp hb).symm
  grant_principal := by
    intro _ _ g hg
    cases hg

/-- The session opened on the claim is out of scope: it keeps the right that was revoked. -/
theorem noExcess_of_enforced_fails :
    ∃ store₁ store₂ : AuthStore Unit, Keyed (serviceStore "claim") ∧
      NoExcess noClaims (serviceStore "claim") 10 ∧
      applyAndEnqueue noClaims (serviceStore "claim")
        (.capabilityRevoke "instance" serviceUpdateCapability 1) "work" 10
        = .ok (store₁, .principal "instance") ∧
      ReflTransGen (Page noClaims 32 10) store₁ store₂ ∧
      (∃ row ∈ store₂.work, row.workId = "work" ∧ row.state = .completed) ∧
      ¬ NoExcess noClaims store₂ 10 := by
  refine ⟨revokedStore "claim" .active
      ⟨"work", .principal "instance", 0, none, .queued, 0, 0, 10, 10⟩,
    revokedStore "claim" .active ⟨"work", .principal "instance", 0, none, .completed, 0, 0, 10, 10⟩,
    serviceStore_keyed, by decide, rfl, .single ⟨some "work", rfl⟩,
    ⟨_, mem_singleton.mpr rfl, rfl, rfl⟩, by decide⟩

theorem noExcess_of_enforced_service : NoExcess noClaims (revokedStore "instance" .superseded
      ⟨"work", .principal "instance", 0, some "session", .completed, 1, 1, 10, 10⟩) 10 := by
  have hown : ∀ session ∈ (serviceStore "instance").sessions, session.state = .active →
      IdentityPrincipal (serviceStore "instance") session := by
    intro session hmem _
    obtain rfl := mem_singleton.mp hmem
    refine ⟨?_, ?_⟩
    · intro i hi _
      obtain rfl := mem_singleton.mp hi
      rfl
    · intro c hc hwaiting
      obtain rfl := mem_singleton.mp hc
      cases hwaiting
  exact (noExcess_of_enforced serviceStore_keyed hown (by decide)
    (rfl : applyAndEnqueue noClaims _ (.capabilityRevoke "instance" serviceUpdateCapability 1)
      "work"
      10 = .ok (_, _))
    (.single ⟨some "work",
      (rfl : enforceNextPage _ _ 32 10 = .ok (revokedStore "instance" .superseded
      ⟨"work", .principal "instance", 0, some "session", .completed, 1, 1, 10, 10⟩, _))⟩)
    ⟨_, mem_singleton.mpr rfl, rfl, rfl⟩).2

end Auth
