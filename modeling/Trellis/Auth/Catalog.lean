/-
# The accepted catalog

The catalog tables and the two transactions that write them: `review_api` compares a proposed API
definition with the accepted one, `accept_api` installs a reviewed definition, assigns generations
and revisions, and builds the snapshot that dispatchers check session authorities against.

Texts that nothing decides on are left out, and a capability ID is kept as its API and its name
instead of as the text `<api>.v<major>:<name>`.
-/
import Trellis.Lib.Run

namespace Catalog

/-! ## API definitions -/

abbrev ApiId := String

structure CapabilityId where
  api : ApiId
  name : String
  deriving DecidableEq, Repr

inductive ActionKind where
  | rpc
  | operation
  | event
  | live
  deriving DecidableEq, Repr

inductive InteractionDirection where
  | call
  | invoke
  | publish
  | subscribe
  deriving DecidableEq, Repr

inductive PermissionAction where
  | call
  | invoke
  | observe
  | cancel
  | control
  | publish
  | subscribe
  deriving DecidableEq, Repr

structure ActionId where
  kind : ActionKind
  name : String
  deriving DecidableEq, Repr

structure ActionSelection where
  action : ActionId
  direction : InteractionDirection
  deriving DecidableEq, Repr

structure CatalogActionIdentity where
  kind : ActionKind
  name : String
  direction : PermissionAction
  deriving DecidableEq, Repr

/-- The dispatcher actions one selected direction stands for. -/
def permissionActions : InteractionDirection → List PermissionAction
  | .call => [.call]
  | .invoke => [.invoke, .observe, .cancel, .control]
  | .publish => [.publish]
  | .subscribe => [.subscribe]

def actionIdentity (selection : ActionSelection) : List CatalogActionIdentity :=
  (permissionActions selection.direction).map fun direction =>
    { kind := selection.action.kind, name := selection.action.name, direction }

/-- The directions an action of each kind is recorded under. -/
def directionsOf : ActionKind → List InteractionDirection
  | .rpc => [.call]
  | .operation => [.invoke]
  | .event => [.publish, .subscribe]
  | .live => [.subscribe]

structure CapabilityDefinition where
  grants : String
  allows : List ActionSelection

structure CapabilityGroupDefinition where
  grants : String
  members : List String

/-- A compiled API definition, capabilities and groups by their local names.  The compiler lets no
two share a name and lets a capability allow declared actions only. -/
structure ApiDefinition where
  actions : List ActionId
  capabilities : List (String × CapabilityDefinition)
  groups : List (String × CapabilityGroupDefinition)
  names_nodup : (capabilities.map Prod.fst ++ groups.map Prod.fst).Nodup
  allows_declared : ∀ entry ∈ capabilities, ∀ selection ∈ entry.2.allows,
    selection.action ∈ actions ∧ selection.direction ∈ directionsOf selection.action.kind

def ApiDefinition.empty : ApiDefinition :=
  ⟨[], [], [], List.nodup_nil, by simp⟩

/-! ## Catalog tables -/

structure CatalogAction where
  identity : CatalogActionIdentity
  introducedRevision : Nat
  deriving DecidableEq, Repr

structure CatalogCapabilityMembership where
  action : CatalogActionIdentity
  memberSinceRevision : Nat
  deriving DecidableEq, Repr

structure CatalogCapability where
  capabilityId : CapabilityId
  (identityGeneration consentRevision : Nat)
  memberships : List CatalogCapabilityMembership
  deriving DecidableEq, Repr

/-- The signed snapshot of one accepted revision. -/
structure CatalogSnapshot where
  apiId : ApiId
  (generation acceptedRevision : Nat)
  definitionDigest : String
  actions : List CatalogAction
  capabilities : List CatalogCapability
  deriving DecidableEq, Repr

inductive IdentityKind where
  | capability
  | group
  deriving DecidableEq, Repr

/-- A row of `auth_capability_identities`. -/
structure CapabilityIdentity where
  capabilityId : CapabilityId
  (identityGeneration consentRevision : Nat)
  active : Bool
  kind : IdentityKind
  deriving DecidableEq, Repr

/-- A row of `auth_capability_group_members`. -/
structure GroupMember where
  group : CapabilityId
  groupGeneration : Nat
  member : CapabilityId
  deriving DecidableEq, Repr

/-- A row of `auth_accepted_apis`. -/
structure AcceptedApi where
  (generation acceptedRevision : Nat)
  definitionDigest : String
  definition : ApiDefinition

/-- The catalog tables.  The newest verification snapshot stands first. -/
structure Tables where
  accepted : ApiId → Option AcceptedApi
  identities : List CapabilityIdentity
  groupMembers : List GroupMember
  snapshots : List CatalogSnapshot

def Tables.empty : Tables where
  accepted := fun _ => none
  identities := []
  groupMembers := []
  snapshots := []

variable (tables : Tables) (api : ApiId) {Policy Edit : Type}

/-- The verification snapshot of one accepted revision. -/
def Tables.snapshotAt (generation revision : Nat) : Option CatalogSnapshot :=
  tables.snapshots.find? fun snapshot =>
    snapshot.apiId = api ∧ snapshot.generation = generation ∧ snapshot.acceptedRevision = revision

/-- `current_catalog`: the snapshot of the accepted revision. -/
def Tables.currentCatalog : Option CatalogSnapshot :=
  (tables.accepted api).bind fun row => tables.snapshotAt api row.generation row.acceptedRevision

/-- The active identity row of a capability or group. -/
def activeIdentity (identities : List CapabilityIdentity) (id : CapabilityId) :
    Option CapabilityIdentity :=
  identities.find? fun row => row.capabilityId = id ∧ row.active

/-! ## Session authorities -/

structure CapabilityAuthority where
  capabilityId : CapabilityId
  (identityGeneration consentRevision : Nat)
  deriving DecidableEq, Repr

structure AuthorityApi where
  apiId : ApiId
  (generation acceptedRevision : Nat)
  deriving DecidableEq, Repr

/-- The part of a signed session authority the catalog check reads. -/
structure SessionAuthority where
  apis : List AuthorityApi
  capabilities : List CapabilityAuthority
  deriving DecidableEq, Repr

/-- `policy::capability`: the stamp of an active capability. -/
def captureCapability (id : CapabilityId) : Option CapabilityAuthority :=
  (activeIdentity tables.identities id).map fun row =>
    { capabilityId := id
      identityGeneration := row.identityGeneration
      consentRevision := row.consentRevision }

/-- The stamp of an accepted API that an evaluation records. -/
def captureApi : Option AuthorityApi :=
  (tables.accepted api).map fun row =>
    { apiId := api, generation := row.generation, acceptedRevision := row.acceptedRevision }

/-- The authority an evaluation captures for the capabilities `ids` and the APIs `apis`. -/
def captureAuthority (apis : List ApiId) (ids : List CapabilityId) : SessionAuthority where
  apis := apis.filterMap (captureApi tables)
  capabilities := ids.filterMap (captureCapability tables)

/-- The action check of a dispatcher against a verified authority and catalog. -/
def CatalogSnapshot.authorizes (snapshot : CatalogSnapshot) (authority : SessionAuthority)
    (action : CatalogActionIdentity) : Bool :=
  match authority.apis.find? fun api => api.apiId = snapshot.apiId with
  | none => false
  | some api =>
    if api.generation ≠ snapshot.generation ∨ snapshot.acceptedRevision < api.acceptedRevision then
      false
    else
      match snapshot.actions.find? fun entry => entry.identity = action with
      | none => false
      | some entry =>
        decide (entry.introducedRevision ≤ api.acceptedRevision) &&
          snapshot.capabilities.any fun capability =>
            (authority.capabilities.any fun grant =>
              grant.capabilityId = capability.capabilityId ∧
                grant.identityGeneration = capability.identityGeneration ∧
                grant.consentRevision = capability.consentRevision) &&
            capability.memberships.any fun member =>
              member.action = action ∧ member.memberSinceRevision ≤ api.acceptedRevision

/-! ## Review -/

inductive AuthError where
  | conflict
  | denied
  | notFound
  | requiredMissing
  | invalid (message : String)
  | storage
  | unavailable
  deriving DecidableEq, Repr

structure ApiReview where
  reviewId : Nat
  apiId : ApiId
  definitionDigest : String
  (expectedGeneration expectedRevision : Nat)
  compatible : Bool
  (removedCapabilities consentChanges : List CapabilityId)
  policyDigest : String
  proposed : ApiDefinition
  expiresAt : Int
  consumed : Bool

/-- What the catalog transactions take from elsewhere: the digest and the compatibility report of
the IDL, the digests of the APIs Trellis ships, and the policy tables with their digest for one API
and the edits an acceptance may carry. -/
structure Environment (Policy Edit : Type) where
  apiDigest : ApiDefinition → String
  compareImplementation : ApiDefinition → ApiDefinition → Bool
  builtinApiDigest : ApiId → Option String
  policySnapshot : Policy → List CapabilityIdentity → ApiId → String
  applyPolicy : Policy → Edit → Except AuthError Policy

/-- The authorization store as the catalog transactions see it. -/
structure Store (Policy : Type) where
  tables : Tables
  reviews : List ApiReview
  policy : Policy

def reservedApiPrefix : String := "trellis."

/-- Names of `old` that `next` no longer has. -/
def removedNames {α β : Type} (old : List (String × α)) (next : List (String × β)) : List String :=
  (old.map Prod.fst).filter fun name => (next.lookup name).isNone

/-- Names of `old` whose `grants` wording `next` changes. -/
def regrantedNames {α : Type} (grants : α → String) (old next : List (String × α)) : List String :=
  (old.filter fun entry => (next.lookup entry.1).any fun value => grants value ≠ grants entry.2).map
    Prod.fst

variable (env : Environment Policy Edit) (store : Store Policy)

/-- The review of a proposed definition against the accepted one, if there is one. -/
def reviewOf (proposed : ApiDefinition) (api : ApiId) (now : Int) : ApiReview :=
  let blank : ApiReview :=
    { reviewId := store.reviews.length
      apiId := api
      definitionDigest := env.apiDigest proposed
      expectedGeneration := 0
      expectedRevision := 0
      compatible := true
      removedCapabilities := []
      consentChanges := []
      policyDigest := env.policySnapshot store.policy store.tables.identities api
      proposed
      expiresAt := now + 900
      consumed := false }
  match store.tables.accepted api with
  | none => blank
  | some existing =>
    let old := existing.definition
    { blank with
      expectedGeneration := existing.generation
      expectedRevision := existing.acceptedRevision
      compatible := env.compareImplementation old proposed
      removedCapabilities :=
        (removedNames old.capabilities proposed.capabilities
          ++ removedNames old.groups proposed.groups).map (CapabilityId.mk api)
      consentChanges :=
        (regrantedNames CapabilityDefinition.grants old.capabilities proposed.capabilities
          ++ regrantedNames CapabilityGroupDefinition.grants old.groups proposed.groups).map
          (CapabilityId.mk api) }

def reviewApi (proposed : ApiDefinition)
    (api : ApiId) (now : Int) : Except AuthError (Store Policy × ApiReview) :=
  if reservedApiPrefix.toList.isPrefixOf api.toList ∧
      env.builtinApiDigest api ≠ some (env.apiDigest proposed) then
    .error (.invalid "API IDs starting with `trellis.` are reserved for Trellis")
  else
    let review := reviewOf env store proposed api now
    .ok ({ store with reviews := store.reviews ++ [review] }, review)

/-! ## Acceptance -/

/-- Update the active identity of a capability or group, or start a new generation of it. -/
def upsertIdentity (identities : List CapabilityIdentity) (id : CapabilityId)
    (kind : IdentityKind) (regranted : Bool) : List CapabilityIdentity × Nat × Nat :=
  match activeIdentity identities id with
  | some current =>
    let consentRevision := current.consentRevision + regranted.toNat
    (identities.map fun row =>
        if row.capabilityId = id ∧ row.identityGeneration = current.identityGeneration then
          { row with consentRevision }
        else row,
      current.identityGeneration, consentRevision)
  | none =>
    let generation := ((identities.filter fun row => row.capabilityId = id).map
      CapabilityIdentity.identityGeneration).foldr max 0 + 1
    (identities ++ [⟨id, generation, 1, true, kind⟩], generation, 1)

/-- Mark the active identities of the removed capabilities and groups deleted. -/
def deleteIdentities (removed : List CapabilityId) (identities : List CapabilityIdentity) :
    List CapabilityIdentity :=
  identities.map fun row =>
    if row.capabilityId ∈ removed ∧ row.active then { row with active := false } else row

/-- The actions, each since the revision the carried snapshot has for it, or since this one. -/
def catalogActions (definition : ApiDefinition) (carried : Option CatalogSnapshot)
    (revision : Nat) : List CatalogAction :=
  definition.actions.flatMap fun action =>
    (directionsOf action.kind).flatMap fun direction =>
      (actionIdentity { action, direction }).map fun identity =>
        { identity
          introducedRevision :=
            ((carried.bind fun old => old.actions.find? fun entry => entry.identity = identity).map
              CatalogAction.introducedRevision).getD revision }

/-- The memberships, each since the revision the carried snapshot has for it, or since this one. -/
def catalogMemberships (allows : List ActionSelection) (carried : Option CatalogSnapshot)
    (id : CapabilityId) (identityGeneration revision : Nat) : List CatalogCapabilityMembership :=
  (allows.flatMap actionIdentity).map fun action =>
    { action
      memberSinceRevision :=
        (((carried.bind fun old => old.capabilities.find? fun capability =>
              capability.capabilityId = id ∧
                capability.identityGeneration = identityGeneration).bind
            fun capability => capability.memberships.find? fun member => member.action = action).map
          CatalogCapabilityMembership.memberSinceRevision).getD revision }

/-- The loop over capabilities: each updates its identity row and adds its entry. -/
def acceptCapabilities (review : ApiReview) (carried : Option CatalogSnapshot) (revision : Nat) :
    List (String × CapabilityDefinition) → List CapabilityIdentity →
      List CapabilityIdentity × List CatalogCapability
  | [], identities => (identities, [])
  | (name, definition) :: rest, identities =>
    let id : CapabilityId := ⟨review.apiId, name⟩
    let (identities, identityGeneration, consentRevision) :=
      upsertIdentity identities id .capability (review.consentChanges.contains id)
    let (identities, capabilities) := acceptCapabilities review carried revision rest identities
    (identities,
      { capabilityId := id
        identityGeneration
        consentRevision
        memberships := catalogMemberships definition.allows carried id identityGeneration revision }
        :: capabilities)

/-- The loop over groups: each updates its identity row and replaces its member rows. -/
def acceptGroups (review : ApiReview) :
    List (String × CapabilityGroupDefinition) → List CapabilityIdentity → List GroupMember →
      List CapabilityIdentity × List GroupMember
  | [], identities, members => (identities, members)
  | (name, definition) :: rest, identities, members =>
    let id : CapabilityId := ⟨review.apiId, name⟩
    let (identities, generation, _) :=
      upsertIdentity identities id .group (review.consentChanges.contains id)
    let members := members.filter fun row => ¬ (row.group = id ∧ row.groupGeneration = generation)
    let added := definition.members.map fun member =>
      { group := id, groupGeneration := generation, member := ⟨review.apiId, member⟩ }
    acceptGroups review rest identities (members ++ added)

/-- What an admitted acceptance writes: the catalog tables and the new snapshot. -/
def installReview (review : ApiReview) (force : Bool) : Tables × CatalogSnapshot :=
  let generation := if force then review.expectedGeneration + 1 else max review.expectedGeneration 1
  let revision := if force then 1 else review.expectedRevision + 1
  let oldSnapshot := tables.snapshotAt review.apiId review.expectedGeneration
    review.expectedRevision
  let carried := oldSnapshot.filter fun _ => !force
  let identities := deleteIdentities review.removedCapabilities tables.identities
  let (identities, capabilities) :=
    acceptCapabilities review carried revision review.proposed.capabilities identities
  let (identities, groupMembers) :=
    acceptGroups review review.proposed.groups identities tables.groupMembers
  let snapshot : CatalogSnapshot :=
    { apiId := review.apiId
      generation
      acceptedRevision := revision
      definitionDigest := review.definitionDigest
      actions := catalogActions review.proposed carried revision
      capabilities }
  ({ accepted := Function.update tables.accepted review.apiId
        (some { generation, acceptedRevision := revision,
                definitionDigest := review.definitionDigest, definition := review.proposed })
     identities
     groupMembers
     snapshots := snapshot :: tables.snapshots },
    snapshot)

structure ApiAcceptance (Edit : Type) where
  reviewId : Nat
  reviewedDigest : String
  (force acknowledgeBreakage confirmConsentMeanings : Bool)
  materiallyChanged : List CapabilityId
  policyEdits : List Edit

/-- `accept_api_in_transaction`.  A failed transaction leaves the store as it was. -/
def acceptApi (acceptance : ApiAcceptance Edit)
    (now : Int) : Except AuthError (Store Policy × CatalogSnapshot) := do
  let some review := store.reviews.find? fun review =>
      review.reviewId = acceptance.reviewId ∧ now < review.expiresAt ∧ !review.consumed
    | .error .conflict
  if acceptance.reviewedDigest ≠ review.definitionDigest ∨ (!review.compatible ∧ !acceptance.force)
      ∨ (acceptance.force ∧ (!acceptance.acknowledgeBreakage ∨ !acceptance.confirmConsentMeanings))
      ∨ ∃ capability ∈ acceptance.materiallyChanged, capability ∉ review.consentChanges then
    .error .denied
  else if review.policyDigest
      ≠ env.policySnapshot store.policy store.tables.identities review.apiId then
    .error .conflict
  else if ((store.tables.accepted review.apiId).map fun row =>
        (row.generation, row.acceptedRevision)).getD (0, 0)
      ≠ (review.expectedGeneration, review.expectedRevision) then
    .error .conflict
  else
    let (tables, snapshot) := installReview store.tables review acceptance.force
    let policy ← acceptance.policyEdits.foldlM env.applyPolicy store.policy
    let reviews := store.reviews.map fun row =>
      if row.reviewId = review.reviewId then { row with consumed := true } else row
    return ({ tables, reviews, policy }, snapshot)

end Catalog
