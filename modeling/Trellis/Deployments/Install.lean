/-
# Installed deployments

The tables of native services and devices, and the transactions that install a participant
revision, provision an instance of it and change a deployment's state:
`install_deployment_in_transaction`, `provision_instance_in_transaction` and `change_deployment`.

A participant is kept as compilation gives it.  The IDL compiler, the digests and the
compatibility report are functions of the platform.  The registration of a device's companion
application, titles beyond the check that there is one, and audit columns are left out.
-/
import Trellis.Auth.Administration
import Trellis.Auth.Evaluation

open Catalog Auth

namespace Deployments

open List Checked

/-! ## Participants -/

inductive ParticipantKind where
  | service
  | device
  deriving DecidableEq, Repr

def ParticipantKind.principalKind : ParticipantKind → PrincipalKind
  | .service => .service
  | .device => .device

/-- A representation version with the older ones it accepts, schemas as JSON text. -/
structure Representation where
  schema : String
  version : Nat
  accepts : List (Nat × String)
  deriving DecidableEq, Repr

inductive KeyConcurrencyPolicy where
  | queue
  | reject
  | supersede
  deriving DecidableEq, Repr

structure KeyConcurrency where
  path : List String
  policy : KeyConcurrencyPolicy
  deriving DecidableEq, Repr

inductive ResourceKind where
  | state
  | kv
  | store
  | job
  | consumer
  deriving DecidableEq, Repr

inductive ResourceBody where
  | state (representation : Representation)
  | kv (representation : Representation) (history ttlMs : Nat) (desiredMaxValue : Option Nat)
  | store (ttlMs : Nat) (desiredMaxObject desiredMaxTotal : Option Nat)
  | job (payload : String) (result update : Option String) (keyConcurrency : Option KeyConcurrency)
  | consumer (events : List (ApiId × String))
  deriving DecidableEq, Repr

structure ResourceDefinition where
  optional : Bool
  body : ResourceBody
  deriving DecidableEq, Repr

def ResourceDefinition.kind (definition : ResourceDefinition) : ResourceKind :=
  match definition.body with
  | .state _ => .state
  | .kv .. => .kv
  | .store .. => .store
  | .job .. => .job
  | .consumer _ => .consumer

/-- A compiled participant with what it needs.  Resources are kept by their local names. -/
structure Participant where
  participantId : String
  kind : ParticipantKind
  (implements uses : List ApiId)
  (required optional : List CapabilityId)
  resources : List (String × ResourceDefinition)
  resources_nodup : (resources.map Prod.fst).Nodup
  deriving DecidableEq

/-- Whether some declared resource is of the kind. -/
def Participant.declares (participant : Participant) (kind : ResourceKind) : Bool :=
  participant.resources.any fun entry => entry.2.kind = kind

/-- The resources a participant declares, by kind and name. -/
def Participant.resourceIdentities (participant : Participant) : List (ResourceKind × String) :=
  participant.resources.map fun entry => (entry.2.kind, entry.1)

/-- A compiled package: the participants of the root package and the resolved APIs. -/
structure PackageGraph where
  participants : List Participant
  api : ApiId → Option ApiDefinition

def PackageGraph.participant (graph : PackageGraph) (id : String) : Except AuthError Participant :=
  match graph.participants.find? fun participant => participant.participantId = id with
  | none => .error .notFound
  | some participant => .ok participant

/-! ## Stored documents -/

inductive JsonScalar where
  | text (value : String)
  | number (value : Nat)
  deriving DecidableEq, Repr

abbrev JsonObject := List (String × JsonScalar)

/-- `json_extract` of one field. -/
def jsonExtract (object : JsonObject) (field : String) : Option JsonScalar :=
  (object.find? fun entry => entry.1 = field).map Prod.snd

/-- The stored form of an implementation; its fields keep their own names. -/
def providerJson (implementation : ProviderImplementation) : JsonObject :=
  [("api_id", .text implementation.apiId), ("generation", .number implementation.generation),
    ("implementation_digest", .text implementation.implementationDigest)]

structure KvBinding where
  bucket : String
  deriving DecidableEq, Repr

structure StoreBinding where
  name : String
  deriving DecidableEq, Repr

structure QueueBinding where
  (consumerName publishPrefix : String)
  updatesPrefix : Option String
  workSubject : String
  keyed : Bool
  deriving DecidableEq, Repr

structure JobsBinding where
  jobsNamespace : String
  queues : List (String × QueueBinding)
  deriving DecidableEq, Repr

structure ConsumerBinding where
  (stream consumerName replayStream replayConsumerName : String)
  deriving DecidableEq, Repr

/-- `ServiceResourceBindings`: the materialized resources of a deployment. -/
structure ResourceBindings where
  state : List (String × String) := []
  kv : List (String × KvBinding) := []
  store : List (String × StoreBinding) := []
  jobs : Option JobsBinding := none
  eventConsumers : List (String × ConsumerBinding) := []
  deriving DecidableEq, Repr

/-! ## Tables -/

inductive DeploymentState where
  | active
  | disabled
  | revoked
  deriving DecidableEq, Repr

structure Deployment where
  (deploymentId title participantId : String)
  participantKind : ParticipantKind
  state : DeploymentState
  expiresAt : Option Int
  deriving DecidableEq, Repr

structure Binding where
  deploymentId : String
  installedRevision : Nat
  implementationDigest : String
  providedApis : List JsonObject
  (required optional : List CapabilityId)
  resourceCommitments : ResourceBindings
  revision : Nat
  deriving DecidableEq, Repr

/-- A participant revision with the evidence it was compiled from. -/
structure InstalledParticipant (Evidence : Type) where
  participantId : String
  revision : Nat
  participantDigest : String
  evidence : Evidence

inductive InstanceState where
  | active
  | disabled
  | revoked
  deriving DecidableEq, Repr

structure Instance where
  (instanceId deploymentId principalId : String)
  installedRevision : Nat
  state : InstanceState
  deriving DecidableEq, Repr

inductive ResourceState where
  | detached
  | destroying
  | failed
  | pending
  | ready
  deriving DecidableEq, Repr

/-- `physical_id`: where a resource's data is kept, a plain name until it is materialized. -/
inductive Physical where
  | name (text : String)
  | job (jobsNamespace workStream consumer publishPrefix workSubject : String)
  | consumer (stream consumer replayConsumer : String)
  deriving DecidableEq, Repr

/-- A deployment's allocation of one resource. -/
structure Resource where
  (resourceId allocationId ownerId participantId : String)
  kind : ResourceKind
  localName : String
  (history ttlMs : Nat)
  state : ResourceState
  (bindingRevision revision : Nat)
  physical : Physical
  deriving DecidableEq, Repr

inductive UpdateState where
  | pending
  | applied
  | rejected
  | superseded
  deriving DecidableEq, Repr

/-- A participant update a service submitted for itself. -/
structure ServiceUpdate (Evidence : Type) where
  (updateId deploymentId instanceId participantId participantDigest : String)
  evidence : Evidence
  baseBindingRevision : Nat
  state : UpdateState
  revision : Nat

inductive ClaimState where
  | waiting
  | claimed
  | removed
  deriving DecidableEq, Repr

/-- A place kept for a service that has nothing installed yet. -/
structure ServiceClaim where
  (claimId principalId publicKey title instanceTitle : String)
  deploymentId : Option String
  state : ClaimState
  deriving DecidableEq, Repr

/-- The deployment tables beside the policy tables. -/
structure Store (Claims Evidence : Type) where
  policy : PolicyTables Claims
  reviews : List ApiReview := []
  deployments : List Deployment := []
  bindings : List Binding := []
  installed : List (InstalledParticipant Evidence) := []
  instances : List Instance := []
  identities : List ProvisionedIdentity := []
  resources : List Resource := []
  updates : List (ServiceUpdate Evidence) := []
  claims : List ServiceClaim := []

/-- What the transactions take from elsewhere.  Those on the catalog see policy and bindings. -/
structure Platform (Claims Evidence Edit : Type) where
  library : Library Claims
  catalog : Environment (PolicyTables Claims × List Binding) Edit
  compileEvidence : Evidence → Except AuthError PackageGraph
  participantDigest : PackageGraph → Participant → Except AuthError String
  identityKeyId : String → Except AuthError String
  /-- `trim().is_empty()`. -/
  isBlank : String → Bool

variable {Claims Evidence Edit : Type}

variable (platform : Platform Claims Evidence Edit)

/-- A compiled participant of a package with its digest. -/
def compileParticipant (evidence : Evidence)
    (id : String) : Except AuthError (PackageGraph × Participant × String) := do
  let graph ← platform.compileEvidence evidence
  let participant ← graph.participant id
  let digest ← platform.participantDigest graph participant
  return (graph, participant, digest)

/-- Insert a row unless one has its key, as a primary key asks. -/
def insertUnique {α : Type} (rows : List α) (sameKey : α → Bool) (new : α) :
    Except AuthError (List α) :=
  if rows.any sameKey then .error .storage else .ok (rows ++ [new])

/-! ## Direct grants -/

/-- `INSERT OR IGNORE` of a direct grant at its first revision. -/
def insertGrant (rows : List DirectCapability) (principal : String)
    (authority : CapabilityAuthority) (expiresAt : Option Int) : List DirectCapability :=
  if rows.any fun row => row.principalId = principal ∧ row.capabilityId = authority.capabilityId ∧
      row.capabilityGeneration = authority.identityGeneration then rows
  else rows ++ [⟨principal, authority.capabilityId, authority.identityGeneration, 1, expiresAt⟩]

def insertGrants (grants : List (String × CapabilityAuthority)) (expiresAt : Option Int)
    (rows : List DirectCapability) : List DirectCapability :=
  grants.foldl (fun rows grant => insertGrant rows grant.1 grant.2 expiresAt) rows

/-! ## Installing a participant -/

structure DeploymentProvisioning (Evidence : Type) where
  evidence : Evidence
  participantId : String
  expectedApiGenerations : List (ApiId × Nat)
  resourceCommitments : ResourceBindings
  expiresAt : Option Int

/-- One implemented API: accepted, at the expected generation and compatible. -/
def provideApi (catalog : Tables) (graph : PackageGraph)
    (expected : List (ApiId × Nat)) (api : ApiId) : Except AuthError ProviderImplementation :=
  match catalog.accepted api with
  | none => .error .denied
  | some accepted =>
    if (expected.find? fun entry => entry.1 = api).map Prod.snd ≠ some accepted.generation then
      .error .conflict
    else
      match graph.api api with
      | none => .error .notFound
      | some implementation =>
        if !platform.catalog.compareImplementation implementation accepted.definition then
          .error .denied
        else .ok ⟨api, accepted.generation, platform.catalog.apiDigest implementation⟩

def unacceptedMessage (apis : List ApiId) : String :=
  let one := apis.length = 1
  let noun := if one then "API" else "APIs"
  let verb := if one then "is" else "are"
  let pronoun := if one then "it" else "them"
  let names := String.intercalate ", " apis
  s!"This deployment uses {noun} {names}, which {verb} not accepted; " ++
    s!"review and accept {pronoun} before deploying"

/-- What an installation puts in force once its checks have passed. -/
structure Installation where
  participant : Participant
  digest : String
  provided : List ProviderImplementation

variable (store : Store Claims Evidence) (actor : String)

/-- The checks that read the catalog and the actor's authority, at the transaction's time. -/
def checkInstallation (input : DeploymentProvisioning Evidence) (now : Int) :
    Except AuthError Installation := do
  let (graph, participant, digest) ← compileParticipant platform input.evidence input.participantId
  let needed := participant.required ++ participant.optional
  requirePlatformFor platform.library store.policy actor needed now
  if input.expiresAt.any fun expiry => expiry ≤ now then .error .denied
  let catalog := store.policy.catalog
  let provided ← participant.implements.mapM
    (provideApi platform catalog graph input.expectedApiGenerations)
  if input.expectedApiGenerations.length ≠ provided.length then .error .conflict
  let unaccepted := participant.uses.filter fun api => (catalog.accepted api).isNone
  if unaccepted ≠ [] then .error (.invalid (unacceptedMessage unaccepted))
  let _ ← needed.mapM (capability catalog)
  return { participant, digest, provided }

variable (resources : List Resource) (deployment : String)

/-- Whether a declared KV resource keeps less than its allocation holds. -/
def losesData (participantId : String) : String × ResourceDefinition → Bool
  | (name, ⟨_, .kv _ history ttlMs _⟩) =>
    (resources.find? fun row => row.ownerId = deployment ∧ row.participantId = participantId ∧
        row.kind = .kv ∧ row.localName = name).any fun saved =>
      history < saved.history || (ttlMs ≠ 0 && (saved.ttlMs = 0 || ttlMs < saved.ttlMs))
  | _ => false

def detachResource (keep : List (ResourceKind × String)) (row : Resource) :
    Except AuthError Resource :=
  if row.ownerId ≠ deployment ∨ (row.kind, row.localName) ∈ keep ∨ row.state = .detached ∨
      row.state = .destroying then .ok row
  -- an allocation in flight must finish before the deployment changes
  else if row.state = .pending then .error .conflict
  else .ok { row with state := .detached, revision := row.revision + 1 }

/-- Detach omitted allocations without deleting any data. -/
def detachDeploymentResources
    (keep : List (ResourceKind × String)) : Except AuthError (List Resource) :=
  resources.mapM (detachResource deployment keep)

/-- The bindings carried over: only those of KV resources are held against the new revision. -/
def carriedCommitments (commitments : ResourceBindings) (participant : Participant) :
    ResourceBindings :=
  { commitments with
    kv := commitments.kv.filter fun entry =>
      (ResourceKind.kv, entry.1) ∈ participant.resourceIdentities }

/-- An installation that is not on an existing deployment creates one. -/
def putDeployment (deployments : List Deployment) (existing : Option String) (new : Deployment) :
    Except AuthError (List Deployment) :=
  if existing.isSome then .ok deployments
  else insertUnique deployments (fun row => row.deploymentId = new.deploymentId) new

variable (bindings : List Binding)

/-- Insert the binding at its first revision or replace it at the next one. -/
def putBinding (binding : Binding) : List Binding :=
  upsertRow bindings (fun row => row.deploymentId = binding.deploymentId)
    (fun row => { binding with revision := row.revision + 1 }) binding

/-- The revision a deployment already runs the digest at. -/
def unchangedRevision (existing : Option String) (digest : String) : Option Nat :=
  existing.bind fun deployment =>
    (bindings.find? fun row => row.deploymentId = deployment ∧
      row.implementationDigest = digest).map Binding.installedRevision

def nextRevision (installed : List (InstalledParticipant Evidence))
    (participantId : String) : Nat :=
  ((installed.filter fun row => row.participantId = participantId).map
    InstalledParticipant.revision).foldr max 0 + 1

/-- Carry ready evidence verified at the immediately preceding binding. -/
def carryEvidence (deployment : String) (row : Resource) : Resource :=
  if row.ownerId = deployment ∧ row.state = .ready ∧
      bindings.any fun binding => binding.deploymentId = deployment ∧
        row.bindingRevision = binding.revision - 1 then
    { row with bindingRevision := row.bindingRevision + 1 }
  else row

def instancePrincipals (instances : List Instance) (deployment : String) : List String :=
  (instances.filter fun row => row.deploymentId = deployment).map Instance.principalId

/-- The grants that event consumers need, for every instance of the deployment. -/
def grantConsumers (catalog : Tables) (participant : Participant) (instances : List Instance)
    (deployment : String) (expiresAt : Option Int) (rows : List DirectCapability) :
    Except AuthError (List DirectCapability) :=
  if participant.kind = .service ∧ participant.declares .consumer then do
    let authority ← capability catalog consumerRuntimeCapability
    return insertGrants ((instancePrincipals instances deployment).map fun principal =>
      (principal, authority)) expiresAt rows
  else .ok rows

/-- `install_deployment_in_transaction`.  A new deployment takes the ID `fresh`. -/
def installDeployment (input : DeploymentProvisioning Evidence) (existing : Option String)
    (title fresh : String) (now : Int) : Except AuthError (Store Claims Evidence × String) := do
  if platform.isBlank title then .error (.invalid "deployment title is required")
  let plan ← checkInstallation platform store actor input now
  let participant := plan.participant
  let unchanged := unchangedRevision store.bindings existing plan.digest
  let revision := unchanged.getD (nextRevision store.installed input.participantId)
  let deployment := existing.getD fresh
  if participant.resources.any (losesData store.resources deployment input.participantId) then
    .error (.invalid "potential_data_loss")
  let resources ← detachDeploymentResources store.resources deployment
    participant.resourceIdentities
  let deployments ← putDeployment store.deployments existing
    ⟨deployment, title, input.participantId, participant.kind, .active, input.expiresAt⟩
  let bindings := putBinding store.bindings
    { deploymentId := deployment
      installedRevision := revision
      implementationDigest := plan.digest
      providedApis := plan.provided.map providerJson
      required := participant.required
      optional := participant.optional
      resourceCommitments := carriedCommitments input.resourceCommitments participant
      revision := 1 }
  let directCapabilities ← grantConsumers store.policy.catalog participant store.instances
    deployment input.expiresAt store.policy.directCapabilities
  return ({ store with
    policy := { store.policy with directCapabilities }
    installed := if unchanged.isSome then store.installed else
      store.installed ++ [⟨input.participantId, revision, plan.digest, input.evidence⟩]
    deployments
    bindings
    resources := if unchanged.isSome then resources.map (carryEvidence bindings deployment)
      else resources }, deployment)

/-! ## Provisioning an instance -/

/-- The rights a participant of the kind holds because of what it declares. -/
def impliedCapabilities (kind : ParticipantKind) (participant : Participant) : List CapabilityId :=
  (if kind = .service ∧ participant.declares .job then [jobHistoryCapability] else []) ++
    (if kind = .service ∧ participant.declares .consumer then [consumerRuntimeCapability]
      else []) ++
    (if kind = .device ∧ participant.declares .state then stateCapabilities else [])

/-- The evidence of one revision of a participant. -/
def installedEvidence (installed : List (InstalledParticipant Evidence)) (participantId : String)
    (revision : Nat) : Except AuthError Evidence :=
  match installed.find? fun row => row.participantId = participantId ∧ row.revision = revision with
  | none => .error .storage
  | some row => .ok row.evidence

/-- A deployment with its binding. -/
def boundDeployment : Option (Deployment × Binding) :=
  (store.deployments.find? fun row => row.deploymentId = deployment).bind fun d =>
    (store.bindings.find? fun row => row.deploymentId = deployment).map fun b => (d, b)

/-- An instance holds a key, or is a device that waits for one. -/
def provisionedState (kind : ParticipantKind) (key : Option String) :
    Except AuthError InstanceState :=
  if key.isSome then .ok .active
  else if kind ≠ .device then .error .denied
  else .ok .disabled

/-- What an instance is granted when it is provisioned. -/
def provisionedCapabilities (kind : ParticipantKind) (binding : Binding)
    (participant : Option Participant) : List CapabilityId :=
  (binding.required ++ (participant.map (impliedCapabilities kind)).getD [] ++ binding.optional ++
    [selfHealthCapability] ++
    (if kind = .service then [serviceUpdateCapability] else [])).dedup

def insertNewGrant (principal : String) (expiresAt : Option Int) (rows : List DirectCapability)
    (authority : CapabilityAuthority) : Except AuthError (List DirectCapability) :=
  insertUnique rows (fun row => row.principalId = principal ∧
      row.capabilityId = authority.capabilityId ∧
      row.capabilityGeneration = authority.identityGeneration)
    ⟨principal, authority.capabilityId, authority.identityGeneration, 1, expiresAt⟩

/-- `provision_instance_in_transaction`: a principal and an instance on the current revision. -/
def provisionInstance (publicKey : Option String) (title principalId instanceId : String)
    (now : Int) : Except AuthError (Store Claims Evidence) := do
  if platform.isBlank title then .error (.invalid "instance title is required")
  let key ← publicKey.mapM platform.identityKeyId
  let some (d, b) := (boundDeployment store deployment).filter fun bound =>
      bound.1.state = .active ∧ inForce bound.1.expiresAt now
    | .error .denied
  let evidence ← installedEvidence store.installed d.participantId b.installedRevision
  let graph ← platform.compileEvidence evidence
  if store.identities.any fun row => row.identityKeyId = key.getD "" then .error .conflict
  let kind := d.participantKind
  let principals ← insertUnique store.policy.principals (fun row => row.principalId = principalId)
    ⟨principalId, kind.principalKind, .active, 1⟩
  let state ← provisionedState kind key
  let instances ← insertUnique store.instances (fun row => row.instanceId = instanceId)
    ⟨instanceId, deployment, principalId, b.installedRevision, state⟩
  let _ ← nativeHealthCapability store.policy.catalog
  let requested := provisionedCapabilities kind b
    (graph.participants.find? fun row => row.participantId = d.participantId)
  let authorities ← requested.mapM (capability store.policy.catalog)
  let directCapabilities ← authorities.foldlM (insertNewGrant principalId d.expiresAt)
    store.policy.directCapabilities
  return { store with
    policy := { store.policy with principals, directCapabilities }
    instances
    identities := store.identities ++ (key.map fun key =>
      (⟨key, principalId, deployment, instanceId, d.participantId, kind.principalKind, true⟩ :
        ProvisionedIdentity)).toList }

/-! ## Changing a deployment's state -/

/-- Removing a deployment detaches its resources; other transitions keep current evidence current.
-/
def lifecycleResources (bindingRevision : Nat)
    (state : DeploymentState) : Except AuthError (List Resource) :=
  if state = .revoked then detachDeploymentResources resources deployment []
  else .ok (resources.map fun row =>
    if row.ownerId = deployment ∧ row.state = .ready ∧ row.bindingRevision = bindingRevision then
      { row with bindingRevision := row.bindingRevision + 1 }
    else row)

/-- `change_deployment`: enable, disable or remove a deployment. -/
def changeDeployment
    (deployment : String) (expectedRevision : Nat) (state : DeploymentState) (now : Int) :
    Except AuthError (Store Claims Evidence) := do
  requireAdministration platform.library store.policy actor .managePrincipals now
  let some (d, b) := boundDeployment store deployment
    | .error .notFound
  if b.revision ≠ expectedRevision ∨ d.state = .revoked then .error .conflict
  let resources ← lifecycleResources store.resources deployment b.revision state
  return { store with
    deployments := store.deployments.map fun row =>
      if row.deploymentId = deployment then { row with state } else row
    bindings := store.bindings.map fun row =>
      if row.deploymentId = deployment then
        { row with
          revision := row.revision + 1
          resourceCommitments := if state = .revoked then {} else row.resourceCommitments }
      else row
    resources
    identities := store.identities.map fun row =>
      if state = .revoked ∧ row.deploymentId = deployment then { row with active := false }
      else row }

/-! ## What an installation changes -/

section

variable (rows : List DirectCapability) (principal : String) (authority : CapabilityAuthority)

/-- The direct grants of one principal. -/
def grantsOf : List DirectCapability :=
  rows.filter fun row => row.principalId = principal

/-- The principal holds the capability identity itself. -/
def HoldsAt : Prop :=
  ∃ row ∈ rows, row.principalId = principal ∧ row.capabilityId = authority.capabilityId ∧
    row.capabilityGeneration = authority.identityGeneration

instance : Decidable (HoldsAt rows principal authority) :=
  inferInstanceAs (Decidable (∃ row ∈ rows, _))

end

theorem insertGrant_of_holdsAt (h : HoldsAt rows principal authority)
    (expiresAt : Option Int) : insertGrant rows principal authority expiresAt = rows := by
  obtain ⟨row, hrow, hkey⟩ := h
  refine if_pos (any_eq_true.mpr ⟨row, hrow, decide_eq_true hkey⟩)

theorem insertGrant_of_not_holdsAt (h : ¬ HoldsAt rows principal authority)
    (expiresAt : Option Int) : insertGrant rows principal authority expiresAt
      = rows ++ [⟨principal, authority.capabilityId, authority.identityGeneration, 1,
          expiresAt⟩] := by
  refine if_neg fun hany => h ?_
  obtain ⟨row, hrow, hkey⟩ := any_eq_true.mp hany
  exact ⟨row, hrow, of_decide_eq_true hkey⟩

theorem holdsAt_insertGrant :
    HoldsAt (insertGrant rows principal authority expiresAt) principal authority := by
  by_cases h : HoldsAt rows principal authority
  · rwa [insertGrant_of_holdsAt h]
  · rw [insertGrant_of_not_holdsAt h]
    exact ⟨_, mem_append_right _ (mem_singleton.mpr rfl), rfl, rfl, rfl⟩

/-- A row of the result was there, or is the inserted one. -/
theorem mem_insertGrant (h : row ∈ insertGrant rows principal authority expiresAt) :
    row ∈ rows ∨ row.principalId = principal ∧ row.capabilityId = authority.capabilityId ∧
      row.capabilityGeneration = authority.identityGeneration := by
  by_cases hheld : HoldsAt rows principal authority
  · rw [insertGrant_of_holdsAt hheld] at h
    exact .inl h
  · rw [insertGrant_of_not_holdsAt hheld, mem_append, mem_singleton] at h
    rcases h with h | rfl
    · exact .inl h
    · exact .inr ⟨rfl, rfl, rfl⟩

theorem subset_insertGrant : rows ⊆ insertGrant rows principal authority expiresAt := by
  by_cases h : HoldsAt rows principal authority
  · rw [insertGrant_of_holdsAt h]
    exact List.Subset.refl _
  · rw [insertGrant_of_not_holdsAt h]
    exact subset_append_left _ _

theorem grantsOf_insertGrant_of_ne (hne : other ≠ principal) :
    grantsOf (insertGrant rows principal authority expiresAt) other = grantsOf rows other := by
  by_cases h : HoldsAt rows principal authority
  · rw [insertGrant_of_holdsAt h]
  · have hnew : decide (principal = other) = false := decide_eq_false hne.symm
    rw [insertGrant_of_not_holdsAt h, grantsOf, filter_append, filter_singleton, hnew,
      cond_false, append_nil, grantsOf]

section Folds

theorem subset_insertGrants (grants : List (String × CapabilityAuthority)) (expiresAt : Option Int)
    (rows : List DirectCapability) : rows ⊆ insertGrants grants expiresAt rows := by
  induction grants generalizing rows with
  | nil => exact List.Subset.refl _
  | cons grant rest ih => exact List.Subset.trans subset_insertGrant (ih _)

theorem mem_insertGrants (h : row ∈ insertGrants grants expiresAt rows) :
    row ∈ rows ∨ ∃ grant ∈ grants, row.principalId = grant.1 ∧
      row.capabilityId = grant.2.capabilityId ∧
      row.capabilityGeneration = grant.2.identityGeneration := by
  induction grants generalizing rows with
  | nil => exact .inl h
  | cons grant rest ih =>
    rcases ih h with h | ⟨other, hmem, hkey⟩
    · rcases mem_insertGrant h with h | hkey
      · exact .inl h
      · exact .inr ⟨grant, mem_cons_self, hkey⟩
    · exact .inr ⟨other, mem_cons_of_mem _ hmem, hkey⟩

theorem holdsAt_insertGrants {grant : String × CapabilityAuthority} (h : grant ∈ grants)
    (rows : List DirectCapability) :
    HoldsAt (insertGrants grants expiresAt rows) grant.1 grant.2 := by
  induction grants generalizing rows with
  | nil => cases h
  | cons head rest ih =>
    rcases mem_cons.mp h with rfl | h
    · obtain ⟨row, hrow, hkey⟩ := holdsAt_insertGrant
      exact ⟨row, subset_insertGrants rest expiresAt _ hrow, hkey⟩
    · exact ih h _

/-- A principal that holds whatever is granted to it keeps its grants as they are. -/
theorem grantsOf_insertGrants
    (h : ∀ grant ∈ grants, grant.1 = principal → HoldsAt rows principal grant.2) :
    grantsOf (insertGrants grants expiresAt rows) principal = grantsOf rows principal := by
  induction grants generalizing rows with
  | nil => rfl
  | cons head rest ih =>
    have hrest : ∀ grant ∈ rest, grant.1 = principal →
        HoldsAt (insertGrant rows head.1 head.2 expiresAt) principal grant.2 := by
      intro grant hgrant hprin
      obtain ⟨row, hrow, hkey⟩ := h grant (mem_cons_of_mem _ hgrant) hprin
      exact ⟨row, subset_insertGrant hrow, hkey⟩
    apply (ih hrest).trans
    by_cases hhead : head.1 = principal
    · rw [hhead, insertGrant_of_holdsAt (h head mem_cons_self hhead)]
    · exact grantsOf_insertGrant_of_ne (Ne.symm hhead)

end Folds

variable {platform store actor deployment}

theorem mem_instancePrincipals : principal ∈ instancePrincipals instances deployment ↔
      ∃ row ∈ instances, row.deploymentId = deployment ∧ row.principalId = principal := by
  rw [instancePrincipals, mem_map]
  constructor
  · rintro ⟨row, hrow, rfl⟩
    obtain ⟨hmem, hdep⟩ := mem_filter.mp hrow
    exact ⟨row, hmem, of_decide_eq_true hdep, rfl⟩
  · rintro ⟨row, hmem, hdep, rfl⟩
    exact ⟨row, mem_filter.mpr ⟨hmem, decide_eq_true hdep⟩, rfl⟩

theorem grantConsumers_ok
    (h : grantConsumers catalog participant instances deployment expiresAt rows = .ok rows') :
    (¬ (participant.kind = .service ∧ participant.declares .consumer) ∧ rows' = rows) ∨
      ((participant.kind = .service ∧ participant.declares .consumer) ∧
        ∃ authority, capability catalog consumerRuntimeCapability = .ok authority ∧
          rows' = insertGrants ((instancePrincipals instances deployment).map fun principal =>
            (principal, authority)) expiresAt rows) := by
  unfold grantConsumers at h
  split at h
  next hdecl =>
    obtain ⟨authority, hauth, h⟩ := bind_eq_ok.mp h
    exact .inr ⟨hdecl, authority, hauth, (pure_eq_ok.mp h).symm⟩
  next hdecl => exact .inl ⟨hdecl, (Except.ok.inj h).symm⟩

theorem capability_capabilityId {id : CapabilityId} (h : capability catalog id = .ok authority) :
    authority.capabilityId = id := by
  unfold capability at h
  split at h
  next found hfound =>
    cases h
    obtain ⟨row, -, rfl⟩ := Option.map_eq_some_iff.mp hfound
    rfl
  · cases h

theorem checkInstallation_ok (h : checkInstallation platform store actor input now = .ok plan) :
    ∃ graph, compileParticipant platform input.evidence input.participantId
        = .ok (graph, plan.participant, plan.digest) ∧
      plan.participant.implements.mapM
        (provideApi platform store.policy.catalog graph input.expectedApiGenerations)
        = .ok plan.provided := by
  unfold checkInstallation at h
  simp only [error_bind, guard_eq_ok, bind_eq_ok, pure_eq_ok] at h
  obtain ⟨⟨graph, participant, digest⟩, hcomp, -, -, -, provided, hprovided, -, -, -, -, rfl⟩ := h
  exact ⟨graph, hcomp, hprovided⟩

/-- The tables an installation leaves. -/
structure Installs (platform : Platform Claims Evidence Edit) (store : Store Claims Evidence)
    (input : DeploymentProvisioning Evidence) (existing : Option String) (deployment : String)
    (plan : Installation) (store' : Store Claims Evidence) : Prop where
  binding : ∃ revision, revision = (unchangedRevision store.bindings existing plan.digest).getD
      (nextRevision store.installed input.participantId) ∧
    store'.bindings = putBinding store.bindings
      { deploymentId := deployment
        installedRevision := revision
        implementationDigest := plan.digest
        providedApis := plan.provided.map providerJson
        required := plan.participant.required
        optional := plan.participant.optional
        resourceCommitments := carriedCommitments input.resourceCommitments plan.participant
        revision := 1 } ∧
    store'.installed =
      (if (unchangedRevision store.bindings existing plan.digest).isSome then store.installed else
        store.installed ++ [⟨input.participantId, revision, plan.digest, input.evidence⟩])
  resources : ∃ resources,
    detachDeploymentResources store.resources deployment plan.participant.resourceIdentities
      = .ok resources ∧
    store'.resources = (if (unchangedRevision store.bindings existing plan.digest).isSome then
        resources.map (carryEvidence store'.bindings deployment) else resources)
  grants : ∃ rows, grantConsumers store.policy.catalog plan.participant store.instances deployment
      input.expiresAt store.policy.directCapabilities = .ok rows ∧
    store'.policy = { store.policy with directCapabilities := rows }
  instances : store'.instances = store.instances
  identities : store'.identities = store.identities
  updates : store'.updates = store.updates
  claims : store'.claims = store.claims
  reviews : store'.reviews = store.reviews
  deployments : ∃ new, store'.deployments = store.deployments ++ new ∧
    (existing.isSome → new = []) ∧
    (existing = none → (∀ row ∈ store.deployments, row.deploymentId ≠ deployment) ∧
      ∃ row, new = [row] ∧ row.deploymentId = deployment ∧ row.participantId = input.participantId)

theorem installDeployment_ok
    (h : installDeployment platform store actor input existing title fresh now
      = .ok (store', deployment)) : deployment = existing.getD fresh ∧
      ∃ plan, checkInstallation platform store actor input now = .ok plan ∧
        Installs platform store input existing deployment plan store' := by
  unfold installDeployment at h
  simp only [error_bind, guard_eq_ok, bind_eq_ok] at h
  obtain ⟨-, plan, hplan, -, resources, hres, deployments, hdeps, rows, hrows, h⟩ := h
  cases h
  refine ⟨rfl, plan, hplan, ⟨_, rfl, rfl, rfl⟩, ⟨resources, hres, rfl⟩, ⟨rows, hrows, rfl⟩,
    rfl, rfl, rfl, rfl, rfl, ?_⟩
  cases existing with
  | some existing =>
    cases hdeps
    exact ⟨[], (append_nil _).symm, fun _ => rfl, fun h => nomatch h⟩
  | none =>
    obtain ⟨hfresh, hinsert⟩ := guard_eq_ok.mp hdeps
    refine ⟨_, (Except.ok.inj hinsert).symm, (fun h => nomatch h), fun _ => ⟨?_, _, rfl, rfl, rfl⟩⟩
    intro row hrow hid
    exact hfresh (any_eq_true.mpr ⟨row, hrow, decide_eq_true hid⟩)

end Deployments
