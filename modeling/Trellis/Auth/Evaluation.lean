/-
# Evaluation of credentials

What a credential gives at a time (`evaluate`): the snapshot of its root, an OAuth grant or a
provisioned identity (`credential_snapshot`), and the entitlements of its principal, consented and
stamped with the current catalog.

The tables of installed software stand beside the policy tables; what an instance's revision
declares (`project_instance` past its query) is one of their columns.  The order in which
capabilities are collected is left open, and so are the explanations.
-/
import Trellis.Auth.Policy

open Catalog

namespace Auth

variable {Claims : Type}

/-! ## Installed software -/

structure ProviderImplementation where
  apiId : ApiId
  generation : Nat
  implementationDigest : String
  deriving DecidableEq, Repr

/-- The materialized resources of an instance: which kinds it has, and their digest. -/
structure NativeResources where
  (hasState hasQueues hasConsumers : Bool)
  digest : String
  deriving DecidableEq, Repr

structure NativeInstanceProjection where
  resources : NativeResources
  (required optional : List CapabilityId)
  provided : List ProviderImplementation
  deriving DecidableEq, Repr

structure ProvisionedIdentity where
  (identityKeyId principalId deploymentId instanceId participantId : String)
  kind : PrincipalKind
  active : Bool
  deriving DecidableEq, Repr

structure Deployment where
  (deploymentId participantId : String)
  active : Bool
  expiresAt : Option Int
  deriving DecidableEq, Repr

structure Instance where
  (instanceId deploymentId principalId : String)
  active : Bool
  deriving DecidableEq, Repr

structure Device where
  (principalId deploymentId : String)
  active : Bool
  deriving DecidableEq, Repr

structure ServiceClaim where
  (claimId principalId identityKeyId : String)
  waiting : Bool
  deriving DecidableEq, Repr

structure NativeTables where
  identities : List ProvisionedIdentity
  deployments : List Deployment
  instances : List Instance
  /-- The deployments with a binding. -/
  bindings : List String
  devices : List Device
  claims : List ServiceClaim
  /-- What the installed revision of an instance declares. -/
  projected : String → Except AuthError NativeInstanceProjection
  /-- The resources of a service with nothing installed. -/
  defaultResources : NativeResources

/-! ## Credential snapshots -/

inductive Credential where
  | oauthGrant (grant : String)
  | provisionedIdentity (identity : String)
  deriving DecidableEq, Repr

inductive SessionBinding where
  | browser (clientId origin : String)
  | native (clientId durableDpopJkt : String)
  | service (deploymentId instanceId participantId : String)
  | device (deploymentId instanceId participantId : String)
  deriving DecidableEq, Repr

structure AuthorityProvider where
  apiId : ApiId
  generation : Nat
  (deploymentId implementationDigest : String)
  deriving DecidableEq, Repr

structure CredentialSnapshot where
  principalId : String
  principalKind : PrincipalKind
  binding : SessionBinding
  loginSessionId : Option String
  (required optional : List CapabilityId)
  approved : Option (List CapabilityAuthority)
  /-- Newest entry first. -/
  consentDeadlines : List (CapabilityId × Int)
  providers : List AuthorityProvider
  resourceBindingsDigest : Option String
  notAfter : Int
  deriving DecidableEq, Repr

def i64Max : Int := 2 ^ 63 - 1

variable (tables : PolicyTables Claims)

/-- The live grant of a live login of an active principal, with its deadline. -/
def oauthRecord (grant : String) (now : Int) : Option (OAuthGrant × Int) :=
  (tables.grants.flatMap fun g =>
    if g.oauthGrantId = grant ∧ !g.revoked ∧ now < g.expiresAt then
      tables.logins.flatMap fun l =>
        if l.loginSessionId = g.loginSessionId ∧ l.principalId = g.principalId ∧ !l.revoked ∧
            now < l.expiresAt then
          tables.principals.filterMap fun p =>
            if p.principalId = g.principalId ∧ p.state = .active then
              some (g, min g.expiresAt l.expiresAt)
            else none
        else []
    else []).head?

/-- A registered client must be active, another one validated. -/
def clientUsable (client : String) : Bool :=
  match tables.clients.find? fun row => row.clientId = client with
  | some row => row.state = .active
  | none => client ∈ tables.cimdClients

def loginProviderActive (login : String) : Bool :=
  !tables.logins.any fun l => l.loginSessionId = login ∧
    tables.oidcProviders.any fun p => some p.providerId = l.providerId ∧ !p.active

/-- The latest deadline of the grant's live refresh families; without families it is barred. -/
def familyDeadline (grant : String) (now : Int) : Except AuthError (Option Int) :=
  let families := tables.families.filter fun row => row.oauthGrantId = grant
  let live := (families.filter fun row => !row.revoked ∧ now < row.expiresAt).map
    OAuthFamily.expiresAt
  if families ≠ [] ∧ live = [] then .error .denied
  else .ok (live.foldr (fun expiry latest => some (latest.elim expiry (max expiry))) none)

/-- The approval of a grant for one capability with its deadline, unless declined since or over. -/
def currentApproval (g : OAuthGrant) (now : Int)
    (held : CapabilityAuthority) : Except AuthError (Option (CapabilityAuthority × Option Int)) :=
  match g.consentBasis.find? fun basis => basis.capabilityId = held.capabilityId with
  | none => .error .denied
  | some approval =>
    let consent := tables.consents.find? fun row =>
      row.principalId = g.principalId ∧ row.clientId = g.clientId ∧
        row.bindingKind = g.bindingKind ∧ row.bindingValue = g.bindingValue ∧
        row.capabilityId = held.capabilityId ∧
        row.capabilityGeneration = held.identityGeneration ∧
        row.consentRevision = held.consentRevision
    let expires := match consent.filter fun row => approval.revision < row.revision with
      | some row => if row.approved then some row.expiresAt else none
      | none => some approval.expiresAt
    .ok (expires.bind fun expires =>
      if expires.any fun expiry => expiry ≤ now then none else some (held, expires))

def grantBinding (g : OAuthGrant) : Except AuthError SessionBinding :=
  if g.bindingKind = "browser" then .ok (.browser g.clientId g.bindingValue)
  else if g.bindingKind = "native" ∧ g.bindingValue = g.durableDpopJkt then
    .ok (.native g.clientId g.durableDpopJkt)
  else .error .denied

def grantSnapshot (grant : String) (now : Int) : Except AuthError CredentialSnapshot := do
  let some (g, deadline) := oauthRecord tables grant now
    | .error .denied
  if !clientUsable tables g.clientId then .error .denied
  if !loginProviderActive tables g.loginSessionId then .error .denied
  let family ← familyDeadline tables grant now
  let approvals ← g.approved.mapM (currentApproval tables g now)
  let retained := approvals.filterMap id
  let binding ← grantBinding g
  return {
    principalId := g.principalId
    principalKind := .user
    binding
    loginSessionId := some g.loginSessionId
    required := g.required
    optional := g.optional
    approved := some (retained.map Prod.fst)
    consentDeadlines := retained.reverse.filterMap fun entry =>
      entry.2.map fun expires => (entry.1.capabilityId, expires)
    providers := []
    resourceBindingsDigest := none
    notAfter := family.elim deadline (min deadline) }

def jobHistoryCapability : CapabilityId := ⟨"trellis.jobs@v1", "history.read"⟩
def consumerRuntimeCapability : CapabilityId := ⟨"trellis.events@v1", "replays.process"⟩
def serviceUpdateCapability : CapabilityId := ⟨"trellis.auth@v1", "serviceUpdates.submit"⟩

def stateCapabilities : List CapabilityId :=
  [⟨"trellis.state@v1", "values.read"⟩, ⟨"trellis.state@v1", "values.write"⟩,
    ⟨"trellis.state@v1", "values.delete"⟩]

def withRequired (required : List CapabilityId) (id : CapabilityId) : List CapabilityId :=
  if id ∈ required then required else required ++ [id]

/-- What an instance needs beyond its declaration, for its resources and its kind. -/
def nativeRequired (kind : PrincipalKind) (projection : NativeInstanceProjection) :
    List CapabilityId :=
  let resources := projection.resources
  let added :=
    (if kind = .device ∧ resources.hasState then stateCapabilities else []) ++
    (if kind = .service ∧ resources.hasQueues then [jobHistoryCapability] else []) ++
    (if kind = .service ∧ resources.hasConsumers then [consumerRuntimeCapability] else []) ++
    [selfHealthCapability] ++
    (if kind = .service then [serviceUpdateCapability] else [])
  added.foldl withRequired projection.required

variable (native : NativeTables)

/-- The active provisioned identity with its deployment's deadline. -/
def identityRecord (identity : String) (now : Int) : Option (ProvisionedIdentity × Option Int) :=
  (native.identities.flatMap fun i =>
    if i.identityKeyId = identity ∧ i.active then
      tables.principals.flatMap fun p =>
        if p.principalId = i.principalId ∧ p.state = .active ∧ p.kind = i.kind then
          native.deployments.filterMap fun d =>
            if d.deploymentId = i.deploymentId ∧ d.participantId = i.participantId ∧ d.active ∧
                inForce d.expiresAt now ∧ i.deploymentId ∈ native.bindings ∧
                native.instances.any fun r => r.instanceId = i.instanceId ∧
                  r.deploymentId = i.deploymentId ∧ r.principalId = i.principalId ∧ r.active then
              some (i, d.expiresAt)
            else none
        else []
    else []).head?

/-- `project_instance`: an active instance, principal and deployment. -/
def projectInstance (id : String) (now : Int) : Except AuthError NativeInstanceProjection :=
  if native.instances.any fun i => i.instanceId = id ∧ i.active ∧
      (tables.principals.any fun u => u.principalId = i.principalId ∧ u.state = .active) ∧
      (native.deployments.any fun d => d.deploymentId = i.deploymentId ∧ d.active ∧
        inForce d.expiresAt now) ∧
      i.deploymentId ∈ native.bindings then
    native.projected id
  else .error .denied

/-- A waiting service claim's identity may only submit its own build. -/
def claimSnapshot (identity : String) : Except AuthError CredentialSnapshot :=
  match native.claims.find? fun c => c.identityKeyId = identity ∧ c.waiting ∧
      tables.principals.any fun p => p.principalId = c.principalId ∧ p.state = .active with
  | none => .error .denied
  | some c => .ok {
      principalId := c.principalId
      principalKind := .service
      binding := .service c.claimId c.claimId ""
      loginSessionId := none
      required := [serviceUpdateCapability]
      optional := []
      approved := none
      consentDeadlines := []
      providers := []
      resourceBindingsDigest := some native.defaultResources.digest
      notAfter := i64Max }

/-- A service is bound to its deployment; a device also needs its own active row. -/
def identityBinding (i : ProvisionedIdentity) : Except AuthError SessionBinding :=
  match i.kind with
  | .service => .ok (.service i.deploymentId i.instanceId i.participantId)
  | .device =>
    if native.devices.any fun d => d.principalId = i.principalId ∧
        d.deploymentId = i.deploymentId ∧ d.active then
      .ok (.device i.deploymentId i.instanceId i.participantId)
    else .error .denied
  | .user => .error .denied

def identitySnapshot (identity : String) (now : Int) : Except AuthError CredentialSnapshot :=
  match identityRecord tables native identity now with
  | none => claimSnapshot tables native identity
  | some (i, deadline) => do
      let projection ← projectInstance tables native i.instanceId now
      let binding ← identityBinding native i
      let _ ← nativeHealthCapability tables.catalog
      return {
        principalId := i.principalId
        principalKind := i.kind
        binding
        loginSessionId := none
        required := nativeRequired i.kind projection
        optional := projection.optional
        approved := none
        consentDeadlines := []
        providers := projection.provided.map fun provider =>
          ⟨provider.apiId, provider.generation, i.deploymentId, provider.implementationDigest⟩
        resourceBindingsDigest := some projection.resources.digest
        notAfter := deadline.getD i64Max }

def credentialSnapshot
    (credential : Credential) (now : Int) : Except AuthError CredentialSnapshot :=
  match credential with
  | .oauthGrant grant => grantSnapshot tables grant now
  | .provisionedIdentity identity => identitySnapshot tables native identity now

/-! ## Evaluation -/

structure Evaluation where
  principalId : String
  principalKind : PrincipalKind
  binding : SessionBinding
  loginSessionId : Option String
  (required optional : List CapabilityId)
  capabilities : List CapabilityAuthority
  requiredMissing : List CapabilityId
  apis : ApiId → Option AuthorityApi
  providers : List AuthorityProvider
  resourceBindingsDigest : Option String
  capabilityDeadlines : CapabilityId → Option Int
  (rootNotAfter notAfter : Int)

variable (catalog : Tables)

/-- The accepted revision of an API that has its verification snapshot. -/
def acceptedApi (api : ApiId) : Option AuthorityApi :=
  (catalog.currentCatalog api).bind fun _ => captureApi catalog api

variable (evaluation : Evaluation)

def Evaluation.insertApi (api : AuthorityApi) : Evaluation :=
  { evaluation with
    apis := fun id => if id = api.apiId then some api else evaluation.apis id }

/-- The entitlement deadline and the consent deadline bound one right only. -/
def Evaluation.bound (id : CapabilityId) (deadline : Option Int) : Evaluation :=
  match deadline with
  | none => evaluation
  | some deadline => { evaluation with
      capabilityDeadlines := fun other =>
        if other = id then
          some ((evaluation.capabilityDeadlines id).elim deadline fun current =>
            min current deadline)
        else evaluation.capabilityDeadlines other
      notAfter := min evaluation.notAfter deadline }

def earliest : Option Int → Option Int → Option Int
  | some a, some b => some (min a b)
  | some a, none => some a
  | none, b => b

/-- Add one entitled, consented capability to an evaluation. -/
def grant (id : CapabilityId) (authority : CapabilityAuthority) (entitlement consent : Option Int) :
    Except AuthError Evaluation :=
  let evaluation := evaluation.bound id (earliest entitlement consent)
  match (activeIdentity catalog.identities id).bind fun _ => acceptedApi catalog id.api with
  | none => .error .storage
  | some api =>
    let evaluation := evaluation.insertApi api
    .ok (if authority ∈ evaluation.capabilities then evaluation
      else { evaluation with capabilities := evaluation.capabilities ++ [authority] })

variable (root : CredentialSnapshot)

/-- Whether the root's approval covers it; native roots approve what they declare. -/
def CredentialSnapshot.approves (held : CapabilityAuthority) : Bool :=
  root.approved.all fun approved => held ∈ approved

variable (entitled : CapabilityId → Option (Option Int))

/-- Grant the entitled ones of a group's members, and count them. -/
def grantMembers (consent : Option Int) (state : Evaluation × Nat) (member : CapabilityId) :
    Except AuthError (Evaluation × Nat) :=
  match entitled member with
  | none => .ok state
  | some deadline => do
      let authority ← capability catalog member
      let evaluation ← grant catalog state.1 member authority deadline consent
      return (evaluation, state.2 + 1)

def Evaluation.missing (id : CapabilityId) : Evaluation :=
  { evaluation with requiredMissing := evaluation.requiredMissing ++ [id] }

/-- One selected capability or group. -/
def evaluateSelected (evaluation : Evaluation) (id : CapabilityId) : Except AuthError Evaluation :=
  let isRequired := decide (id ∈ root.required)
  let consent := root.consentDeadlines.lookup id
  match captureCapability catalog id, currentMembers catalog id with
  | some current, some members => do
      let consented := if root.approves current then members else []
      let (evaluation, granted) ←
        consented.foldlM (grantMembers catalog entitled consent) (evaluation, 0)
      return if isRequired ∧ (consented = [] ∨ granted < consented.length) then
          evaluation.missing id
        else evaluation
  | some current, none =>
    match entitled id with
    | some deadline =>
      if ¬ (id = selfHealthCapability ∧ root.principalKind = .user) ∧ root.approves current then
        grant catalog evaluation id current deadline consent
      else .ok (if isRequired then evaluation.missing id else evaluation)
    | none => .ok (if isRequired then evaluation.missing id else evaluation)
  | none, _ => .ok (if isRequired then evaluation.missing id else evaluation)

/-- A provider's API must still be accepted under its generation. -/
def evaluateProvider (provider : AuthorityProvider) : Except AuthError Evaluation :=
  match (acceptedApi catalog provider.apiId).filter fun api =>
      api.generation = provider.generation with
  | none => .error .denied
  | some api =>
    .ok { evaluation.insertApi api with providers := evaluation.providers ++ [provider] }

def CredentialSnapshot.initial : Evaluation where
  principalId := root.principalId
  principalKind := root.principalKind
  binding := root.binding
  loginSessionId := root.loginSessionId
  required := root.required
  optional := root.optional
  capabilities := []
  requiredMissing := []
  apis := fun _ => none
  providers := []
  resourceBindingsDigest := root.resourceBindingsDigest
  capabilityDeadlines := fun _ => none
  rootNotAfter := root.notAfter
  notAfter := root.notAfter

/-- The evaluation of a root under given entitlements. -/
def evaluateRoot (now : Int) : Except AuthError Evaluation := do
  let evaluation ← (root.required ++ root.optional).dedup.foldlM
    (evaluateSelected catalog root entitled) root.initial
  let evaluation ← root.providers.foldlM (evaluateProvider catalog) evaluation
  if evaluation.notAfter ≤ now then .error .denied
  return evaluation

def evaluate (library : Library Claims) (tables : PolicyTables Claims) (native : NativeTables)
    (credential : Credential) (now : Int) : Except AuthError Evaluation := do
  let root ← credentialSnapshot tables native credential now
  evaluateRoot tables.catalog root
    (entitlements library tables root.principalId root.loginSessionId now) now

end Auth
