/-
# Service updates

Participant updates a running service submits for itself (`submit`), the decision of an
administrator on one that asks for more (`decide`), and the installation both end in
(`apply`).

The lemmas say what each part writes: which tables an installation over a deployment
replaces, which grants moving an instance to a revision adds and withdraws, and what
`installed` reads afterwards.
-/
import Trellis.Deployments.Install

open Catalog Auth

namespace Deployments

open List Checked Option

variable {Claims Evidence Edit : Type}

/-! ## Candidates and installed revisions -/

/-- A compiled candidate participant and the evidence it came from. -/
structure Candidate (Evidence : Type) where
  evidence : Evidence
  graph : PackageGraph
  participant : Participant
  digest : String

variable (platform : Platform Claims Evidence Edit)

def Candidate.compile (evidence : Evidence)
    (participantId : String) : Except AuthError (Candidate Evidence) := do
  let graph ← platform.compileEvidence evidence
  match graph.participants.find? fun row => row.participantId = participantId with
  | none => .error (.invalid s!"the submitted IDL does not declare {participantId}")
  | some participant =>
    if participant.kind ≠ .service then .error (.invalid "only services submit updates")
    else do
      let digest ← platform.participantDigest graph participant
      return { evidence, graph, participant, digest }

/-- The name of a resource's kind in an update's changes. -/
def resourceKind : ResourceKind → String
  | .kv => "kv"
  | .store => "store"
  | .state => "state"
  | .job => "job"
  | .consumer => "eventConsumer"

/-- The kind as the resource table has it. -/
def ResourceKind.column : ResourceKind → String
  | .kv => "kv"
  | .store => "store"
  | .state => "state"
  | .job => "job"
  | .consumer => "consumer"

abbrev ResourceKey := String × String

def Participant.keyedResources (participant : Participant) :
    List (ResourceKey × ResourceDefinition) :=
  participant.resources.map fun entry => ((resourceKind entry.2.kind, entry.1), entry.2)

/-- What the deployment's current revision selects, declares and provides. -/
structure Installed where
  (revision bindingRevision : Nat)
  (digest title : String)
  capabilities : List CapabilityId
  resources : List (ResourceKey × ResourceDefinition)
  apis : List ApiId
  resourceCommitments : ResourceBindings

/-- A claim has nothing installed yet; its first update asks for everything. -/
def Installed.empty : Installed where
  revision := 0
  bindingRevision := 0
  digest := ""
  title := ""
  capabilities := []
  resources := []
  apis := []
  resourceCommitments := {}

/-- The APIs a stored binding names. -/
def providedApiIds (provided : List JsonObject) : List ApiId :=
  provided.filterMap fun provider =>
    match jsonExtract provider "api_id" with
    | some (.text api) => some api
    | _ => none

variable (store : Store Claims Evidence)

/-- The compiled participant of one installed revision of a deployment. -/
def revisionParticipant
    (participantId : String) (revision : Nat) : Except AuthError Participant := do
  let evidence ← installedEvidence store.installed participantId revision
  let graph ← platform.compileEvidence evidence
  match graph.participants.find? fun row => row.participantId = participantId with
  | none => .error .unavailable
  | some participant => .ok participant

variable (deployment : String)

def installed : Except AuthError Installed := do
  let some (d, b) := boundDeployment store deployment
    | .error .storage
  let participant ← revisionParticipant platform store d.participantId b.installedRevision
  return {
    revision := b.installedRevision
    bindingRevision := b.revision
    digest := b.implementationDigest
    title := d.title
    capabilities := b.required ++ b.optional
    resources := participant.keyedResources
    apis := providedApiIds b.providedApis
    resourceCommitments := b.resourceCommitments }

/-- The capabilities a revision selects, including those its resources imply. -/
def selectedOf (participant : Participant) : List CapabilityId :=
  participant.required ++ participant.optional ++ impliedCapabilities .service participant

def selectedCapabilities (revision : Nat) : Except AuthError (List CapabilityId) := do
  let some d := store.deployments.find? fun row => row.deploymentId = deployment
    | .error .storage
  let participant ← revisionParticipant platform store d.participantId revision
  return selectedOf participant

/-! ## Comparing a candidate with what is installed -/

/-- Whether a redeclared resource asks for more than the old declaration. -/
def resourceGrows (old new : ResourceDefinition) : Bool :=
  match old.body, new.body with
  | .kv _ a b c, .kv _ x y z => (a, b, c) ≠ (x, y, z)
  | .store a b c, .store x y z => (a, b, c) ≠ (x, y, z)
  | .consumer a, .consumer b => !(b.all fun event => event ∈ a)
  | .state _, .state _ => false
  | .job .., .job .. => false
  | _, _ => true

structure Changes where
  addedCapabilities : List CapabilityId := []
  removedCapabilities : List CapabilityId := []
  addedResources : List ResourceKey := []
  reattachedResources : List ResourceKey := []
  changedResources : List ResourceKey := []
  removedResources : List ResourceKey := []
  addedApis : List ApiId := []
  sharedApis : List ApiId := []
  removedApis : List ApiId := []
  acceptedApis : List ApiId := []

/-- The APIs among `apis` that a deployment other than `deployment` serves. -/
def sharedApisOf (apis : List ApiId) : List ApiId :=
  apis.filter fun api => store.bindings.any fun b =>
    b.deploymentId ≠ deployment ∧
      (store.deployments.any fun d => d.deploymentId = b.deploymentId ∧ d.state ≠ .revoked) ∧
      b.providedApis.any fun provider => jsonExtract provider "api_id" = some (.text api)

def requireSharingAcknowledged (shared : List ApiId) (acknowledged : Option Bool) :
    Except AuthError Unit :=
  if shared = [] ∨ acknowledged = some true then .ok ()
  else
    let names := String.intercalate ", " shared
    .error (.invalid (s!"this makes the service answer {names} alongside the service that " ++
      "already does; callers' requests would be split between them at random, and each keeps " ++
      "its own data. Confirm with acknowledgeSharedApis only if that is intended"))

def PackageGraph.resolveApi (graph : PackageGraph) (api : ApiId) : Except AuthError ApiDefinition :=
  match graph.api api with
  | none => .error .notFound
  | some definition => .ok definition

/-- Whether the catalog does not hold an API at the definition the package gives it. -/
def apiToAccept (catalog : Tables)
    (graph : PackageGraph) (api : ApiId) : Except AuthError (Option ApiId) := do
  let proposed ← graph.resolveApi api
  match catalog.accepted api with
  | none => .ok (some api)
  | some accepted =>
    if accepted.definitionDigest = platform.catalog.apiDigest proposed then .ok none
    else if !platform.catalog.compareImplementation accepted.definition proposed then
      .error (.invalid (s!"API {api} changed incompatibly with its accepted definition; " ++
        "an administrator must force-replace it first"))
    else .ok (some api)

def apisToAccept (catalog : Tables)
    (graph : PackageGraph) (participant : Participant) : Except AuthError (List ApiId) := do
  let apis ← participant.implements.mapM (apiToAccept platform catalog graph)
  return apis.filterMap id

/-- Compare a candidate with the deployment's current revision. -/
def changes (current : Installed) (candidate : Candidate Evidence) : Except AuthError Changes := do
  let participant := candidate.participant
  let capabilities := participant.required ++ participant.optional
  let owned : List ResourceKey := (store.resources.filter fun row =>
    row.ownerId = deployment ∧ row.state ≠ .destroying).map fun row =>
      (row.kind.column, row.localName)
  let resources := participant.keyedResources
  let previous := fun key => (current.resources.find? fun entry => entry.1 = key).map Prod.snd
  let undeclared := (resources.filter fun entry => (previous entry.1).isNone).map Prod.fst
  let acceptedApis ← apisToAccept platform store.policy.catalog candidate.graph participant
  return {
    addedCapabilities := capabilities.filter fun id => id ∉ current.capabilities
    removedCapabilities := current.capabilities.filter fun id => id ∉ capabilities
    addedResources := undeclared.filter fun key => key ∉ owned
    -- a resource an earlier revision dropped is still the deployment's, data included
    reattachedResources := undeclared.filter fun key => key ∈ owned
    changedResources := (resources.filter fun entry =>
      (previous entry.1).any fun old => resourceGrows old entry.2).map Prod.fst
    removedResources := (current.resources.map Prod.fst).filter fun key =>
      key ∉ resources.map Prod.fst
    addedApis := participant.implements.filter fun api => api ∉ current.apis
    sharedApis := participant.implements.filter fun api =>
      api ∉ current.apis ∧ sharedApisOf store deployment [api] ≠ []
    removedApis := current.apis.filter fun api => api ∉ participant.implements
    acceptedApis }

def requestsAccess (changes : Changes) : Bool :=
  changes.addedCapabilities ≠ [] || changes.addedResources ≠ [] ||
    changes.reattachedResources ≠ [] || changes.changedResources ≠ [] ||
    changes.addedApis ≠ [] || changes.sharedApis ≠ []

/-! ## Applying an update -/

/-- Review and accept one API in the caller's transaction. -/
def acceptOne (graph : PackageGraph) (now : Int)
    (store : Store Claims Evidence) (api : ApiId) : Except AuthError (Store Claims Evidence) := do
  let definition ← graph.resolveApi api
  let (reviewed, review) ← reviewApi platform.catalog
    ⟨store.policy.catalog, store.reviews, (store.policy, store.bindings)⟩ definition api now
  let (accepted, _) ← acceptApi platform.catalog reviewed
    ⟨review.reviewId, review.definitionDigest, false, false, false, [], []⟩ now
  return { store with
    policy := { store.policy with catalog := accepted.tables }
    reviews := accepted.reviews }

def acceptApis (graph : PackageGraph) (apis : List ApiId) (now : Int) :
    Except AuthError (Store Claims Evidence) :=
  apis.foldlM (acceptOne platform graph now) store

def deploymentInput (candidate : Candidate Evidence)
    (resources : ResourceBindings) : Except AuthError (DeploymentProvisioning Evidence) := do
  let expectedApiGenerations ← candidate.participant.implements.mapM fun api =>
    match store.policy.catalog.accepted api with
    | none => .error (.invalid s!"API {api} is not accepted; review and accept it before deploying")
    | some accepted => .ok (api, accepted.generation)
  return {
    evidence := candidate.evidence
    participantId := candidate.participant.participantId
    expectedApiGenerations
    resourceCommitments := resources
    expiresAt := none }

variable (actor : String)

/-- Install the candidate unless an administrator already installed this exact build. -/
def reinstall (deployment : String) (candidate : Candidate Evidence) (changes : Changes)
    (current : Installed) (now : Int) : Except AuthError (Store Claims Evidence) :=
  if candidate.digest = current.digest then .ok store
  else do
    let accepted ← acceptApis platform store candidate.graph changes.acceptedApis now
    let input ← deploymentInput accepted candidate current.resourceCommitments
    let (store', _) ← installDeployment platform accepted actor input (some deployment)
      current.title deployment now
    return store'

/-- Withdraw what the old revision selected and the new one does not. -/
def withdrawGrants (rows : List DirectCapability) (principal : String)
    (previous next : List CapabilityId) : List DirectCapability :=
  rows.filter fun row =>
    ¬ (row.principalId = principal ∧ row.capabilityId ∈ previous ∧ row.capabilityId ∉ next)

/-- Grant what the new revision adds. -/
def addGrants (catalog : Tables) (principal : String) (expiresAt : Option Int)
    (previous next : List CapabilityId) (rows : List DirectCapability) :
    Except AuthError (List DirectCapability) := do
  let authorities ← (next.filter fun id => id ∉ previous).mapM (capability catalog)
  return insertGrants (authorities.map fun authority => (principal, authority)) expiresAt rows

/-- Move the submitting instance to the revision.  What the old revision also selected, and what
neither selects, keeps its state. -/
def moveInstance (instanceId : String) (revision : Nat) :
    Except AuthError (Store Claims Evidence) := do
  let some i := store.instances.find? fun row => row.instanceId = instanceId
    | .error .storage
  if i.installedRevision = revision then .ok store
  else do
    let previous ← selectedCapabilities platform store deployment i.installedRevision
    let next ← selectedCapabilities platform store deployment revision
    let some d := store.deployments.find? fun row => row.deploymentId = deployment
      | .error .storage
    let directCapabilities ← addGrants store.policy.catalog i.principalId d.expiresAt previous next
      (withdrawGrants store.policy.directCapabilities i.principalId previous next)
    return { store with
      policy := { store.policy with directCapabilities }
      instances := store.instances.map fun row =>
        if row.instanceId = instanceId then { row with installedRevision := revision } else row }

variable (updateId : String)

def readUpdate : Except AuthError (ServiceUpdate Evidence) :=
  match store.updates.find? fun row => row.updateId = updateId with
  | none => .error .notFound
  | some update => .ok update

/-- Write the outcome of an update. -/
def settleUpdate (state : UpdateState) : Store Claims Evidence :=
  { store with
    updates := store.updates.map fun row =>
      if row.updateId = updateId then { row with state, revision := row.revision + 1 } else row }

/-- `apply`: install the candidate and move the submitting instance onto it. -/
def applyUpdate (candidate : Candidate Evidence) (changes : Changes)
    (current : Installed) (now : Int) : Except AuthError (Store Claims Evidence) := do
  let update ← readUpdate store updateId
  let store ← reinstall platform store actor update.deploymentId candidate changes current now
  let after ← installed platform store update.deploymentId
  let store ← moveInstance platform store update.deploymentId update.instanceId after.revision
  return settleUpdate store updateId .applied

/-! ## Submitting an update -/

variable (principal : String)

/-- The caller's own service instance. -/
def submittingInstance : Except AuthError Instance :=
  match store.instances.find? fun i => i.principalId = principal ∧ i.state = .active ∧
      (store.policy.principals.any fun p => p.principalId = principal ∧ p.kind = .service ∧
        p.state = .active) ∧
      store.deployments.any fun d => d.deploymentId = i.deploymentId ∧ d.state = .active with
  | none => .error .denied
  | some i => .ok i

/-- Replace whatever waited for the deployment by a new pending update. -/
def recordUpdate (update : ServiceUpdate Evidence) : Except AuthError (Store Claims Evidence) := do
  let superseded := store.updates.map fun row =>
    if row.deploymentId = update.deploymentId ∧ row.state = .pending then
      { row with state := .superseded, revision := row.revision + 1 }
    else row
  let updates ← insertUnique superseded (fun row => row.updateId = update.updateId) update
  return { store with updates }

/-- The claim `principal` connects as, and the deployment approving it created. -/
def claimOf : Option ServiceClaim :=
  store.claims.find? fun row => row.principalId = principal ∧ row.state ≠ .removed

def claimWaiting (claim : String) : Bool :=
  store.claims.any fun row => row.claimId = claim ∧ row.state = .waiting

/-- Record whatever service connected to a claim as its pending first update. -/
def submitToClaim (claim participantId : String) (evidence : Evidence) (updateId : String) :
    Except AuthError (Store Claims Evidence × ServiceUpdate Evidence) := do
  let candidate ← Candidate.compile platform evidence participantId
  match store.updates.find? fun row => row.deploymentId = claim ∧
      row.participantDigest = candidate.digest ∧ row.state = .pending with
  | some pending => .ok (store, pending)
  | none => do
      let _ ← changes platform store claim .empty candidate
      let update := ⟨updateId, claim, claim, participantId, candidate.digest, evidence, 1,
        .pending, 1⟩
      let store ← recordUpdate store update
      return (store, update)

/-- The changes a submission is judged by; the installed build changes nothing. -/
def submittedChanges (current : Installed) (candidate : Candidate Evidence) :
    Except AuthError Changes :=
  if candidate.digest = current.digest then .ok {}
  else changes platform store deployment current candidate

/-- Deploying administration takes `platform.manage`, which a service never holds. -/
def needsApproval (current : Installed) (candidate : Candidate Evidence)
    (changes : Changes) (now : Int) : Bool :=
  requestsAccess changes ||
    (candidate.digest ≠ current.digest &&
      !(requirePlatformFor platform.library store.policy principal current.capabilities now).isOk)

/-- Record a submission and apply it unless it needs approval. -/
def recordSubmission (principal updateId : String) (i : Instance) (current : Installed)
    (candidate : Candidate Evidence) (changes : Changes) (now : Int) :
    Except AuthError (Store Claims Evidence × ServiceUpdate Evidence) := do
  let recorded ← recordUpdate store
    ⟨updateId, i.deploymentId, i.instanceId, candidate.participant.participantId,
      candidate.digest, candidate.evidence, current.bindingRevision, .pending, 1⟩
  if needsApproval platform store principal current candidate changes now then do
    let update ← readUpdate recorded updateId
    return (recorded, update)
  else do
    let store ← applyUpdate platform recorded principal updateId candidate changes current now
    let update ← readUpdate store updateId
    return (store, update)

/-- `submit`, past the claim of a service that has nothing installed. -/
def submitToDeployment (submitted : String) (evidence : Evidence) (updateId : String) (now : Int) :
    Except AuthError (Store Claims Evidence × ServiceUpdate Evidence) := do
  let i ← submittingInstance store principal
  let some d := store.deployments.find? fun row => row.deploymentId = i.deploymentId
    | .error .storage
  let participantId := d.participantId
  if submitted ≠ participantId then
    .error (.invalid s!"this identity belongs to a deployment of {participantId}, not {submitted}")
  else do
    let candidate ← Candidate.compile platform evidence participantId
    let some running := store.installed.find? fun row => row.participantId = participantId ∧
        row.revision = i.installedRevision
      | .error .storage
    if candidate.digest = running.participantDigest then
      .error (.invalid "this instance already runs the submitted build")
    else do
      let current ← installed platform store i.deploymentId
      -- several instances of one deployment share one pending update
      match store.updates.find? fun row => row.deploymentId = i.deploymentId ∧
          row.participantDigest = candidate.digest ∧ row.state = .pending ∧
          row.baseBindingRevision = current.bindingRevision with
      | some pending => .ok (store, pending)
      | none => do
          let changes ← submittedChanges platform store i.deploymentId current candidate
          recordSubmission platform store principal updateId i current candidate changes now

/-- `submit`. -/
def submit (submitted : String) (evidence : Evidence) (updateId : String) (now : Int) :
    Except AuthError (Store Claims Evidence × ServiceUpdate Evidence) :=
  match (claimOf store principal).filter fun claim => claim.deploymentId.isNone with
  | some claim => submitToClaim platform store claim.claimId submitted evidence updateId
  | none => submitToDeployment platform store principal submitted evidence updateId now

/-! ## Deciding an update -/

inductive Decision where
  | approved
  | rejected
  deriving DecidableEq, Repr

/-- The IDs a transaction draws. -/
structure FreshIds where
  (deploymentId principalId instanceId : String)

section

variable (update : ServiceUpdate Evidence) (decision : Decision) (acknowledged : Option Bool)

/-- Create the claim's deployment and provision an instance with the claim's identity. -/
def approveClaim (claim updateId : String) (candidate : Candidate Evidence) (fresh : FreshIds)
    (now : Int) : Except AuthError (Store Claims Evidence) := do
  let changes ← changes platform store claim .empty candidate
  requireSharingAcknowledged changes.sharedApis acknowledged
  let some row := store.claims.find? fun row => row.claimId = claim
    | .error .storage
  let accepted ← acceptApis platform store candidate.graph changes.acceptedApis now
  let input ← deploymentInput accepted candidate {}
  let (installed, deployment) ← installDeployment platform accepted actor input none row.title
    fresh.deploymentId now
  let provisioned ← provisionInstance platform installed deployment (some row.publicKey)
    row.instanceTitle fresh.principalId fresh.instanceId now
  return { provisioned with
    claims := provisioned.claims.map fun row =>
      if row.claimId = claim then { row with state := .claimed, deploymentId := some deployment }
      else row
    updates := provisioned.updates.map fun row =>
      if row.updateId = updateId then
        { row with
          deploymentId := deployment, instanceId := fresh.instanceId, state := .applied
          revision := row.revision + 1 }
      else row }

/-- The decision on an update of an installed deployment. -/
def decideInstalled (current : Installed) (now : Int) : Except AuthError (Store Claims Evidence) :=
  if current.bindingRevision ≠ update.baseBindingRevision ∧ current.revision ≠ 0 then
    -- someone changed the deployment since the service submitted
    .ok (settleUpdate store update.updateId .superseded)
  else if decision = .approved then do
    let candidate ← Candidate.compile platform update.evidence update.participantId
    let changes ← changes platform store update.deploymentId current candidate
    requireSharingAcknowledged changes.sharedApis acknowledged
    requirePlatformFor platform.library store.policy actor changes.addedCapabilities now
    applyUpdate platform store actor update.updateId candidate changes current now
  else .ok (settleUpdate store update.updateId .rejected)

/-- The decision on a pending update. -/
def decidePending (fresh : FreshIds) (now : Int) : Except AuthError (Store Claims Evidence) :=
  if claimWaiting store update.deploymentId then
    if decision = .approved then do
      let candidate ← Candidate.compile platform update.evidence update.participantId
      approveClaim platform store actor acknowledged update.deploymentId update.updateId candidate
        fresh now
    else decideInstalled platform store actor update decision acknowledged .empty now
  else do
    let current ← installed platform store update.deploymentId
    decideInstalled platform store actor update decision acknowledged current now

end

/-- `decide`. -/
def decideServiceUpdate (expectedRevision : Nat) (decision : Decision)
    (acknowledged : Option Bool) (fresh : FreshIds) (now : Int) :
    Except AuthError (Store Claims Evidence × ServiceUpdate Evidence) := do
  requireAdministration platform.library store.policy actor .managePrincipals now
  let update ← readUpdate store updateId
  if update.state = .applied ∧ decision = .approved then
    -- approving an installed update again only retries its storage
    .ok (store, update)
  else if update.state ≠ .pending ∨ update.revision ≠ expectedRevision then .error .conflict
  else do
    let store ← decidePending platform store actor update decision acknowledged fresh now
    let update ← readUpdate store updateId
    return (store, update)

/-! ## What the parts of an update change -/

variable {platform : Platform Claims Evidence Edit} {evidence : Evidence}

theorem Candidate.compile_ok
    (h : Candidate.compile platform evidence participantId = .ok candidate) :
    candidate.evidence = evidence ∧ candidate.participant.participantId = participantId ∧
      candidate.participant.kind = .service ∧
      compileParticipant platform evidence participantId
        = .ok (candidate.graph, candidate.participant, candidate.digest) := by
  obtain ⟨graph, hgraph, h⟩ := bind_eq_ok.mp h
  split at h
  · cases h
  rename_i participant hfind
  obtain ⟨hkind, h⟩ := guard_eq_ok.mp h
  obtain ⟨digest, hdig, h⟩ := bind_eq_ok.mp h
  cases h
  have hid := find?_some hfind
  refine ⟨rfl, of_decide_eq_true hid, not_not.mp hkind, ?_⟩
  unfold compileParticipant PackageGraph.participant
  rw [hgraph, ok_bind, hfind]
  show (platform.participantDigest graph participant >>= _) = _
  rw [hdig]
  rfl

variable {store store' : Store Claims Evidence} {deployment : String}

theorem boundDeployment_eq_some : boundDeployment store deployment = some (d, b) ↔
      store.deployments.find? (fun row => row.deploymentId = deployment) = some d ∧
        store.bindings.find? (fun row => row.deploymentId = deployment) = some b := by
  unfold boundDeployment
  rw [bind_eq_some_iff]
  constructor
  · rintro ⟨d', hd, h⟩
    obtain ⟨b', hb, h⟩ := map_eq_some_iff.mp h
    cases h
    exact ⟨hd, hb⟩
  · rintro ⟨hd, hb⟩
    exact ⟨d, hd, by rw [hb]; rfl⟩

/-- What `installed` reads. -/
theorem installed_ok (h : installed platform store deployment = .ok current) :
    ∃ d b participant, boundDeployment store deployment = some (d, b) ∧
      revisionParticipant platform store d.participantId b.installedRevision = .ok participant ∧
      current = {
        revision := b.installedRevision
        bindingRevision := b.revision
        digest := b.implementationDigest
        title := d.title
        capabilities := b.required ++ b.optional
        resources := participant.keyedResources
        apis := providedApiIds b.providedApis
        resourceCommitments := b.resourceCommitments } := by
  unfold installed at h
  split at h
  next d b hbound =>
    obtain ⟨participant, hpart, h⟩ := bind_eq_ok.mp h
    exact ⟨d, b, participant, hbound, hpart, (pure_eq_ok.mp h).symm⟩
  · cases h

theorem selectedCapabilities_ok :
    selectedCapabilities platform store deployment revision = .ok selected ↔ ∃ d participant,
        store.deployments.find? (fun row => row.deploymentId = deployment) = some d ∧
        revisionParticipant platform store d.participantId revision = .ok participant ∧
        selected = selectedOf participant := by
  unfold selectedCapabilities
  constructor
  · intro h
    split at h
    next d hd =>
      obtain ⟨participant, hpart, h⟩ := bind_eq_ok.mp h
      exact ⟨d, participant, hd, hpart, (pure_eq_ok.mp h).symm⟩
    · cases h
  · rintro ⟨d, participant, hd, hpart, rfl⟩
    rw [hd]
    show (revisionParticipant platform store d.participantId revision >>= _) = _
    rw [hpart]
    rfl

variable {apis : List ApiId}

/-- Accepting APIs writes the catalog and the reviews only. -/
theorem acceptApis_ok (h : acceptApis platform store graph apis now = .ok store') :
    ∃ catalog reviews, store' = { store with
      policy := { store.policy with catalog }, reviews } := by
  induction apis generalizing store with
  | nil =>
    cases h
    exact ⟨_, _, rfl⟩
  | cons api rest ih =>
    obtain ⟨middle, hmiddle, h⟩ := bind_eq_ok.mp h
    unfold acceptOne at hmiddle
    simp only [bind_eq_ok, pure_eq_ok] at hmiddle
    obtain ⟨-, -, -, -, accepted, -, rfl⟩ := hmiddle
    obtain ⟨catalog, reviews, rfl⟩ := ih h
    exact ⟨catalog, reviews, rfl⟩

theorem deploymentInput_ok (h : deploymentInput store candidate resources = .ok input) :
    input.evidence = candidate.evidence ∧
      input.participantId = candidate.participant.participantId ∧
      input.resourceCommitments = resources ∧ input.expiresAt = none := by
  obtain ⟨generations, -, h⟩ := bind_eq_ok.mp h
  cases h
  exact ⟨rfl, rfl, rfl, rfl⟩

variable {changes : Changes}

theorem provideApi_apiId (h : provideApi platform catalog graph expected api = .ok implementation) :
    implementation.apiId = api := by
  unfold provideApi at h
  split at h
  · cases h
  obtain ⟨-, h⟩ := guard_eq_ok.mp h
  split at h
  · cases h
  · obtain ⟨-, h⟩ := guard_eq_ok.mp h
    cases h
    rfl

/-- A binding reads back as the APIs it was written for. -/
theorem providedApiIds_providerJson (provided : List ProviderImplementation) :
    providedApiIds (provided.map providerJson) = provided.map ProviderImplementation.apiId := by
  induction provided with
  | nil => rfl
  | cons head rest ih =>
    show head.apiId :: providedApiIds (rest.map providerJson) = _
    rw [ih, map_cons]

theorem map_apiId_provided
    (h : apis.mapM (provideApi platform catalog graph expected) = .ok provided) :
    provided.map ProviderImplementation.apiId = apis := by
  have hall := mapM_eq_ok_iff.mp h
  clear h
  induction hall with
  | nil => rfl
  | cons head _ ih => rw [map_cons, ih, provideApi_apiId head]

/-! ### Installed revisions -/

theorem find?_nextRevision (installed : List (InstalledParticipant Evidence))
    (participantId : String) : installed.find? (fun row => row.participantId = participantId ∧
      row.revision = nextRevision installed participantId) = none := by
  rw [find?_eq_none]
  intro row hrow hkey
  obtain ⟨hid, hrev⟩ := of_decide_eq_true hkey
  have hmem : row.revision ∈ (installed.filter fun row => row.participantId = participantId).map
      InstalledParticipant.revision :=
    mem_map.mpr ⟨row, mem_filter.mpr ⟨hrow, decide_eq_true hid⟩, rfl⟩
  exact absurd hrev (Nat.ne_of_lt (Nat.lt_succ_of_le (le_max_of_le' 0 hmem (Nat.le_refl _))))

theorem compileParticipant_ok :
    compileParticipant platform evidence participantId = .ok (graph, participant, digest) ↔
      platform.compileEvidence evidence = .ok graph ∧
        graph.participants.find? (fun row => row.participantId = participantId) = some participant ∧
        platform.participantDigest graph participant = .ok digest := by
  unfold compileParticipant PackageGraph.participant
  constructor
  · intro h
    obtain ⟨graph', hgraph, h⟩ := bind_eq_ok.mp h
    obtain ⟨participant', hfind, h⟩ := bind_eq_ok.mp h
    obtain ⟨digest', hdig, h⟩ := bind_eq_ok.mp h
    cases h
    split at hfind
    · cases hfind
    rename_i found hfound
    cases hfind
    exact ⟨hgraph, hfound, hdig⟩
  · rintro ⟨hgraph, hfind, hdig⟩
    rw [hgraph, ok_bind, hfind]
    show (platform.participantDigest graph participant >>= _) = _
    rw [hdig]
    rfl

theorem revisionParticipant_of_find
    (hrow : store.installed.find? (fun row => row.participantId = participantId ∧
      row.revision = revision) = some row)
    (hcomp : compileParticipant platform row.evidence participantId
      = .ok (graph, participant, digest)) :
    revisionParticipant platform store participantId revision = .ok participant := by
  obtain ⟨hgraph, hfind, -⟩ := compileParticipant_ok.mp hcomp
  unfold revisionParticipant installedEvidence
  rw [hrow, ok_bind, hgraph, ok_bind, hfind]

theorem find?_upsertRow {new row : α} (hfind : rows.find? sameKey = some row)
    (hupd : ∀ row, sameKey (update row) = true) :
    (upsertRow rows sameKey update new).find? sameKey = some (update row) := by
  have hany : rows.any sameKey = true :=
    any_eq_true.mpr ⟨row, mem_of_find?_eq_some hfind, find?_some hfind⟩
  unfold upsertRow
  rw [if_pos hany, find?_map_of_key, hfind, map_some, if_pos (find?_some hfind)]
  intro row
  split
  next h => rw [hupd, h]
  · rfl

/-! ### Consistent stores -/

/-- A deployment has one binding, which records the digest and the needs of its revision. -/
structure Consistent (platform : Platform Claims Evidence Edit) (store : Store Claims Evidence) :
    Prop where
  bindings_nodup : (store.bindings.map Binding.deploymentId).Nodup
  current : ∀ deployment d b, boundDeployment store deployment = some (d, b) →
    ∃ row, store.installed.find? (fun row => row.participantId = d.participantId ∧
        row.revision = b.installedRevision) = some row ∧
      row.participantDigest = b.implementationDigest ∧
      ∃ graph participant, compileParticipant platform row.evidence d.participantId
          = .ok (graph, participant, row.participantDigest) ∧
        participant.required = b.required ∧ participant.optional = b.optional

variable (hstore : Consistent platform store)
include hstore

/-- In a consistent store the selection of the installed revision is the binding's. -/
theorem Consistent.needs (hbound : boundDeployment store deployment = some (d, b))
    (hpart : revisionParticipant platform store d.participantId b.installedRevision
      = .ok participant) :
    participant.required = b.required ∧ participant.optional = b.optional := by
  obtain ⟨row, hrow, -, graph, participant', hcomp, hneeds⟩ := hstore.current deployment d b hbound
  rw [revisionParticipant_of_find hrow hcomp] at hpart
  cases hpart
  exact hneeds

/-! ### Reinstalling and moving -/

/-- What installing a changed build over a deployment leaves. -/
structure Reinstalls (platform : Platform Claims Evidence Edit) (store : Store Claims Evidence)
    (deployment : String) (candidate : Candidate Evidence) (changes : Changes) (now : Int)
    (store' : Store Claims Evidence) : Prop where
  accepted : ∃ accepted rows, acceptApis platform store candidate.graph changes.acceptedApis now
      = .ok accepted ∧
    grantConsumers accepted.policy.catalog candidate.participant store.instances deployment none
      store.policy.directCapabilities = .ok rows ∧
    store'.policy = { accepted.policy with directCapabilities := rows }
  instances : store'.instances = store.instances
  deployments : store'.deployments = store.deployments
  updates : store'.updates = store.updates
  revisions : store'.installed = store.installed ++ [⟨candidate.participant.participantId,
      nextRevision store.installed candidate.participant.participantId, candidate.digest,
      candidate.evidence⟩]
  binding : ∃ b, store'.bindings.find? (fun row => row.deploymentId = deployment) = some b ∧
    b.installedRevision = nextRevision store.installed candidate.participant.participantId ∧
    providedApiIds b.providedApis = candidate.participant.implements

variable {actor : String}

theorem reinstall_ok (hcand : Candidate.compile platform evidence participantId = .ok candidate)
    (hcur : installed platform store deployment = .ok current)
    (hne : candidate.digest ≠ current.digest)
    (h : reinstall platform store actor deployment candidate changes current now = .ok store') :
    Reinstalls platform store deployment candidate changes now store' := by
  unfold reinstall at h
  rw [if_neg hne] at h
  obtain ⟨accepted, hacc, h⟩ := bind_eq_ok.mp h
  obtain ⟨input, hinput, h⟩ := bind_eq_ok.mp h
  obtain ⟨⟨final, id⟩, hfinal, h⟩ := bind_eq_ok.mp h
  cases h
  obtain ⟨hev, hparticipantId, -, hexpires⟩ := deploymentInput_ok hinput
  obtain ⟨hid, plan, hplan, hins⟩ := installDeployment_ok hfinal
  obtain rfl : id = deployment := hid
  obtain ⟨d, b, participant, hbound, -, rfl⟩ := installed_ok hcur
  obtain ⟨-, hb⟩ := boundDeployment_eq_some.mp hbound
  obtain ⟨rfl, rfl, -, hcomp⟩ := Candidate.compile_ok hcand
  -- the installation compiles the candidate's own evidence
  obtain ⟨graph, hcomp', hprovided⟩ := checkInstallation_ok hplan
  rw [hev, hparticipantId, hcomp] at hcomp'
  obtain ⟨rfl, hplanned⟩ := Prod.mk.inj (Except.ok.inj hcomp')
  obtain ⟨hplanned, hdig⟩ := Prod.mk.inj hplanned
  obtain ⟨catalog, reviews, rfl⟩ := acceptApis_ok hacc
  -- a deployment runs the digest of its binding and no other
  have hunchanged : unchangedRevision store.bindings (some id) plan.digest = none := by
    refine map_eq_none_iff.mpr (find?_eq_none.mpr fun row hrow hkey => ?_)
    obtain ⟨hid, hrow'⟩ := of_decide_eq_true hkey
    have hsame : row = b := eq_of_find? hstore.bindings_nodup hb hrow hid
    exact hne (hdig ▸ hsame ▸ hrow').symm
  obtain ⟨revision, hrev, hbinds, hinst⟩ := hins.binding
  rw [hunchanged, hparticipantId] at hrev
  rw [hunchanged, hparticipantId, hev, ← hdig, hrev] at hinst
  obtain ⟨rows, hrows, hpolicy⟩ := hins.grants
  obtain ⟨new, hdeps, hnew, -⟩ := hins.deployments
  refine ⟨⟨_, rows, hacc, ?_, hpolicy⟩, hins.instances, ?_, hins.updates, hinst, ?_⟩
  · rw [hplanned, ← hexpires]
    exact hrows
  · rw [hdeps, hnew rfl, append_nil]
  · rw [hbinds]
    refine ⟨_, find?_upsertRow hb (fun row => decide_eq_true rfl), hrev, ?_⟩
    rw [providedApiIds_providerJson, map_apiId_provided hprovided, hplanned]

variable {principal : String}

omit hstore

theorem addGrants_ok {next : List CapabilityId}
    (h : addGrants catalog principal expiresAt previous next rows = .ok rows') :
    ∃ authorities : List CapabilityAuthority,
      (∀ authority ∈ authorities, authority.capabilityId ∈ next ∧
        authority.capabilityId ∉ previous) ∧
      rows' = insertGrants (authorities.map fun authority => (principal, authority)) expiresAt
        rows := by
  obtain ⟨authorities, hauths, h⟩ := bind_eq_ok.mp h
  refine ⟨authorities, ?_, (pure_eq_ok.mp h).symm⟩
  intro authority hmem
  obtain ⟨id, hid, hcap⟩ := exists_of_mem_mapM hauths hmem
  rw [capability_capabilityId hcap]
  obtain ⟨hnext, hprev⟩ := mem_filter.mp hid
  exact ⟨hnext, of_decide_eq_true hprev⟩

variable (h : moveInstance platform store deployment instanceId revision = .ok store')
include h in
/-- Moving an instance: nothing when it runs the revision, else withdrawals and additions. -/
theorem moveInstance_ok :
    ∃ i, store.instances.find? (fun row => row.instanceId = instanceId) = some i ∧
      ((i.installedRevision = revision ∧ store' = store) ∨
        (i.installedRevision ≠ revision ∧ ∃ previous next, ∃ d : Deployment, ∃ rows,
          selectedCapabilities platform store deployment i.installedRevision = .ok previous ∧
          selectedCapabilities platform store deployment revision = .ok next ∧
          addGrants store.policy.catalog i.principalId d.expiresAt previous next
            (withdrawGrants store.policy.directCapabilities i.principalId previous next)
            = .ok rows ∧
          store' = { store with
            policy := { store.policy with directCapabilities := rows }
            instances := store.instances.map fun row =>
              if row.instanceId = instanceId then { row with installedRevision := revision }
              else row })) := by
  unfold moveInstance at h
  split at h
  next i hi =>
    refine ⟨i, hi, ?_⟩
    split at h
    next hsame => exact .inl ⟨hsame, (Except.ok.inj h).symm⟩
    rename_i hne
    obtain ⟨previous, hprev, h⟩ := bind_eq_ok.mp h
    obtain ⟨next, hnext, h⟩ := bind_eq_ok.mp h
    split at h
    next d hd =>
      obtain ⟨rows, hrows, h⟩ := bind_eq_ok.mp h
      exact .inr ⟨hne, previous, next, d, rows, hprev, hnext, hrows, (pure_eq_ok.mp h).symm⟩
    · cases h
  · cases h

variable {updateId : String} {row : DirectCapability}

theorem readUpdate_ok : readUpdate store updateId = .ok update ↔
      store.updates.find? (fun row => row.updateId = updateId) = some update := by
  unfold readUpdate
  constructor
  · intro h
    split at h
    · cases h
    next found hfound => rw [hfound, Except.ok.inj h]
  · intro h
    rw [h]

/-- The stages of an applied update. -/
theorem applyUpdate_ok
    (h : applyUpdate platform store actor updateId candidate changes current now = .ok store') :
    ∃ update reinstalled after moved, readUpdate store updateId = .ok update ∧
      reinstall platform store actor update.deploymentId candidate changes current now
        = .ok reinstalled ∧
      installed platform reinstalled update.deploymentId = .ok after ∧
      moveInstance platform reinstalled update.deploymentId update.instanceId after.revision
        = .ok moved ∧
      store' = settleUpdate moved updateId .applied := by
  obtain ⟨update, hupd, h⟩ := bind_eq_ok.mp h
  obtain ⟨reinstalled, hreinstalled, h⟩ := bind_eq_ok.mp h
  obtain ⟨after, hafter, h⟩ := bind_eq_ok.mp h
  obtain ⟨moved, hmoved, h⟩ := bind_eq_ok.mp h
  exact ⟨update, reinstalled, after, moved, hupd, hreinstalled, hafter, hmoved,
    (pure_eq_ok.mp h).symm⟩

variable (hdeps : store'.deployments = store.deployments)
include hdeps

/-- `installed` reads the deployments, the bindings and the revisions only. -/
theorem installed_congr
    (hbinds : store'.bindings = store.bindings) (hinst : store'.installed = store.installed)
    (deployment : String) :
    installed platform store' deployment = installed platform store deployment := by
  unfold installed boundDeployment revisionParticipant
  rw [hdeps, hbinds, hinst]

omit hdeps

theorem recordUpdate_ok (h : recordUpdate store update = .ok store') :
    ∃ updates, store' = { store with updates } ∧
      updates.find? (fun row => row.updateId = update.updateId) = some update := by
  obtain ⟨updates, hups, h⟩ := bind_eq_ok.mp h
  refine ⟨updates, (pure_eq_ok.mp h).symm, ?_⟩
  obtain ⟨hfresh, hinsert⟩ := guard_eq_ok.mp hups
  cases hinsert
  rw [find?_append, find?_eq_none.mpr, none_or, find?_cons_of_pos (by simp)]
  intro row hrow hid
  exact hfresh (any_eq_true.mpr ⟨row, hrow, hid⟩)

/-- A submission waits, or goes through `apply` without needing approval. -/
theorem submit_ok
    (h : submit platform store principal submitted evidence updateId now = .ok (store', update)) :
    (update.state = .pending ∧ (store' = store ∨ recordUpdate store update = .ok store' ∧
      ((∃ claim ∈ store.claims, claim.claimId = update.deploymentId) ∨ ∃ d,
        store.deployments.find? (fun row => row.deploymentId = update.deploymentId) = some d ∧
        update.participantId = d.participantId))) ∨
    ∃ i, ∃ d : Deployment, ∃ candidate current changes recorded,
      submittingInstance store principal = .ok i ∧
      store.deployments.find? (fun row => row.deploymentId = i.deploymentId) = some d ∧
      Candidate.compile platform evidence d.participantId = .ok candidate ∧
      installed platform store i.deploymentId = .ok current ∧
      submittedChanges platform store i.deploymentId current candidate = .ok changes ∧
      requestsAccess changes = false ∧
      recordUpdate store ⟨updateId, i.deploymentId, i.instanceId,
        candidate.participant.participantId, candidate.digest, candidate.evidence,
        current.bindingRevision, .pending, 1⟩ = .ok recorded ∧
      applyUpdate platform recorded principal updateId candidate changes current now = .ok store' ∧
      readUpdate store' updateId = .ok update := by
  unfold submit at h
  split at h
  next claim hclaim =>
    obtain ⟨candidate, -, h⟩ := bind_eq_ok.mp h
    split at h
    next pending hpend =>
      cases h
      exact .inl ⟨(of_find? hpend).2.2, .inl rfl⟩
    · obtain ⟨-, -, h⟩ := bind_eq_ok.mp h
      obtain ⟨recorded, hrecd, h⟩ := bind_eq_ok.mp h
      cases h
      exact .inl ⟨rfl, .inr ⟨hrecd, .inl ⟨claim,
        mem_of_find?_eq_some (filter_eq_some_iff.mp hclaim).1, rfl⟩⟩⟩
  · obtain ⟨i, hi, h⟩ := bind_eq_ok.mp h
    split at h
    rotate_left
    · cases h
    rename_i d hd
    obtain ⟨-, h⟩ := guard_eq_ok.mp h
    obtain ⟨candidate, hcand, h⟩ := bind_eq_ok.mp h
    split at h
    rotate_left
    · cases h
    obtain ⟨-, h⟩ := guard_eq_ok.mp h
    obtain ⟨current, hcur, h⟩ := bind_eq_ok.mp h
    split at h
    next pending hpend =>
      cases h
      exact .inl ⟨(of_find? hpend).2.2.1, .inl rfl⟩
    · obtain ⟨changes, hchanges, h⟩ := bind_eq_ok.mp h
      obtain ⟨recorded, hrecd, h⟩ := bind_eq_ok.mp h
      split at h
      · obtain ⟨found, hfound, h⟩ := bind_eq_ok.mp h
        cases h
        obtain ⟨updates, rfl, hups⟩ := recordUpdate_ok hrecd
        rw [readUpdate_ok.mp hfound] at hups
        cases hups
        exact .inl ⟨rfl, .inr ⟨hrecd, .inr ⟨d, hd, (Candidate.compile_ok hcand).2.1⟩⟩⟩
      next happr =>
        obtain ⟨final, hfinal, h⟩ := bind_eq_ok.mp h
        obtain ⟨found, hfound, h⟩ := bind_eq_ok.mp h
        cases h
        have hreqs : requestsAccess changes = false :=
          (Bool.or_eq_false_iff.mp (Bool.eq_false_iff.mpr happr)).1
        exact .inr ⟨i, d, candidate, current, changes, recorded, hi, hd, hcand, hcur, hchanges,
          hreqs, hrecd, hfinal, hfound⟩

include hstore hdeps in
theorem Consistent.congr (hbinds : store'.bindings = store.bindings)
    (hinst : store'.installed = store.installed) : Consistent platform store' where
  bindings_nodup := hbinds ▸ hstore.bindings_nodup
  current := by
    intro deployment d b hbound
    rw [hinst]
    apply hstore.current deployment d b
    unfold boundDeployment at hbound
    rwa [hdeps, hbinds] at hbound

theorem mem_withdrawGrants {next : List CapabilityId}
    (h : row ∈ withdrawGrants rows principal previous next) : row ∈ rows :=
  (mem_filter.mp h).1

include h

/-- Moving an instance grants only what the revision it moves to selects. -/
theorem mem_moveInstance (hrow : row ∈ store'.policy.directCapabilities) :
    row ∈ store.policy.directCapabilities ∨
      ∃ next, selectedCapabilities platform store deployment revision = .ok next ∧
        row.capabilityId ∈ next := by
  obtain ⟨i, -, ⟨-, rfl⟩ | ⟨-, previous, next, d, rows, -, hnext, hrows, rfl⟩⟩ := moveInstance_ok h
  · exact .inl hrow
  · obtain ⟨authorities, hauths, rfl⟩ := addGrants_ok hrows
    rcases mem_insertGrants hrow with hrow | ⟨grant, hgrant, -, hid, -⟩
    · exact .inl (mem_withdrawGrants hrow)
    · obtain ⟨authority, hauth, rfl⟩ := mem_map.mp hgrant
      exact .inr ⟨next, hnext, hid ▸ (hauths authority hauth).1⟩

/-- What moving an instance keeps. -/
theorem moveInstance_frame :
    store'.deployments = store.deployments ∧ store'.bindings = store.bindings ∧
      store'.installed = store.installed ∧ store'.updates = store.updates := by
  obtain ⟨i, -, ⟨-, rfl⟩ | ⟨-, previous, next, d, rows, -, -, -, rfl⟩⟩ := moveInstance_ok h
  · exact ⟨rfl, rfl, rfl, rfl⟩
  · exact ⟨rfl, rfl, rfl, rfl⟩

omit h

theorem readUpdate_settleUpdate (h : readUpdate store updateId = .ok update) (state : UpdateState) :
    readUpdate (settleUpdate store updateId state) updateId
      = .ok { update with state, revision := update.revision + 1 } := by
  have hfind := readUpdate_ok.mp h
  have hkey := find?_some hfind
  rw [readUpdate_ok]
  unfold settleUpdate
  rw [find?_map_of_key, hfind, map_some, if_pos (of_decide_eq_true hkey)]
  intro row
  split <;> rfl

theorem readUpdate_congr (h : store'.updates = store.updates) :
    readUpdate store' updateId = readUpdate store updateId := by
  unfold readUpdate
  rw [h]

theorem reinstall_updates
    (h : reinstall platform store actor deployment candidate changes current now = .ok store') :
    store'.updates = store.updates := by
  unfold reinstall at h
  split at h
  · rw [Except.ok.inj h]
  obtain ⟨accepted, hacc, h⟩ := bind_eq_ok.mp h
  obtain ⟨input, -, h⟩ := bind_eq_ok.mp h
  obtain ⟨⟨final, id⟩, hfinal, h⟩ := bind_eq_ok.mp h
  cases h
  obtain ⟨catalog, reviews, rfl⟩ := acceptApis_ok hacc
  obtain ⟨-, plan, -, hins⟩ := installDeployment_ok hfinal
  exact hins.updates

/-- The update an application writes is the one it read. -/
theorem applyUpdate_update
    (h : applyUpdate platform store actor updateId candidate changes current now = .ok store')
    (hupd : readUpdate store updateId = .ok update) : readUpdate store' updateId
      = .ok { update with state := .applied, revision := update.revision + 1 } := by
  obtain ⟨row, reinstalled, after, moved, hrow, hrein, -, hmoved, rfl⟩ := applyUpdate_ok h
  refine readUpdate_settleUpdate ?_ .applied
  rw [readUpdate_congr (moveInstance_frame hmoved).2.2.2,
    readUpdate_congr (reinstall_updates hrein), hupd]

/-- What `installed` reads after a changed build is installed is the build. -/
theorem Reinstalls.installed_after {after : Installed}
    (h : Reinstalls platform store deployment candidate changes now store')
    (hd : store.deployments.find? (fun row => row.deploymentId = deployment) = some d)
    (hcand : Candidate.compile platform evidence d.participantId = .ok candidate)
    (hafter : installed platform store' deployment = .ok after) :
    after.revision = nextRevision store.installed d.participantId ∧
      after.apis = candidate.participant.implements ∧
      after.resources = candidate.participant.keyedResources ∧
      selectedCapabilities platform store' deployment after.revision
        = .ok (selectedOf candidate.participant) := by
  obtain ⟨d', b', participant, hbound, hpart, rfl⟩ := installed_ok hafter
  obtain ⟨hd', hb'⟩ := boundDeployment_eq_some.mp hbound
  obtain ⟨b, hb, hrev, hapis⟩ := h.binding
  cases hb'.symm.trans hb
  rw [h.deployments] at hd'
  obtain rfl := some.inj (hd'.symm.trans hd)
  obtain ⟨hev, hid, -, hcomp⟩ := Candidate.compile_ok hcand
  have hinst := h.revisions
  rw [hid, hev] at hinst
  rw [hid] at hrev
  have hnew : revisionParticipant platform store' d'.participantId
      (nextRevision store.installed d'.participantId) = .ok candidate.participant := by
    apply revisionParticipant_of_find
    · rw [hinst, find?_append, find?_nextRevision, find?_cons_of_pos (by simp), none_or]
    · exact hcomp
  rw [hrev, hnew] at hpart
  cases hpart
  refine ⟨hrev, hapis, rfl, selectedCapabilities_ok.mpr ⟨d', _, ?_, ?_, rfl⟩⟩
  · rw [h.deployments]
    exact hd
  · rw [← hnew]
    exact congrArg _ hrev

/-- A changed build that requests no access grants nothing its predecessor did not select. -/
theorem Reinstalls.mem_grants
    (h : Reinstalls platform store deployment candidate changes now store')
    (hrow : row ∈ store'.policy.directCapabilities) : row ∈ store.policy.directCapabilities ∨
      row.capabilityId ∈ selectedOf candidate.participant := by
  obtain ⟨accepted, rows, -, hrows, hpolicy⟩ := h.accepted
  rw [hpolicy] at hrow
  rcases grantConsumers_ok hrows with ⟨-, rfl⟩ | ⟨⟨-, hcons⟩, authority, hauth, rfl⟩
  · exact .inl hrow
  rcases mem_insertGrants hrow with hrow | ⟨grant, hgrant, -, hid, -⟩
  · exact .inl hrow
  obtain ⟨principal, -, rfl⟩ := mem_map.mp hgrant
  rw [capability_capabilityId hauth] at hid
  refine .inr (mem_append_right _ ?_)
  unfold impliedCapabilities
  rw [hid, hcons]
  simp

/-! ## A clock service -/

def clockCatalog : Environment (PolicyTables Unit × List Binding) Unit where
  apiDigest := fun _ => ""
  compareImplementation := fun _ _ => true
  builtinApiDigest := fun _ => none
  policySnapshot := fun _ _ _ => ""
  applyPolicy := fun policy _ => .ok policy

/-- Evidence is the participant itself; its digest spells the capabilities it needs. -/
def clockPlatform : Platform Unit Participant Unit where
  library := noClaims
  catalog := clockCatalog
  compileEvidence := fun participant => .ok ⟨[participant], fun _ => none⟩
  participantDigest := fun _ participant =>
    .ok (String.join ((participant.required ++ participant.optional).map CapabilityId.name))
  identityKeyId := .ok
  isBlank := fun text => text = ""

/-- A service that consumes one event and may need capabilities. -/
def clock (optional : List CapabilityId) : Participant where
  participantId := "acme.clock"
  kind := .service
  implements := []
  uses := []
  required := []
  optional := optional
  resources := [("ticks", ⟨false, .consumer [("acme.times@v1", "Tick")]⟩)]
  resources_nodup := nodup_singleton _

def readTimes : CapabilityId := ⟨"acme.times@v1", "times.read"⟩

/-- Two instances of the clock on its first revision, with the given grants. -/
def clockStore (grants : List DirectCapability) : Store Unit Participant where
  policy := {
    catalog := { Tables.empty with
      identities := [⟨consumerRuntimeCapability, 1, 1, true, .capability⟩,
        ⟨readTimes, 1, 1, true, .capability⟩] }
    principals := [⟨"first", .service, .active, 1⟩, ⟨"second", .service, .active, 1⟩]
    directCapabilities := grants }
  deployments := [⟨"clocks", "Clocks", "acme.clock", .service, .active, none⟩]
  bindings := [⟨"clocks", 1, "times.read", [], [], [readTimes], {}, 1⟩]
  installed := [⟨"acme.clock", 1, "times.read", clock [readTimes]⟩]
  instances := [⟨"one", "clocks", "first", 1, .active⟩, ⟨"two", "clocks", "second", 1, .active⟩]

theorem clockStore_consistent (grants : List DirectCapability) :
    Consistent clockPlatform (clockStore grants) where
  bindings_nodup := nodup_singleton _
  current := by
    intro deployment d b hbound
    obtain ⟨hd, hb⟩ := boundDeployment_eq_some.mp hbound
    obtain rfl := mem_singleton.mp (mem_of_find?_eq_some hd)
    obtain rfl := mem_singleton.mp (mem_of_find?_eq_some hb)
    exact ⟨_, rfl, rfl, _, _, rfl, rfl, rfl⟩

end Deployments
