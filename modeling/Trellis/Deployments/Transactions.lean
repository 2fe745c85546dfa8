/-
# Transactions on the deployment tables

The requests that change the deployment tables, and the writes each is made of: an installation, a
provisioned instance, an instance that moves, a lifecycle change, and the bookkeeping of updates
and claims.  What every write keeps, every run of transactions keeps.

The first such property is that the tables agree (`Sound`): a binding records the digest and the
needs of the revision it names, and IDs name one row.  It rests on faithful participant digests
and on drawn IDs being new.
-/
import Trellis.Auth.CatalogHistory
import Trellis.Deployments.Revocation

open Catalog Auth

namespace Deployments

open List Checked

variable {Claims Evidence Edit : Type}

/-! ## Requests of administrators -/

variable (platform : Platform Claims Evidence Edit) (store : Store Claims Evidence)

variable (evidence : Evidence) (participantId : String)

/-- `accept_provided_apis`: accept what is provided and not held at that definition. -/
def acceptProvidedApis (now : Int) : Except AuthError (Store Claims Evidence) := do
  let graph ← platform.compileEvidence evidence
  let participant ← graph.participant participantId
  let apis ← apisToAccept platform store.policy.catalog graph participant
  acceptApis platform store graph apis now

/-- `deployment_input`, for evidence that is still to be compiled. -/
def compiledInput (resources : ResourceBindings) :
    Except AuthError (Participant × DeploymentProvisioning Evidence) := do
  let (graph, participant, digest) ← compileParticipant platform evidence participantId
  let input ← deploymentInput store ⟨evidence, graph, participant, digest⟩ resources
  return (participant, input)

/-- `create_deployment`. -/
def createDeployment (actor : String) (evidence : Evidence) (participantId : String)
    (kind : ParticipantKind)
    (title : String) (acknowledged : Option Bool) (fresh : String) (now : Int) :
    Except AuthError (Store Claims Evidence × String) := do
  requireAdministration platform.library store.policy actor .managePrincipals now
  let accepted ← acceptProvidedApis platform store evidence participantId now
  let (participant, input) ← compiledInput platform accepted evidence participantId {}
  if participant.kind ≠ kind then .error (.invalid "participant kind mismatch")
  requireSharingAcknowledged
    (sharedApisOf accepted "" (input.expectedApiGenerations.map Prod.fst)) acknowledged
  installDeployment platform accepted actor input none title fresh now

variable (actor : String)

/-- `apply_deployment`: install another build over a deployment. -/
def applyDeployment (deployment : String) (expectedRevision : Nat) (evidence : Evidence)
    (acknowledged : Option Bool) (now : Int) :
    Except AuthError (Store Claims Evidence × String) := do
  requireAdministration platform.library store.policy actor .managePrincipals now
  let some (d, b) := boundDeployment store deployment
    | .error .notFound
  if b.revision ≠ expectedRevision ∨ d.state = .revoked then .error .conflict
  let accepted ← acceptProvidedApis platform store evidence d.participantId now
  let (_, input) ← compiledInput platform accepted evidence d.participantId b.resourceCommitments
  requireSharingAcknowledged
    (sharedApisOf accepted deployment ((input.expectedApiGenerations.map Prod.fst).filter
      fun api => api ∉ providedApiIds b.providedApis)) acknowledged
  installDeployment platform accepted actor input (some deployment) d.title deployment now

/-- `provision_deployment`: a deployment with its first instance. -/
def provisionDeployment (input : DeploymentProvisioning Evidence) (publicKey title : String)
    (fresh : FreshIds) (now : Int) : Except AuthError (Store Claims Evidence) := do
  requireAdministration platform.library store.policy actor .managePrincipals now
  let (installed, deployment) ← installDeployment platform store actor input none title
    fresh.deploymentId now
  provisionInstance platform installed deployment (some publicKey) title fresh.principalId
    fresh.instanceId now

/-- The state of one instance. -/
def setInstanceState (instanceId : String) (state : InstanceState) : Store Claims Evidence :=
  { store with
    instances := store.instances.map fun row =>
      if row.instanceId = instanceId ∧ row.state ≠ .revoked then { row with state } else row
    identities := store.identities.map fun row =>
      if state = .revoked ∧ row.instanceId = instanceId then { row with active := false }
      else row }

/-- `create_claim`: a principal that may only submit itself, and its place. -/
def createClaim (publicKey title instanceTitle claimId principalId : String) (now : Int) :
    Except AuthError (Store Claims Evidence) := do
  requireAdministration platform.library store.policy actor .managePrincipals now
  let key ← platform.identityKeyId publicKey
  if (store.identities.any fun row => row.identityKeyId = key) ∨
      store.claims.any fun row => platform.identityKeyId row.publicKey = .ok key then
    .error .conflict
  let principals ← insertUnique store.policy.principals (fun row => row.principalId = principalId)
    ⟨principalId, .service, .active, 1⟩
  let authority ← capability store.policy.catalog serviceUpdateCapability
  let directCapabilities ← insertNewGrant principalId none store.policy.directCapabilities authority
  let claims ← insertUnique store.claims (fun row => row.claimId = claimId)
    ⟨claimId, principalId, publicKey, title, instanceTitle, none, .waiting⟩
  return { store with
    policy := { store.policy with principals, directCapabilities }
    claims }

/-- `remove_claim`: turn a waiting service away and reject what it submitted. -/
def removeClaim (claim : String) (now : Int) : Except AuthError (Store Claims Evidence) := do
  requireAdministration platform.library store.policy actor .managePrincipals now
  let some row := store.claims.find? fun row => row.claimId = claim
    | .error .notFound
  if row.state ≠ .waiting then .error .conflict
  return { store with
    policy := { store.policy with
      principals := store.policy.principals.map fun p =>
        if p.principalId = row.principalId then
          { p with state := .revoked, version := p.version + 1 }
        else p }
    claims := store.claims.map fun row =>
      if row.claimId = claim then { row with state := .removed } else row
    updates := store.updates.map fun update =>
      if update.deploymentId = claim ∧ update.state = .pending then
        { update with state := .rejected, revision := update.revision + 1 }
      else update }

/-- Drawn IDs name nothing yet. -/
def Unused (id : String) : Prop :=
  (∀ row ∈ store.deployments, row.deploymentId ≠ id) ∧ (∀ row ∈ store.claims, row.claimId ≠ id) ∧
    ∀ row ∈ store.updates, row.deploymentId ≠ id

/-- The transactions.  Policy edits of an acceptance are the policy mutations that follow it. -/
inductive Transaction (platform : Platform Claims Evidence Edit) :
    Store Claims Evidence → Store Claims Evidence → Prop
  | policy {store mutation now changed}
      (h : applyPolicy platform.library store.policy mutation now = .ok changed) :
      Transaction platform store { store with policy := changed.1 }
  | review {store definition api now changed} (h : reviewApi platform.catalog
        ⟨store.policy.catalog, store.reviews, (store.policy, store.bindings)⟩ definition api now
        = .ok changed) :
      Transaction platform store { store with reviews := changed.1.reviews }
  | accept {store acceptance now changed} (hedits : acceptance.policyEdits = [])
      (h : acceptApi platform.catalog
        ⟨store.policy.catalog, store.reviews, (store.policy, store.bindings)⟩ acceptance now
        = .ok changed) :
      Transaction platform store { store with
        policy := { store.policy with catalog := changed.1.tables }, reviews := changed.1.reviews }
  | create {store actor evidence participantId kind title acknowledged fresh now changed}
      (hfresh : Unused store fresh)
      (h : createDeployment platform store actor evidence participantId kind title acknowledged
        fresh now = .ok changed) :
      Transaction platform store changed.1
  | apply {store actor deployment expectedRevision evidence acknowledged now changed}
      (h : applyDeployment platform store actor deployment expectedRevision evidence acknowledged
        now = .ok changed) :
      Transaction platform store changed.1
  | provisionDeployment {store actor input publicKey title fresh now store'}
      (hfresh : Unused store fresh.deploymentId) (hcommitments : input.resourceCommitments = {})
      (h : provisionDeployment platform store actor input publicKey title fresh now = .ok store') :
      Transaction platform store store'
  | provision {store deployment publicKey title principalId instanceId now store'}
      (h : provisionInstance platform store deployment publicKey title principalId instanceId now
        = .ok store') :
      Transaction platform store store'
  | lifecycle {store actor deployment expectedRevision state now store'}
      (h : changeDeployment platform store actor deployment expectedRevision state now
        = .ok store') :
      Transaction platform store store'
  | instanceState {store instanceId state} :
      Transaction platform store (setInstanceState store instanceId state)
  | submit {store principal submitted evidence updateId now changed}
      (h : submit platform store principal submitted evidence updateId now = .ok changed) :
      Transaction platform store changed.1
  | decide {store actor updateId expectedRevision decision acknowledged fresh now changed}
      (hfresh : Unused store fresh.deploymentId)
      (h : decideServiceUpdate platform store actor updateId expectedRevision decision acknowledged
        fresh now = .ok changed) :
      Transaction platform store changed.1
  | createClaim {store actor publicKey title instanceTitle claimId principalId now store'}
      (hfresh : Unused store claimId)
      (h : createClaim platform store actor publicKey title instanceTitle claimId principalId now
        = .ok store') :
      Transaction platform store store'
  | removeClaim {store actor claim now store'}
      (h : removeClaim platform store actor claim now = .ok store') :
      Transaction platform store store'

/-! ## Writes -/

/-- What callers install: a new ID and no bindings, or over a deployment with the bindings it has.
-/
structure Admitted (store : Store Claims Evidence) (input : DeploymentProvisioning Evidence)
    (existing : Option String) (fresh : String) : Prop where
  new : existing = none → Unused store fresh ∧ input.resourceCommitments = {}
  onto : ∀ deployment, existing = some deployment →
    ∃ d b, boundDeployment store deployment = some (d, b) ∧
      input.participantId = d.participantId ∧ input.resourceCommitments = b.resourceCommitments

/-- What a transaction is made of. -/
inductive Write (platform : Platform Claims Evidence Edit) :
    Store Claims Evidence → Store Claims Evidence → Prop
  | policy {store mutation now changed}
      (h : applyPolicy platform.library store.policy mutation now = .ok changed) :
      Write platform store { store with policy := changed.1 }
  | review {store definition api now changed} (h : reviewApi platform.catalog
        ⟨store.policy.catalog, store.reviews, (store.policy, store.bindings)⟩ definition api now
        = .ok changed) :
      Write platform store { store with reviews := changed.1.reviews }
  | accept {store acceptance now changed} (hedits : acceptance.policyEdits = [])
      (h : acceptApi platform.catalog
        ⟨store.policy.catalog, store.reviews, (store.policy, store.bindings)⟩ acceptance now
        = .ok changed) :
      Write platform store { store with
        policy := { store.policy with catalog := changed.1.tables }, reviews := changed.1.reviews }
  | install {store actor input existing title fresh now changed}
      (hadmitted : Admitted store input existing fresh)
      (h : installDeployment platform store actor input existing title fresh now = .ok changed) :
      Write platform store changed.1
  | provision {store deployment publicKey title principalId instanceId now store'}
      (h : provisionInstance platform store deployment publicKey title principalId instanceId now
        = .ok store') :
      Write platform store store'
  | move {store deployment instanceId revision store'}
      (h : moveInstance platform store deployment instanceId revision = .ok store') :
      Write platform store store'
  | lifecycle {store actor deployment expectedRevision state now store'}
      (h : changeDeployment platform store actor deployment expectedRevision state now
        = .ok store') :
      Write platform store store'
  | instanceState {store instanceId state} :
      Write platform store (setInstanceState store instanceId state)
  | updates {store updates} (hids : (store.updates.map ServiceUpdate.updateId).Nodup →
        (updates.map ServiceUpdate.updateId).Nodup)
      (h : ∀ u ∈ updates, (∃ v ∈ store.updates, v.deploymentId = u.deploymentId ∧
          v.participantId = u.participantId) ∨
        ∀ d ∈ store.deployments, d.deploymentId = u.deploymentId →
          u.participantId = d.participantId) :
      Write platform store { store with updates }
  | createClaim {store actor publicKey title instanceTitle claimId principalId now store'}
      (hfresh : Unused store claimId)
      (h : createClaim platform store actor publicKey title instanceTitle claimId principalId now
        = .ok store') :
      Write platform store store'
  | closeClaim {store principals claims} (hprincipals : principals.map Principal.principalId
        = store.policy.principals.map Principal.principalId)
      (hclaims : claims.map ServiceClaim.claimId = store.claims.map ServiceClaim.claimId) :
      Write platform store { store with policy := { store.policy with principals }, claims }

/-! ## Sound stores -/

/-- Participant digests are faithful: equal digests mean equal needs and declarations. -/
def DigestFaithful : Prop :=
  ∀ graph graph' participant participant' digest,
    platform.participantDigest graph participant = .ok digest →
    platform.participantDigest graph' participant' = .ok digest →
    participant.required = participant'.required ∧ participant.optional = participant'.optional ∧
      participant.resources = participant'.resources

/-- The deployment tables agree with each other. -/
structure Sound (platform : Platform Claims Evidence Edit) (store : Store Claims Evidence) :
    Prop where
  consistent : Consistent platform store
  keyed : Keyed store
  deployments_nodup : (store.deployments.map Deployment.deploymentId).Nodup
  updates_nodup : (store.updates.map ServiceUpdate.updateId).Nodup
  bound : ∀ b ∈ store.bindings, ∃ d ∈ store.deployments, d.deploymentId = b.deploymentId
  claim : ∀ c ∈ store.claims, ∀ d ∈ store.deployments, d.deploymentId ≠ c.claimId

/-- A store before anything is deployed. -/
def Store.initial (policy : PolicyTables Claims) : Store Claims Evidence := { policy }

theorem Sound.initial (policy : PolicyTables Claims) : Sound platform (Store.initial policy) where
  consistent := ⟨nodup_nil, fun _ _ _ hbound => nomatch hbound⟩
  keyed := ⟨nodup_nil, nodup_nil, (fun _ hi => absurd hi not_mem_nil),
    (fun _ hi => absurd hi not_mem_nil), fun _ hu => absurd hu not_mem_nil⟩
  deployments_nodup := nodup_nil
  updates_nodup := nodup_nil
  bound := fun _ hb => absurd hb not_mem_nil
  claim := fun _ hc => absurd hc not_mem_nil

/-- What the tables' keys say of an instance. -/
def Instance.key (i : Instance) : String × String × String :=
  (i.instanceId, i.principalId, i.deploymentId)

variable {store store' : Store Claims Evidence}

/-- Instances with the same keys are keyed alike. -/
theorem Keyed.of_keys (hkeys : Keyed store)
    (hinsts : store'.instances.map Instance.key = store.instances.map Instance.key)
    (hprins : ∀ p ∈ store.policy.principals, ∃ q ∈ store'.policy.principals,
      q.principalId = p.principalId)
    (hdeps : store'.deployments.map (fun d => (d.deploymentId, d.participantId))
      = store.deployments.map fun d => (d.deploymentId, d.participantId))
    (hups : store'.updates = store.updates) : Keyed store' := by
  have hids :
      store'.instances.map Instance.instanceId = store.instances.map Instance.instanceId := by
    have h := congrArg (List.map Prod.fst) hinsts
    rwa [map_map, map_map] at h
  have hprincipalIds :
      store'.instances.map Instance.principalId = store.instances.map Instance.principalId := by
    have h := congrArg (List.map fun key : String × String × String => key.2.1) hinsts
    rwa [map_map, map_map] at h
  refine ⟨hids ▸ hkeys.instanceIds_nodup, hprincipalIds ▸ hkeys.principalIds_nodup, ?_, ?_, ?_⟩
  · intro i hi
    obtain ⟨j, hj, hkey⟩ := exists_of_map_eq hinsts hi
    obtain ⟨p, hp, hpid⟩ := hkeys.principal j hj
    obtain ⟨q, hq, hqid⟩ := hprins p hp
    exact ⟨q, hq, hqid.trans (hpid.trans (congrArg (fun key => key.2.1) hkey))⟩
  · intro i hi
    obtain ⟨j, hj, hkey⟩ := exists_of_map_eq hinsts hi
    obtain ⟨e, he, heid⟩ := hkeys.deployment j hj
    obtain ⟨d, hd, hdid⟩ := exists_of_map_eq hdeps.symm he
    exact ⟨d, hd, (Prod.mk.inj hdid).1.trans (heid.trans (congrArg (fun key => key.2.2) hkey))⟩
  · intro u hu d hd hid
    obtain ⟨e, he, heid⟩ := exists_of_map_eq hdeps hd
    obtain ⟨heid, heparticipant⟩ := Prod.mk.inj heid
    rw [hups] at hu
    exact (hkeys.update u hu e he (heid.trans hid)).trans heparticipant

/-! ### Installing -/

theorem mem_putBinding (h : b ∈ putBinding bindings binding) :
    (b ∈ bindings ∧ b.deploymentId ≠ binding.deploymentId) ∨
      ∃ revision, b = { binding with revision } := by
  unfold putBinding upsertRow at h
  split at h
  · obtain ⟨row, hrow, rfl⟩ := mem_map.mp h
    by_cases hid : row.deploymentId = binding.deploymentId
    · rw [if_pos (decide_eq_true hid)]
      exact .inr ⟨_, rfl⟩
    · rw [if_neg (by simpa using hid)]
      exact .inl ⟨hrow, hid⟩
  next hnone =>
    rcases mem_append.mp h with h | h
    · refine .inl ⟨h, fun hid => hnone ?_⟩
      exact any_eq_true.mpr ⟨b, h, decide_eq_true hid⟩
    · exact .inr ⟨binding.revision, mem_singleton.mp h⟩

theorem find?_putBinding_of_ne (hne : deployment ≠ binding.deploymentId) :
    (putBinding bindings binding).find? (fun row => row.deploymentId = deployment)
      = bindings.find? fun row => row.deploymentId = deployment := by
  unfold putBinding upsertRow
  split
  · apply find?_map_of_skipped <;> grind
  · rw [find?_append, find?_cons_of_neg (by simpa using hne.symm), find?_nil, Option.or_none]

/-- The binding that was put reads back, at some revision. -/
theorem find?_putBinding_self (h : bindings' = putBinding bindings binding) :
    ∃ revision, bindings'.find? (fun row => row.deploymentId = binding.deploymentId)
      = some { binding with revision } := by
  subst h
  cases hfind : bindings.find? fun row => row.deploymentId = binding.deploymentId with
  | some row => exact ⟨_, find?_upsertRow hfind fun _ => decide_eq_true rfl⟩
  | none =>
    refine ⟨binding.revision, ?_⟩
    unfold putBinding upsertRow
    rw [if_neg, find?_append, hfind, Option.none_or]
    · exact find?_cons_of_pos (decide_eq_true rfl)
    · intro hany
      obtain ⟨row, hrow, hkey⟩ := any_eq_true.mp hany
      exact find?_eq_none.mp hfind row hrow hkey

variable {platform : Platform Claims Evidence Edit}

/-- Where an installation is bound, it is bound to what it compiled. -/
theorem Sound.installed_row (hdig : DigestFaithful platform)
    (hsound : Sound platform store) (hdep : deployment = existing.getD fresh)
    (hadm : Admitted store input existing fresh)
    (hcomp : compileParticipant platform input.evidence input.participantId
      = .ok (graph, plan.participant, plan.digest))
    (hins : Installs platform store input existing deployment plan store') :
    ∃ b, store'.bindings.find? (fun row => row.deploymentId = deployment) = some b ∧
      b.resourceCommitments = carriedCommitments input.resourceCommitments plan.participant ∧
      ∃ row, store'.installed.find? (fun row => row.participantId = input.participantId ∧
          row.revision = b.installedRevision) = some row ∧
        row.participantDigest = b.implementationDigest ∧
        ∃ graph participant, compileParticipant platform row.evidence input.participantId
            = .ok (graph, participant, row.participantDigest) ∧
          participant.required = b.required ∧ participant.optional = b.optional ∧
          participant.resources = plan.participant.resources := by
  obtain ⟨revision, hrev, hbinds, hinst⟩ := hins.binding
  obtain ⟨count, hfind⟩ := find?_putBinding_self hbinds
  refine ⟨_, hfind, rfl, ?_⟩
  cases hunchanged : unchangedRevision store.bindings existing plan.digest with
  | none =>
    -- a new revision, compiled from the evidence that was given
    rw [hunchanged, Option.getD_none] at hrev
    rw [hunchanged, Option.isSome_none, if_neg Bool.false_ne_true] at hinst
    refine ⟨⟨input.participantId, revision, plan.digest, input.evidence⟩, ?_, rfl, graph,
      plan.participant, hcomp, rfl, rfl, rfl⟩
    rw [hinst, find?_append, hrev, find?_nextRevision, Option.none_or]
    exact find?_cons_of_pos (decide_eq_true ⟨rfl, rfl⟩)
  | some old =>
    -- the revision that runs the digest, compiled from its own evidence
    obtain ⟨id, rfl, hfound⟩ := Option.bind_eq_some_iff.mp hunchanged
    obtain ⟨b, hfind, rfl⟩ := Option.map_eq_some_iff.mp hfound
    have hb := mem_of_find?_eq_some hfind
    obtain ⟨hid, hsame⟩ := of_find? hfind
    rw [hunchanged] at hrev
    rw [hunchanged, Option.isSome_some] at hinst
    obtain rfl : deployment = id := hdep
    obtain ⟨d, b', hbound, hpart, -⟩ := hadm.onto deployment rfl
    have hb' := (boundDeployment_eq_some.mp hbound).2
    obtain rfl : b = b' := eq_of_find? hsound.consistent.bindings_nodup hb' hb hid
    obtain ⟨row, hrow, hrowDigest, graph', participant, hcompiled, -, -⟩ :=
      hsound.consistent.current deployment d b hbound
    rw [← hpart] at hrow hcompiled
    obtain ⟨-, -, hplan⟩ := compileParticipant_ok.mp hcomp
    obtain ⟨-, -, hran⟩ := compileParticipant_ok.mp hcompiled
    have hequal : row.participantDigest = plan.digest := hrowDigest.trans hsame
    rw [hequal] at hran
    obtain ⟨hreq, hopt, hres⟩ := hdig _ _ _ _ _ hran hplan
    refine ⟨row, ?_, hequal, graph', participant, hcompiled, hreq, hopt, hres⟩
    rw [hinst, hrev]
    exact hrow

variable {actor : String}

theorem Sound.install (hdig : DigestFaithful platform) (hsound : Sound platform store)
    (hadm : Admitted store input existing fresh)
    (h : installDeployment platform store actor input existing title fresh now
      = .ok (store', deployment)) : Sound platform store' := by
  obtain ⟨hdep, plan, hplan, hins⟩ := installDeployment_ok h
  obtain ⟨graph, hcomp, -⟩ := checkInstallation_ok hplan
  obtain ⟨b, hb, -, row, hrow, hrowDigest, graph', participant, hcompiled, hreq, hopt, -⟩ :=
    hsound.installed_row hdig hdep hadm hcomp hins
  obtain ⟨revision, -, hbinds, hinst⟩ := hins.binding
  obtain ⟨new, hdeps, hexisting, hnew⟩ := hins.deployments
  obtain ⟨rows, -, hpolicy⟩ := hins.grants
  -- the new row, if there is one, is the deployment's
  have hadded : ∀ d ∈ new, existing = none ∧ d.deploymentId = deployment ∧
      d.participantId = input.participantId := by
    intro d hd
    cases existing with
    | some id =>
      rw [hexisting rfl] at hd
      cases hd
    | none =>
      obtain ⟨-, added, rfl, hid, hpart⟩ := hnew rfl
      rw [mem_singleton.mp hd]
      exact ⟨rfl, hid, hpart⟩
  have hown : ∀ d ∈ store'.deployments, d.deploymentId = deployment →
      d.participantId = input.participantId := by
    intro d hd hid
    rw [hdeps] at hd
    rcases mem_append.mp hd with hd | hd
    · cases existing with
      | some id =>
        obtain rfl : deployment = id := hdep
        obtain ⟨d', b', hbound, hpart, -⟩ := hadm.onto deployment rfl
        have hd' := (boundDeployment_eq_some.mp hbound).1
        rw [eq_of_find? hsound.deployments_nodup hd' hd hid]
        exact hpart.symm
      | none => exact absurd hid ((hnew rfl).1 d hd)
    · exact (hadded d hd).2.2
  have hsubset : ∀ d ∈ store.deployments, d ∈ store'.deployments := by
    intro d hd
    rw [hdeps]
    exact mem_append_left _ hd
  have hfound : ∃ d ∈ store'.deployments, d.deploymentId = deployment := by
    cases existing with
    | some id =>
      obtain rfl : deployment = id := hdep
      obtain ⟨d, b', hbound, -⟩ := hadm.onto deployment rfl
      have hd := (boundDeployment_eq_some.mp hbound).1
      exact ⟨d, hsubset d (mem_of_find?_eq_some hd), (of_find? hd :)⟩
    | none =>
      obtain ⟨-, added, rfl, hid, -⟩ := hnew rfl
      exact ⟨added, by rw [hdeps]; exact mem_append_right _ mem_cons_self, hid⟩
  refine ⟨⟨?_, ?_⟩, ⟨?_, ?_, ?_, ?_, ?_⟩, ?_, ?_, ?_, ?_⟩
  · rw [hbinds]
    exact nodup_upsertRow (fun _ => decide_eq_true_iff) rfl (fun _ _ => rfl)
      hsound.consistent.bindings_nodup
  · intro id d b' hbound
    obtain ⟨hd, hb'⟩ := boundDeployment_eq_some.mp hbound
    have hdid := of_find? hd
    by_cases hid : id = deployment
    · subst hid
      cases hb.symm.trans hb'
      rw [hown d (mem_of_find?_eq_some hd) hdid]
      exact ⟨row, hrow, hrowDigest, graph', participant, hcompiled, hreq, hopt⟩
    · -- another deployment keeps its binding, and its revision stays installed
      rw [hbinds, find?_putBinding_of_ne hid] at hb'
      rw [hdeps, find?_append, (find?_eq_none (l := new)).mpr, Option.or_none] at hd
      · obtain ⟨old, hold, hrest⟩ := hsound.consistent.current id d b'
          (boundDeployment_eq_some.mpr ⟨hd, hb'⟩)
        refine ⟨old, ?_, hrest⟩
        rw [hinst]
        split
        · exact hold
        · rw [find?_append, hold, Option.some_or]
      · intro added hmem hkey
        exact hid ((of_decide_eq_true hkey).symm.trans (hadded added hmem).2.1)
  · rw [hins.instances]
    exact hsound.keyed.instanceIds_nodup
  · rw [hins.instances]
    exact hsound.keyed.principalIds_nodup
  · rw [hins.instances, hpolicy]
    exact hsound.keyed.principal
  · rw [hins.instances]
    intro i hi
    obtain ⟨d, hd, hid⟩ := hsound.keyed.deployment i hi
    exact ⟨d, hsubset d hd, hid⟩
  · rw [hins.updates, hdeps]
    intro u hu d hd hid
    rcases mem_append.mp hd with hd | hd
    · exact hsound.keyed.update u hu d hd hid
    obtain ⟨rfl, hsame, -⟩ := hadded d hd
    exact absurd (hid.symm.trans (hsame.trans hdep)) ((hadm.new rfl).1.2.2 u hu)
  · rw [hdeps]
    cases existing with
    | some id =>
      rw [hexisting rfl, append_nil]
      exact hsound.deployments_nodup
    | none =>
      obtain ⟨hother, added, rfl, hid, -⟩ := hnew rfl
      exact nodup_map_concat hsound.deployments_nodup (hid ▸ hother)
  · rw [hins.updates]
    exact hsound.updates_nodup
  · intro b' hb'
    rcases mem_putBinding (hbinds ▸ hb') with ⟨hold, -⟩ | ⟨count, rfl⟩
    · obtain ⟨d, hd, hdid⟩ := hsound.bound b' hold
      exact ⟨d, hsubset d hd, hdid⟩
    · exact hfound
  · rw [hins.claims, hdeps]
    intro c hc d hd
    rcases mem_append.mp hd with hd | hd
    · exact hsound.claim c hc d hd
    obtain ⟨rfl, hsame, -⟩ := hadded d hd
    exact fun hid => (hadm.new rfl).1.2.1 c hc (hid.symm.trans (hsame.trans hdep))

/-! ### The other writes -/

/-- A write that leaves deployments, bindings, revisions and updates alone. -/
theorem Sound.frame (hsound : Sound platform store) (hdeps : store'.deployments = store.deployments)
    (hbinds : store'.bindings = store.bindings)
    (hinst : store'.installed = store.installed) (hups : store'.updates = store.updates)
    (hinsts : store'.instances.map Instance.key = store.instances.map Instance.key)
    (hprins : ∀ p ∈ store.policy.principals, ∃ q ∈ store'.policy.principals,
      q.principalId = p.principalId)
    (hclaims : store'.claims.map ServiceClaim.claimId = store.claims.map ServiceClaim.claimId) :
    Sound platform store' where
  consistent := hsound.consistent.congr hdeps hbinds hinst
  keyed := hsound.keyed.of_keys hinsts hprins (by rw [hdeps]) hups
  deployments_nodup := hdeps ▸ hsound.deployments_nodup
  updates_nodup := hups ▸ hsound.updates_nodup
  bound := by
    rw [hbinds, hdeps]
    exact hsound.bound
  claim := by
    rw [hdeps]
    intro c hc
    obtain ⟨c', hc', hid⟩ := exists_of_map_eq hclaims hc
    rw [← hid]
    exact hsound.claim c' hc'

/-- The tables a new claim leaves. -/
theorem createClaim_ok {publicKey instanceTitle claimId : String}
    (h : createClaim platform store actor publicKey title instanceTitle claimId principalId now
      = .ok store') : ∃ authority rows,
      insertNewGrant principalId none store.policy.directCapabilities authority = .ok rows ∧
      store' = { store with
        policy := { store.policy with
          principals := store.policy.principals ++ [⟨principalId, .service, .active, 1⟩]
          directCapabilities := rows }
        claims := store.claims ++
          [⟨claimId, principalId, publicKey, title, instanceTitle, none, .waiting⟩] } := by
  unfold createClaim at h
  simp only [error_bind, guard_eq_ok, bind_eq_ok, pure_eq_ok] at h
  obtain ⟨-, -, key, -, -, principals, hprins, authority, -, rows, hrows, claims, hclaims, rfl⟩ := h
  obtain ⟨-, rfl⟩ := insertUnique_ok hprins
  obtain ⟨-, rfl⟩ := insertUnique_ok hclaims
  exact ⟨authority, rows, hrows, rfl⟩

theorem Sound.provision (hsound : Sound platform store)
    (h : provisionInstance platform store deployment publicKey title principalId instanceId now
      = .ok store') : Sound platform store' := by
  obtain ⟨d, b, state, rows, identities, hbound, hprin, hinst, -, rfl⟩ := provisionInstance_ok h
  have hd := (boundDeployment_eq_some.mp hbound).1
  refine ⟨hsound.consistent.congr rfl rfl rfl, ⟨?_, ?_, ?_, ?_, hsound.keyed.update⟩,
    hsound.deployments_nodup, hsound.updates_nodup, hsound.bound, hsound.claim⟩
  · exact nodup_map_concat hsound.keyed.instanceIds_nodup hinst
  · refine nodup_map_concat hsound.keyed.principalIds_nodup fun i hi => ?_
    obtain ⟨p, hp, hpid⟩ := hsound.keyed.principal i hi
    exact hpid ▸ hprin p hp
  · refine forall_mem_concat (fun i hi => ?_) ⟨_, mem_append_right _ mem_cons_self, rfl⟩
    obtain ⟨p, hp, hpid⟩ := hsound.keyed.principal i hi
    exact ⟨p, mem_append_left _ hp, hpid⟩
  · exact forall_mem_concat hsound.keyed.deployment ⟨d, mem_of_find?_eq_some hd, (of_find? hd :)⟩

/-- The tables a lifecycle change leaves. -/
theorem changeDeployment_ok
    (h : changeDeployment platform store actor deployment expectedRevision state now = .ok store') :
    ∃ d b resources identities, boundDeployment store deployment = some (d, b) ∧
      lifecycleResources store.resources deployment b.revision state = .ok resources ∧
      store' = { store with
        deployments := store.deployments.map fun row =>
          if row.deploymentId = deployment then { row with state } else row
        bindings := store.bindings.map fun row =>
          if row.deploymentId = deployment then
            { row with
              revision := row.revision + 1
              resourceCommitments := if state = .revoked then {} else row.resourceCommitments }
          else row
        resources
        identities } := by
  obtain ⟨-, -, h⟩ := bind_eq_ok.mp h
  split at h
  next d b hbound =>
    obtain ⟨-, h⟩ := guard_eq_ok.mp h
    obtain ⟨resources, hres, h⟩ := bind_eq_ok.mp h
    exact ⟨d, b, resources, _, hbound, hres, (pure_eq_ok.mp h).symm⟩
  · cases h

theorem Sound.lifecycle (hsound : Sound platform store)
    (h : changeDeployment platform store actor deployment expectedRevision state now
      = .ok store') : Sound platform store' := by
  obtain ⟨d, b, resources, identities, -, -, rfl⟩ := changeDeployment_ok h
  refine ⟨⟨?_, ?_⟩, hsound.keyed.of_keys rfl (fun p hp => ⟨p, hp, rfl⟩) ?_ rfl, ?_,
    hsound.updates_nodup, ?_, ?_⟩
  · exact nodup_key_map (fun _ => key_ite rfl) hsound.consistent.bindings_nodup
  · intro id d' b' hbound
    obtain ⟨hd', hb'⟩ := boundDeployment_eq_some.mp hbound
    rw [find?_map_of_key] at hd' hb'
    · obtain ⟨d₀, hd₀, rfl⟩ := Option.map_eq_some_iff.mp hd'
      obtain ⟨b₀, hb₀, rfl⟩ := Option.map_eq_some_iff.mp hb'
      have hold := hsound.consistent.current id d₀ b₀ (boundDeployment_eq_some.mpr ⟨hd₀, hb₀⟩)
      split <;> split
      all_goals exact hold
    all_goals exact fun _ => by split <;> rfl
  · exact map_key_map fun _ => by split <;> rfl
  · exact nodup_key_map (fun _ => key_ite rfl) hsound.deployments_nodup
  · intro b' hb'
    obtain ⟨b₀, hb₀, rfl⟩ := mem_map.mp hb'
    obtain ⟨d₀, hd₀, hid⟩ := hsound.bound b₀ hb₀
    refine ⟨_, mem_map_of_mem hd₀, ?_⟩
    split <;> split
    all_goals exact hid
  · intro c hc d' hd'
    obtain ⟨d₀, hd₀, rfl⟩ := mem_map.mp hd'
    split
    all_goals exact hsound.claim c hc d₀ hd₀

/-- **Every write keeps the tables sound.** -/
theorem Sound.write (hdig : DigestFaithful platform) (h : Write platform store store')
    (hsound : Sound platform store) : Sound platform store' := by
  have hsame : ∀ p ∈ store.policy.principals, ∃ q ∈ store.policy.principals,
      q.principalId = p.principalId := fun p hp => ⟨p, hp, rfl⟩
  cases h with
  | policy h =>
    exact hsound.frame rfl rfl rfl rfl rfl (fun _ => exists_of_map_eq (applyPolicy_frame h).2.symm)
      rfl
  | review | accept => exact hsound.frame rfl rfl rfl rfl rfl hsame rfl
  | install hadm h => exact hsound.install hdig hadm h
  | provision h => exact hsound.provision h
  | move h =>
    obtain ⟨i, hi, ⟨-, rfl⟩ | ⟨-, _, _, _, rows, -, -, -, rfl⟩⟩ := moveInstance_ok h
    · exact hsound
    · exact hsound.frame rfl rfl rfl rfl (map_key_map fun _ => key_ite rfl) hsame rfl
  | lifecycle h => exact hsound.lifecycle h
  | instanceState => exact hsound.frame rfl rfl rfl rfl (map_key_map fun _ => key_ite rfl) hsame rfl
  | updates hids h =>
    refine ⟨hsound.consistent.congr rfl rfl rfl, { hsound.keyed with update := ?_ },
      hsound.deployments_nodup, hids hsound.updates_nodup, hsound.bound, hsound.claim⟩
    intro u hu d hd hid
    rcases h u hu with ⟨v, hv, hdep, hpart⟩ | hown
    · exact hpart ▸ hsound.keyed.update v hv d hd (hid.trans hdep.symm)
    · exact hown d hd hid
  | createClaim hfresh h =>
    obtain ⟨authority, rows, -, rfl⟩ := createClaim_ok h
    refine ⟨hsound.consistent.congr rfl rfl rfl,
      hsound.keyed.of_keys rfl (fun p hp => ⟨p, mem_append_left _ hp, rfl⟩) rfl rfl,
      hsound.deployments_nodup, hsound.updates_nodup, hsound.bound, ?_⟩
    exact forall_mem_concat hsound.claim hfresh.1
  | closeClaim hprins hclaims =>
    exact hsound.frame rfl rfl rfl rfl rfl (fun _ => exists_of_map_eq hprins.symm) hclaims

/-! ## Transactions are made of writes -/

section Made

abbrev Writes (platform : Platform Claims Evidence Edit) :
    Store Claims Evidence → Store Claims Evidence → Prop :=
  ReflTransGen (Write platform)

theorem Admitted.of_catalog (h : Admitted store input existing fresh) (catalog : Tables)
    (reviews : List ApiReview) :
    Admitted { store with policy := { store.policy with catalog }, reviews } input existing fresh :=
  ⟨h.new, h.onto⟩

theorem acceptOne_writes
    (h : acceptOne platform graph now store api = .ok store') : Writes platform store store' := by
  obtain ⟨definition, -, h⟩ := bind_eq_ok.mp h
  obtain ⟨⟨reviewed, review⟩, hreview, h⟩ := bind_eq_ok.mp h
  obtain ⟨⟨accepted, snapshot⟩, hacc, h⟩ := bind_eq_ok.mp h
  cases h
  obtain ⟨rfl, -⟩ := reviewApi_ok hreview
  have hreviewed : Write platform store { store with reviews := store.reviews ++ [review] } :=
    .review hreview
  have haccepted : Write platform { store with reviews := store.reviews ++ [review] }
      { store with policy := { store.policy with catalog := accepted.tables }
                   reviews := accepted.reviews } :=
    @Write.accept _ _ _ platform { store with reviews := store.reviews ++ [review] } _ _
      (accepted, snapshot) rfl hacc
  exact (Relation.ReflTransGen.single hreviewed).tail haccepted

theorem acceptApis_writes
    (h : acceptApis platform store graph apis now = .ok store') : Writes platform store store' := by
  induction apis generalizing store with
  | nil =>
    cases h
    exact .refl
  | cons api rest ih =>
    obtain ⟨middle, hmiddle, h⟩ := bind_eq_ok.mp h
    exact (acceptOne_writes hmiddle).trans (ih h)

variable {evidence : Evidence} {participantId : String}

theorem acceptProvidedApis_ok
    (h : acceptProvidedApis platform store evidence participantId now = .ok store') :
    Writes platform store store' ∧ ∃ catalog reviews, store' = { store with
      policy := { store.policy with catalog }, reviews } := by
  obtain ⟨graph, -, h⟩ := bind_eq_ok.mp h
  obtain ⟨participant, -, h⟩ := bind_eq_ok.mp h
  obtain ⟨apis, -, h⟩ := bind_eq_ok.mp h
  exact ⟨acceptApis_writes h, acceptApis_ok h⟩

theorem compiledInput_ok
    (h : compiledInput platform store evidence participantId resources = .ok result) :
    result.2.participantId = participantId ∧ result.2.resourceCommitments = resources := by
  obtain ⟨⟨graph, participant, digest⟩, hcomp, h⟩ := bind_eq_ok.mp h
  obtain ⟨input, hinput, h⟩ := bind_eq_ok.mp h
  cases h
  obtain ⟨-, hid, hres, -⟩ := deploymentInput_ok hinput
  obtain ⟨-, hfind, -⟩ := compileParticipant_ok.mp hcomp
  exact ⟨hid.trans (of_find? hfind :), hres⟩

theorem applyDeployment_writes {changed : Store Claims Evidence × String}
    (h : applyDeployment platform store actor deployment expectedRevision evidence acknowledged now
      = .ok changed) : Writes platform store changed.1 := by
  obtain ⟨-, -, h⟩ := bind_eq_ok.mp h
  split at h
  next d b hbound =>
    simp only [error_bind, guard_eq_ok, bind_eq_ok] at h
    obtain ⟨-, accepted, hacc, ⟨participant, input⟩, hinput, -, -, h⟩ := h
    obtain ⟨hwrites, catalog, reviews, rfl⟩ := acceptProvidedApis_ok hacc
    obtain ⟨hid, hres⟩ := compiledInput_ok hinput
    refine hwrites.tail (.install ⟨?_, ?_⟩ h)
    · exact fun h => nomatch h
    · rintro _ ⟨rfl⟩
      exact ⟨d, b, hbound, hid, hres⟩
  · cases h

theorem settleUpdate_write (updateId : String) (state : UpdateState) :
    Write platform store (settleUpdate store updateId state) := by
  refine .updates (nodup_key_map fun _ => key_ite rfl) (forall_mem_map.mpr fun u hu => ?_)
  exact .inl ⟨u, hu, by split <;> exact ⟨rfl, rfl⟩⟩

theorem recordUpdate_write (hown : ∀ d ∈ store.deployments, d.deploymentId = update.deploymentId →
      update.participantId = d.participantId)
    (h : recordUpdate store update = .ok store') : Write platform store store' := by
  obtain ⟨updates, hups, h⟩ := bind_eq_ok.mp h
  cases h
  obtain ⟨hnew, rfl⟩ := insertUnique_ok hups
  refine .updates ?_ ?_
  · intro hids
    refine nodup_map_concat (nodup_key_map (fun _ => key_ite rfl) hids) fun row hrow => ?_
    exact of_decide_eq_false (hnew row hrow)
  · refine forall_mem_concat (forall_mem_map.mpr fun row hrow => ?_) (.inr hown)
    exact .inl ⟨row, hrow, .symm (key_ite rfl), .symm (key_ite rfl)⟩

/-- The candidate is of the deployment's participant, and `current` is what is installed. -/
theorem applyUpdate_writes {changed : Changes} (hupd : readUpdate store updateId = .ok update)
    (hbound : boundDeployment store update.deploymentId = some (d, b))
    (hpart : candidate.participant.participantId = d.participantId)
    (hcur : current.resourceCommitments = b.resourceCommitments)
    (h : applyUpdate platform store actor updateId candidate changed current now = .ok store') :
    Writes platform store store' := by
  obtain ⟨row, reinstalled, after, moved, hrow, hrein, -, hmoved, rfl⟩ := applyUpdate_ok h
  cases hrow.symm.trans hupd
  have hinstall : Writes platform store reinstalled := by
    unfold reinstall at hrein
    split at hrein
    · rw [Except.ok.inj hrein]
    obtain ⟨accepted, hacc, hrein⟩ := bind_eq_ok.mp hrein
    obtain ⟨input, hinput, hrein⟩ := bind_eq_ok.mp hrein
    obtain ⟨⟨installed, deployment⟩, hinst, hrein⟩ := bind_eq_ok.mp hrein
    cases hrein
    have hwrites : Writes platform store accepted := acceptApis_writes hacc
    obtain ⟨catalog, reviews, rfl⟩ := acceptApis_ok hacc
    obtain ⟨-, hid, hres, -⟩ := deploymentInput_ok hinput
    refine hwrites.tail (.install ⟨?_, ?_⟩ hinst)
    · exact fun h => nomatch h
    · rintro _ ⟨rfl⟩
      exact ⟨d, b, hbound, hid.trans hpart, hres.trans hcur⟩
  exact (hinstall.tail (.move hmoved)).tail (settleUpdate_write updateId .applied)

variable (hsound : Sound platform store)

include hsound

theorem submit_writes
    (h : submit platform store principal submitted evidence updateId now = .ok changed) :
    Writes platform store changed.1 := by
  rcases submit_ok h with ⟨-, rfl | ⟨hrecd, hown⟩⟩ | ⟨i, d, candidate, current, changes, recorded,
    -, hd, hcand, hcur, -, -, hrecd, happ, -⟩
  · exact .refl
  · refine .single (recordUpdate_write ?_ hrecd)
    intro d hd hid
    rcases hown with ⟨claim, hclaim, hid'⟩ | ⟨d', hd', hpart⟩
    · exact absurd (hid.trans hid'.symm) (hsound.claim claim hclaim d hd)
    · rw [eq_of_find? hsound.deployments_nodup hd' hd hid]
      exact hpart
  · obtain ⟨-, hpart, -⟩ := Candidate.compile_ok hcand
    have hrec : Write platform store recorded := by
      refine recordUpdate_write ?_ hrecd
      intro d' hd' hid
      rw [eq_of_find? hsound.deployments_nodup hd hd' hid]
      exact hpart
    obtain ⟨updates, rfl, hfind⟩ := recordUpdate_ok hrecd
    obtain ⟨d', b, participant, hbound, -, rfl⟩ := installed_ok hcur
    cases (boundDeployment_eq_some.mp hbound).1.symm.trans hd
    have hpend : readUpdate { store with updates } updateId = .ok _ := readUpdate_ok.mpr hfind
    exact .head hrec (applyUpdate_writes hpend hbound hpart rfl happ)

omit hsound

/-- Closing a claim together with its updates. -/
theorem writes_closeClaim (hprins : principals.map Principal.principalId
      = store.policy.principals.map Principal.principalId)
    (hclaims : claims.map ServiceClaim.claimId = store.claims.map ServiceClaim.claimId)
    (hids : (store.updates.map ServiceUpdate.updateId).Nodup →
      (updates.map ServiceUpdate.updateId).Nodup)
    (h : ∀ u ∈ updates, (∃ v ∈ store.updates, v.deploymentId = u.deploymentId ∧
        v.participantId = u.participantId) ∨
      ∀ d ∈ store.deployments, d.deploymentId = u.deploymentId →
        u.participantId = d.participantId) : Writes platform store
      { store with policy := { store.policy with principals }, claims, updates } := by
  have hclaim : Write platform store
      { store with policy := { store.policy with principals }, claims } :=
    .closeClaim hprins hclaims
  have hups : Write platform { store with policy := { store.policy with principals }, claims }
      { store with policy := { store.policy with principals }, claims, updates } :=
    @Write.updates _ _ _ platform { store with policy := { store.policy with principals }, claims }
      updates hids h
  exact (Relation.ReflTransGen.single hclaim).tail hups

include hsound

theorem approveClaim_writes
    (hfresh : Unused store fresh.deploymentId) (hupd : readUpdate store updateId = .ok update)
    (hcand : candidate.participant.participantId = update.participantId)
    (h : approveClaim platform store actor acknowledged update.deploymentId updateId candidate fresh
      now = .ok store') : Writes platform store store' := by
  obtain ⟨changed, -, h⟩ := bind_eq_ok.mp h
  obtain ⟨-, -, h⟩ := bind_eq_ok.mp h
  split at h
  · obtain ⟨accepted, hacc, h⟩ := bind_eq_ok.mp h
    obtain ⟨input, hinput, h⟩ := bind_eq_ok.mp h
    obtain ⟨⟨created, deployment⟩, hcreated, h⟩ := bind_eq_ok.mp h
    obtain ⟨provisioned, hprov, h⟩ := bind_eq_ok.mp h
    cases h
    have hwrites : Writes platform store accepted := acceptApis_writes hacc
    obtain ⟨catalog, reviews, rfl⟩ := acceptApis_ok hacc
    obtain ⟨-, hid, hres, -⟩ := deploymentInput_ok hinput
    have hadm : Admitted store input none fresh.deploymentId :=
      ⟨fun _ => ⟨hfresh, hres⟩, fun _ hnone => nomatch hnone⟩
    obtain ⟨rfl, plan, -, hins⟩ := installDeployment_ok hcreated
    obtain ⟨d, b, state, rows, identities, -, -, -, -, rfl⟩ := provisionInstance_ok hprov
    apply ((hwrites.tail (.install (hadm.of_catalog catalog reviews) hcreated)).tail
      (.provision hprov)).trans
    refine writes_closeClaim rfl (map_key_map fun _ => key_ite rfl)
      (nodup_key_map fun _ => key_ite rfl) ?_
    · intro u hu
      obtain ⟨row, hrow, rfl⟩ := mem_map.mp hu
      by_cases hid' : row.updateId = updateId
      · -- the claimed update names the deployment that was made for it
        rw [if_pos hid']
        refine .inr fun d' hd' hdid => ?_
        have hfind := readUpdate_ok.mp hupd
        rw [hins.updates] at hrow
        obtain rfl : row = update := eq_of_find? hsound.updates_nodup hfind hrow hid'
        obtain ⟨new, hdeps, -, hnew⟩ := hins.deployments
        obtain ⟨hother, added, rfl, haid, haparticipant⟩ := hnew rfl
        rw [hdeps] at hd'
        rcases mem_append.mp hd' with hd' | hd'
        · exact absurd hdid (hother d' hd')
        · rw [mem_singleton.mp hd', haparticipant, hid, hcand]
      · rw [if_neg hid']
        exact .inl ⟨row, hrow, rfl, rfl⟩
  · cases h

theorem decideServiceUpdate_writes (hfresh : Unused store fresh.deploymentId)
    (h : decideServiceUpdate platform store actor updateId expectedRevision decision acknowledged
      fresh now = .ok changed) : Writes platform store changed.1 := by
  obtain ⟨store', update⟩ := changed
  obtain ⟨pending, hpend, ⟨-, rfl⟩ | ⟨-, -, ⟨state, -, rfl⟩ | ⟨-, candidate, hcand, happr⟩ |
    ⟨-, candidate, current, changes, hcand, hcur, -, happ⟩⟩⟩ := decideServiceUpdate_ok h
  · exact .refl
  · exact .single (settleUpdate_write _ _)
  · exact approveClaim_writes hsound hfresh hpend (Candidate.compile_ok hcand).2.1 happr
  · obtain ⟨d, b, participant, hbound, -, rfl⟩ := installed_ok hcur
    have hd := (boundDeployment_eq_some.mp hbound).1
    have hpart := hsound.keyed.update pending (mem_of_find?_eq_some (readUpdate_ok.mp hpend)) d
      (mem_of_find?_eq_some hd) (of_find? hd :)
    exact applyUpdate_writes hpend hbound ((Candidate.compile_ok hcand).2.1.trans hpart) rfl happ

/-- Every transaction on sound tables is made of writes. -/
theorem Transaction.writes
    (h : Transaction platform store store') : Writes platform store store' := by
  cases h with
  | policy | review | accept | provision => exact .single (by constructor <;> assumption)
  | lifecycle h => exact .single (.lifecycle h)
  | instanceState => exact .single .instanceState
  | createClaim hfresh h => exact .single (.createClaim hfresh h)
  | create hfresh h =>
    unfold createDeployment at h
    simp only [error_bind, guard_eq_ok, bind_eq_ok] at h
    obtain ⟨-, -, accepted, hacc, ⟨participant, input⟩, hinput, -, -, -, h⟩ := h
    obtain ⟨hwrites, catalog, reviews, rfl⟩ := acceptProvidedApis_ok hacc
    obtain ⟨-, hres⟩ := compiledInput_ok hinput
    have hadm : Admitted store input none _ :=
      ⟨fun _ => ⟨hfresh, hres⟩, fun _ hnone => nomatch hnone⟩
    exact hwrites.tail (.install (hadm.of_catalog catalog reviews) h)
  | apply h => exact applyDeployment_writes h
  | provisionDeployment hfresh hcomms h =>
    obtain ⟨-, -, h⟩ := bind_eq_ok.mp h
    obtain ⟨⟨installed, deployment⟩, hinst, h⟩ := bind_eq_ok.mp h
    have hadm : Admitted store _ none _ := ⟨fun _ => ⟨hfresh, hcomms⟩, fun _ hnone => nomatch hnone⟩
    exact (Relation.ReflTransGen.single (.install hadm hinst)).tail (.provision h)
  | submit h => exact submit_writes hsound h
  | decide hfresh h => exact decideServiceUpdate_writes hsound hfresh h
  | removeClaim h =>
    obtain ⟨-, -, h⟩ := bind_eq_ok.mp h
    split at h
    · obtain ⟨-, h⟩ := guard_eq_ok.mp h
      cases h
      refine writes_closeClaim (map_key_map fun _ => key_ite rfl) (map_key_map fun _ => key_ite rfl)
        (nodup_key_map fun _ => key_ite rfl) ?_
      intro u hu
      obtain ⟨v, hv, rfl⟩ := mem_map.mp hu
      exact .inl ⟨v, hv, .symm (key_ite rfl), .symm (key_ite rfl)⟩
    · cases h

omit hsound

/-- **Every run of transactions keeps the tables sound.** -/
theorem sound_of_transactions (hdig : DigestFaithful platform)
    (h : ReflTransGen (Transaction platform) store store')
    (hsound : Sound platform store) : Sound platform store' :=
  Run.keeps (P := Sound platform) (fun _ _ hstep hbefore =>
    Run.keeps (P := Sound platform) (fun _ _ hwrite => Sound.write hdig hwrite)
      (hstep.writes hbefore) hbefore) h hsound

end Made

end Deployments
