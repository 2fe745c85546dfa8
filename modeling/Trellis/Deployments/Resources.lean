/-
# Materializing the resources of a deployment

A deployment's resources are rows of one table; their data is on the broker, under names made of
the resource's ID and its allocation's.  A startup owner plans an allocation for everything the
current revision declares, has the broker create what is missing, and commits: the rows are ready
and the bindings list exactly what the plan has (`materialize_native_kv`).  Where the broker
fails, the pending rows are marked failed.

An installation that drops a resource detaches its row; once a detached one is removed, the next
plan draws a new allocation.
-/
import Trellis.Deployments.Transactions

open Catalog Auth

namespace Deployments

open List Checked Except

variable {Claims Evidence Edit : Type}

/-! ## Names -/

/-- A digest's text: at least as long as SHA-256 in unpadded base64, so that digests may be
injective. -/
def IsDigest (text : String) : Prop :=
  43 ≤ text.toList.length ∧ '.' ∉ text.toList

/-- The text of a ULID. -/
def IsUlid (text : String) : Prop :=
  text.toList.length = 26 ∧ '.' ∉ text.toList

/-- The digests resource names are made of.  SHA-256 is taken to be injective. -/
structure Naming where
  /-- `digest(("deployment", deployment, participant, kind, name))`. -/
  resourceId : String → String → ResourceKind → String → String
  /-- `digest(("jobs", deployment))`. -/
  jobsNamespace : String → String
  resourceId_text : ∀ deployment participant kind name,
    IsDigest (resourceId deployment participant kind name)
  jobsNamespace_text : ∀ deployment, IsDigest (jobsNamespace deployment)
  resourceId_inj : ∀ {deployment participant kind name deployment' participant' kind' name'},
    resourceId deployment participant kind name = resourceId deployment' participant' kind' name' →
      deployment = deployment' ∧ participant = participant' ∧ kind = kind' ∧ name = name'
  jobsNamespace_inj : ∀ {deployment deployment'},
    jobsNamespace deployment = jobsNamespace deployment' → deployment = deployment'

def eventStream : String := "trellis"
def jobsStream : String := "JOBS"
def jobsWorkStream : String := "JOBS_WORK"
def replayStream : String := "trellis_consumer_replays"

/-- The name of an allocation's bucket, object store or consumer. -/
def ownedName (resourceId allocationId : String) : String :=
  "TRELLIS_RESOURCE_" ++ resourceId ++ "_" ++ allocationId

/-- The token of a job queue in its subjects. -/
def queueToken (name allocationId : String) : String :=
  name ++ "_" ++ allocationId

/-- A subject of its tokens. -/
def dotted (tokens : List String) : String :=
  String.intercalate "." tokens

/-! ## Planning -/

/-- What a plan allocates for one resource.  Limits, retries and schemas are left out; `updates`
tells whether a job publishes updates, `keyed` whether it has a key. -/
structure NativeAllocation where
  name : String
  kind : ResourceKind
  (resourceId allocationId : String)
  (history ttlMs : Nat)
  (updates keyed : Bool)
  deriving DecidableEq, Repr

structure ResourcePlan where
  (principal deployment participant : String)
  (installedRevision bindingRevision : Nat)
  allocations : List NativeAllocation
  deriving DecidableEq, Repr

variable (definition : ResourceDefinition)

/-- What a declaration keeps: history and time to live. -/
def ResourceDefinition.retention : Nat × Nat :=
  match definition.body with
  | .kv _ history ttlMs _ => (history, ttlMs)
  | .store ttlMs _ _ => (0, ttlMs)
  | _ => (0, 0)

def ResourceDefinition.hasUpdates : Bool :=
  match definition.body with
  | .job _ _ update _ => update.isSome
  | _ => false

def ResourceDefinition.isKeyed : Bool :=
  match definition.body with
  | .job _ _ _ keyConcurrency => keyConcurrency.isSome
  | _ => false

/-- The allocation of one declaration under a given allocation ID. -/
def allocate (naming : Naming) (deployment participant : String)
    (declared : String × ResourceDefinition) (allocationId : String) : NativeAllocation where
  name := declared.1
  kind := declared.2.kind
  resourceId := naming.resourceId deployment participant declared.2.kind declared.1
  allocationId
  history := declared.2.retention.1
  ttlMs := declared.2.retention.2
  updates := declared.2.hasUpdates
  keyed := declared.2.isKeyed

section Bindings

variable (naming : Naming) (deployment : String) (allocation : NativeAllocation)

def NativeAllocation.owned : String :=
  ownedName allocation.resourceId allocation.allocationId

def NativeAllocation.queue : QueueBinding :=
  let token := queueToken allocation.name allocation.allocationId
  { consumerName := allocation.owned
    publishPrefix := dotted ["trellis", "jobs", naming.jobsNamespace deployment, token]
    updatesPrefix := if allocation.updates then
      some (dotted ["trellis", "jobs_updates", naming.jobsNamespace deployment, token]) else none
    workSubject := dotted ["trellis", "work", naming.jobsNamespace deployment, token]
    keyed := allocation.keyed }

def NativeAllocation.consumer : ConsumerBinding where
  stream := eventStream
  consumerName := allocation.owned
  replayStream := Deployments.replayStream
  replayConsumerName := allocation.owned ++ "_replay"

/-- What the row of a materialized allocation records as its place. -/
def NativeAllocation.physical : Physical :=
  match allocation.kind with
  | .state => .name (allocation.resourceId ++ "." ++ allocation.allocationId)
  | .job =>
    let queue := allocation.queue naming deployment
    .job (naming.jobsNamespace deployment) jobsWorkStream queue.consumerName queue.publishPrefix
      queue.workSubject
  | .consumer => .consumer eventStream allocation.owned (allocation.owned ++ "_replay")
  | .kv => .name allocation.owned
  | .store => .name allocation.owned

/-- The allocations of one kind, by their names. -/
def allocationsOf {α : Type} (allocations : List NativeAllocation) (kind : ResourceKind)
    (binding : NativeAllocation → α) : List (String × α) :=
  (allocations.filter fun allocation => allocation.kind = kind).map fun allocation =>
    (allocation.name, binding allocation)

/-- The bindings of everything a plan allocates. -/
def planBindings (allocations : List NativeAllocation) : ResourceBindings where
  state := allocationsOf allocations .state NativeAllocation.resourceId
  kv := allocationsOf allocations .kv fun allocation => ⟨allocation.owned⟩
  store := allocationsOf allocations .store fun allocation => ⟨allocation.owned⟩
  jobs :=
    let queues := allocationsOf allocations .job (NativeAllocation.queue naming deployment)
    if queues = [] then none else some ⟨naming.jobsNamespace deployment, queues⟩
  eventConsumers := allocationsOf allocations .consumer NativeAllocation.consumer

end Bindings

/-- The row of an allocation that is planned for the first time. -/
def plannedRow (deployment participant : String) (bindingRevision : Nat)
    (allocation : NativeAllocation) : Resource where
  resourceId := allocation.resourceId
  allocationId := allocation.allocationId
  ownerId := deployment
  participantId := participant
  kind := allocation.kind
  localName := allocation.name
  history := allocation.history
  ttlMs := allocation.ttlMs
  state := .pending
  bindingRevision
  revision := 1
  physical := .name allocation.owned

/-- Plan one declaration: an existing allocation is kept unless it is being destroyed. -/
def planOne (naming : Naming) (deployment participant : String) (bindingRevision : Nat)
    (fresh : String → String) (resources : List Resource)
    (declared : String × ResourceDefinition) :
    Except AuthError (List Resource × NativeAllocation) :=
  let id := naming.resourceId deployment participant declared.2.kind declared.1
  match resources.find? fun row => row.resourceId = id with
  | some row =>
    if row.state = .destroying then .error .conflict
    else .ok (resources.map fun row =>
        if row.resourceId = id then { row with state := .pending } else row,
      allocate naming deployment participant declared row.allocationId)
  | none =>
    let allocation := allocate naming deployment participant declared (fresh declared.1)
    .ok (resources ++ [plannedRow deployment participant bindingRevision allocation], allocation)

def planAll (naming : Naming) (deployment participant : String) (bindingRevision : Nat)
    (fresh : String → String) : List (String × ResourceDefinition) → List Resource →
      Except AuthError (List Resource × List NativeAllocation)
  | [], resources => .ok (resources, [])
  | declared :: rest, resources => do
      let (resources, allocation) ←
        planOne naming deployment participant bindingRevision fresh resources declared
      let (resources, allocations) ←
        planAll naming deployment participant bindingRevision fresh rest resources
      return (resources, allocation :: allocations)

section

variable (platform : Platform Claims Evidence Edit) (naming : Naming)
  (store : Store Claims Evidence)

/-- The first transaction of `materialize_native_kv`.  `fresh` draws the new allocation IDs. -/
def planResources (deployment : String) (fresh : String → String) :
    Except AuthError (Store Claims Evidence × ResourcePlan) := do
  let some (d, b) := (boundDeployment store deployment).filter fun bound => bound.1.state = .active
    | .error .storage
  let some i := store.instances.find? fun i =>
      i.deploymentId = deployment ∧ i.state = .active ∧
        store.policy.principals.any fun p => p.principalId = i.principalId ∧ p.state = .active
    | .error .storage
  let evidence ← installedEvidence store.installed d.participantId b.installedRevision
  let graph ← platform.compileEvidence evidence
  let participant ← graph.participant d.participantId
  let (resources, allocations) ← planAll naming deployment d.participantId b.revision fresh
    participant.resources store.resources
  return ({ store with resources },
    ⟨i.principalId, deployment, d.participantId, b.installedRevision, b.revision, allocations⟩)

/-! ## Outcomes of a plan -/

/-- The transaction after a failed attempt: what the plan left pending has failed. -/
def failPlan (plan : ResourcePlan) : Store Claims Evidence :=
  { store with
    resources := store.resources.map fun row =>
      if row.state = .pending ∧ ∃ allocation ∈ plan.allocations,
          allocation.resourceId = row.resourceId ∧ allocation.allocationId = row.allocationId then
        { row with state := .failed, revision := row.revision + 1 }
      else row }

def commitOne (plan : ResourcePlan) (resources : List Resource) (allocation : NativeAllocation) :
    Except AuthError (List Resource) :=
  updateOne resources
    (fun row => row.resourceId = allocation.resourceId ∧
      row.allocationId = allocation.allocationId ∧ row.state = .pending)
    fun row => { row with
      history := allocation.history
      ttlMs := allocation.ttlMs
      physical := allocation.physical naming plan.deployment
      state := .ready
      bindingRevision := plan.bindingRevision
      revision := row.revision + 1 }

/-- The last transaction of `materialize_native_kv`. -/
def commitPlan (plan : ResourcePlan) : Except AuthError (Store Claims Evidence) := do
  let current := (boundDeployment store plan.deployment).filter fun bound =>
    bound.1.state = .active ∧
      store.policy.principals.any fun p => p.principalId = plan.principal ∧ p.state = .active
  if current.map (fun bound => (bound.2.installedRevision, bound.2.revision))
      ≠ some (plan.installedRevision, plan.bindingRevision) then
    .error .conflict
  let resources ← plan.allocations.foldlM (commitOne naming plan) store.resources
  return { store with
    resources
    bindings := store.bindings.map fun b =>
      if b.deploymentId = plan.deployment then
        { b with resourceCommitments := planBindings naming plan.deployment plan.allocations }
      else b }

/-! ## Removal, as the table sees it -/

/-- Whether the recorded place is the one the allocation owns. -/
def physicalMatches (row : Resource) : Bool :=
  let owned := ownedName row.resourceId row.allocationId
  match row.kind, row.physical with
  | .kv, .name text => text = owned
  | .store, .name text => text = owned
  | .state, .name text => text = row.resourceId ++ "." ++ row.allocationId
  | .consumer, .consumer stream consumer replayConsumer =>
    consumer = owned ∧ replayConsumer = owned ++ "_replay" ∧ stream = eventStream
  | .job, .job jobsNamespace workStream consumer _ _ =>
    consumer = owned ∧ workStream = jobsWorkStream ∧
      jobsNamespace = naming.jobsNamespace row.ownerId
  | _, _ => false

/-- The acceptance of a removal: the detached row at the confirmed revision. -/
def beginRemoval (resources : List Resource) (resourceId : String) (expectedRevision : Nat) :
    Except AuthError (List Resource × Resource) :=
  match resources.find? fun row => row.resourceId = resourceId with
  | none => .error .notFound
  | some row =>
    if row.state ≠ .detached ∨ row.revision ≠ expectedRevision then .error .conflict
    else if naming.resourceId row.ownerId row.participantId row.kind row.localName
        ≠ resourceId then .error .conflict
    else if !physicalMatches naming row then .error .conflict
    else
      .ok (resources.map fun row =>
          if row.resourceId = resourceId then
            { row with state := .destroying, revision := row.revision + 1 }
          else row,
        { row with state := .destroying, revision := row.revision + 1 })

end

/-- The end of a removal: the row of the destroyed allocation goes. -/
def finishRemoval (resources : List Resource) (resourceId allocationId : String)
    (revision : Nat) : Except AuthError (List Resource) :=
  deleteOne resources fun row => row.resourceId = resourceId ∧ row.allocationId = allocationId ∧
    row.revision = revision ∧ row.state = .destroying

/-! ## Steps -/

/-- The tables, the plans that were made, and the allocation IDs drawn so far. -/
structure World (Claims Evidence : Type) where
  store : Store Claims Evidence
  plans : List ResourcePlan
  drawn : List String

def World.initial (policy : PolicyTables Claims) : World Claims Evidence where
  store := Store.initial policy
  plans := []
  drawn := []

def World.withResources (world : World Claims Evidence) (resources : List Resource) :
    World Claims Evidence :=
  { world with store := { world.store with resources } }

/-- New allocation IDs for the names: ULIDs, none drawn before. -/
structure Draws (drawn : List String) (fresh : String → String) (names : List String) : Prop where
  ulid : ∀ name ∈ names, IsUlid (fresh name)
  new : ∀ name ∈ names, fresh name ∉ drawn
  nodup : (names.map fresh).Nodup

/-- What may happen to the tables: a write of some transaction, or an attempt to materialize that
begins, fails or commits, the last two at any time after its plan. -/
inductive TableStep (platform : Platform Claims Evidence Edit) (naming : Naming) :
    World Claims Evidence → World Claims Evidence → Prop
  | write {world store} (h : Write platform world.store store) :
      TableStep platform naming world { world with store }
  | plan {world deployment fresh planned}
      (hdraws : Draws world.drawn fresh (planned.2.allocations.map NativeAllocation.name))
      (h : planResources platform naming world.store deployment fresh = .ok planned) :
      TableStep platform naming world
        { store := planned.1
          plans := world.plans ++ [planned.2]
          drawn := world.drawn ++ planned.2.allocations.map NativeAllocation.allocationId }
  | fail {world plan} (hplan : plan ∈ world.plans) :
      TableStep platform naming world { world with store := failPlan world.store plan }
  | commit {world plan store} (hplan : plan ∈ world.plans)
      (h : commitPlan naming world.store plan = .ok store) :
      TableStep platform naming world { world with store }

/-- The steps above, and removals that begin or end. -/
inductive NativeStep (platform : Platform Claims Evidence Edit) (naming : Naming) :
    World Claims Evidence → World Claims Evidence → Prop
  | tables {world world'} (h : TableStep platform naming world world') :
      NativeStep platform naming world world'
  | beginRemoval {world resourceId expectedRevision begun}
      (h : beginRemoval naming world.store.resources resourceId expectedRevision = .ok begun) :
      NativeStep platform naming world (world.withResources begun.1)
  | finishRemoval {world resourceId allocationId revision resources}
      (h : finishRemoval world.store.resources resourceId allocationId revision = .ok resources) :
      NativeStep platform naming world (world.withResources resources)

variable {platform : Platform Claims Evidence Edit} {row row' : Resource}

/-! ## Rows -/

/-- What identifies an allocation; no step changes it. -/
def Resource.identity (row : Resource) :
    String × String × String × String × ResourceKind × String :=
  (row.resourceId, row.allocationId, row.ownerId, row.participantId, row.kind, row.localName)

theorem identity_eq_iff : row'.identity = row.identity ↔
    row'.resourceId = row.resourceId ∧ row'.allocationId = row.allocationId ∧
      row'.ownerId = row.ownerId ∧ row'.participantId = row.participantId ∧
      row'.kind = row.kind ∧ row'.localName = row.localName := by
  simp [Resource.identity]

/-- Neither detached nor being destroyed. -/
def Resource.Attached (row : Resource) : Prop :=
  row.state ≠ .detached ∧ row.state ≠ .destroying

instance (row : Resource) : Decidable row.Attached :=
  inferInstanceAs (Decidable (_ ∧ _))

/-- The allocation a row keeps, with whatever limits. -/
def NativeAllocation.Of (allocation : NativeAllocation) (row : Resource) : Prop :=
  allocation.name = row.localName ∧ allocation.kind = row.kind ∧
    allocation.resourceId = row.resourceId ∧ allocation.allocationId = row.allocationId

/-- The place of the allocation a row keeps. -/
def Resource.place (naming : Naming) (row : Resource) : Physical :=
  NativeAllocation.physical naming row.ownerId
    { name := row.localName
      kind := row.kind
      resourceId := row.resourceId
      allocationId := row.allocationId
      history := 0
      ttlMs := 0
      updates := false
      keyed := false }

variable {allocation : NativeAllocation}

theorem physical_eq_place
    (h : allocation.Of row) : allocation.physical naming row.ownerId = row.place naming := by
  obtain ⟨hname, hkind, hid, halloc⟩ := h
  unfold Resource.place NativeAllocation.physical NativeAllocation.queue NativeAllocation.owned
  rw [hname, hkind, hid, halloc]

/-- IDs name one row and are the digests they should be, allocation IDs were drawn, and a row's
place is the one its allocation owns. -/
structure Registered (naming : Naming) (drawn : List String) (rows : List Resource) : Prop where
  ids_nodup : (rows.map Resource.resourceId).Nodup
  allocations_nodup : (rows.map Resource.allocationId).Nodup
  named : ∀ row ∈ rows,
    row.resourceId = naming.resourceId row.ownerId row.participantId row.kind row.localName
  ulid : ∀ row ∈ rows, IsUlid row.allocationId
  drawn : ∀ row ∈ rows, row.allocationId ∈ drawn
  plain : ∀ row ∈ rows, '.' ∉ row.localName.toList
  place : ∀ row ∈ rows, row.physical = .name (ownedName row.resourceId row.allocationId) ∨
    row.physical = row.place naming

/-- What a step may make of a row. -/
structure Evolves (naming : Naming) (row row' : Resource) : Prop where
  identity : row'.identity = row.identity
  destroying : row.state = .destroying → row' = row
  physical : row'.physical = row.physical ∨ row'.physical = row.place naming

theorem Evolves.refl (naming : Naming) (row : Resource) : Evolves naming row row :=
  ⟨rfl, fun _ => rfl, .inl rfl⟩

theorem place_eq_of_identity
    (h : row'.identity = row.identity) : row'.place naming = row.place naming := by
  obtain ⟨hid, halloc, howner, -, hkind, hname⟩ := identity_eq_iff.mp h
  unfold Resource.place
  rw [hid, halloc, howner, hkind, hname]

theorem Evolves.trans (h : Evolves naming row row')
    (h' : Evolves naming row' row'') : Evolves naming row row'' := by
  refine ⟨h'.identity.trans h.identity, ?_, ?_⟩
  · intro hstate
    obtain rfl := h.destroying hstate
    exact h'.destroying hstate
  · rcases h'.physical with hplace | hplace
    · rcases h.physical with hplace' | hplace'
      · exact .inl (hplace.trans hplace')
      · exact .inr (hplace.trans hplace')
    · exact .inr (hplace.trans (place_eq_of_identity h.identity))

/-- A rewrite of the rows in which each evolves. -/
abbrev Rewrites (naming : Naming) : List Resource → List Resource → Prop :=
  List.Forall₂ (Evolves naming)

theorem Rewrites.map
    (h : ∀ row ∈ rows, Evolves naming row (update row)) :
    Rewrites naming rows (rows.map update) := by
  refine forall₂_map_right_iff.mpr (forall₂_same.mpr h)

theorem Rewrites.trans (h : Rewrites naming rows rows') (h' : Rewrites naming rows' rows'') :
    Rewrites naming rows rows'' := by
  induction h generalizing rows'' with
  | nil =>
    cases h'
    exact .nil
  | cons hhead _ ih =>
    cases h' with
    | cons hhead' htail' => exact .cons (hhead.trans hhead') (ih htail')

variable {drawn : List String}

theorem Registered.rewrite (hrows : Registered naming drawn rows) (h : Rewrites naming rows rows') :
    Registered naming drawn rows' := by
  have hids : rows.map Resource.resourceId = rows'.map Resource.resourceId :=
    map_eq_of_forall₂ h fun _ _ hevolves => (identity_eq_iff.mp hevolves.identity).1.symm
  have hallocations : rows.map Resource.allocationId = rows'.map Resource.allocationId :=
    map_eq_of_forall₂ h fun _ _ hevolves => (identity_eq_iff.mp hevolves.identity).2.1.symm
  refine ⟨hids ▸ hrows.ids_nodup, hallocations ▸ hrows.allocations_nodup, ?_, ?_, ?_, ?_, ?_⟩
  all_goals
    intro row' hrow'
    obtain ⟨row, hrow, hevolves⟩ := exists_left_of_mem h hrow'
    obtain ⟨hid, halloc, howner, hpart, hkind, hname⟩ := identity_eq_iff.mp hevolves.identity
  · rw [hid, howner, hpart, hkind, hname]
    exact hrows.named row hrow
  · exact halloc ▸ hrows.ulid row hrow
  · exact halloc ▸ hrows.drawn row hrow
  · exact hname ▸ hrows.plain row hrow
  · rw [place_eq_of_identity hevolves.identity, hid, halloc]
    rcases hevolves.physical with hplace | hplace
    · rw [hplace]
      exact hrows.place row hrow
    · exact .inr hplace

theorem Registered.sublist (hrows : Registered naming drawn rows) (h : rows'.Sublist rows) :
    Registered naming drawn rows' where
  ids_nodup := hrows.ids_nodup.sublist (h.map _)
  allocations_nodup := hrows.allocations_nodup.sublist (h.map _)
  named := fun row hrow => hrows.named row (h.subset hrow)
  ulid := fun row hrow => hrows.ulid row (h.subset hrow)
  drawn := fun row hrow => hrows.drawn row (h.subset hrow)
  plain := fun row hrow => hrows.plain row (h.subset hrow)
  place := fun row hrow => hrows.place row (h.subset hrow)

theorem Registered.mono
    (hrows : Registered naming drawn rows) (h : drawn ⊆ drawn') : Registered naming drawn' rows :=
  { hrows with drawn := fun row hrow => h (hrows.drawn row hrow) }

/-- A row is known by its resource ID. -/
theorem Registered.eq_of_id (hrows : Registered naming drawn rows) (hrow : row ∈ rows)
    (hrow' : row' ∈ rows) (h : row.resourceId = row'.resourceId) : row = row' :=
  inj_on_of_nodup_map hrows.ids_nodup hrow hrow' h

theorem Registered.eq_of_allocation (hrows : Registered naming drawn rows) (hrow : row ∈ rows)
    (hrow' : row' ∈ rows) (h : row.allocationId = row'.allocationId) : row = row' :=
  inj_on_of_nodup_map hrows.allocations_nodup hrow hrow' h

/-! ### Writes -/

theorem detachResource_evolves
    (h : detachResource deployment keep row = .ok row') : Evolves naming row row' := by
  unfold detachResource at h
  split at h
  · rw [← ok.inj h]
    exact .refl naming row
  next hother =>
    split at h
    · cases h
    · rw [← ok.inj h]
      exact ⟨rfl, fun hstate => absurd (.inr (.inr (.inr hstate))) hother, .inl rfl⟩

/-- A resource of another deployment, or one that is kept, is left alone. -/
theorem detachResource_keep (hkeep : row.ownerId ≠ deployment ∨ (row.kind, row.localName) ∈ keep)
    (h : detachResource deployment keep row = .ok row') : row' = row := by
  unfold detachResource at h
  rw [if_pos] at h
  · exact (ok.inj h).symm
  · rcases hkeep with howner | hkeep
    · exact .inl howner
    · exact .inr (.inl hkeep)

theorem detachDeploymentResources_rewrites
    (h : detachDeploymentResources rows deployment keep = .ok rows') : Rewrites naming rows rows' :=
  (mapM_eq_ok_iff.mp h).imp fun _ _ => detachResource_evolves

theorem Rewrites.refl (naming : Naming) (rows : List Resource) : Rewrites naming rows rows :=
  forall₂_same.mpr fun row _ => .refl naming row

/-- The tables a write does not touch, or those an installation or a lifecycle change leaves. -/
inductive NativeEffect (platform : Platform Claims Evidence Edit) :
    Store Claims Evidence → Store Claims Evidence → Prop
  | frame {store store'} (hdeployments : store'.deployments = store.deployments)
      (hbindings : store'.bindings = store.bindings)
      (hinstalled : store'.installed = store.installed)
      (hresources : store'.resources = store.resources) : NativeEffect platform store store'
  | install {store store' actor input existing title fresh deployment now}
      (hadmitted : Admitted store input existing fresh)
      (h : installDeployment platform store actor input existing title fresh now
        = .ok (store', deployment)) : NativeEffect platform store store'
  | lifecycle {store store' actor deployment expectedRevision state now}
      (h : changeDeployment platform store actor deployment expectedRevision state now
        = .ok store') : NativeEffect platform store store'

theorem Write.native (h : Write platform store store') : NativeEffect platform store store' := by
  cases h with
  | policy | review | accept | instanceState | updates | closeClaim => exact .frame rfl rfl rfl rfl
  | install hadm h => exact .install hadm h
  | provision h =>
    obtain ⟨d, b, state, rows, identities, -, -, -, -, rfl⟩ := provisionInstance_ok h
    exact .frame rfl rfl rfl rfl
  | move h =>
    obtain ⟨i, -, ⟨-, rfl⟩ | ⟨-, _, _, _, rows, -, -, -, rfl⟩⟩ := moveInstance_ok h
    all_goals exact .frame rfl rfl rfl rfl
  | lifecycle h => exact .lifecycle h
  | createClaim hfresh h =>
    obtain ⟨authority, rows, -, rfl⟩ := createClaim_ok h
    exact .frame rfl rfl rfl rfl

theorem Installs.rewrites
    (h : Installs platform store input existing deployment plan store') (naming : Naming) :
    Rewrites naming store.resources store'.resources := by
  obtain ⟨resources, hdetached, hres⟩ := h.resources
  have hrew : Rewrites naming store.resources resources :=
    detachDeploymentResources_rewrites hdetached
  rw [hres]
  split
  · refine hrew.trans (.map fun row _ => ?_)
    unfold carryEvidence
    split
    next hready =>
      exact ⟨rfl, fun hstate => absurd (hready.2.1.symm.trans hstate) (by decide), .inl rfl⟩
    · exact .refl naming row
  · exact hrew

/-- **No write creates, deletes or renames an allocation.** -/
theorem NativeEffect.rewrites (h : NativeEffect platform store store')
    (naming : Naming) : Rewrites naming store.resources store'.resources := by
  cases h with
  | frame _ _ _ hres =>
    rw [hres]
    exact .refl naming _
  | install _ h =>
    obtain ⟨-, plan, -, hins⟩ := installDeployment_ok h
    exact hins.rewrites naming
  | lifecycle h =>
    obtain ⟨d, b, resources, identities, -, hres, rfl⟩ := changeDeployment_ok h
    unfold lifecycleResources at hres
    split at hres
    · exact detachDeploymentResources_rewrites hres
    rw [← ok.inj hres]
    refine .map fun row _ => ?_
    split
    next hready =>
      exact ⟨rfl, fun hstate => absurd (hready.2.1.symm.trans hstate) (by decide), .inl rfl⟩
    · exact .refl naming row

/-- Installed revisions stay installed. -/
theorem NativeEffect.installed (h : NativeEffect platform store store') :
    ∃ new, store'.installed = store.installed ++ new := by
  cases h with
  | frame _ _ hinst _ => exact ⟨[], by rw [hinst, append_nil]⟩
  | install _ h =>
    obtain ⟨-, plan, -, hins⟩ := installDeployment_ok h
    obtain ⟨revision, -, -, hinst⟩ := hins.binding
    rw [hinst]
    split
    · exact ⟨[], (append_nil _).symm⟩
    · exact ⟨_, rfl⟩
  | lifecycle h =>
    obtain ⟨d, b, resources, identities, -, -, rfl⟩ := changeDeployment_ok h
    exact ⟨[], (append_nil _).symm⟩

/-- A deployment stays, with its participant. -/
theorem NativeEffect.deployment (h : NativeEffect platform store store')
    (hd : d ∈ store.deployments) :
    ∃ d' ∈ store'.deployments, d'.deploymentId = d.deploymentId ∧
      d'.participantId = d.participantId := by
  cases h with
  | frame hdeps _ _ _ => exact ⟨d, hdeps ▸ hd, rfl, rfl⟩
  | install _ h =>
    obtain ⟨-, plan, -, hins⟩ := installDeployment_ok h
    obtain ⟨new, hdeps, -⟩ := hins.deployments
    exact ⟨d, hdeps ▸ mem_append_left _ hd, rfl, rfl⟩
  | lifecycle h =>
    obtain ⟨_, _, resources, identities, -, -, rfl⟩ := changeDeployment_ok h
    refine ⟨_, mem_map_of_mem hd, ?_⟩
    split <;> exact ⟨rfl, rfl⟩

/-! ### Extends -/

theorem planOne_ok (h : planOne naming deployment participant bindingRevision fresh rows declared
      = .ok (rows', allocation)) : (∃ row ∈ rows, row.resourceId
        = naming.resourceId deployment participant declared.2.kind declared.1 ∧
      row.state ≠ .destroying ∧
      allocation = allocate naming deployment participant declared row.allocationId ∧
      rows' = rows.map fun row =>
        if row.resourceId = naming.resourceId deployment participant declared.2.kind declared.1 then
          { row with state := .pending } else row) ∨
    ((∀ row ∈ rows, row.resourceId
        ≠ naming.resourceId deployment participant declared.2.kind declared.1) ∧
      allocation = allocate naming deployment participant declared (fresh declared.1) ∧
      rows' = rows ++ [plannedRow deployment participant bindingRevision allocation]) := by
  unfold planOne at h
  dsimp only at h
  split at h
  next row hfind =>
    obtain ⟨hstate, h⟩ := guard_eq_ok.mp h
    cases h
    exact .inl ⟨row, mem_of_find?_eq_some hfind, (of_find? hfind :), hstate, rfl, rfl⟩
  next hnone =>
    cases h
    refine .inr ⟨?_, rfl, rfl⟩
    intro row hrow hid
    exact find?_eq_none.mp hnone row hrow (decide_eq_true hid)

/-- What a step that detaches nothing makes of a row. -/
structure Stays (naming : Naming) (row row' : Resource) : Prop where
  evolves : Evolves naming row row'
  attached : row.Attached → row'.Attached
  destroying : row'.state = .destroying → row' = row

theorem Stays.refl (naming : Naming) (row : Resource) : Stays naming row row :=
  ⟨.refl naming row, id, fun _ => rfl⟩

theorem Stays.of_attached (hident : row'.identity = row.identity)
    (hphys : row'.physical = row.physical ∨ row'.physical = row.place naming)
    (hstate : row.state ≠ .destroying) (hatt : row'.Attached) : Stays naming row row' :=
  ⟨⟨hident, fun hdest => absurd hdest hstate, hphys⟩, fun _ => hatt,
    fun hdest => absurd hdest hatt.2⟩

/-- What a step that detaches nothing makes of the rows: each evolves and stays attached, the others
are new, and none more is being destroyed. -/
structure Extends (naming : Naming) (drawn : List String) (rows rows' : List Resource) : Prop where
  old : ∀ row ∈ rows, ∃ row' ∈ rows', Evolves naming row row' ∧ (row.Attached → row'.Attached)
  new : ∀ row' ∈ rows', (∃ row ∈ rows, Evolves naming row row') ∨
    (∀ row ∈ rows, row.resourceId ≠ row'.resourceId) ∧ row'.allocationId ∉ drawn
  destroying : ∀ row' ∈ rows', row'.state = .destroying → row' ∈ rows

theorem Extends.refl (naming : Naming) (drawn : List String) (rows : List Resource) :
    Extends naming drawn rows rows where
  old := fun row hrow => ⟨row, hrow, .refl naming row, id⟩
  new := fun row hrow => .inl ⟨row, hrow, .refl naming row⟩
  destroying := fun _ hrow _ => hrow

theorem Extends.map (h : ∀ row ∈ rows, Stays naming row (update row)) :
    Extends naming drawn rows (rows.map update) := by
  refine ⟨?_, ?_, ?_⟩
  · exact fun row hrow => ⟨_, mem_map_of_mem hrow, (h row hrow).evolves, (h row hrow).attached⟩
  · exact forall_mem_map.mpr fun row hrow => .inl ⟨row, hrow, (h row hrow).evolves⟩
  · refine forall_mem_map.mpr fun row hrow hstate => ?_
    rw [(h row hrow).destroying hstate]
    exact hrow

theorem Extends.trans
    (h : Extends naming drawn rows rows') (h' : Extends naming drawn rows' rows'') :
    Extends naming drawn rows rows'' := by
  refine ⟨?_, ?_, fun row hrow hstate => h.destroying row (h'.destroying row hrow hstate) hstate⟩
  · intro row hrow
    obtain ⟨row', hrow', hevolves, hatt⟩ := h.old row hrow
    obtain ⟨row'', hrow'', hevolves', hatt'⟩ := h'.old row' hrow'
    exact ⟨row'', hrow'', hevolves.trans hevolves', fun hrow => hatt' (hatt hrow)⟩
  · intro row'' hrow''
    rcases h'.new row'' hrow'' with ⟨row', hrow', hevolves'⟩ | ⟨hother, hfresh⟩
    · obtain ⟨hid, halloc, -⟩ := identity_eq_iff.mp hevolves'.identity
      rcases h.new row' hrow' with ⟨row, hrow, hevolves⟩ | ⟨hother, hfresh⟩
      · exact .inl ⟨row, hrow, hevolves.trans hevolves'⟩
      · rw [hid, halloc]
        exact .inr ⟨hother, hfresh⟩
    · refine .inr ⟨?_, hfresh⟩
      intro row hrow
      obtain ⟨row', hrow', hevolves, -⟩ := h.old row hrow
      rw [← (identity_eq_iff.mp hevolves.identity).1]
      exact hother row' hrow'

section Planning

theorem planOne_extends (hdrawn : fresh declared.1 ∉ drawn) (hrows : Registered naming drawn rows)
    (h : planOne naming deployment participant bindingRevision fresh rows declared
      = .ok (rows', allocation)) : Extends naming drawn rows rows' := by
  rcases planOne_ok h with ⟨planned, hplan, hid, hstate, -, rfl⟩ | ⟨hother, rfl, rfl⟩
  · -- the one row with the ID is not being destroyed
    have hone : ∀ row ∈ rows, row.resourceId
        = naming.resourceId deployment participant declared.2.kind declared.1 →
        row.state ≠ .destroying := by
      intro row hrow hid'
      rw [hrows.eq_of_id hrow hplan (hid'.trans hid.symm)]
      exact hstate
    refine .map fun row hrow => ?_
    split
    next hid' => exact .of_attached rfl (.inl rfl) (hone row hrow hid') ⟨nofun, nofun⟩
    · exact .refl naming row
  · refine ⟨?_, ?_, ?_⟩
    · exact fun row hrow => ⟨row, mem_append_left _ hrow, .refl naming row, id⟩
    · refine forall_mem_concat ?_ (.inr ⟨hother, hdrawn⟩)
      exact fun row hrow => .inl ⟨row, hrow, .refl naming row⟩
    · exact forall_mem_concat (fun _ hrow _ => hrow) nofun

theorem planOne_registered (hulid : IsUlid (fresh declared.1))
    (hdrawn : fresh declared.1 ∉ drawn) (hplain : '.' ∉ declared.1.toList)
    (hrows : Registered naming drawn rows)
    (h : planOne naming deployment participant bindingRevision fresh rows declared
      = .ok (rows', allocation)) :
    Registered naming (drawn ++ [allocation.allocationId]) rows' := by
  have hmore : drawn ⊆ drawn ++ [allocation.allocationId] := subset_append_left _ _
  rcases planOne_ok h with ⟨planned, hplan, hid, hstate, -, rfl⟩ | ⟨hother, rfl, rfl⟩
  · refine (hrows.rewrite (.map fun row hrow => ?_)).mono hmore
    split
    next hid' =>
      refine ⟨rfl, fun hdest => absurd hdest ?_, .inl rfl⟩
      rw [hrows.eq_of_id hrow hplan (hid'.trans hid.symm)]
      exact hstate
    · exact .refl naming row
  · have hold := hrows.mono hmore
    refine ⟨?_, ?_, ?_, ?_, ?_, ?_, ?_⟩
    · exact nodup_map_concat hold.ids_nodup hother
    · refine nodup_map_concat hold.allocations_nodup fun row hrow heq => ?_
      exact hdrawn (Eq.subst (motive := (· ∈ drawn)) heq (hrows.drawn row hrow))
    · exact forall_mem_concat hold.named rfl
    · exact forall_mem_concat hold.ulid hulid
    · exact forall_mem_concat hold.drawn (mem_append_right _ mem_cons_self)
    · exact forall_mem_concat hold.plain hplain
    · exact forall_mem_concat hold.place (.inl rfl)

/-- What the whole loop leaves. -/
theorem planAll_ok (h : planAll naming deployment participant bindingRevision fresh declared rows
      = .ok (rows', allocations)) : List.Forall₂ (fun declared allocation => ∃ allocationId,
      allocation = allocate naming deployment participant declared allocationId)
      declared allocations := by
  induction declared generalizing rows allocations with
  | nil =>
    obtain ⟨-, rfl⟩ := Prod.mk.inj (ok.inj h)
    exact .nil
  | cons declared rest ih =>
    obtain ⟨⟨middle, allocation⟩, hone, h⟩ := bind_eq_ok.mp h
    obtain ⟨⟨final, others⟩, hrest, h⟩ := bind_eq_ok.mp h
    cases h
    refine .cons ?_ (ih hrest)
    rcases planOne_ok hone with ⟨planned, -, -, -, halloc, -⟩ | ⟨-, halloc, -⟩ <;> exact ⟨_, halloc⟩

theorem planAll_keeps (hdraws : Draws drawn fresh (declared.map Prod.fst))
    (hplain : ∀ entry ∈ declared, '.' ∉ entry.1.toList) (hrows : Registered naming drawn rows)
    (h : planAll naming deployment participant bindingRevision fresh declared rows
      = .ok (rows', allocations)) : Extends naming drawn rows rows' ∧
      Registered naming (drawn ++ allocations.map NativeAllocation.allocationId) rows' := by
  induction declared generalizing rows allocations drawn with
  | nil =>
    cases h
    exact ⟨.refl naming drawn _, by simpa using hrows⟩
  | cons declared rest ih =>
    obtain ⟨⟨middle, allocation⟩, hone, h⟩ := bind_eq_ok.mp h
    obtain ⟨⟨final, others⟩, hrest, h⟩ := bind_eq_ok.mp h
    cases h
    have hnew := hdraws.new declared.1 mem_cons_self
    have hmiddle := planOne_registered (hdraws.ulid declared.1 mem_cons_self) hnew
      (hplain declared mem_cons_self) hrows hone
    -- the other IDs are new beside the one this round may have drawn
    have hdraws' : Draws (drawn ++ [allocation.allocationId]) fresh (rest.map Prod.fst) := by
      refine ⟨fun name hname => hdraws.ulid name (mem_cons_of_mem _ hname), ?_,
        hdraws.nodup.of_cons⟩
      intro name hname hmem
      rcases mem_append.mp hmem with hmem | hmem
      · exact hdraws.new name (mem_cons_of_mem _ hname) hmem
      have heq : fresh name = allocation.allocationId := mem_singleton.mp hmem
      rcases planOne_ok hone with ⟨planned, hplan, -, -, rfl, -⟩ | ⟨-, rfl, -⟩
      · apply hdraws.new name (mem_cons_of_mem _ hname)
        rw [heq]
        exact hrows.drawn planned hplan
      · have hsame : fresh name = fresh declared.1 := heq
        exact (nodup_cons.mp hdraws.nodup).1 (hsame ▸ mem_map_of_mem hname)
    obtain ⟨hext, hregd⟩ := ih hdraws'
      (fun entry hentry => hplain entry (mem_cons_of_mem _ hentry)) hmiddle hrest
    refine ⟨(planOne_extends hnew hrows hone).trans ⟨hext.old, ?_, hext.destroying⟩, ?_⟩
    · intro row hrow
      rcases hext.new row hrow with hold | ⟨hother, hfresh⟩
      · exact .inl hold
      · exact .inr ⟨hother, fun hmem => hfresh (mem_append_left _ hmem)⟩
    · rwa [append_assoc] at hregd

end Planning

/-! ### Declarations -/

/-- A revision of a participant declares the resource. -/
def Declares (platform : Platform Claims Evidence Edit) (store : Store Claims Evidence)
    (participantId : String) (revision : Nat) (kind : ResourceKind) (name : String) : Prop :=
  ∃ participant, revisionParticipant platform store participantId revision = .ok participant ∧
    (kind, name) ∈ participant.resourceIdentities

variable {participant : Participant}

theorem revisionParticipant_ok :
    revisionParticipant platform store participantId revision = .ok participant ↔
      ∃ row graph, store.installed.find? (fun row => row.participantId = participantId ∧
          row.revision = revision) = some row ∧ platform.compileEvidence row.evidence = .ok graph ∧
        graph.participants.find? (fun row => row.participantId = participantId)
          = some participant := by
  unfold revisionParticipant installedEvidence
  constructor
  · intro h
    obtain ⟨evidence, hev, hrest⟩ := bind_eq_ok.mp h
    obtain ⟨graph, hgraph, hmatch⟩ := bind_eq_ok.mp hrest
    split at hev
    · cases hev
    rename_i row hrow
    cases hev
    split at hmatch
    · cases hmatch
    next found hfound => exact ⟨row, graph, hrow, hgraph, (ok.inj hmatch) ▸ hfound⟩
  · rintro ⟨row, graph, hrow, hgraph, hfound⟩
    rw [hrow]
    refine bind_eq_ok.mpr ⟨row.evidence, rfl, bind_eq_ok.mpr ⟨graph, hgraph, ?_⟩⟩
    rw [hfound]

theorem Declares.of_append (hinst : store'.installed = store.installed ++ new)
    (h : Declares platform store participantId revision kind name) :
    Declares platform store' participantId revision kind name := by
  obtain ⟨participant, hpart, hdecl⟩ := h
  obtain ⟨row, graph, hrow, hrest⟩ := revisionParticipant_ok.mp hpart
  refine ⟨participant, revisionParticipant_ok.mpr ⟨row, graph, ?_, hrest⟩, hdecl⟩
  rw [hinst, find?_append, hrow, Option.some_or]

/-- The compiler admits no dot in the name of a resource. -/
def PlainNames (platform : Platform Claims Evidence Edit) : Prop :=
  ∀ evidence graph, platform.compileEvidence evidence = .ok graph →
    ∀ participant ∈ graph.participants, ∀ entry ∈ participant.resources, '.' ∉ entry.1.toList

/-- What a plan that was made has to do with the tables. -/
structure Planned (platform : Platform Claims Evidence Edit) (naming : Naming)
    (store : Store Claims Evidence) (plan : ResourcePlan) : Prop where
  deployment : ∃ d ∈ store.deployments, d.deploymentId = plan.deployment ∧
    d.participantId = plan.participant
  named : ∀ allocation ∈ plan.allocations, allocation.resourceId
    = naming.resourceId plan.deployment plan.participant allocation.kind allocation.name
  declared : ∀ allocation ∈ plan.allocations,
    Declares platform store plan.participant plan.installedRevision allocation.kind allocation.name

/-- What the first transaction of a materialization does. -/
theorem planResources_ok (h : planResources platform naming store deployment fresh = .ok planned) :
    ∃ d b participant rows, boundDeployment store deployment = some (d, b) ∧
      revisionParticipant platform store d.participantId b.installedRevision = .ok participant ∧
      planAll naming deployment d.participantId b.revision fresh participant.resources
        store.resources = .ok (rows, planned.2.allocations) ∧
      planned.1 = { store with resources := rows } ∧ planned.2.deployment = deployment ∧
      planned.2.participant = d.participantId ∧
      planned.2.installedRevision = b.installedRevision := by
  unfold planResources at h
  split at h
  next d b hbound =>
    split at h
    next i hi =>
      obtain ⟨evidence, hev, h⟩ := bind_eq_ok.mp h
      obtain ⟨graph, hgraph, h⟩ := bind_eq_ok.mp h
      obtain ⟨participant, hpart, h⟩ := bind_eq_ok.mp h
      obtain ⟨⟨rows, allocations⟩, hplan, h⟩ := bind_eq_ok.mp h
      cases h
      refine ⟨d, b, participant, rows, (Option.filter_eq_some_iff.mp hbound).1, ?_, hplan, rfl, rfl,
        rfl, rfl⟩
      apply revisionParticipant_ok.mpr
      unfold installedEvidence at hev
      unfold PackageGraph.participant at hpart
      split at hev
      · cases hev
      rename_i row hrow
      cases hev
      split at hpart
      · cases hpart
      next found hfound => exact ⟨row, graph, hrow, hgraph, (ok.inj hpart) ▸ hfound⟩
    · cases h
  · cases h

theorem mem_resourceIdentities (h : entry ∈ participant.resources) :
    (entry.2.kind, entry.1) ∈ participant.resourceIdentities :=
  mem_map_of_mem h (f := fun entry : String × ResourceDefinition => (entry.2.kind, entry.1))

/-- A plan allocates what the revision it is for declares. -/
theorem planResources_planned
    (h : planResources platform naming store deployment fresh = .ok planned) :
    Planned platform naming planned.1 planned.2 := by
  obtain ⟨d, b, participant, rows, hbound, hpart, hplan, hstore, hdep, hid,
    hrev⟩ := planResources_ok h
  have hd := (boundDeployment_eq_some.mp hbound).1
  have hallocations := planAll_ok hplan
  refine ⟨⟨d, ?_, ?_, hid.symm⟩, ?_, ?_⟩
  · rw [hstore]
    exact mem_of_find?_eq_some hd
  · rw [hdep]
    exact (of_find? hd :)
  · intro allocation halloc
    obtain ⟨entry, -, allocationId, rfl⟩ := exists_left_of_mem hallocations halloc
    rw [hdep, hid]
    rfl
  · intro allocation halloc
    obtain ⟨entry, hentry, allocationId, rfl⟩ := exists_left_of_mem hallocations halloc
    rw [hid, hrev, hstore]
    exact ⟨participant, hpart, mem_resourceIdentities hentry⟩

/-! ### Outcomes -/

theorem failPlan_stays (naming : Naming) (store : Store Claims Evidence) (plan : ResourcePlan) :
    ∃ update, (failPlan store plan).resources = store.resources.map update ∧
      ∀ row, Stays naming row (update row) := by
  refine ⟨_, rfl, fun row => ?_⟩
  split
  next hpend =>
    refine .of_attached rfl (.inl rfl) ?_ ⟨nofun, nofun⟩
    rw [hpend.1]
    decide
  · exact .refl naming row

theorem updateOne_exists {rows rows' : List α} {select : α → Bool} {update : α → α}
    (h : updateOne rows select update = .ok rows') : ∃ row ∈ rows, select row = true := by
  unfold updateOne at h
  rw [guard_eq_ok, not_not] at h
  obtain ⟨row, hrow⟩ := exists_mem_of_length_pos (Nat.lt_of_lt_of_eq Nat.one_pos h.1.symm)
  exact ⟨row, mem_filter.mp hrow⟩

/-- The rows of an allocation that is committed: it was pending and is ready. -/
theorem commitOne_ok (hplan : Planned platform naming store plan)
    (hrows : Registered naming drawn rows) (halloc : allocation ∈ plan.allocations)
    (h : commitOne naming plan rows allocation = .ok rows') :
    (∃ update, rows' = rows.map update ∧ ∀ row ∈ rows, Stays naming row (update row)) ∧
      ∃ row ∈ rows', allocation.Of row ∧ row.ownerId = plan.deployment ∧
        row.participantId = plan.participant ∧ row.Attached := by
  have hselect : ∀ row ∈ rows, decide (row.resourceId = allocation.resourceId ∧
      row.allocationId = allocation.allocationId ∧ row.state = .pending) = true →
      allocation.Of row ∧ row.ownerId = plan.deployment ∧
        row.participantId = plan.participant ∧ row.state = .pending := by
    intro row hrow hselect
    obtain ⟨hid, hsame, hpend⟩ := of_decide_eq_true hselect
    have hdig := (hrows.named row hrow).symm.trans (hid.trans (hplan.named allocation halloc))
    obtain ⟨howner, hpart, hkind, hname⟩ := naming.resourceId_inj hdig
    exact ⟨⟨hname.symm, hkind.symm, hid.symm, hsame.symm⟩, howner, hpart, hpend⟩
  obtain ⟨row, hrow, hrowSelect⟩ := updateOne_exists h
  obtain rfl := updateOne_ok h
  refine ⟨⟨_, rfl, ?_⟩, ?_⟩
  · intro row hrow
    split
    next hrowSelect =>
      obtain ⟨hof, howner, -, hpend⟩ := hselect row hrow hrowSelect
      refine .of_attached rfl (.inr ?_) ?_ ⟨nofun, nofun⟩
      · rw [← physical_eq_place hof, howner]
      · rw [hpend]
        decide
    · exact .refl naming row
  · obtain ⟨hof, howner, hpart, -⟩ := hselect row hrow hrowSelect
    refine ⟨_, mem_map_of_mem hrow, ?_⟩
    rw [if_pos hrowSelect]
    exact ⟨hof, howner, hpart, nofun, nofun⟩

/-- **What a plan commits is attached.** -/
theorem commitAll_ok (hplan : Planned platform naming store plan)
    (hsub : allocations ⊆ plan.allocations) (hrows : Registered naming drawn rows)
    (h : allocations.foldlM (commitOne naming plan) rows = .ok rows') :
    Rewrites naming rows rows' ∧ Extends naming drawn rows rows' ∧
      ∀ allocation ∈ allocations, ∃ row ∈ rows', allocation.Of row ∧
        row.ownerId = plan.deployment ∧ row.participantId = plan.participant ∧ row.Attached := by
  induction allocations generalizing rows with
  | nil =>
    cases h
    exact ⟨.refl naming _, .refl naming drawn _, nofun⟩
  | cons allocation rest ih =>
    obtain ⟨middle, hmiddle, h⟩ := bind_eq_ok.mp h
    obtain ⟨⟨update, rfl, hstays⟩, hcomm⟩ := commitOne_ok hplan hrows (hsub mem_cons_self) hmiddle
    have hrew : Rewrites naming rows (rows.map update) :=
      .map fun row hrow => (hstays row hrow).evolves
    obtain ⟨hrest, hext, hothers⟩ :=
      ih (fun _ hmem => hsub (mem_cons_of_mem _ hmem)) (hrows.rewrite hrew) h
    refine ⟨hrew.trans hrest, (Extends.map hstays).trans hext, ?_⟩
    intro other hother
    rcases mem_cons.mp hother with rfl | hother
    · -- the rounds that follow leave the row attached
      obtain ⟨row, hrow, ⟨hname, hkind, hid, hsame⟩, howner, hpart, hatt⟩ := hcomm
      obtain ⟨row', hrow', hevolves, hstill⟩ := hext.old row hrow
      obtain ⟨hid', hsame', howner', hpart', hkind', hname'⟩ := identity_eq_iff.mp hevolves.identity
      exact ⟨row', hrow', ⟨hname.trans hname'.symm, hkind.trans hkind'.symm, hid.trans hid'.symm,
        hsame.trans hsame'.symm⟩, howner'.trans howner, hpart'.trans hpart,
        hstill hatt⟩
    · exact hothers other hother

/-- The tables a commit leaves. -/
theorem commitPlan_ok (h : commitPlan naming store plan = .ok store') :
    ∃ d b rows, boundDeployment store plan.deployment = some (d, b) ∧
      b.installedRevision = plan.installedRevision ∧
      plan.allocations.foldlM (commitOne naming plan) store.resources = .ok rows ∧
      store' = { store with
        resources := rows
        bindings := store.bindings.map fun b =>
          if b.deploymentId = plan.deployment then
            { b with resourceCommitments := planBindings naming plan.deployment plan.allocations }
          else b } := by
  unfold commitPlan at h
  simp only [error_bind, guard_eq_ok, bind_eq_ok, pure_eq_ok, not_not] at h
  obtain ⟨hcur, rows, hrows, rfl⟩ := h
  obtain ⟨⟨d, b⟩, hbound, hrev⟩ := Option.map_eq_some_iff.mp hcur
  exact ⟨d, b, rows, (Option.filter_eq_some_iff.mp hbound).1, (Prod.mk.inj hrev).1, hrows, rfl⟩

/-- The row a removal begins with, and the rows it leaves. -/
theorem beginRemoval_ok (h : beginRemoval naming rows resourceId expectedRevision = .ok begun) :
    ∃ row ∈ rows, row.resourceId = resourceId ∧ row.state = .detached ∧
      physicalMatches naming row = true ∧
      begun = (rows.map fun row => if row.resourceId = resourceId then
            { row with state := .destroying, revision := row.revision + 1 } else row,
        { row with state := .destroying, revision := row.revision + 1 }) := by
  unfold beginRemoval at h
  split at h
  · cases h
  rename_i row hfind
  simp only [guard_eq_ok, not_or, not_not] at h
  obtain ⟨⟨hstate, -⟩, -, hphys, h⟩ := h
  refine ⟨row, mem_of_find?_eq_some hfind, (of_find? hfind :),
    hstate, by simpa using hphys, (ok.inj h).symm⟩

theorem beginRemoval_rewrites (hrows : Registered naming drawn rows)
    (h : beginRemoval naming rows resourceId expectedRevision = .ok begun) :
    Rewrites naming rows begun.1 ∧ ∀ row ∈ rows, row.Attached → row ∈ begun.1 := by
  obtain ⟨row, hrow, hid, hstate, -, rfl⟩ := beginRemoval_ok h
  have hone : ∀ other ∈ rows, other.resourceId = resourceId → other.state = .detached := by
    intro other hother hsame
    rw [hrows.eq_of_id hother hrow (hsame.trans hid.symm)]
    exact hstate
  constructor
  · refine .map fun other hother => ?_
    split
    next hsame =>
      refine ⟨rfl, fun hdest => ?_, .inl rfl⟩
      rw [hone other hother hsame] at hdest
      cases hdest
    · exact .refl naming other
  · intro other hother hatt
    refine mem_map.mpr ⟨other, hother, if_neg fun hsame => ?_⟩
    exact hatt.1 (hone other hother hsame)

theorem finishRemoval_ok (h : finishRemoval rows resourceId allocationId revision = .ok rows') :
    rows' = rows.filter fun row => !decide (row.resourceId = resourceId ∧
      row.allocationId = allocationId ∧ row.revision = revision ∧ row.state = .destroying) :=
  deleteOne_ok h

/-! ## The invariant of every run -/

/-- The tables agree, the rows are registered, and plans are of installed revisions. -/
structure Accounted (platform : Platform Claims Evidence Edit) (naming : Naming)
    (world : World Claims Evidence) : Prop where
  sound : Sound platform world.store
  rows : Registered naming world.drawn world.store.resources
  plans : ∀ plan ∈ world.plans, Planned platform naming world.store plan

theorem Accounted.initial (platform : Platform Claims Evidence Edit) (naming : Naming)
    (policy : PolicyTables Claims) :
    Accounted platform naming (World.initial policy : World Claims Evidence) where
  sound := Sound.initial platform policy
  rows := by
    refine ⟨nodup_nil, nodup_nil, ?_, ?_, ?_, ?_, ?_⟩
    all_goals exact nofun
  plans := nofun

theorem Planned.frame (h : Planned platform naming store plan)
    (hdeps : ∀ d ∈ store.deployments, ∃ d' ∈ store'.deployments,
      d'.deploymentId = d.deploymentId ∧ d'.participantId = d.participantId)
    (hinst : store'.installed = store.installed ++ new) : Planned platform naming store' plan := by
  obtain ⟨d, hd, hid, hpart⟩ := h.deployment
  obtain ⟨d', hd', hid', hpart'⟩ := hdeps d hd
  exact ⟨⟨d', hd', hid'.trans hid, hpart'.trans hpart⟩, h.named,
    fun allocation halloc => (h.declared allocation halloc).of_append hinst⟩

/-- Rewritten resources and bindings leave the tables sound, if bindings keep their revisions. -/
theorem Sound.rebind
    (hsound : Sound platform store) (resources : List Resource) {update : Binding → Binding}
    (hupd : ∀ b, (update b).deploymentId = b.deploymentId ∧
      (update b).installedRevision = b.installedRevision ∧
      (update b).implementationDigest = b.implementationDigest ∧
      (update b).required = b.required ∧ (update b).optional = b.optional) :
    Sound platform { store with resources, bindings := store.bindings.map update } := by
  refine ⟨⟨?_, ?_⟩, hsound.keyed.of_keys rfl (fun p hp => ⟨p, hp, rfl⟩) rfl rfl,
    hsound.deployments_nodup, hsound.updates_nodup, ?_, hsound.claim⟩
  · exact nodup_key_map (fun b => (hupd b).1) hsound.consistent.bindings_nodup
  · intro deployment d b' hbound
    obtain ⟨hd, hb'⟩ := boundDeployment_eq_some.mp hbound
    rw [find?_map_of_key (fun b => by rw [(hupd b).1])] at hb'
    obtain ⟨b, hb, rfl⟩ := Option.map_eq_some_iff.mp hb'
    obtain ⟨-, hrev, hdig, hreq, hopt⟩ := hupd b
    rw [hrev, hdig, hreq, hopt]
    exact hsound.consistent.current deployment d b (boundDeployment_eq_some.mpr ⟨hd, hb⟩)
  · intro b' hb'
    obtain ⟨b, hb, rfl⟩ := mem_map.mp hb'
    rw [(hupd b).1]
    exact hsound.bound b hb

theorem Sound.withResources (hsound : Sound platform store) (resources : List Resource) :
    Sound platform { store with resources } :=
  hsound.frame rfl rfl rfl rfl rfl (fun p hp => ⟨p, hp, rfl⟩) rfl

theorem Planned.withResources (h : Planned platform naming store plan) (resources : List Resource) :
    Planned platform naming { store with resources } plan :=
  h.frame (fun d hd => ⟨d, hd, rfl, rfl⟩) (append_nil _).symm

variable {world : World Claims Evidence}

/-- What a plan makes of the rows. -/
theorem planResources_rows (hplain : PlainNames platform)
    (hrows : Registered naming world.drawn world.store.resources)
    (hdraws : Draws world.drawn fresh (planned.2.allocations.map NativeAllocation.name))
    (h : planResources platform naming world.store deployment fresh = .ok planned) :
    Extends naming world.drawn world.store.resources planned.1.resources ∧
      Registered naming (world.drawn ++ planned.2.allocations.map NativeAllocation.allocationId)
        planned.1.resources := by
  obtain ⟨d, b, participant, rows, hbound, hpart, hplan, hstore, -⟩ := planResources_ok h
  have hnames : planned.2.allocations.map NativeAllocation.name
      = participant.resources.map Prod.fst := by
    refine (map_eq_of_forall₂ (planAll_ok hplan) ?_).symm
    rintro entry allocation ⟨allocationId, rfl⟩
    rfl
  rw [hnames] at hdraws
  obtain ⟨row, graph, -, hgraph, hfound⟩ := revisionParticipant_ok.mp hpart
  rw [hstore]
  exact planAll_keeps hdraws
    (hplain _ graph hgraph participant (mem_of_find?_eq_some hfound)) hrows hplan

/-- **Every step keeps the account.** -/
theorem Accounted.step (hdig : DigestFaithful platform) (hplain : PlainNames platform)
    (h : NativeStep platform naming world world')
    (hworld : Accounted platform naming world) : Accounted platform naming world' := by
  cases h
  case beginRemoval h =>
    exact ⟨hworld.sound.withResources _,
      hworld.rows.rewrite (beginRemoval_rewrites hworld.rows h).1,
      fun plan hplan => (hworld.plans plan hplan).withResources _⟩
  case finishRemoval h =>
    refine ⟨hworld.sound.withResources _, hworld.rows.sublist ?_,
      fun plan hplan => (hworld.plans plan hplan).withResources _⟩
    rw [finishRemoval_ok h]
    exact filter_sublist
  rename_i h
  cases h with
  | write h =>
    have heffect := h.native
    obtain ⟨new, hinst⟩ := heffect.installed
    refine ⟨hworld.sound.write hdig h, hworld.rows.rewrite (heffect.rewrites naming), ?_⟩
    intro plan hplan
    exact (hworld.plans plan hplan).frame (fun d hd => heffect.deployment hd) hinst
  | @plan _ _ planned hdraws h =>
    have hplanned := planResources_planned h
    obtain ⟨-, hregd⟩ := planResources_rows hplain hworld.rows hdraws h
    obtain ⟨d, b, participant, rows, -, -, -, hstore, -⟩ := planResources_ok h
    rw [hstore] at hplanned hregd ⊢
    refine ⟨hworld.sound.withResources rows, hregd, ?_⟩
    exact forall_mem_concat (fun plan hmem => (hworld.plans plan hmem).withResources rows) hplanned
  | @fail plan hplan =>
    obtain ⟨update, hres, hstays⟩ := failPlan_stays naming world.store plan
    refine ⟨hworld.sound.withResources _, ?_, fun other hother =>
      (hworld.plans other hother).withResources _⟩
    rw [hres]
    exact hworld.rows.rewrite (.map fun row _ => (hstays row).evolves)
  | commit hplan h =>
    obtain ⟨d, b, rows, -, -, hcom, rfl⟩ := commitPlan_ok h
    obtain ⟨hrew, -⟩ := commitAll_ok (hworld.plans _ hplan) (List.Subset.refl _) hworld.rows hcom
    refine ⟨hworld.sound.rebind rows fun b => ?_, hworld.rows.rewrite hrew, ?_⟩
    · split <;> exact ⟨rfl, rfl, rfl, rfl, rfl⟩
    · intro other hother
      exact (hworld.plans other hother).frame (fun d hd => ⟨d, hd, rfl, rfl⟩) (append_nil _).symm

end Deployments
