/-
# The transport policy of a native instance

What a running service or device may publish and subscribe to: the part of `compile_transport`
that reads the deployment's resource bindings, over the projection of the instance
(`project_instance`) and the check of its bootstrap (`native_bootstrap`).

An instance on the current revision gets the bindings as listed, one pinned to an older revision
those that both declare alike.  So a policy reaches the data of an allocation only if both declare
the resource and the allocation is attached, as long as what is listed is.
-/
import Trellis.Deployments.Listed
import Trellis.Protocol.TransportAuthorization

open Catalog Auth TransportAuthorization

namespace Deployments

open List Checked

variable {Claims Evidence Edit : Type}

/-! ## Projecting an instance -/

/-- The representation a State or KV resource keeps. -/
def ResourceDefinition.representation (definition : ResourceDefinition) : Option Representation :=
  match definition.body with
  | .state representation => some representation
  | .kv representation _ _ _ => some representation
  | _ => none

/-- `compare_resource_evolution`, for representations that exist on both sides. -/
def representationEvolves (old new : Representation) : Bool :=
  !(old.version = new.version && old.schema ≠ new.schema) && !(new.version < old.version) &&
    (old.accepts.all fun historic => historic ∈ new.accepts) &&
    (old.version = new.version || (old.version, old.schema) ∈ new.accepts)

/-- `compare_resource_evolution`: whether the replacement may follow the declaration. -/
def compareResourceEvolution (previous replacement : ResourceDefinition) : Bool :=
  previous.kind = replacement.kind && previous.optional = replacement.optional &&
    match previous.representation, replacement.representation with
    | none, none => true
    | some old, some new => representationEvolves old new
    | _, _ => false

/-- What a pinned instance needs of the resource that stands in for its own. -/
def compatibleResource (definition replacement : ResourceDefinition) : Bool :=
  compareResourceEvolution definition replacement &&
    match definition.body, replacement.body with
    | .job payload result update key, .job payload' result' update' key' =>
      payload = payload' && result = result' && update = update' && key = key'
    | .consumer events, .consumer events' => events = events'
    | _, _ => true

/-- Keep the entries whose names satisfy a test; an emptied job group is left standing. -/
def ResourceBindings.retain (document : ResourceBindings) (keep : ResourceKind → String → Bool) :
    ResourceBindings where
  state := document.state.filter fun entry => keep .state entry.1
  kv := document.kv.filter fun entry => keep .kv entry.1
  store := document.store.filter fun entry => keep .store entry.1
  jobs := document.jobs.map fun jobs =>
    { jobs with queues := jobs.queues.filter fun entry => keep .job entry.1 }
  eventConsumers := document.eventConsumers.filter fun entry => keep .consumer entry.1

local instance lawfulBEq_identity : LawfulBEq (ResourceKind × String) := inferInstance

/-- Keep what the pinned revision declares.  A job group without queues goes. -/
def retainDeclared (document : ResourceBindings) (installed : Participant) : ResourceBindings :=
  let kept := document.retain fun kind name => (kind, name) ∈ installed.resourceIdentities
  { kept with jobs := kept.jobs.filter fun jobs => jobs.queues ≠ [] }

/-- One round: a resource that the current revision does not declare alike, or that is not listed,
is missing. -/
def projectResource (latest : Participant) (document : ResourceBindings)
    (declared : String × ResourceDefinition) : Except AuthError ResourceBindings :=
  let compatible := (latest.resources.find? fun entry => entry.1 = declared.1).any fun entry =>
    compatibleResource declared.2 entry.2
  let present := (document.entries declared.2.kind).any fun entry => entry.1 = declared.1
  if compatible && present then .ok document
  else if !declared.2.optional then .error .requiredMissing
  else .ok (document.retain fun kind name => (kind, name) ≠ (declared.2.kind, declared.1))

/-- The resource part of a pinned projection. -/
def projectResources (installed latest : Participant) (document : ResourceBindings) :
    Except AuthError ResourceBindings :=
  installed.resources.foldlM (projectResource latest) (retainDeclared document installed)

variable (platform : Platform Claims Evidence Edit) {document : ResourceBindings}

/-- An API the pinned revision implements, at the generation accepted now. -/
def projectProvided (catalog : Tables) (graph : PackageGraph) (latest : Participant) (api : ApiId) :
    Except AuthError ProviderImplementation :=
  if api ∉ latest.implements then .error .denied
  else
    match catalog.accepted api, graph.api api with
    | none, _ => .error .storage
    | some _, none => .error .denied
    | some accepted, some implementation =>
      if !platform.catalog.compareImplementation implementation accepted.definition then
        .error .denied
      else .ok ⟨api, accepted.generation, platform.catalog.apiDigest implementation⟩

/-- What an instance runs with. -/
structure NativeInstanceProjection (Evidence : Type) where
  (deploymentId participantId participantDigest principalId : String)
  /-- The evidence of the revision the instance is pinned to. -/
  evidence : Evidence
  resources : ResourceBindings
  (required optional : List CapabilityId)
  provided : List JsonObject

/-- The rows `project_instance` joins for an active instance of an active deployment. -/
structure InstanceRows (Evidence : Type) where
  i : Instance
  d : Deployment
  b : Binding
  (pinned current : InstalledParticipant Evidence)

def installedRow (installed : List (InstalledParticipant Evidence)) (participantId : String)
    (revision : Nat) : Option (InstalledParticipant Evidence) :=
  installed.find? fun row => row.participantId = participantId ∧ row.revision = revision

def instanceRows (store : Store Claims Evidence) (id : String) (now : Int) :
    Option (InstanceRows Evidence) := do
  let i ← store.instances.find? fun i => i.instanceId = id ∧ i.state = .active
  let (d, b) ← (boundDeployment store i.deploymentId).filter fun bound =>
    bound.1.state = .active ∧ inForce bound.1.expiresAt now
  let _ ← store.policy.principals.find? fun p => p.principalId = i.principalId ∧ p.state = .active
  let pinned ← installedRow store.installed d.participantId i.installedRevision
  let current ← installedRow store.installed d.participantId b.installedRevision
  return { i, d, b, pinned, current }

def declaredParticipant (graph : PackageGraph) (participantId : String) :
    Except AuthError Participant :=
  match graph.participants.find? fun row => row.participantId = participantId with
  | none => .error .denied
  | some participant => .ok participant

/-- The projection of an instance whose revision was replaced. -/
def projectPinned (catalog : Tables)
    (rows : InstanceRows Evidence) : Except AuthError (NativeInstanceProjection Evidence) := do
  let graph ← platform.compileEvidence rows.pinned.evidence
  let current ← platform.compileEvidence rows.current.evidence
  let installed ← declaredParticipant graph rows.d.participantId
  let latest ← declaredParticipant current rows.d.participantId
  let allowed := latest.required ++ latest.optional
  if installed.required.any fun capability => capability ∉ allowed then .error .denied
  let provided ← installed.implements.mapM (projectProvided platform catalog graph latest)
  let resources ← projectResources installed latest rows.b.resourceCommitments
  return {
    deploymentId := rows.i.deploymentId
    participantId := rows.d.participantId
    participantDigest := rows.pinned.participantDigest
    principalId := rows.i.principalId
    evidence := rows.pinned.evidence
    resources
    required := installed.required
    optional := installed.optional.filter fun capability => capability ∈ allowed
    provided := provided.map providerJson }

/-- `project_instance`.  The current revision has its bindings as they were committed. -/
def projectInstance (store : Store Claims Evidence)
    (id : String) (now : Int) : Except AuthError (NativeInstanceProjection Evidence) :=
  match instanceRows store id now with
  | none => .error .denied
  | some rows =>
    if rows.i.installedRevision = rows.b.installedRevision then
      .ok {
        deploymentId := rows.i.deploymentId
        participantId := rows.d.participantId
        participantDigest := rows.pinned.participantDigest
        principalId := rows.i.principalId
        evidence := rows.pinned.evidence
        resources := rows.b.resourceCommitments
        required := rows.b.required
        optional := rows.b.optional
        provided := rows.b.providedApis }
    else projectPinned platform store.policy.catalog rows

/-- `native_bootstrap`: every required resource of the pinned revision is there. -/
def nativeBootstrap
    (projection : NativeInstanceProjection Evidence) : Except AuthError ResourceBindings := do
  let graph ← platform.compileEvidence projection.evidence
  let installed ← declaredParticipant graph projection.participantId
  if installed.resources.any fun declared =>
      !declared.2.optional &&
        !(projection.resources.entries declared.2.kind).any fun entry => entry.1 = declared.1 then
    .error .unavailable
  return projection.resources

/-! ## Compiling the policy -/

/-- Raw tokens of subject patterns. -/
abbrev Patterns := List (List String)

def materialBucket : String := "TRELLIS_AUTH_MATERIAL"
def revocationBucket : String := "TRELLIS_AUTH_REVOCATIONS"

def operationRepository (deployment : String) : String := "trellis_operations_" ++ deployment
def operationStaging (deployment : String) : String := "trellis_operation_staging_" ++ deployment

def jobsKeysBucket (jobsNamespace : String) : String := "JOBS_KEYS_" ++ jobsNamespace

/-- A request of the JetStream API. -/
def jsApi (request : List String) : List String :=
  "$JS" :: "API" :: request

def streamPatterns (stream : String) (write : Bool) : Patterns :=
  [jsApi ["INFO"], jsApi ["STREAM", "INFO", stream], jsApi ["STREAM", "MSG", "GET", stream],
    jsApi ["DIRECT", "GET", stream], jsApi ["CONSUMER", "CREATE", stream],
    jsApi ["DIRECT", "GET", stream, ">"], jsApi ["CONSUMER", "CREATE", stream, ">"],
    jsApi ["CONSUMER", "INFO", stream, ">"], jsApi ["CONSUMER", "DELETE", stream, ">"],
    jsApi ["CONSUMER", "MSG", "NEXT", stream, ">"], ["$JS", "ACK", stream, ">"]] ++
  if write then [jsApi ["STREAM", "MSG", "DELETE", stream]] else []

/-- A character a stream name may not hold. -/
def unsafeInStream (c : Char) : Bool :=
  c = '.' || c = '*' || c = '>' || Text.isWhitespace c

def streamAccess (stream : String) (write : Bool) : Except AuthError Patterns :=
  if stream = "" ∨ stream.toList.any unsafeInStream then .error .denied
  else .ok (streamPatterns stream write)

/-- Patterns to publish on and to subscribe to. -/
structure TransportPatterns where
  publish : Patterns := []
  subscribe : Patterns := []

def TransportPatterns.union (all : List TransportPatterns) : TransportPatterns where
  publish := all.flatMap TransportPatterns.publish
  subscribe := all.flatMap TransportPatterns.subscribe

/-- Verification material, which is read only. -/
def readAccess (bucket : String) : Except AuthError TransportPatterns := do
  let stream ← streamAccess ("KV_" ++ bucket) false
  return { publish := stream, subscribe := [["$KV", bucket, ">"]] }

def bucketAccess (bucket : String) : Except AuthError TransportPatterns := do
  let stream ← streamAccess ("KV_" ++ bucket) true
  return { publish := stream ++ [["$KV", bucket, ">"]], subscribe := [["$KV", bucket, ">"]] }

def objectAccess (name : String) : Except AuthError TransportPatterns := do
  let stream ← streamAccess ("OBJ_" ++ name) true
  return {
    publish := stream ++ [jsApi ["STREAM", "PURGE", "OBJ_" ++ name], ["$O", name, ">"]]
    subscribe := [["$O", name, ">"]] }

/-- What a queue is worked with. -/
def queuePatterns (jobsNamespace : String) (entry : String × QueueBinding) : TransportPatterns :=
  let queue := entry.2
  let data := [[queue.workSubject], [queue.publishPrefix, ">"]] ++
    (queue.updatesPrefix.map fun updates => [updates, ">"]).toList
  { publish :=
      [["trellis", "jobs", "workers", jobsNamespace, entry.1, "*", "heartbeat"],
        jsApi ["CONSUMER", "INFO", jobsWorkStream, queue.consumerName],
        jsApi ["CONSUMER", "MSG", "NEXT", jobsWorkStream, queue.consumerName],
        ["$JS", "ACK", jobsWorkStream, queue.consumerName, ">"],
        jsApi ["DIRECT", "GET", jobsStream, queue.publishPrefix, ">"]] ++ data
    subscribe := data }

/-- The bucket of concurrency keys, shared by a deployment's queues. -/
def keysAccess (jobs : JobsBinding) : Except AuthError TransportPatterns :=
  if jobs.queues.any fun entry => entry.2.keyed then
    bucketAccess (jobsKeysBucket jobs.jobsNamespace)
  else .ok {}

def jobsAccess (service : Bool) (jobs : JobsBinding) : Except AuthError TransportPatterns := do
  let keys ← keysAccess jobs
  let shared : TransportPatterns :=
    { publish := (if jobs.queues ≠ [] ∧ service then [["rpc", "v1", "jobs", "History"]] else []) ++
        [jsApi ["STREAM", "INFO", jobsStream]] }
  return .union (shared :: keys :: jobs.queues.map (queuePatterns jobs.jobsNamespace))

def consumerPatterns (binding : ConsumerBinding) : TransportPatterns where
  publish := [(binding.stream, binding.consumerName),
      (binding.replayStream, binding.replayConsumerName)].flatMap fun (stream, durable) =>
    [jsApi ["STREAM", "INFO", stream], jsApi ["CONSUMER", "INFO", stream, durable],
      jsApi ["CONSUMER", "MSG", "NEXT", stream, durable], ["$JS", "ACK", stream, durable, ">"]]

/-- The first tokens of every other pattern: API actions, live data, transfers, discovery, inbox. -/
def routeFamilies : List (List String) :=
  [["rpc"], ["operations"], ["operation"], ["events"], ["live"], ["transfer"], ["_INBOX"],
    ["$SYS"], ["trellis", "auth"]]

/-- What a policy grants beside resources. -/
structure Routes where
  patterns : TransportPatterns
  family : ∀ tokens ∈ patterns.publish ++ patterns.subscribe, ∃ family ∈ routeFamilies,
    ∃ rest, tokens = family ++ rest

/-- `compile_transport`, over the catalog's routes and the deployments whose operations it provides.
-/
def compileTransport
    (projection : NativeInstanceProjection Evidence) (service : Bool) (routes : Routes)
    (operationProviders : List String) : Except AuthError TransportPatterns := do
  let material ← [materialBucket, revocationBucket].mapM readAccess
  let resources ← nativeBootstrap platform projection
  if operationProviders.any fun deployment => deployment ≠ projection.deploymentId then
    .error .denied
  let repositories ← operationProviders.mapM fun deployment =>
    bucketAccess (operationRepository deployment)
  let stagings ← operationProviders.mapM fun deployment =>
    objectAccess (operationStaging deployment)
  let kv ← resources.kv.mapM fun entry => bucketAccess entry.2.bucket
  let store ← resources.store.mapM fun entry => objectAccess entry.2.name
  let jobs ← resources.jobs.toList.mapM (jobsAccess service)
  let consumers := resources.eventConsumers.map fun entry => consumerPatterns entry.2
  return .union
    (routes.patterns :: material ++ repositories ++ stagings ++ kv ++ store ++ jobs ++ consumers)

/-! ## Data subjects -/

/-- The subjects a pattern stands for, as the broker reads it. -/
def patternTokens (tokens : List String) : List Token :=
  (Text.split '.' (dotted tokens)).map tokenOf

/-- The policy lets its holder publish on the subject, or subscribe to it. -/
def TransportPatterns.Permits (policy : TransportPatterns) (subject : List String) : Prop :=
  ∃ tokens ∈ policy.publish ++ policy.subscribe, Glob.Matches (patternTokens tokens) subject

/-- What a subject addresses: a bucket, an object store, a job queue, or a stream with a consumer.
-/
inductive Address where
  | bucket (name : String)
  | objects (name : String)
  | queue (jobsNamespace token : String)
  | stream (name : String) (consumer : Option String)
  deriving DecidableEq, Repr

def queueAddressee : List String → Option Address
  | "trellis" :: area :: jobsNamespace :: token :: _ =>
    if area = "jobs" ∨ area = "work" ∨ area = "jobs_updates" then some (.queue jobsNamespace token)
    else none
  | _ => none

def apiAddressee : List String → Option Address
  | "STREAM" :: "INFO" :: stream :: _ => some (.stream stream none)
  | "STREAM" :: "PURGE" :: stream :: _ => some (.stream stream none)
  | "STREAM" :: "MSG" :: _ :: stream :: _ => some (.stream stream none)
  | "DIRECT" :: "GET" :: stream :: rest =>
    -- job events are read directly by their subjects
    if stream = jobsStream then queueAddressee rest else some (.stream stream none)
  | "CONSUMER" :: "MSG" :: "NEXT" :: stream :: rest => some (.stream stream rest.head?)
  | "CONSUMER" :: _ :: stream :: rest => some (.stream stream rest.head?)
  | _ => none

/-- What a subject addresses, if it addresses data. -/
def addressee : List String → Option Address
  | "$KV" :: bucket :: _ => some (.bucket bucket)
  | "$O" :: name :: _ => some (.objects name)
  | "$JS" :: "ACK" :: stream :: rest => some (.stream stream rest.head?)
  | "$JS" :: "API" :: request => apiAddressee request
  | subject => queueAddressee subject

/-- The addresses of an allocation's data. -/
def NativeAllocation.Addressed (naming : Naming) (deployment : String)
    (allocation : NativeAllocation) (address : Address) : Prop :=
  match allocation.kind, address with
  | .kv, .bucket name => name = allocation.owned
  | .kv, .stream name _ => name = "KV_" ++ allocation.owned
  | .store, .objects name => name = allocation.owned
  | .store, .stream name _ => name = "OBJ_" ++ allocation.owned
  | .job, .queue jobsNamespace token => jobsNamespace = naming.jobsNamespace deployment ∧
      token = queueToken allocation.name allocation.allocationId
  | .job, .stream name consumer => name = jobsWorkStream ∧ consumer = some allocation.owned
  | .consumer, .stream name consumer =>
    (name = eventStream ∧ consumer = some allocation.owned) ∨
      (name = replayStream ∧ consumer = some (allocation.owned ++ "_replay"))
  | _, _ => False

/-- The allocation of a row, whatever its limits. -/
def Resource.allocation (row : Resource) : NativeAllocation where
  name := row.localName
  kind := row.kind
  resourceId := row.resourceId
  allocationId := row.allocationId
  history := row.history
  ttlMs := row.ttlMs
  updates := false
  keyed := false

/-- The subject is one of the row's data. -/
def Resource.HasSubject (naming : Naming) (row : Resource) (subject : List String) : Prop :=
  ∃ address, addressee subject = some address ∧ row.allocation.Addressed naming row.ownerId address

/-! ## What an instance is given -/

theorem mem_entries_retain : entry ∈ (document.retain keep).entries kind ↔
      entry ∈ document.entries kind ∧ keep kind entry.1 = true := by
  have hmap : ∀ {α : Type} {list : List (String × α)} {wrap : α → ResourceBinding}
      {keep : String → Bool}, entry ∈ (list.filter fun item => keep item.1).map
        (fun item => (item.1, wrap item.2)) ↔
      entry ∈ list.map (fun item => (item.1, wrap item.2)) ∧ keep entry.1 = true := by
    intro α list wrap keep
    constructor
    · intro h
      obtain ⟨item, hitem, rfl⟩ := mem_map.mp h
      obtain ⟨hitem, hkeep⟩ := mem_filter.mp hitem
      exact ⟨mem_map_of_mem hitem, hkeep⟩
    · rintro ⟨h, hkeep⟩
      obtain ⟨item, hitem, rfl⟩ := mem_map.mp h
      exact mem_map.mpr ⟨item, mem_filter.mpr ⟨hitem, hkeep⟩, rfl⟩
  cases kind with
  | state | kv | store | consumer => exact hmap
  | job =>
    have hqueues : (document.retain keep).queues
        = document.queues.filter fun item => keep .job item.1 := by
      unfold ResourceBindings.retain ResourceBindings.queues
      cases document.jobs with
      | none | some jobs => rfl
    unfold ResourceBindings.entries
    rw [hqueues]
    exact hmap

/-- A smaller document: it lists what the other lists, in the same job namespace. -/
structure Narrows (document whole : ResourceBindings) : Prop where
  entry : ∀ kind, ∀ entry ∈ document.entries kind, entry ∈ whole.entries kind
  jobs : ∀ jobs ∈ document.jobs, ∃ all ∈ whole.jobs, jobs.jobsNamespace = all.jobsNamespace

theorem Narrows.refl (document : ResourceBindings) : Narrows document document :=
  ⟨fun _ _ hentry => hentry, fun jobs hjobs => ⟨jobs, hjobs, rfl⟩⟩

theorem Narrows.trans (h : Narrows document middle)
    (h' : Narrows middle whole) : Narrows document whole := by
  refine ⟨fun kind entry hentry => h'.entry kind entry (h.entry kind entry hentry), ?_⟩
  intro jobs hjobs
  obtain ⟨some, hsome, hsame⟩ := h.jobs jobs hjobs
  obtain ⟨all, hall, hsame'⟩ := h'.jobs some hsome
  exact ⟨all, hall, hsame.trans hsame'⟩

theorem Narrows.retain (document : ResourceBindings) (keep : ResourceKind → String → Bool) :
    Narrows (document.retain keep) document := by
  refine ⟨fun _ _ hentry => (mem_entries_retain.mp hentry).1, ?_⟩
  intro jobs hjobs
  obtain ⟨all, hall, rfl⟩ := Option.map_eq_some_iff.mp hjobs
  exact ⟨all, hall, rfl⟩

theorem WellNamed.narrow (h : WellNamed naming deployment whole) (hnarr : Narrows document whole) :
    WellNamed naming deployment document := by
  refine ⟨fun kind entry hentry => h.entry kind entry (hnarr.entry kind entry hentry), ?_⟩
  intro jobs hjobs
  obtain ⟨all, hall, hsame⟩ := hnarr.jobs jobs hjobs
  exact hsame.trans (h.jobs all hall)

theorem retainDeclared_ok (document : ResourceBindings) (installed : Participant) :
    Narrows (retainDeclared document installed) document ∧
      ∀ kind, ∀ entry ∈ (retainDeclared document installed).entries kind,
        (kind, entry.1) ∈ installed.resourceIdentities := by
  have hqueues : (retainDeclared document installed).queues
      = (document.retain fun kind name => (kind, name) ∈ installed.resourceIdentities).queues := by
    unfold retainDeclared ResourceBindings.queues
    dsimp only
    -- a group without queues lists nothing
    cases (document.retain fun kind name => (kind, name) ∈ installed.resourceIdentities).jobs with
    | none => rfl
    | some jobs => by_cases hnil : jobs.queues = [] <;> simp [Option.filter, hnil]
  have hentries : ∀ kind, (retainDeclared document installed).entries kind
      = (document.retain fun kind name =>
          (kind, name) ∈ installed.resourceIdentities).entries kind := by
    intro kind
    cases kind with
    | job =>
      unfold ResourceBindings.entries
      rw [hqueues]
    | state | kv | store | consumer => rfl
  refine ⟨Narrows.trans ⟨fun kind entry hentry => hentries kind ▸ hentry, ?_⟩
    (.retain document fun kind name => (kind, name) ∈ installed.resourceIdentities), ?_⟩
  · intro jobs hjobs
    exact ⟨jobs, (Option.filter_eq_some_iff.mp hjobs).1, rfl⟩
  · intro kind entry hentry
    rw [hentries kind] at hentry
    exact of_decide_eq_true (mem_entries_retain.mp hentry).2

theorem compatibleResource_kind (h : compatibleResource definition replacement = true) :
    definition.kind = replacement.kind := by
  unfold compatibleResource compareResourceEvolution at h
  simp only [Bool.and_eq_true, decide_eq_true_eq] at h
  exact h.1.1.1

/-- A round drops the resource, or the current revision declares it too. -/
theorem projectResource_ok (h : projectResource latest document declared = .ok document') :
    Narrows document' document ∧ ((declared.2.kind, declared.1) ∈ latest.resourceIdentities ∨
        ∀ entry ∈ document'.entries declared.2.kind, entry.1 ≠ declared.1) := by
  unfold projectResource at h
  dsimp only at h
  split at h
  next hcompatible =>
    cases h
    refine ⟨.refl document, .inl ?_⟩
    obtain ⟨entry, hentry, hsame⟩ :=
      (Option.any_eq_true _ _).mp (Bool.and_eq_true_iff.mp hcompatible).1
    have hname : entry.1 = declared.1 := (of_find? hentry :)
    rw [← hname, compatibleResource_kind hsame]
    exact mem_resourceIdentities (mem_of_find?_eq_some hentry)
  · obtain ⟨-, h⟩ := guard_eq_ok.mp h
    cases h
    refine ⟨.retain document _, .inr ?_⟩
    intro entry hentry hname
    apply of_decide_eq_true (mem_entries_retain.mp hentry).2
    rw [hname]

/-- What a pinned instance is given, both revisions declare. -/
theorem projectResources_ok {installed latest : Participant}
    (h : projectResources installed latest document = .ok document') :
    Narrows document' document ∧ ∀ kind, ∀ entry ∈ document'.entries kind,
        (kind, entry.1) ∈ installed.resourceIdentities ∧
          (kind, entry.1) ∈ latest.resourceIdentities := by
  have hrounds : ∀ {declared : List (String × ResourceDefinition)}
      {document document' : ResourceBindings},
      declared.foldlM (projectResource latest) document = .ok document' →
      Narrows document' document ∧ ∀ item ∈ declared, ∀ entry ∈ document'.entries item.2.kind,
        entry.1 = item.1 → (item.2.kind, item.1) ∈ latest.resourceIdentities := by
    intro declared
    induction declared with
    | nil =>
      intro document document' h
      cases h
      exact ⟨.refl _, nofun⟩
    | cons item rest ih =>
      intro document document' h
      obtain ⟨middle, hmiddle, h⟩ := bind_eq_ok.mp h
      obtain ⟨hnarr, hitem⟩ := projectResource_ok hmiddle
      obtain ⟨hrest, hothers⟩ := ih h
      refine ⟨hrest.trans hnarr, ?_⟩
      intro other hother entry hentry hname
      rcases mem_cons.mp hother with rfl | hother
      · -- the later rounds only drop entries
        rcases hitem with hdecl | hdropped
        · exact hdecl
        · exact absurd hname (hdropped entry (hrest.entry _ entry hentry))
      · exact hothers other hother entry hentry hname
  obtain ⟨hnarr, hlast⟩ := hrounds h
  obtain ⟨hretained, hinst⟩ := retainDeclared_ok document installed
  refine ⟨hnarr.trans hretained, ?_⟩
  intro kind entry hentry
  have hdecl := hinst kind entry (hnarr.entry kind entry hentry)
  refine ⟨hdecl, ?_⟩
  obtain ⟨item, hitem, hsame⟩ := mem_map.mp hdecl
  obtain ⟨rfl, hname⟩ := Prod.mk.inj hsame
  rw [← hname]
  exact hlast item hitem entry hentry hname.symm

variable {platform : Platform Claims Evidence Edit} {allocation : NativeAllocation}

theorem installedRow_participant
    (hrow : installedRow store.installed participantId revision = some row)
    (hgraph : platform.compileEvidence row.evidence = .ok graph)
    (hpart : declaredParticipant graph participantId = .ok participant) :
    revisionParticipant platform store participantId revision = .ok participant := by
  unfold declaredParticipant at hpart
  split at hpart
  · cases hpart
  next found hfound =>
    exact revisionParticipant_ok.mpr ⟨row, graph, hrow, hgraph, (Except.ok.inj hpart) ▸ hfound⟩

/-- A projection lists what the deployment does, pinned only what both revisions declare. -/
theorem projectInstance_ok {id : String}
    (h : projectInstance platform store id now = .ok projection) :
    ∃ i d b, (i ∈ store.instances ∧ i.instanceId = id) ∧
      boundDeployment store i.deploymentId = some (d, b) ∧
      projection.deploymentId = i.deploymentId ∧
      Narrows projection.resources b.resourceCommitments ∧
      (i.installedRevision = b.installedRevision ∨
        ∀ kind, ∀ entry ∈ projection.resources.entries kind,
          Declares platform store d.participantId i.installedRevision kind entry.1 ∧
            Declares platform store d.participantId b.installedRevision kind entry.1) := by
  unfold projectInstance at h
  split at h
  · cases h
  rename_i rows hrows
  unfold instanceRows at hrows
  simp only [Option.bind_eq_bind, Option.bind_eq_some_iff] at hrows
  obtain ⟨i, hi, ⟨d, b⟩, hbound, p, -, pinned, hpinned, latest, hcur, hrows⟩ := hrows
  cases hrows
  refine ⟨i, d, b, ⟨mem_of_find?_eq_some hi, (of_find? hi).1⟩,
    (Option.filter_eq_some_iff.mp hbound).1, ?_⟩
  split at h
  next hsame =>
    cases h
    exact ⟨rfl, .refl _, .inl hsame⟩
  · unfold projectPinned at h
    simp only [error_bind, guard_eq_ok, bind_eq_ok, pure_eq_ok] at h
    obtain ⟨graph, hgraph, current, hlast, installed, hinst, latest, hpart, -,
      provided, -, resources, hres, rfl⟩ := h
    obtain ⟨hnarr, hdecl⟩ := projectResources_ok hres
    refine ⟨rfl, hnarr, .inr fun kind entry hentry => ?_⟩
    obtain ⟨hold, hnew⟩ := hdecl kind entry hentry
    exact ⟨⟨installed, installedRow_participant hpinned hgraph hinst, hold⟩,
      ⟨latest, installedRow_participant hcur hlast hpart, hnew⟩⟩

/-! ## What patterns reach -/

/-- A token without dots that is no wildcard. -/
def Plain (token : String) : Prop :=
  '.' ∉ token.toList ∧ token ≠ "*" ∧ token ≠ ">"

instance (token : String) : Decidable (Plain token) :=
  inferInstanceAs (Decidable (_ ∧ _ ∧ _))

theorem split_dotted (h : tokens ≠ []) :
    Text.split '.' (dotted tokens) = tokens.flatMap (Text.split '.') :=
  Text.split_intercalate h

/-- Tokens that are joined texts themselves are read as their own tokens. -/
theorem patternTokens_nest {before inner after : List String} (h : inner ≠ []) :
    patternTokens (before ++ dotted inner :: after) = patternTokens (before ++ inner ++ after) := by
  unfold patternTokens
  rw [split_dotted (by simp), split_dotted (by simp [h]), flatMap_append, flatMap_cons,
    split_dotted h, flatMap_append, flatMap_append, append_assoc]

theorem literals_of_plain {front : List String} (hplain : ∀ token ∈ front, Plain token) :
    (front.flatMap (Text.split '.')).map tokenOf = front.map Glob.Token.literal := by
  induction front with
  | nil => rfl
  | cons token front ih =>
    obtain ⟨hdot, hstar, hgt⟩ := hplain token mem_cons_self
    rw [flatMap_cons, Text.split_of_notMem hdot, singleton_append, map_cons,
      map_cons, tokenOf, if_neg hgt, if_neg hstar,
      ih fun token htoken => hplain token (mem_cons_of_mem _ htoken)]

/-- The pattern reaches the address: it stands for a subject that addresses it. -/
def Reaches (tokens : List String) (address : Address) : Prop :=
  ∃ subject, Glob.Matches (patternTokens tokens) subject ∧ addressee subject = some address

/-- What a pattern reaches is decided by the plain tokens it begins with. -/
theorem Reaches.front (front tail : List String)
    (h : Reaches (front ++ tail) address) (hplain : ∀ token ∈ front, Plain token := by decide)
    (hne : front ≠ [] := by simp) : ∃ rest, addressee (front ++ rest) = some address := by
  obtain ⟨subject, hmat, haddr⟩ := h
  unfold patternTokens at hmat
  rw [split_dotted (by simp [hne]), flatMap_append, map_append, literals_of_plain hplain] at hmat
  obtain ⟨rest, rfl, -⟩ := Glob.Matches.of_literals hmat
  exact ⟨rest, haddr⟩

theorem plain_concat (hconst : ∀ token ∈ constants, Plain token) (hname : Plain name) :
    ∀ token ∈ constants ++ [name], Plain token :=
  forall_mem_append.mpr ⟨hconst, forall_mem_singleton.mpr hname⟩

/-- Patterns that begin with constants and one name. -/
theorem Reaches.named (constants tail : List String) (hname : Plain name)
    (h : Reaches (constants ++ name :: tail) address)
    (hconst : ∀ token ∈ constants, Plain token := by decide) :
    ∃ rest, addressee (constants ++ name :: rest) = some address := by
  rw [append_cons] at h
  obtain ⟨rest, hrest⟩ := h.front _ tail (plain_concat hconst hname)
  exact ⟨rest, append_cons _ _ _ ▸ hrest⟩

theorem streamPatterns_reach (hplain : Plain stream) (hjobs : stream ≠ jobsStream)
    (htoks : tokens ∈ streamPatterns stream write)
    (h : Reaches tokens address) : ∃ consumer, address = .stream stream consumer := by
  -- each pattern begins with constants and the stream's name, except for the plain INFO
  have hfront : ∀ (constants tail : List String), Reaches (constants ++ stream :: tail) address →
      (haddr : ∀ rest, ∃ consumer, addressee (constants ++ stream :: rest)
        = some (.stream stream consumer) := by exact fun _ => ⟨_, rfl⟩) →
      (hconst : ∀ token ∈ constants, Plain token := by decide) →
      ∃ consumer, address = .stream stream consumer := by
    intro constants tail h haddr hconst
    obtain ⟨rest, hrest⟩ := h.named constants tail hplain hconst
    obtain ⟨consumer, hcons⟩ := haddr rest
    exact ⟨consumer, Option.some.inj (hrest.symm.trans hcons)⟩
  have hdirect : ∀ rest, addressee (["$JS", "API", "DIRECT", "GET"] ++ stream :: rest)
      = some (.stream stream none) := fun rest => if_neg hjobs
  rcases mem_append.mp htoks with htoks | htoks
  · simp only [mem_cons, not_mem_nil, or_false] at htoks
    rcases htoks with rfl | rfl | rfl | rfl | rfl | rfl | rfl | rfl | rfl | rfl | rfl
    · obtain ⟨rest, hrest⟩ := h.front ["$JS", "API", "INFO"] []
      cases hrest
    · exact hfront ["$JS", "API", "STREAM", "INFO"] [] h
    · exact hfront ["$JS", "API", "STREAM", "MSG", "GET"] [] h
    · exact hfront ["$JS", "API", "DIRECT", "GET"] [] h fun rest => ⟨_, hdirect rest⟩
    · exact hfront ["$JS", "API", "CONSUMER", "CREATE"] [] h
    · exact hfront ["$JS", "API", "DIRECT", "GET"] [">"] h fun rest => ⟨_, hdirect rest⟩
    · exact hfront ["$JS", "API", "CONSUMER", "CREATE"] [">"] h
    · exact hfront ["$JS", "API", "CONSUMER", "INFO"] [">"] h
    · exact hfront ["$JS", "API", "CONSUMER", "DELETE"] [">"] h
    · exact hfront ["$JS", "API", "CONSUMER", "MSG", "NEXT"] [">"] h
    · exact hfront ["$JS", "ACK"] [">"] h
  · split at htoks
    · rw [mem_singleton.mp htoks] at h
      exact hfront ["$JS", "API", "STREAM", "MSG", "DELETE"] [] h
    · cases htoks

/-- The policy reaches the address. -/
def TransportPatterns.Reach (policy : TransportPatterns) (address : Address) : Prop :=
  ∃ tokens ∈ policy.publish ++ policy.subscribe, Reaches tokens address

theorem reach_union {all : List TransportPatterns}
    (h : (TransportPatterns.union all).Reach address) : ∃ policy ∈ all, policy.Reach address := by
  obtain ⟨tokens, htoks, hreach⟩ := h
  rcases mem_append.mp htoks with htoks | htoks
  · obtain ⟨policy, hpolicy, hmem⟩ := mem_flatMap.mp htoks
    exact ⟨policy, hpolicy, tokens, mem_append_left _ hmem, hreach⟩
  · obtain ⟨policy, hpolicy, hmem⟩ := mem_flatMap.mp htoks
    exact ⟨policy, hpolicy, tokens, mem_append_right _ hmem, hreach⟩

/-- A stream name that passes the check is a plain token. -/
theorem streamAccess_ok (h : streamAccess stream write = .ok patterns) :
    (∀ c ∈ stream.toList, unsafeInStream c = false) ∧ patterns = streamPatterns stream write := by
  obtain ⟨hsafe, h⟩ := guard_eq_ok.mp h
  refine ⟨?_, (Except.ok.inj h).symm⟩
  intro c hc
  rw [not_or] at hsafe
  simpa using fun hunsafe => hsafe.2 (any_eq_true.mpr ⟨c, hc, hunsafe⟩)

theorem plain_of_safe (h : ∀ c ∈ token.toList, unsafeInStream c = false) : Plain token := by
  refine ⟨fun hdot => absurd (h '.' hdot) (by decide), ?_, ?_⟩
  · rintro rfl
    exact absurd (h '*' (by decide)) (by decide)
  · rintro rfl
    exact absurd (h '>' (by decide)) (by decide)

theorem plain_of_append
    (h : ∀ c ∈ (before ++ token).toList, unsafeInStream c = false) : Plain token := by
  refine plain_of_safe fun c hc => h c ?_
  rw [String.toList_append]
  exact mem_append_right _ hc

theorem append_ne_jobsStream
    (hbefore : before.toList = c :: rest) (hc : c ≠ 'J') : before ++ token ≠ jobsStream := by
  intro h
  have hlist := congrArg String.toList h
  rw [String.toList_append, hbefore] at hlist
  exact hc (List.cons.inj hlist).1

/-- The addresses of a bucket. -/
def OfBucket (bucket : String) (address : Address) : Prop :=
  address = .bucket bucket ∨ ∃ consumer, address = .stream ("KV_" ++ bucket) consumer

/-- The addresses of an object store. -/
def OfObjects (name : String) (address : Address) : Prop :=
  address = .objects name ∨ ∃ consumer, address = .stream ("OBJ_" ++ name) consumer

theorem OfBucket.name_eq (h : OfBucket bucket (.bucket name)) : name = bucket := by
  rcases h with h | ⟨_, ⟨⟩⟩
  exact Address.bucket.inj h

/-- The patterns of a bucket are those of its stream and of its keys. -/
theorem bucket_reach (hstr : streamAccess ("KV_" ++ bucket) write = .ok patterns)
    (htoks : tokens ∈ patterns ∨ tokens = ["$KV", bucket, ">"]) (h : Reaches tokens address) :
    OfBucket bucket address := by
  obtain ⟨hsafe, rfl⟩ := streamAccess_ok hstr
  rcases htoks with htoks | rfl
  · exact .inr (streamPatterns_reach (plain_of_safe hsafe)
      (append_ne_jobsStream rfl (by decide)) htoks h)
  · obtain ⟨rest, hrest⟩ := h.named ["$KV"] [">"] (plain_of_append hsafe)
    exact .inl (Option.some.inj hrest).symm

theorem readAccess_reach
    (hok : readAccess bucket = .ok policy) (h : policy.Reach address) :
    OfBucket bucket address := by
  obtain ⟨stream, hstr, hok⟩ := bind_eq_ok.mp hok
  cases hok
  obtain ⟨tokens, htoks, hreach⟩ := h
  exact bucket_reach hstr (by simpa using htoks) hreach

theorem bucketAccess_reach (hok : bucketAccess bucket = .ok policy) (h : policy.Reach address) :
    OfBucket bucket address := by
  obtain ⟨stream, hstr, hok⟩ := bind_eq_ok.mp hok
  cases hok
  obtain ⟨tokens, htoks, hreach⟩ := h
  exact bucket_reach hstr (by simpa [or_assoc] using htoks) hreach

theorem objectAccess_reach
    (hok : objectAccess name = .ok policy) (h : policy.Reach address) : OfObjects name address := by
  obtain ⟨stream, hstr, hok⟩ := bind_eq_ok.mp hok
  cases hok
  obtain ⟨hsafe, rfl⟩ := streamAccess_ok hstr
  obtain ⟨tokens, htoks, hreach⟩ := h
  simp only [mem_append, mem_cons, not_mem_nil, or_false] at htoks
  rcases htoks with (htoks | rfl | rfl) | rfl
  · exact .inr (streamPatterns_reach (plain_of_safe hsafe)
      (append_ne_jobsStream rfl (by decide)) htoks hreach)
  · obtain ⟨rest, hrest⟩ := hreach.named ["$JS", "API", "STREAM", "PURGE"] [] (plain_of_safe hsafe)
    exact .inr ⟨none, (Option.some.inj hrest).symm⟩
  all_goals
    obtain ⟨rest, hrest⟩ := hreach.named ["$O"] [">"] (plain_of_append hsafe)
    exact .inl (Option.some.inj hrest).symm

theorem routes_reach (routes : Routes) : ¬ routes.patterns.Reach address := by
  rintro ⟨tokens, htoks, hreach⟩
  obtain ⟨family, hfamily, tail, rfl⟩ := routes.family tokens htoks
  have hplain : ∀ family ∈ routeFamilies, ∀ token ∈ family, Plain token := by decide
  have hne : ∀ family ∈ routeFamilies, family ≠ [] := by decide
  obtain ⟨rest, hrest⟩ := hreach.front family tail (hplain family hfamily) (hne family hfamily)
  simp only [routeFamilies, mem_cons, not_mem_nil, or_false] at hfamily
  have hauth : ∀ rest, addressee ("trellis" :: "auth" :: rest) = none := by
    intro rest
    match rest with
    | [] => rfl
    | [_] => rfl
    | _ :: _ :: _ => rfl
  rcases hfamily with rfl | rfl | rfl | rfl | rfl | rfl | rfl | rfl | rfl
  case inr.inr.inr.inr.inr.inr.inr.inr => exact absurd ((hauth rest).symm.trans hrest) nofun
  all_goals cases hrest

/-! ## Addresses of allocations -/

/-- An allocation with the texts it should have. -/
structure Proper (allocation : NativeAllocation) : Prop where
  id : IsDigest allocation.resourceId
  ulid : IsUlid allocation.allocationId
  plain : '.' ∉ allocation.name.toList

theorem toList_ownedName (id allocationId : String) : (ownedName id allocationId).toList
    = "TRELLIS_RESOURCE_".toList ++ id.toList ++ "_".toList ++ allocationId.toList := by
  unfold ownedName
  rw [String.toList_append, String.toList_append, String.toList_append]

/-- A wildcard is a single character. -/
theorem plain_of_long (hdot : '.' ∉ text.toList) (hlong : 2 ≤ text.toList.length) : Plain text := by
  refine ⟨hdot, ?_, ?_⟩
  · rintro rfl
    exact absurd hlong (by decide)
  · rintro rfl
    exact absurd hlong (by decide)

theorem plain_of_digest (h : IsDigest text) : Plain text :=
  plain_of_long h.2 (le_trans (by decide) h.1)

theorem Proper.length_owned (h : Proper allocation) : 87 ≤ allocation.owned.toList.length := by
  have hid := h.id.1
  unfold NativeAllocation.owned
  rw [toList_ownedName, length_append, length_append, length_append, h.ulid.1]
  show 87 ≤ 17 + allocation.resourceId.toList.length + 1 + 26
  omega

theorem Proper.plain_owned (h : Proper allocation) : Plain allocation.owned := by
  refine plain_of_long ?_ (le_trans (by decide) h.length_owned)
  unfold NativeAllocation.owned
  rw [toList_ownedName]
  simp [h.id.2, h.ulid.2]

theorem Proper.plain_replay (h : Proper allocation) : Plain (allocation.owned ++ "_replay") := by
  have hlen := h.length_owned
  refine plain_of_long ?_ ?_
  · rw [String.toList_append, mem_append, not_or]
    exact ⟨h.plain_owned.1, by decide⟩
  · rw [String.toList_append, length_append]
    omega

theorem Proper.plain_token (h : Proper allocation) :
    Plain (queueToken allocation.name allocation.allocationId) := by
  refine plain_of_long ?_ ?_
  · simp [queueToken, h.plain, h.ulid.2]
  · simp only [queueToken, String.toList_append, length_append, h.ulid.1]
    omega

theorem allocationId_of_owned (h : Proper allocation)
    (h' : Proper other) (heq : allocation.owned = other.owned) :
    allocation.allocationId = other.allocationId := by
  have hlist := congrArg String.toList heq
  unfold NativeAllocation.owned at hlist
  rw [toList_ownedName, toList_ownedName] at hlist
  exact String.toList_injective (append_inj_right' hlist (h.ulid.1.trans h'.ulid.1.symm))

theorem resourceId_of_owned (h : Proper allocation)
    (h' : Proper other) (heq : allocation.owned = other.owned) :
    allocation.resourceId = other.resourceId := by
  have hlist := congrArg String.toList heq
  unfold NativeAllocation.owned at hlist
  rw [toList_ownedName, toList_ownedName] at hlist
  have hfront := append_inj_left' hlist (h.ulid.1.trans h'.ulid.1.symm)
  exact String.toList_injective (append_cancel_left (append_cancel_right hfront))

theorem allocationId_of_token (h : Proper allocation)
    (h' : Proper other) (heq : queueToken allocation.name allocation.allocationId
      = queueToken other.name other.allocationId) :
    allocation.allocationId = other.allocationId := by
  have hlist := congrArg String.toList heq
  simp only [queueToken, String.toList_append] at hlist
  exact String.toList_injective (append_inj_right' hlist (h.ulid.1.trans h'.ulid.1.symm))

/-- The kind of resource a stream can be of, by the letter it begins with. -/
def streamKind (name : String) : Option ResourceKind :=
  match name.toList.head? with
  | some 'K' => some .kv
  | some 'O' => some .store
  | some 'J' => some .job
  | some 't' => some .consumer
  | _ => none

theorem streamKind_append (h : before.toList ≠ []) :
    streamKind (before ++ rest) = streamKind before := by
  unfold streamKind
  rw [String.toList_append, head?_append_of_ne_nil _ h]

/-- The kind of resource an address can be of. -/
def Address.kind : Address → Option ResourceKind
  | .bucket _ => some .kv
  | .objects _ => some .store
  | .queue _ _ => some .job
  | .stream name _ => streamKind name

variable (h : allocation.Addressed naming deployment address)

include h in
theorem Addressed.kind : address.kind = some allocation.kind := by
  unfold NativeAllocation.Addressed at h
  split at h
  case h_8 => cases h
  all_goals
    rename_i hkind
    rw [hkind]
  · rfl
  · exact h ▸ streamKind_append (by decide)
  · rfl
  · exact h ▸ streamKind_append (by decide)
  · rfl
  · exact congrArg streamKind h.1
  · rcases h with h | h
    all_goals exact congrArg streamKind h.1

/-- Two allocations of one address own the same name, or are queues of one deployment and token. -/
theorem Addressed.same {other : NativeAllocation}
    (hadd : allocation.Addressed naming deployment address)
    (hadd' : other.Addressed naming deployment' address) (hkind : allocation.kind = other.kind) :
    allocation.owned = other.owned ∨ deployment = deployment' ∧
      queueToken allocation.name allocation.allocationId
        = queueToken other.name other.allocationId := by
  unfold NativeAllocation.Addressed at hadd hadd'
  rw [← hkind] at hadd'
  split at hadd
  case h_8 => cases hadd
  all_goals
    rename_i hcase
    rw [hcase] at hadd'
  · exact .inl (hadd.symm.trans hadd')
  · exact .inl ((String.append_right_inj _).mp (hadd.symm.trans hadd'))
  · exact .inl (hadd.symm.trans hadd')
  · exact .inl ((String.append_right_inj _).mp (hadd.symm.trans hadd'))
  · exact .inr ⟨naming.jobsNamespace_inj (hadd.1.symm.trans hadd'.1), hadd.2.symm.trans hadd'.2⟩
  · exact .inl (Option.some.inj (hadd.2.symm.trans hadd'.2))
  · have hstreams : eventStream ≠ replayStream := by decide
    rcases hadd with ⟨hstr, hdurable⟩ | ⟨hstr, hdurable⟩
    · rcases hadd' with ⟨-, hdurable'⟩ | ⟨hstr', -⟩
      · exact .inl (Option.some.inj (hdurable.symm.trans hdurable'))
      · exact absurd (hstr.symm.trans hstr') hstreams
    · rcases hadd' with ⟨hstr', -⟩ | ⟨-, hdurable'⟩
      · exact absurd (hstr'.symm.trans hstr) hstreams
      · have hsame := Option.some.inj (hdurable.symm.trans hdurable')
        exact .inl ((String.append_left_inj _).mp hsame)

/-- **An address is that of one allocation.** -/
theorem Addressed.unique (h : Proper allocation)
    (h' : Proper other) (hadd : allocation.Addressed naming deployment address)
    (hadd' : other.Addressed naming deployment' address) :
    allocation.kind = other.kind ∧ allocation.allocationId = other.allocationId := by
  have hkind : allocation.kind = other.kind :=
    Option.some.inj ((Addressed.kind hadd).symm.trans (Addressed.kind hadd'))
  refine ⟨hkind, ?_⟩
  rcases Addressed.same hadd hadd' hkind with howned | ⟨-, htoken⟩
  · exact allocationId_of_owned h h' howned
  · exact allocationId_of_token h h' htoken

/-! ## What entries reach -/

/-- Addresses of no allocation: workers' heartbeats and the shared streams. -/
def Shared (address : Address) : Prop :=
  (∃ jobsNamespace, address = .queue "workers" jobsNamespace) ∨
    ∃ stream, (stream = jobsStream ∨ stream = eventStream ∨ stream = replayStream) ∧
      address = .stream stream none

theorem not_shared_bucket : ¬ Shared (.bucket bucket) := by
  rintro (⟨_, h⟩ | ⟨_, _, h⟩) <;> cases h

/-- Patterns that name a durable consumer of a stream reach that consumer. -/
theorem durable_reach (constants tail : List String) (hstr : Plain stream)
    (hdurable : Plain durable) (h : Reaches (constants ++ stream :: durable :: tail) address)
    (haddr : ∀ rest, addressee (constants ++ stream :: durable :: rest)
      = some (.stream stream (some durable)) := by exact fun _ => rfl)
    (hconst : ∀ token ∈ constants, Plain token := by decide) :
    address = .stream stream (some durable) := by
  rw [append_cons] at h
  obtain ⟨rest, hrest⟩ := h.named _ tail hdurable (plain_concat hconst hstr)
  rw [← append_cons, haddr rest] at hrest
  cases hrest
  rfl

/-- Patterns under a subject of a queue reach the queue. -/
theorem queueSubject_reach (before inner tail : List String)
    (hns : Plain jobsNamespace) (htoken : Plain token)
    (h : Reaches (before ++ dotted (inner ++ [jobsNamespace, token]) :: tail) address)
    (haddr : ∀ rest, addressee (before ++ inner ++ jobsNamespace :: token :: rest)
      = some (.queue jobsNamespace token) := by exact fun _ => rfl)
    (hconst : ∀ part ∈ before ++ inner, Plain part := by decide) :
    address = .queue jobsNamespace token := by
  have hsplit : before ++ (inner ++ [jobsNamespace, token]) ++ tail
      = before ++ inner ++ [jobsNamespace] ++ token :: tail := by simp
  unfold Reaches at h
  rw [patternTokens_nest (by simp), hsplit] at h
  obtain ⟨rest, hrest⟩ := Reaches.named _ tail htoken h (plain_concat hconst hns)
  rw [← append_cons, haddr rest] at hrest
  cases hrest
  rfl

theorem queuePatterns_reach (hprop : Proper allocation) (hkind : allocation.kind = .job)
    (h : (queuePatterns (naming.jobsNamespace deployment)
      (allocation.name, allocation.queue naming deployment)).Reach address) :
    allocation.Addressed naming deployment address ∨ Shared address := by
  have hns : Plain (naming.jobsNamespace deployment) :=
    plain_of_digest (naming.jobsNamespace_text deployment)
  have hwork : Plain jobsWorkStream := by decide
  have hown : address = .stream jobsWorkStream (some allocation.owned) ∨
      address = .queue (naming.jobsNamespace deployment)
        (queueToken allocation.name allocation.allocationId) →
      allocation.Addressed naming deployment address := by
    unfold NativeAllocation.Addressed
    rw [hkind]
    rintro (rfl | rfl) <;> exact ⟨rfl, rfl⟩
  -- the subjects of the queue itself, to publish on and to subscribe to
  have hdata : ∀ tokens ∈ [[(allocation.queue naming deployment).workSubject],
      [(allocation.queue naming deployment).publishPrefix, ">"]] ++
      ((allocation.queue naming deployment).updatesPrefix.map fun updates => [updates, ">"]).toList,
      Reaches tokens address → allocation.Addressed naming deployment address := by
    intro tokens htoks hreach
    simp only [mem_append, mem_cons, not_mem_nil, or_false] at htoks
    rcases htoks with (rfl | rfl) | hups
    · exact hown (.inr <| queueSubject_reach [] ["trellis", "work"] [] hns hprop.plain_token hreach)
    · exact hown (.inr <| queueSubject_reach [] ["trellis", "jobs"] [">"] hns
        hprop.plain_token hreach)
    unfold NativeAllocation.queue at hups
    split at hups
    · obtain rfl := mem_singleton.mp hups
      exact hown (.inr <| queueSubject_reach [] ["trellis", "jobs_updates"] [">"] hns
      hprop.plain_token hreach)
    · cases hups
  obtain ⟨tokens, htoks, hreach⟩ := h
  rcases mem_append.mp htoks with htoks | htoks
  · rcases mem_append.mp htoks with htoks | htoks
    · simp only [mem_cons, not_mem_nil, or_false] at htoks
      rcases htoks with rfl | rfl | rfl | rfl | rfl
      · obtain ⟨rest, hrest⟩ := hreach.named ["trellis", "jobs", "workers"]
          [allocation.name, "*", "heartbeat"] hns
        exact .inr (.inl ⟨_, (Option.some.inj hrest).symm⟩)
      · exact .inl (hown (.inl <| durable_reach ["$JS", "API", "CONSUMER", "INFO"] [] hwork
          hprop.plain_owned hreach))
      · exact .inl (hown (.inl <| durable_reach ["$JS", "API", "CONSUMER", "MSG", "NEXT"] [] hwork
          hprop.plain_owned hreach))
      · exact .inl (hown (.inl <| durable_reach ["$JS", "ACK"] [">"] hwork hprop.plain_owned
          hreach))
      · exact .inl (hown (.inr <| queueSubject_reach ["$JS", "API", "DIRECT", "GET", jobsStream]
          ["trellis", "jobs"] [">"] hns
        hprop.plain_token hreach))
    · exact .inl (hdata tokens htoks hreach)
  · exact .inl (hdata tokens htoks hreach)

theorem consumerPatterns_reach (hprop : Proper allocation) (hkind : allocation.kind = .consumer)
    (h : (consumerPatterns allocation.consumer).Reach address) :
    allocation.Addressed naming deployment address ∨ Shared address := by
  -- the four patterns of one stream and durable
  have hpats : ∀ {stream durable : String} {tokens : List String}, Plain stream → Plain durable →
      tokens ∈ [jsApi ["STREAM", "INFO", stream], jsApi ["CONSUMER", "INFO", stream, durable],
        jsApi ["CONSUMER", "MSG", "NEXT", stream, durable], ["$JS", "ACK", stream, durable, ">"]] →
      Reaches tokens address →
      address = .stream stream none ∨ address = .stream stream (some durable) := by
    intro stream durable tokens hstr hdurable htoks hreach
    simp only [mem_cons, not_mem_nil, or_false] at htoks
    rcases htoks with rfl | rfl | rfl | rfl
    · obtain ⟨rest, hrest⟩ := hreach.named ["$JS", "API", "STREAM", "INFO"] [] hstr
      exact .inl (Option.some.inj hrest).symm
    · exact .inr (durable_reach ["$JS", "API", "CONSUMER", "INFO"] [] hstr hdurable hreach)
    · exact .inr (durable_reach ["$JS", "API", "CONSUMER", "MSG", "NEXT"] [] hstr hdurable hreach)
    · exact .inr (durable_reach ["$JS", "ACK"] [">"] hstr hdurable hreach)
  obtain ⟨tokens, htoks, hreach⟩ := h
  unfold consumerPatterns NativeAllocation.consumer at htoks
  simp only [append_nil, flatMap_cons] at htoks
  rcases mem_append.mp htoks with htoks | htoks
  · rcases hpats (by decide) hprop.plain_owned htoks hreach with rfl | rfl
    · exact .inr (.inr ⟨eventStream, .inr (.inl rfl), rfl⟩)
    · unfold NativeAllocation.Addressed
      rw [hkind]
      exact .inl (.inl ⟨rfl, rfl⟩)
  · rcases hpats (by decide) hprop.plain_replay htoks hreach with rfl | rfl
    · exact .inr (.inr ⟨replayStream, .inr (.inr rfl), rfl⟩)
    · unfold NativeAllocation.Addressed
      rw [hkind]
      exact .inl (.inr ⟨rfl, rfl⟩)

/-- What a compiled policy reaches, and through what. -/
inductive Source (naming : Naming) (deployment : String) (document : ResourceBindings)
    (address : Address) : Prop
  | entry (kind : ResourceKind) (entry : String × ResourceBinding)
      (hentry : entry ∈ document.entries kind)
      (hreach : ∀ allocation : NativeAllocation, Proper allocation → allocation.kind = kind →
        entry = (allocation.name, allocation.binding naming deployment) →
        allocation.Addressed naming deployment address ∨ Shared address)
  | keys (name : String) (queue : QueueBinding) (hkeyed : queue.keyed = true)
      (hentry : (name, ResourceBinding.job queue) ∈ document.entries .job)
      (haddress : OfBucket (jobsKeysBucket (naming.jobsNamespace deployment)) address)
  | material (bucket : String) (hbucket : bucket ∈ [materialBucket, revocationBucket])
      (haddress : OfBucket bucket address)
  | repository (provider : String) (haddress : OfBucket (operationRepository provider) address)
  | staging (provider : String) (haddress : OfObjects (operationStaging provider) address)
  | shared (haddress : Shared address)

theorem addressed_of_objects (hkind : allocation.kind = .store)
    (h : OfObjects allocation.owned address) : allocation.Addressed naming deployment address := by
  unfold NativeAllocation.Addressed
  rw [hkind]
  rcases h with rfl | ⟨consumer, rfl⟩ <;> rfl

theorem jobsAccess_source (hnamed : WellNamed naming deployment document)
    (hjobs : document.jobs = some jobs)
    (hok : jobsAccess service jobs = .ok policy) (h : policy.Reach address) :
    Source naming deployment document address := by
  have hns : jobs.jobsNamespace = naming.jobsNamespace deployment := hnamed.jobs jobs hjobs
  have hentry : ∀ entry ∈ jobs.queues,
      (entry.1, ResourceBinding.job entry.2) ∈ document.entries .job := by
    intro entry hentry
    unfold ResourceBindings.entries ResourceBindings.queues
    rw [hjobs]
    exact mem_map_of_mem hentry
  obtain ⟨keys, hkeys, hok⟩ := bind_eq_ok.mp hok
  cases hok
  obtain ⟨piece, hpiece, hreach⟩ := reach_union h
  rcases mem_cons.mp hpiece with rfl | hpiece
  · -- what every service with queues may ask for
    obtain ⟨tokens, htoks, hreaches⟩ := hreach
    simp only [append_nil, mem_append, mem_singleton] at htoks
    rcases htoks with htoks | rfl
    · split at htoks
      · obtain rfl := mem_singleton.mp htoks
        obtain ⟨rest, hrest⟩ := hreaches.front ["rpc"] ["v1", "jobs", "History"]
        cases hrest
      · cases htoks
    · obtain ⟨rest, hrest⟩ := hreaches.front ["$JS", "API", "STREAM", "INFO", jobsStream] []
      exact .shared (.inr ⟨jobsStream, .inl rfl, (Option.some.inj hrest).symm⟩)
  · rcases mem_cons.mp hpiece with rfl | hpiece
    · unfold keysAccess at hkeys
      split at hkeys
      next hany =>
        obtain ⟨entry, hmem, hkeyed⟩ := any_eq_true.mp hany
        refine .keys entry.1 entry.2 hkeyed (hentry entry hmem) ?_
        rw [← hns]
        exact bucketAccess_reach hkeys hreach
      · cases hkeys
        obtain ⟨tokens, htoks, -⟩ := hreach
        cases htoks
    · obtain ⟨entry, hmem, rfl⟩ := mem_map.mp hpiece
      refine .entry .job _ (hentry entry hmem) ?_
      intro allocation hprop hkind hsame
      obtain ⟨hname, hbind⟩ := Prod.mk.inj hsame
      rw [binding_of_kind hkind] at hbind
      apply queuePatterns_reach hprop hkind
      rw [← hname, ← ResourceBinding.job.inj hbind, ← hns]
      exact hreach

/-- **Where the reach of a compiled policy comes from.** -/
theorem compileTransport_source
    (hnamed : WellNamed naming projection.deploymentId projection.resources)
    (hok : compileTransport platform projection service routes operationProviders = .ok transport)
    (h : transport.Reach address) :
    Source naming projection.deploymentId projection.resources address := by
  unfold compileTransport at hok
  simp only [error_bind, guard_eq_ok, bind_eq_ok, pure_eq_ok] at hok
  obtain ⟨material, hmaterial, resources, hboot, -, repositories, hrepositories, stagings,
    hstagings, kv, hkv, store, hstore, jobs, hjobs, rfl⟩ := hok
  have hres : resources = projection.resources := by
    unfold nativeBootstrap at hboot
    simp only [error_bind, guard_eq_ok, bind_eq_ok, pure_eq_ok] at hboot
    obtain ⟨graph, -, installed, -, -, rfl⟩ := hboot
    rfl
  subst hres
  obtain ⟨piece, hpiece, hreach⟩ := reach_union h
  simp only [mem_append, mem_cons] at hpiece
  rcases hpiece with (((((( rfl | hpiece) | hpiece) | hpiece) | hpiece) | hpiece) | hpiece) | hpiece
  · exact absurd hreach (routes_reach routes)
  · obtain ⟨bucket, hbucket, hpiece⟩ := exists_of_mem_mapM hmaterial hpiece
    exact .material bucket hbucket (readAccess_reach hpiece hreach)
  · obtain ⟨provider, -, hpiece⟩ := exists_of_mem_mapM hrepositories hpiece
    exact .repository provider (bucketAccess_reach hpiece hreach)
  · obtain ⟨provider, -, hpiece⟩ := exists_of_mem_mapM hstagings hpiece
    exact .staging provider (objectAccess_reach hpiece hreach)
  · obtain ⟨entry, hentry, hpiece⟩ := exists_of_mem_mapM hkv hpiece
    have hbucket := bucketAccess_reach hpiece hreach
    refine .entry .kv (entry.1, .kv entry.2) (mem_map_of_mem hentry) ?_
    intro allocation _ hkind hsame
    rw [binding_of_kind hkind] at hsame
    rw [ResourceBinding.kv.inj (Prod.mk.inj hsame).2] at hbucket
    refine .inl ?_
    unfold NativeAllocation.Addressed
    rw [hkind]
    rcases hbucket with rfl | ⟨consumer, rfl⟩ <;> rfl
  · obtain ⟨entry, hentry, hpiece⟩ := exists_of_mem_mapM hstore hpiece
    have hobjects := objectAccess_reach hpiece hreach
    refine .entry .store (entry.1, .store entry.2) (mem_map_of_mem hentry) ?_
    intro allocation _ hkind hsame
    rw [binding_of_kind hkind] at hsame
    rw [ResourceBinding.store.inj (Prod.mk.inj hsame).2] at hobjects
    exact .inl (addressed_of_objects hkind hobjects)
  · obtain ⟨group, hgroup, hpiece⟩ := exists_of_mem_mapM hjobs hpiece
    exact jobsAccess_source hnamed (Option.mem_toList.mp hgroup) hpiece hreach
  · obtain ⟨entry, hentry, rfl⟩ := mem_map.mp hpiece
    refine .entry .consumer (entry.1, .consumer entry.2) (mem_map_of_mem hentry) ?_
    intro allocation hprop hkind hsame
    rw [binding_of_kind hkind] at hsame
    rw [ResourceBinding.consumer.inj (Prod.mk.inj hsame).2] at hreach
    exact consumerPatterns_reach hprop hkind hreach

/-! ## No address of an allocation is anyone else's -/

include h

theorem Addressed.not_shared : ¬ Shared address := by
  have hkind := Addressed.kind h
  unfold NativeAllocation.Addressed at h
  rintro (⟨jobsNamespace, rfl⟩ | ⟨stream, hstr, rfl⟩)
  · rw [← Option.some.inj hkind] at h
    have hlen := (naming.jobsNamespace_text deployment).1
    rw [← h.1] at hlen
    exact absurd hlen (by decide)
  · rcases hstr with rfl | rfl | rfl
    · rw [← Option.some.inj hkind] at h
      cases h.2
    all_goals
      rw [← Option.some.inj hkind] at h
      rcases h with ⟨-, ⟨⟩⟩ | ⟨-, ⟨⟩⟩

theorem Addressed.bucket_eq (hbucket : OfBucket bucket address) : bucket = allocation.owned := by
  have hkind := Addressed.kind h
  unfold NativeAllocation.Addressed at h
  rcases hbucket with rfl | ⟨consumer, rfl⟩
  · rw [← Option.some.inj hkind] at h
    exact h
  · have hkv : (Address.stream ("KV_" ++ bucket) consumer).kind = some .kv :=
      streamKind_append (by decide)
    rw [← Option.some.inj (hkv.symm.trans hkind)] at h
    exact (String.append_right_inj _).mp h

theorem Addressed.objects_eq (hname : OfObjects name address) : name = allocation.owned := by
  have hkind := Addressed.kind h
  unfold NativeAllocation.Addressed at h
  rcases hname with rfl | ⟨consumer, rfl⟩
  · rw [← Option.some.inj hkind] at h
    exact h
  · have hstore : (Address.stream ("OBJ_" ++ name) consumer).kind = some .store :=
      streamKind_append (by decide)
    rw [← Option.some.inj (hstore.symm.trans hkind)] at h
    exact (String.append_right_inj _).mp h

omit h

theorem head?_owned (allocation : NativeAllocation) : allocation.owned.toList.head? = some 'T' := by
  unfold NativeAllocation.owned
  rw [toList_ownedName]
  rfl

theorem ne_owned_of_head (hbefore : before.toList = c :: more) (hc : c ≠ 'T') :
    before ++ rest ≠ allocation.owned := by
  intro h
  have hhead := head?_owned allocation
  rw [← h, String.toList_append, hbefore] at hhead
  exact hc (Option.some.inj hhead)

/-- The address of an allocation comes from an entry that has it as its own. -/
theorem Source.exists_addressed (h : Source naming deployment document address)
    (hprop : Proper allocation) (hadd : allocation.Addressed naming owner address) :
    ∃ kind, ∃ entry ∈ document.entries kind, ∀ other : NativeAllocation, Proper other →
      other.kind = kind → entry = (other.name, other.binding naming deployment) →
      other.Addressed naming deployment address := by
  cases h with
  | entry kind entry hentry hreach =>
    refine ⟨kind, entry, hentry, ?_⟩
    intro other hother hkind hsame
    rcases hreach other hother hkind hsame with hreached | hshared
    · exact hreached
    · exact absurd hshared (Addressed.not_shared hadd)
  | keys name queue _ _ haddr | repository provider haddr =>
    exact absurd (Addressed.bucket_eq hadd haddr) (ne_owned_of_head rfl (by decide))
  | material bucket hbucket haddr =>
    have hlen := hprop.length_owned
    rw [← Addressed.bucket_eq hadd haddr] at hlen
    simp only [mem_cons, not_mem_nil, or_false] at hbucket
    rcases hbucket with rfl | rfl <;> exact absurd hlen (by decide)
  | staging provider haddr =>
    exact absurd (Addressed.objects_eq hadd haddr) (ne_owned_of_head rfl (by decide))
  | shared haddr => exact absurd haddr (Addressed.not_shared hadd)

/-- A document that is named for a deployment gives the addresses of its own allocations. -/
theorem Source.owner_eq (h : Source naming deployment document address)
    (hnamed : WellNamed naming deployment document) (hprop : Proper allocation)
    (hadd : allocation.Addressed naming owner address)
    (hid : allocation.resourceId = naming.resourceId owner participant kind name) :
    owner = deployment := by
  obtain ⟨kind, entry, hentry, haddressed⟩ := h.exists_addressed hprop hadd
  obtain ⟨other, _, hkind, hsame, hother, hulid, hdot⟩ := hnamed.entry kind entry hentry
  have hprop' : Proper other := ⟨hother ▸ naming.resourceId_text .., hulid, hdot⟩
  have hadd' := haddressed other hprop' hkind hsame
  rcases Addressed.same hadd hadd' (Addressed.unique hprop hprop' hadd hadd').1 with
    howned | ⟨howner, -⟩
  · have hids := (resourceId_of_owned hprop hprop' howned).trans hother
    exact (naming.resourceId_inj (hid.symm.trans hids)).1
  · exact howner

/-- That entry bears the names of the allocation. -/
theorem Source.entry_of_addressed (h : Source naming deployment document address)
    (hprop : Proper allocation) (hadd : allocation.Addressed naming owner address) :
    ∃ kind, ∃ entry ∈ document.entries kind, ∀ other : NativeAllocation, Proper other →
      other.kind = kind → entry = (other.name, other.binding naming deployment) →
      other.kind = allocation.kind ∧ other.allocationId = allocation.allocationId := by
  obtain ⟨kind, entry, hentry, haddressed⟩ := h.exists_addressed hprop hadd
  refine ⟨kind, entry, hentry, fun other hother hkind hsame => ?_⟩
  exact Addressed.unique hother hprop (haddressed other hother hkind hsame) hadd

theorem NamedFor.exists_proper (h : NamedFor naming deployment kind entry) :
    ∃ allocation : NativeAllocation, Proper allocation ∧ allocation.kind = kind ∧
      entry = (allocation.name, allocation.binding naming deployment) := by
  obtain ⟨allocation, participant, hkind, hentry, hid, hulid, hplain⟩ := h
  refine ⟨allocation, ⟨?_, hulid, hplain⟩, hkind, hentry⟩
  rw [hid]
  exact naming.resourceId_text _ _ _ _

/-- The keys of the jobs of a deployment come from one of its keyed queues. -/
theorem Source.entry_of_keys (hnamed : WellNamed naming deployment document)
    (h : Source naming deployment document
      (.bucket (jobsKeysBucket (naming.jobsNamespace owner)))) :
    ∃ entry ∈ document.entries .job, owner = deployment := by
  have hlen : 53 ≤ (jobsKeysBucket (naming.jobsNamespace owner)).toList.length := by
    unfold jobsKeysBucket
    rw [String.toList_append, length_append]
    have htext := (naming.jobsNamespace_text owner).1
    show 53 ≤ 10 + (naming.jobsNamespace owner).toList.length
    omega
  cases h with
  | entry kind entry hentry hreach =>
    obtain ⟨other, hother, hkind, hsame⟩ := NamedFor.exists_proper (hnamed.entry kind entry hentry)
    rcases hreach other hother hkind hsame with hreached | hshared
    · exact absurd (Addressed.bucket_eq hreached (.inl rfl)) (ne_owned_of_head rfl (by decide))
    · exact absurd hshared not_shared_bucket
  | keys name queue _ hentry haddr =>
    exact ⟨_, hentry, naming.jobsNamespace_inj ((String.append_right_inj _).mp haddr.name_eq)⟩
  | material bucket hbucket haddr =>
    rw [haddr.name_eq] at hlen
    simp only [mem_cons, not_mem_nil, or_false] at hbucket
    rcases hbucket with rfl | rfl <;> exact absurd hlen (by decide)
  | repository provider haddr =>
    have hkind := congrArg streamKind haddr.name_eq
    unfold jobsKeysBucket operationRepository at hkind
    rw [streamKind_append (by decide), streamKind_append (by decide)] at hkind
    cases hkind
  | staging provider haddr =>
    rcases haddr with haddr | ⟨_, haddr⟩ <;> cases haddr
  | shared haddr => exact absurd haddr not_shared_bucket

end Deployments
