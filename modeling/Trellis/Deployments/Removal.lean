/-
# Removing a resource

An administrator may remove a resource that no revision declares any more (`remove_resource`).
One transaction marks the detached row as being destroyed and claims the removal for thirty
seconds.  The execution deletes the data of the allocation on the broker, one request after
another, and a last transaction deletes the row, if the execution still has the claim.

Anything may happen between two of these requests: a retry takes an old claim over while the first
execution goes on, and once the row is gone the resource may get a new allocation.

Job keys alone are not deleted by the allocation's ID: all allocations of a job keep them under
the same keys.  They are purged up to a number noted before anything is deleted.
-/
import Trellis.Deployments.NativeTransport
import Trellis.Lib.Streams

open Catalog Auth TransportAuthorization

namespace Deployments

variable {Claims Evidence Edit : Type}

/-! ## Data on the broker -/

/-- One allocation of one resource: what the data on the broker belongs to. -/
structure Incarnation where
  (resourceId allocationId : String)
  deriving DecidableEq, Repr

variable (allocation : NativeAllocation)

def NativeAllocation.incarnation : Incarnation :=
  ⟨allocation.resourceId, allocation.allocationId⟩

abbrev Broker := List (Streams.Stream Incarnation)

/-- What an allocation's buckets and consumers are described with. -/
def Incarnation.marker (incarnation : Incarnation) : String :=
  "trellis.resource.v1:" ++ incarnation.resourceId ++ ":" ++ incarnation.allocationId

/-- The stream of the State values of all resources, and what it is described with. -/
def stateStream : String := "KV_trellis_state"
def stateMarker : String := "Trellis shared State storage"

/-- The stream of a deployment's job keys, and what it is described with. -/
def keysStream (jobsNamespace : String) : String := "KV_" ++ jobsKeysBucket jobsNamespace
def keysMarker (deployment : String) : String := "trellis.jobs.keys.v1:" ++ deployment

/-- The streams that no allocation has for itself. -/
def SharedName (naming : Naming) (name : String) : Prop :=
  name ∈ [jobsStream, jobsWorkStream, eventStream, replayStream, stateStream] ∨
    ∃ deployment, name = keysStream (naming.jobsNamespace deployment)

/-- The bucket or the object store of an allocation. -/
def NativeAllocation.Creates (name : String) : Prop :=
  (allocation.kind = .kv ∧ name = "KV_" ++ allocation.owned) ∨
    (allocation.kind = .store ∧ name = "OBJ_" ++ allocation.owned)

/-- The consumers of an allocation, by their streams. -/
def NativeAllocation.Attaches (stream consumer : String) : Prop :=
  (allocation.kind = .job ∧ stream = jobsWorkStream ∧ consumer = allocation.owned) ∨
    (allocation.kind = .consumer ∧ stream = eventStream ∧ consumer = allocation.owned) ∨
    (allocation.kind = .consumer ∧ stream = replayStream ∧ consumer = allocation.owned ++ "_replay")

/-- The subjects of an allocation's data: bucket values, objects, State values of its devices, job
events, work items and job keys. -/
inductive Emits (naming : Naming) (deployment : String) (allocation : NativeAllocation) :
    String → String → Prop
  | value (hkind : allocation.kind = .kv) (key) : Emits naming deployment allocation
      ("KV_" ++ allocation.owned) (dotted ["$KV", allocation.owned, key])
  | object (hkind : allocation.kind = .store) (key) : Emits naming deployment allocation
      ("OBJ_" ++ allocation.owned) (dotted ["$O", allocation.owned, key])
  | state (hkind : allocation.kind = .state) (key) : Emits naming deployment allocation
      stateStream (dotted ["$KV", "trellis_state",
        dotted [allocation.resourceId, allocation.allocationId], key])
  | event (hkind : allocation.kind = .job) (rest) : Emits naming deployment allocation
      jobsStream (dotted [(allocation.queue naming deployment).publishPrefix, rest])
  | work (hkind : allocation.kind = .job) : Emits naming deployment allocation
      jobsWorkStream (allocation.queue naming deployment).workSubject
  | key (hkind : allocation.kind = .job) (hash) : Emits naming deployment allocation
      (keysStream (naming.jobsNamespace deployment))
      (dotted ["$KV", jobsKeysBucket (naming.jobsNamespace deployment),
        naming.jobsNamespace deployment, allocation.name, hash])

/-- What happens on the broker beside removals.  Plans are carried out, at once or later; whoever
has an allocation stores data of it; a user's State stands beside that of deployments; and messages
go, by age, when worked off or overwritten. -/
inductive BrokerStep (naming : Naming) (plans : List ResourcePlan) : Broker → Broker → Prop
  | share {broker : Broker} {name description} (hname : SharedName naming name)
      (hfree : ∀ s ∈ broker, s.name ≠ name) :
      BrokerStep naming plans broker (Streams.create broker name description none)
  | create {broker : Broker} {plan allocation name} (hplan : plan ∈ plans)
      (hallocation : allocation ∈ plan.allocations) (hname : allocation.Creates name)
      (hfree : ∀ s ∈ broker, s.name ≠ name) :
      BrokerStep naming plans broker
        (Streams.create broker name allocation.incarnation.marker (some allocation.incarnation))
  | attach {broker : Broker} {plan allocation stream consumer} (hplan : plan ∈ plans)
      (hallocation : allocation ∈ plan.allocations) (hname : allocation.Attaches stream consumer) :
      BrokerStep naming plans broker (Streams.createConsumer broker stream
        ⟨consumer, allocation.incarnation.marker, allocation.incarnation⟩)
  | publish {broker : Broker} {plan allocation stream subject} (hplan : plan ∈ plans)
      (hallocation : allocation ∈ plan.allocations)
      (h : Emits naming plan.deployment allocation stream subject) :
      BrokerStep naming plans broker (Streams.publish broker stream subject allocation.incarnation)
  | publishUser {broker : Broker} {resourceId allocationId} (hid : '.' ∉ resourceId.toList)
      (hallocation : '.' ∉ allocationId.toList) :
      BrokerStep naming plans broker (Streams.publish broker stateStream
        (dotted ["$KV", "trellis_state", dotted [resourceId, allocationId]])
        ⟨resourceId, allocationId⟩)
  | discard {broker : Broker} (stream select) :
      BrokerStep naming plans broker (Streams.discard broker stream select)

/-- The broker's reading of a purge filter. -/
structure Selects (filter subject : String) : Prop where
  matched : Glob.Matches ((Text.split '.' filter).map tokenOf) (Text.split '.' subject)

instance (filter subject : String) : Decidable (Selects filter subject) :=
  decidable_of_iff _ ⟨Selects.mk, Selects.matched⟩

/-- Purge the messages of a stream that a filter selects, below a number if one is given. -/
def purge (broker : Broker) (stream filter : String) (before : Option Nat) : Broker :=
  Streams.discard broker stream fun m => Selects filter m.subject ∧ ∀ n ∈ before, m.sequence < n

/-! ## Removals and their executions -/

/-- What is still to be purged, as it is noted with a removal. -/
structure Purge where
  (stream filter : String)
  before : Nat
  deriving DecidableEq, Repr

/-- `physical_id` of a removal: the place the row had, later with the purges. -/
structure RemovalPlace where
  owned : Physical
  purges : Option (List Purge)
  deriving DecidableEq, Repr

inductive RemovalState where
  | accepted
  | executing (owner : String) (leaseUntil : Int)
  | completed
  deriving DecidableEq, Repr

/-- A row of `auth_resource_removals`. -/
structure Removal where
  (actor requestId resourceId : String)
  resourceRevision : Nat
  physical : RemovalPlace
  allocationId : String
  state : RemovalState
  deriving DecidableEq, Repr

variable (m : Removal)

def Removal.key : String × String := (m.actor, m.requestId)

/-- The claim may be taken: nobody has it, or its time is up. -/
def Removal.claimable (now : Int) : Bool :=
  match m.state with
  | .accepted => true
  | .executing _ leaseUntil => leaseUntil ≤ now
  | .completed => false

def Removal.executedBy (owner : String) : Bool :=
  match m.state with
  | .executing owner' _ => owner' = owner
  | _ => false

/-- A stream and a consumer on it, or a stream and a filter. -/
abbrev Target := String × String

/-- What an execution asks of the broker next. -/
inductive Work where
  | checkState (place : String)
  | purgeState (place : String)
  | checkConsumers (selected : Resource) (targets pending : List Target)
  | capture (ownerId : String) (targets pending : List Target) (purges : List Purge)
  | deleteConsumers (targets : List Target) (purges : List Purge)
  | purgeStreams (purges : List Purge)
  | checkBucket (name : String)
  | deleteBucket (name : String)
  deriving DecidableEq, Repr

inductive Phase where
  | selecting
  | working (work : Work)
  | recording (targets : List Target) (purges : List Purge)
  | finishing
  | failed
  | ended
  deriving DecidableEq, Repr

/-- An execution of `remove_resource` past its first transaction, with what it has read. -/
structure Execution where
  (actor requestId owner resourceId : String)
  revision : Nat
  physical : RemovalPlace
  allocationId : String
  phase : Phase
  deriving DecidableEq, Repr

variable (e : Execution)

def Execution.key : String × String := (e.actor, e.requestId)

def Execution.incarnation : Incarnation := ⟨e.resourceId, e.allocationId⟩

/-! ### The first transaction -/

section

variable (naming : Naming) (resources : List Resource) (removals : List Removal)

/-- The request of a removal, done once: a request that was seen before must be the same. -/
def acceptRemoval (actor requestId resourceId : String) (expectedRevision : Nat) :
    Except AuthError (List Resource × List Removal) :=
  match removals.find? fun m => m.key = (actor, requestId) with
  | some m =>
    if m.resourceId = resourceId ∧ m.resourceRevision = expectedRevision + 1 then
      .ok (resources, removals)
    else .error .conflict
  | none => do
      let (resources, row) ← beginRemoval naming resources resourceId expectedRevision
      return (resources, removals ++
        [{ actor
           requestId
           resourceId
           resourceRevision := row.revision
           physical := ⟨row.physical, none⟩
           allocationId := row.allocationId
           state := .accepted }])

/-- Whether the row a removal is of is there, to be destroyed. -/
def isDestroying (resourceId allocationId : String) (revision : Nat) (row : Resource) : Bool :=
  row.resourceId = resourceId ∧ row.allocationId = allocationId ∧ row.revision = revision ∧
    row.state = .destroying

/-- Claim a removal for an execution, unless it is completed. -/
def claimRemoval (actor requestId owner : String) (now : Int) :
    Except AuthError (List Removal × Option Execution) :=
  match removals.find? fun m => m.key = (actor, requestId) with
  | none => .error .storage
  | some m =>
    if m.state = .completed then .ok (removals, none)
    else if !resources.any (isDestroying m.resourceId m.allocationId m.resourceRevision) then
      .error .conflict
    else do
      let removals ← updateOne removals (fun m => m.key = (actor, requestId) ∧ m.claimable now)
        fun m => { m with state := .executing owner (now + 30) }
      return (removals, some
        { actor
          requestId
          owner
          resourceId := m.resourceId
          revision := m.resourceRevision
          physical := m.physical
          allocationId := m.allocationId
          phase := .selecting })

/-! ### The data -/

/-- Read the row, and begin with what its kind asks for. -/
def selectRow (e : Execution) : Except AuthError Phase :=
  match resources.find? (isDestroying e.resourceId e.allocationId e.revision) with
  | none => .error .storage
  | some row =>
    match row.kind, e.physical.owned with
    | .state, .name place => .ok (.working (.checkState place))
    | .job, .job _ _ consumer _ _ =>
      let targets := [(jobsWorkStream, consumer)]
      .ok (.working (.checkConsumers row targets targets))
    | .consumer, .consumer _ consumer replayConsumer =>
      let targets := [(eventStream, consumer), (replayStream, replayConsumer)]
      .ok (.working (.checkConsumers row targets targets))
    | .kv, .name place => .ok (.working (.checkBucket ("KV_" ++ place)))
    | .store, .name place => .ok (.working (.checkBucket ("OBJ_" ++ place)))
    | _, _ => .error .conflict

/-- After the check the numbers of a job's streams are read, unless they were noted before. -/
def afterCheck (selected : Resource) (targets : List Target) : Phase :=
  match selected.kind, e.physical with
  | .job, ⟨.job jobsNamespace _ _ publishPrefix workSubject, none⟩ =>
    .working (.capture selected.ownerId targets
      [(jobsStream, dotted [publishPrefix, ">"]), (jobsWorkStream, workSubject),
        (keysStream jobsNamespace, dotted ["$KV", jobsKeysBucket jobsNamespace, jobsNamespace,
          selected.localName, ">"])] [])
  | _, place => .working (.deleteConsumers targets (place.purges.getD []))

/-- One request to the broker, and what follows it.  A stream must be there, but for a bucket and
for the numbers of a job's streams. -/
def Execution.request (broker : Broker) : Work → Except AuthError (Broker × Phase)
  | .checkState place =>
    match Streams.find? broker stateStream with
    | none => .error .unavailable
    | some s =>
      if s.description ≠ stateMarker then .error .conflict
      else .ok (broker, .working (.purgeState place))
  | .purgeState place =>
    if (Streams.find? broker stateStream).isNone then .error .unavailable
    else
      -- the filter includes the allocation
      .ok (purge broker stateStream (dotted ["$KV", "trellis_state", place, ">"]) none, .finishing)
  | .checkConsumers selected targets [] => .ok (broker, afterCheck e selected targets)
  | .checkConsumers selected targets ((stream, consumer) :: pending) =>
    match Streams.find? broker stream with
    | none => .error .unavailable
    | some s =>
      match s.consumers.find? fun c => c.name = consumer with
      | none => .ok (broker, .working (.checkConsumers selected targets pending))
      | some c =>
        if c.description ≠ e.incarnation.marker then .error .conflict
        else .ok (broker, .working (.checkConsumers selected targets pending))
  | .capture _ targets [] purges => .ok (broker, .recording targets purges)
  | .capture ownerId targets ((stream, filter) :: pending) purges =>
    match Streams.find? broker stream with
    | none => .ok (broker, .working (.capture ownerId targets pending purges))
    | some s =>
      if "KV_".toList.isPrefixOf stream.toList ∧ s.description ≠ keysMarker ownerId then
        .error .conflict
      else .ok (broker, .working (.capture ownerId targets pending
        (purges ++ [⟨stream, filter, s.lastSequence + 1⟩])))
  | .deleteConsumers [] purges => .ok (broker, .working (.purgeStreams purges))
  | .deleteConsumers ((stream, consumer) :: targets) purges =>
    if (Streams.find? broker stream).isNone then .error .unavailable
    else .ok (Streams.deleteConsumer broker stream consumer,
      .working (.deleteConsumers targets purges))
  | .purgeStreams [] => .ok (broker, .finishing)
  | .purgeStreams (p :: purges) =>
    if (Streams.find? broker p.stream).isNone then .error .unavailable
    else .ok (purge broker p.stream p.filter (some p.before), .working (.purgeStreams purges))
  | .checkBucket name =>
    match Streams.find? broker name with
    | none => .ok (broker, .finishing)
    | some s =>
      if s.description ≠ e.incarnation.marker then .error .conflict
      else .ok (broker, .working (.deleteBucket name))
  | .deleteBucket name =>
    if (Streams.find? broker name).isNone then .error .unavailable
    else .ok (Streams.delete broker name, .finishing)

/-- Note the numbers with the removal, which the execution must still have claimed. -/
def recordPurges (e : Execution) (purges : List Purge) : Except AuthError (List Removal) :=
  updateOne removals (fun m => m.key = e.key ∧ m.executedBy e.owner ∧ m.physical = e.physical)
    fun m => { m with physical := ⟨e.physical.owned, some purges⟩ }

/-! ### The last transaction -/

/-- Give the claim back, if it is still this execution's. -/
def releaseRemoval (e : Execution) : List Removal :=
  removals.map fun m =>
    if m.key = e.key ∧ m.executedBy e.owner then { m with state := .accepted } else m

/-- Complete the removal and delete the row. -/
def completeRemoval (e : Execution) : Except AuthError (List Resource × List Removal) := do
  let removals ← updateOne removals
    (fun m => m.key = e.key ∧ m.allocationId = e.allocationId ∧ m.resourceRevision = e.revision ∧
      m.executedBy e.owner)
    fun m => { m with state := .completed }
  let resources ← finishRemoval resources e.resourceId e.allocationId e.revision
  return (resources, removals)

end

/-! ## Steps -/

/-- The tables, the removals, their executions and the broker. -/
structure Site (Claims Evidence : Type) where
  native : World Claims Evidence
  removals : List Removal
  executions : List Execution
  broker : Broker

def Site.initial (policy : PolicyTables Claims) : Site Claims Evidence where
  native := World.initial policy
  removals := []
  executions := []
  broker := []

def Site.resources (site : Site Claims Evidence) : List Resource := site.native.store.resources

/-- Executions are told apart by the owner ID each draws. -/
def setPhase (executions : List Execution) (e : Execution) (phase : Phase) : List Execution :=
  executions.map fun x => if x.owner = e.owner then { x with phase } else x

/-- Who takes a step: nobody's removal, a request that begins one, or an execution. -/
inductive Actor where
  | outside
  | request
  | execution (e : Execution)

/-- The phases in which a request may fail. -/
def Phase.fallible : Phase → Bool
  | .selecting => true
  | .working _ => true
  | .recording _ _ => true
  | _ => false

/-- What may happen.  An execution that is cancelled takes no further step. -/
inductive SiteStep (platform : Platform Claims Evidence Edit) (naming : Naming) :
    Actor → Site Claims Evidence → Site Claims Evidence → Prop
  | tables {site : Site Claims Evidence} {native}
      (h : TableStep platform naming site.native native) :
      SiteStep platform naming .outside site { site with native }
  | broker {site : Site Claims Evidence} {broker}
      (h : BrokerStep naming site.native.plans site.broker broker) :
      SiteStep platform naming .outside site { site with broker }
  | start {site : Site Claims Evidence}
      {actor requestId resourceId expectedRevision owner now resources accepted claimed execution}
      (hfresh : ∀ e ∈ site.executions, e.owner ≠ owner)
      (haccept : acceptRemoval naming site.resources site.removals actor requestId resourceId
        expectedRevision = .ok (resources, accepted))
      (hclaim : claimRemoval resources accepted actor requestId owner now
        = .ok (claimed, execution)) :
      SiteStep platform naming .request site
        { site with
          native := site.native.withResources resources
          removals := claimed
          executions := site.executions ++ execution.toList }
  | select {site : Site Claims Evidence} {e phase} (he : e ∈ site.executions)
      (hphase : e.phase = .selecting) (h : selectRow site.resources e = .ok phase) :
      SiteStep platform naming (.execution e) site
        { site with executions := setPhase site.executions e phase }
  | work {site : Site Claims Evidence} {e work broker phase} (he : e ∈ site.executions)
      (hphase : e.phase = .working work) (h : e.request site.broker work = .ok (broker, phase)) :
      SiteStep platform naming (.execution e) site
        { site with broker, executions := setPhase site.executions e phase }
  | record {site : Site Claims Evidence} {e targets purges removals} (he : e ∈ site.executions)
      (hphase : e.phase = .recording targets purges)
      (h : recordPurges site.removals e purges = .ok removals) :
      SiteStep platform naming (.execution e) site
        { site with
          removals
          executions := setPhase site.executions e (.working (.deleteConsumers targets purges)) }
  | fail {site : Site Claims Evidence} {e} (he : e ∈ site.executions)
      (hphase : e.phase.fallible = true) :
      SiteStep platform naming (.execution e) site
        { site with executions := setPhase site.executions e .failed }
  | release {site : Site Claims Evidence} {e} (he : e ∈ site.executions)
      (hphase : e.phase = .failed) :
      SiteStep platform naming (.execution e) site
        { site with
          removals := releaseRemoval site.removals e
          executions := setPhase site.executions e .ended }
  | complete {site : Site Claims Evidence} {e resources removals} (he : e ∈ site.executions)
      (hphase : e.phase = .finishing)
      (h : completeRemoval site.resources site.removals e = .ok (resources, removals)) :
      SiteStep platform naming (.execution e) site
        { site with
          native := site.native.withResources resources
          removals
          executions := setPhase site.executions e .ended }

end Deployments
