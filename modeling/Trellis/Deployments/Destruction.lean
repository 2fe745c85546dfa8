/-
# A removal destroys the allocation it was confirmed for

What carries it: until a removal is completed its row is there, to be destroyed, and no plan draws
an allocation for a resource that has a row.  So what lies below the next number of the stream of
job keys, when an execution that has the claim reads it, is of no later allocation, and stays so.
One that has lost the claim cannot note the number it reads, and stops before it purges.
-/
import Trellis.Deployments.Incarnations

open Catalog Auth TransportAuthorization

namespace Deployments

open List Checked

variable {Claims Evidence Edit : Type}

/-! ## Requests -/

/-- What a request to the broker does, and what follows it. -/
inductive Answers (e : Execution) (broker : Broker) : Work → Broker → Phase → Prop
  | stateChecked {place} :
      Answers e broker (.checkState place) broker (.working (.purgeState place))
  | statePurged {place} : Answers e broker (.purgeState place)
      (purge broker stateStream (dotted ["$KV", "trellis_state", place, ">"]) none) .finishing
  | consumersChecked {selected targets} :
      Answers e broker (.checkConsumers selected targets []) broker (afterCheck e selected targets)
  | consumerChecked {selected targets target pending} :
      Answers e broker (.checkConsumers selected targets (target :: pending)) broker
        (.working (.checkConsumers selected targets pending))
  | captured {ownerId targets purges} :
      Answers e broker (.capture ownerId targets [] purges) broker (.recording targets purges)
  | streamMissing {ownerId targets target pending purges} :
      Answers e broker (.capture ownerId targets (target :: pending) purges) broker
        (.working (.capture ownerId targets pending purges))
  | streamCaptured {ownerId targets target pending purges s}
      (hfind : Streams.find? broker target.1 = some s) :
      Answers e broker (.capture ownerId targets (target :: pending) purges) broker
        (.working (.capture ownerId targets pending
          (purges ++ [⟨target.1, target.2, s.lastSequence + 1⟩])))
  | consumersDeleted {purges} :
      Answers e broker (.deleteConsumers [] purges) broker (.working (.purgeStreams purges))
  | consumerDeleted {target targets purges} :
      Answers e broker (.deleteConsumers (target :: targets) purges)
        (Streams.deleteConsumer broker target.1 target.2)
        (.working (.deleteConsumers targets purges))
  | streamsPurged : Answers e broker (.purgeStreams []) broker .finishing
  | streamPurged {p purges} : Answers e broker (.purgeStreams (p :: purges))
      (purge broker p.stream p.filter (some p.before)) (.working (.purgeStreams purges))
  | bucketMissing {name} : Answers e broker (.checkBucket name) broker .finishing
  | bucketChecked {name} :
      Answers e broker (.checkBucket name) broker (.working (.deleteBucket name))
  | bucketDeleted {name} :
      Answers e broker (.deleteBucket name) (Streams.delete broker name) .finishing

theorem Execution.request_answers
    {phase : Phase} (h : e.request broker work = .ok (broker', phase)) :
    Answers e broker work broker' phase := by
  cases work with
  | checkState place =>
    simp only [Execution.request] at h
    split at h
    · cases h
    · cases (guard_eq_ok.mp h).2
      exact .stateChecked
  | purgeState place =>
    cases (guard_eq_ok.mp h).2
    exact .statePurged
  | checkConsumers selected targets pending =>
    cases pending with
    | nil =>
      cases h
      exact .consumersChecked
    | cons target pending =>
      simp only [Execution.request] at h
      split at h
      · cases h
      split at h
      · cases h
        exact .consumerChecked
      · cases (guard_eq_ok.mp h).2
        exact .consumerChecked
  | capture ownerId targets pending purges =>
    cases pending with
    | nil =>
      cases h
      exact .captured
    | cons target pending =>
      simp only [Execution.request] at h
      split at h
      · cases h
        exact .streamMissing
      next s hfind =>
        cases (guard_eq_ok.mp h).2
        exact .streamCaptured hfind
  | deleteConsumers targets purges =>
    cases targets with
    | nil =>
      cases h
      exact .consumersDeleted
    | cons target targets =>
      cases (guard_eq_ok.mp h).2
      exact .consumerDeleted
  | purgeStreams purges =>
    cases purges with
    | nil =>
      cases h
      exact .streamsPurged
    | cons p purges =>
      cases (guard_eq_ok.mp h).2
      exact .streamPurged
  | checkBucket name =>
    simp only [Execution.request] at h
    split at h
    · cases h
      exact .bucketMissing
    · cases (guard_eq_ok.mp h).2
      exact .bucketChecked
  | deleteBucket name =>
    cases (guard_eq_ok.mp h).2
    exact .bucketDeleted

/-! ## What a removal was confirmed for -/

/-- A noted purge is the job's, and what lies below its number is of no later allocation. -/
structure Cut (naming : Naming) (drawn : List String) (broker : Broker) (deployment : String)
    (allocation : NativeAllocation) (p : Purge) : Prop where
  job : allocation.kind = .job
  captures : Captures naming deployment allocation p.stream p.filter
  below : Streams.Sealed broker p.stream p.before fun m =>
    Selects p.filter m.subject → NotLater drawn m.owner.allocationId allocation.allocationId

theorem Cut.evolves (h : Cut naming drawn broker deployment allocation p)
    (hstep : BrokerEvolves naming plans broker broker') :
    Cut naming drawn broker' deployment allocation p := by
  refine ⟨h.job, h.captures, h.below.evolves hstep ?_⟩
  rintro ⟨other, hother⟩
  exact hother.not_shared h.captures.shared

theorem Cut.append (h : Cut naming drawn broker deployment allocation p)
    (hdrawn : allocation.allocationId ∈ drawn) (more : List String) :
    Cut naming (drawn ++ more) broker deployment allocation p :=
  ⟨h.job, h.captures, h.below.imp fun _ _ _ _ _ hold hsel => (hold hsel).append hdrawn more⟩

/-- The execution has the claim on its removal. -/
def Claimed (removals : List Removal) (e : Execution) : Prop :=
  ∃ m ∈ removals, m.key = e.key ∧ m.executedBy e.owner = true

section Confirmation

variable (naming : Naming) (site : Site Claims Evidence)

/-- The allocation a removal is of, where it has its data, and the purges noted so far. -/
structure Confirmed (incarnation : Incarnation) (recorded : RemovalPlace) (plan : ResourcePlan)
    (allocation : NativeAllocation) : Prop where
  planned : plan ∈ site.native.plans
  allocated : allocation ∈ plan.allocations
  same : allocation.incarnation = incarnation
  place : recorded.owned = allocation.physical naming plan.deployment
  cut : ∀ purges, recorded.purges = some purges → ∀ p ∈ purges,
    Cut naming site.native.drawn site.broker plan.deployment allocation p

/-- What is about to be deleted is the allocation's; numbers read are right as long as the execution
has the claim, and noted ones are right. -/
def PhaseOk (claimed : Prop) (plan : ResourcePlan) (allocation : NativeAllocation) : Phase → Prop
  | .working (.checkState place) | .working (.purgeState place) =>
    place = dotted [allocation.resourceId, allocation.allocationId]
  | .working (.checkConsumers selected targets _) =>
    (∀ t ∈ targets, allocation.Attaches t.1 t.2) ∧ selected.kind = allocation.kind ∧
      selected.localName = allocation.name
  | .working (.capture _ targets pending purges) =>
    (∀ t ∈ targets, allocation.Attaches t.1 t.2) ∧ allocation.kind = .job ∧
      (∀ t ∈ pending, Captures naming plan.deployment allocation t.1 t.2) ∧
      ∀ p ∈ purges, claimed → Cut naming site.native.drawn site.broker plan.deployment allocation p
  | .recording targets purges =>
    (∀ t ∈ targets, allocation.Attaches t.1 t.2) ∧ ∀ p ∈ purges, claimed →
        Cut naming site.native.drawn site.broker plan.deployment allocation p
  | .working (.deleteConsumers targets purges) =>
    (∀ t ∈ targets, allocation.Attaches t.1 t.2) ∧
      ∀ p ∈ purges, Cut naming site.native.drawn site.broker plan.deployment allocation p
  | .working (.purgeStreams purges) =>
    ∀ p ∈ purges, Cut naming site.native.drawn site.broker plan.deployment allocation p
  | .working (.checkBucket name) | .working (.deleteBucket name) => allocation.Creates name
  | .selecting | .finishing | .failed | .ended => True

/-- The removal is of an allocation that was planned. -/
def RemovalOk (m : Removal) : Prop :=
  ∃ plan allocation, Confirmed naming site ⟨m.resourceId, m.allocationId⟩ m.physical plan allocation

def ExecutionOk (e : Execution) : Prop :=
  ∃ plan allocation, Confirmed naming site e.incarnation e.physical plan allocation ∧
    PhaseOk naming site (Claimed site.removals e) plan allocation e.phase

variable {naming site}

/-- What is known of removals stays known where it is known of purges. -/
structure Follows (naming : Naming) (site site' : Site Claims Evidence) : Prop where
  plans : site.native.plans ⊆ site'.native.plans
  cut : ∀ plan ∈ site.native.plans, ∀ allocation ∈ plan.allocations, ∀ p,
    Cut naming site.native.drawn site.broker plan.deployment allocation p →
      Cut naming site'.native.drawn site'.broker plan.deployment allocation p

theorem Confirmed.follows (h : Confirmed naming site incarnation recorded plan allocation)
    (hsite : Follows naming site site') :
    Confirmed naming site' incarnation recorded plan allocation :=
  { h with
    planned := hsite.plans h.planned
    cut := fun purges hpurges p hp =>
      hsite.cut plan h.planned allocation h.allocated p (h.cut purges hpurges p hp) }

theorem PhaseOk.follows
    (h : PhaseOk naming site claimed plan allocation phase) (hplan : plan ∈ site.native.plans)
    (halloc : allocation ∈ plan.allocations) (hsite : Follows naming site site')
    (hclaim : claimed' → claimed) : PhaseOk naming site' claimed' plan allocation phase := by
  have hcut := hsite.cut plan hplan allocation halloc
  cases phase with
  | working work =>
    cases work with
    | checkState | purgeState | checkConsumers | checkBucket | deleteBucket => exact h
    | capture =>
      obtain ⟨htgts, hjob, hpend, hpurges⟩ := h
      exact ⟨htgts, hjob, hpend, fun p hp hclaimed => hcut p (hpurges p hp (hclaim hclaimed))⟩
    | deleteConsumers => exact ⟨h.1, fun p hp => hcut p (h.2 p hp)⟩
    | purgeStreams => exact fun p hp => hcut p (h p hp)
  | recording => exact ⟨h.1, fun p hp hclaimed => hcut p (h.2 p hp (hclaim hclaimed))⟩
  | selecting | finishing | failed | ended => trivial

theorem ExecutionOk.follows (h : ExecutionOk naming site e) (hsite : Follows naming site site')
    (hclaim : Claimed site'.removals e → Claimed site.removals e) : ExecutionOk naming site' e := by
  obtain ⟨plan, allocation, hconf, hphase⟩ := h
  exact ⟨plan, allocation, hconf.follows hsite,
    hphase.follows hconf.planned hconf.allocated hsite hclaim⟩

theorem RemovalOk.follows (h : RemovalOk naming site m) (hsite : Follows naming site site') :
    RemovalOk naming site' m := by
  obtain ⟨plan, allocation, hconf⟩ := h
  exact ⟨plan, allocation, hconf.follows hsite⟩

end Confirmation

/-! ## The invariant of every run -/

/-- A removal and an execution of it. -/
structure Removal.Of (m : Removal) (e : Execution) : Prop where
  key : m.key = e.key
  resourceId : m.resourceId = e.resourceId
  allocationId : m.allocationId = e.allocationId
  revision : m.resourceRevision = e.revision

/-- What holds in every run. -/
structure Confined (platform : Platform Claims Evidence Edit) (naming : Naming)
    (site : Site Claims Evidence) : Prop where
  ledger : Ledger platform naming site.native
  stocked : Stocked naming site.native.plans site.broker
  keys_nodup : (site.removals.map Removal.key).Nodup
  allocations_nodup : (site.removals.map Removal.allocationId).Nodup
  owners_nodup : (site.executions.map Execution.owner).Nodup
  pending : ∀ m ∈ site.removals, m.state ≠ .completed → ∃ row ∈ site.resources,
    isDestroying m.resourceId m.allocationId m.resourceRevision row = true
  completed : ∀ m ∈ site.removals, m.state = .completed → ∀ row ∈ site.resources,
    row.allocationId ≠ m.allocationId
  removals : ∀ m ∈ site.removals, RemovalOk naming site m
  executions : ∀ e ∈ site.executions, ExecutionOk naming site e
  linked : ∀ e ∈ site.executions, ∃ m ∈ site.removals, m.Of e

theorem Confined.initial (platform : Platform Claims Evidence Edit) (naming : Naming)
    (policy : PolicyTables Claims) :
    Confined platform naming (Site.initial policy : Site Claims Evidence) where
  ledger := .initial platform naming policy
  stocked := by
    refine ⟨nodup_nil, ?_, ?_, ?_⟩
    all_goals exact forall_mem_nil _
  keys_nodup := nodup_nil
  allocations_nodup := nodup_nil
  owners_nodup := nodup_nil
  pending := forall_mem_nil _
  completed := forall_mem_nil _
  removals := forall_mem_nil _
  executions := forall_mem_nil _
  linked := forall_mem_nil _

theorem isDestroying_iff : isDestroying resourceId allocationId revision row = true ↔
      row.resourceId = resourceId ∧ row.allocationId = allocationId ∧ row.revision = revision ∧
        row.state = .destroying := by
  unfold isDestroying
  rw [decide_eq_true_iff]

section Invariant

variable {platform : Platform Claims Evidence Edit} {site : Site Claims Evidence} {m : Removal}
  {removals : List Removal}

variable (hsite : Confined platform naming site)

variable (he : e ∈ site.executions)

include hsite he in
/-- The removal under an execution's key is its removal. -/
theorem Confined.of_key (hm : m ∈ site.removals) (hkey : m.key = e.key) : m.Of e := by
  obtain ⟨m', hm', hof⟩ := hsite.linked e he
  rwa [inj_on_of_nodup_map hsite.keys_nodup hm hm' (hkey.trans hof.key.symm)]

theorem executedBy_ne_completed {owner : String} (h : m.executedBy owner = true) :
    m.state ≠ .completed := by
  intro hstate
  unfold Removal.executedBy at h
  rw [hstate] at h
  cases h

theorem Confirmed.id_eq (h : Confirmed naming site e.incarnation recorded plan allocation) :
    allocation.resourceId = e.resourceId ∧ allocation.allocationId = e.allocationId :=
  Incarnation.mk.inj h.same

include hsite he in
/-- **A number read under the claim separates the allocations.** -/
theorem Confined.cut_of_claimed
    (hconf : Confirmed naming site e.incarnation recorded plan allocation)
    (hjob : allocation.kind = .job) {stream filter : String}
    (hcapt : Captures naming plan.deployment allocation stream filter)
    (hfind : Streams.find? site.broker stream = some s)
    (hclaim : Claimed site.removals e) :
    Cut naming site.native.drawn site.broker plan.deployment allocation
      ⟨stream, filter, s.lastSequence + 1⟩ := by
  refine ⟨hjob, hcapt, .of_find? hsite.stocked.nodup hfind ?_⟩
  intro m hm hsel
  obtain ⟨hs, hname⟩ := Streams.find?_eq_some hfind
  have howned := hname ▸ hsite.stocked.messages s hs m hm
  obtain ⟨other, hother, allocation', halloc', howner, hid⟩ := hcapt.owner hsite.ledger
    hconf.planned hconf.allocated hjob howned hsel
  -- the row is there, and its allocation is the last one drawn for the resource
  obtain ⟨m, hm, hkey, hexec⟩ := hclaim
  have hof := hsite.of_key he hm hkey
  obtain ⟨row, hrow, hdest⟩ := hsite.pending m hm (executedBy_ne_completed hexec)
  obtain ⟨hrowId, hrowAllocation, -⟩ := isDestroying_iff.mp hdest
  obtain ⟨hsameId, hsameAllocation⟩ := hconf.id_eq
  have hlast := hsite.ledger.latest row hrow other hother allocation' halloc'
    (hid.trans (hsameId.trans (hrowId.trans hof.resourceId).symm))
  rw [howner, hsameAllocation, ← hrowAllocation.trans hof.allocationId]
  exact hlast

/-! ### Phases -/

variable (hconf : Confirmed naming site e.incarnation e.physical plan allocation)

include hsite hconf in
theorem Confined.select (h : selectRow site.resources e = .ok phase) :
    PhaseOk naming site (Claimed site.removals e) plan allocation phase := by
  unfold selectRow at h
  split at h
  · cases h
  rename_i row hfind
  obtain ⟨hid, -⟩ := isDestroying_iff.mp (find?_some hfind)
  -- the row under an allocation's ID is for what the allocation is for
  have hdig := (hsite.ledger.accounted.rows.named row (mem_of_find?_eq_some hfind)).symm.trans
    ((hid.trans hconf.id_eq.1.symm).trans
      ((hsite.ledger.accounted.plans plan hconf.planned).named allocation hconf.allocated))
  obtain ⟨-, -, hkind, hname⟩ := naming.resourceId_inj hdig
  rw [hkind, hconf.place] at h
  cases hcase : allocation.kind
  all_goals
    simp only [hcase, NativeAllocation.physical] at h
    obtain rfl := Except.ok.inj h
  case state => rfl
  case kv => exact .inl ⟨hcase, rfl⟩
  case store => exact .inr ⟨hcase, rfl⟩
  case job =>
    refine ⟨?_, hkind, hname⟩
    intro t ht
    rw [mem_singleton.mp ht]
    exact .inl ⟨hcase, rfl, rfl⟩
  case consumer =>
    refine ⟨?_, hkind, hname⟩
    intro t ht
    rcases mem_cons.mp ht with rfl | ht
    · exact .inr (.inl ⟨hcase, rfl, rfl⟩)
    · rw [mem_singleton.mp ht]
      exact .inr (.inr ⟨hcase, rfl, rfl⟩)

include hconf in
/-- After the check a job's numbers are read, or noted purges are carried out. -/
theorem Confirmed.afterCheck {selected : Resource}
    (htgts : ∀ t ∈ targets, allocation.Attaches t.1 t.2)
    (hkind : selected.kind = allocation.kind) (hname : selected.localName = allocation.name) :
    PhaseOk naming site (Claimed site.removals e) plan allocation
      (afterCheck e selected targets) := by
  unfold Deployments.afterCheck
  split
  next jobsNamespace workStream consumer publishPrefix workSubject hjob hphys =>
    have hcase : allocation.kind = .job := hkind.symm.trans hjob
    have hplace := hconf.place
    rw [hphys] at hplace
    simp only [hcase, NativeAllocation.physical] at hplace
    obtain ⟨rfl, -, -, rfl, rfl⟩ := Physical.job.inj hplace
    refine ⟨htgts, hcase, ?_, nofun⟩
    intro t ht
    simp only [mem_cons, not_mem_nil, or_false] at ht
    rcases ht with rfl | rfl | rfl
    · exact .events
    · exact .work
    · rw [hname]
      exact .keys
  · refine ⟨htgts, ?_⟩
    cases hpurges : e.physical.purges with
    | none => exact nofun
    | some purges => exact hconf.cut purges hpurges

include hsite he in
/-- What follows a request is again about the allocation. -/
theorem Confined.answer (hconf : Confirmed naming site e.incarnation e.physical plan allocation)
    (hphase : PhaseOk naming site (Claimed site.removals e) plan allocation (.working work))
    (h : Answers e site.broker work broker phase) :
    PhaseOk naming site (Claimed site.removals e) plan allocation phase := by
  cases h with
  | stateChecked | consumerChecked | bucketChecked => exact hphase
  | statePurged | streamsPurged | bucketMissing | bucketDeleted => trivial
  | consumersChecked => exact hconf.afterCheck hphase.1 hphase.2.1 hphase.2.2
  | captured => exact ⟨hphase.1, hphase.2.2.2⟩
  | streamMissing =>
    obtain ⟨htgts, hjob, hpend, hpurges⟩ := hphase
    exact ⟨htgts, hjob, fun t ht => hpend t (mem_cons_of_mem _ ht), hpurges⟩
  | streamCaptured hfind =>
    obtain ⟨htgts, hjob, hpend, hpurges⟩ := hphase
    refine ⟨htgts, hjob, fun t ht => hpend t (mem_cons_of_mem _ ht), ?_⟩
    exact forall_mem_concat hpurges
      (hsite.cut_of_claimed he hconf hjob (hpend _ mem_cons_self) hfind)
  | consumersDeleted => exact hphase.2
  | consumerDeleted => exact ⟨fun t ht => hphase.1 t (mem_cons_of_mem _ ht), hphase.2⟩
  | streamPurged => exact fun p hp => hphase p (mem_cons_of_mem _ hp)

theorem Answers.evolves (hphase : PhaseOk naming site claimed plan allocation (.working work))
    (h : Answers e site.broker work broker phase) :
    BrokerEvolves naming plans site.broker broker := by
  cases h with
  | statePurged | streamPurged => exact .discard
  | consumerDeleted => exact .deleteConsumer
  | bucketDeleted => exact .delete ⟨allocation, hphase⟩
  | stateChecked | consumersChecked | consumerChecked | captured | streamMissing
  | streamCaptured | consumersDeleted | streamsPurged | bucketMissing | bucketChecked =>
    exact .refl _

/-! ### What a request destroys -/

theorem purge_loses {stream filter : String}
    (h : Streams.Loses broker (purge broker stream filter before) owner) :
    ∃ s ∈ broker, s.name = stream ∧ ∃ m ∈ s.messages, Selects filter m.subject ∧
      (∀ n ∈ before, m.sequence < n) ∧ m.owner = owner := by
  obtain ⟨s, hs, hname, m, hm, hselect, howner⟩ := Streams.Loses.of_discard h
  obtain ⟨hsel, hbefore⟩ := of_decide_eq_true hselect
  exact ⟨s, hs, hname, m, hm, hsel, hbefore, howner⟩

include hsite hconf in
/-- **A request destroys data of the confirmed allocation, or of an earlier one.** -/
theorem Confined.loses (hphase : PhaseOk naming site claimed plan allocation (.working work))
    (h : Answers e site.broker work broker phase) (hlost : Streams.Loses site.broker broker owner) :
    owner.resourceId = e.resourceId ∧
      NotLater site.native.drawn owner.allocationId e.allocationId := by
  obtain ⟨hprop, -, hdrawn⟩ := hsite.ledger.proper plan hconf.planned allocation hconf.allocated
  obtain ⟨hid, halloc⟩ := hconf.id_eq
  -- data of the allocation itself
  have hown : owner = allocation.incarnation → owner.resourceId = e.resourceId ∧
      NotLater site.native.drawn owner.allocationId e.allocationId := by
    rintro rfl
    refine ⟨hid, ?_⟩
    rw [← halloc]
    exact ⟨hdrawn, le_refl _⟩
  cases h with
  | statePurged =>
    obtain ⟨s, hs, hname, m, hm, hsel, -, rfl⟩ := purge_loses hlost
    refine hown (state_owner hsite.ledger hconf.planned hconf.allocated ?_ (hphase ▸ hsel))
    exact hname ▸ hsite.stocked.messages s hs m hm
  | consumerDeleted =>
    obtain ⟨s, hs, hname, c, hc, hsame, rfl⟩ := Streams.Loses.of_deleteConsumer hlost
    obtain ⟨other, hother, allocation', halloc', hatt, howner⟩ := hsite.stocked.consumers s hs c hc
    rw [hname, hsame] at hatt
    obtain ⟨hprop', -, -⟩ := hsite.ledger.proper other hother allocation' halloc'
    exact hown (howner.trans (hatt.incarnation_eq (hphase.1 _ mem_cons_self) hprop' hprop))
  | streamPurged =>
    obtain ⟨s, hs, hname, m, hm, hsel, hbefore, rfl⟩ := purge_loses hlost
    obtain ⟨hjob, hcapt, hbelow⟩ := hphase _ mem_cons_self
    have howned := hname ▸ hsite.stocked.messages s hs m hm
    obtain ⟨other, hother, allocation', halloc', howner, hsame⟩ := hcapt.owner
      hsite.ledger hconf.planned hconf.allocated hjob howned hsel
    refine ⟨?_, ?_⟩
    · rw [howner]
      exact hsame.trans hid
    · rw [← halloc]
      exact hbelow.below s hs hname m hm (hbefore _ rfl) hsel
  | bucketDeleted =>
    have hcreates : allocation.Creates _ := hphase
    obtain ⟨s, hs, hname, hmine⟩ := Streams.Loses.of_delete hlost
    rcases hmine with howner | ⟨c, hc, rfl⟩ | ⟨m, hm, rfl⟩
    · rcases hsite.stocked.streams s hs with ⟨-, hshared⟩ |
        ⟨other, hother, allocation', halloc', hcreates', howner'⟩
      · exact absurd (hname ▸ hshared) hcreates.not_shared
      · obtain ⟨hprop', -, -⟩ := hsite.ledger.proper other hother allocation' halloc'
        rw [hname] at hcreates'
        exact hown ((Option.some.inj (howner.symm.trans howner')).trans
          (hcreates'.incarnation_eq hcreates hprop' hprop))
    · -- no consumer of a resource is on a stream that an allocation has for itself
      obtain ⟨other, hother, allocation', halloc', hatt, -⟩ := hsite.stocked.consumers s hs c hc
      exact absurd (hname ▸ hatt.shared naming) hcreates.not_shared
    · rcases hsite.stocked.messages s hs m hm with
        ⟨other, hother, allocation', halloc', hemits, howner⟩ | ⟨huser, -⟩
      · obtain ⟨hprop', -, -⟩ := hsite.ledger.proper other hother allocation' halloc'
        rw [hname] at hemits
        rcases hemits.stream with hcreates' | hshared
        · exact hown (howner.trans (hcreates'.incarnation_eq hcreates hprop' hprop))
        · exact absurd hshared hcreates.not_shared
      · have hshared : SharedName naming stateStream := .inl (by decide)
        rw [hname] at huser
        exact absurd (huser ▸ hshared) hcreates.not_shared
  | stateChecked | consumersChecked | consumerChecked | captured | streamMissing
  | streamCaptured | consumersDeleted | streamsPurged | bucketMissing | bucketChecked =>
    exact absurd hlost (Streams.not_loses_refl _ _)

/-! ### Steps of executions -/

/-- A change of removals that leaves what they are of. -/
structure Amends (change : Removal → Removal) : Prop where
  key : ∀ m, (change m).key = m.key
  resourceId : ∀ m, (change m).resourceId = m.resourceId
  allocationId : ∀ m, (change m).allocationId = m.allocationId
  revision : ∀ m, (change m).resourceRevision = m.resourceRevision

theorem Amends.id : Amends fun m => m :=
  ⟨fun _ => rfl, fun _ => rfl, fun _ => rfl, fun _ => rfl⟩

/-- A change under a condition. -/
theorem Amends.ite [DecidablePred select]
    (h : Amends change) : Amends fun m => if select m then change m else m where
  key := fun m => key_ite (h.key m)
  resourceId := fun m => key_ite (h.resourceId m)
  allocationId := fun m => key_ite (h.allocationId m)
  revision := fun m => key_ite (h.revision m)

theorem Amends.of (h : Amends change) (hof : m.Of e) : (change m).Of e :=
  ⟨(h.key m).trans hof.key, (h.resourceId m).trans hof.resourceId,
    (h.allocationId m).trans hof.allocationId, (h.revision m).trans hof.revision⟩

theorem Amends.claimed (h : Amends change)
    (hexec : ∀ m, (change m).executedBy e.owner = true → m.executedBy e.owner = true)
    (hclaim : Claimed (removals.map change) e) : Claimed removals e := by
  obtain ⟨m', hm', hkey, hby⟩ := hclaim
  obtain ⟨m, hm, rfl⟩ := mem_map.mp hm'
  exact ⟨m, hm, (h.key m).symm.trans hkey, hexec m hby⟩

/-- The rows that uncompleted removals are of are there, those of completed ones are not. -/
structure RowsKept (resources : List Resource) (removals : List Removal) : Prop where
  pending : ∀ m ∈ removals, m.state ≠ .completed → ∃ row ∈ resources,
    isDestroying m.resourceId m.allocationId m.resourceRevision row = true
  completed : ∀ m ∈ removals, m.state = .completed → ∀ row ∈ resources,
    row.allocationId ≠ m.allocationId

/-- Rows that are on their way out stay as they are. -/
theorem RowsKept.evolve (h : RowsKept resources removals)
    (hold : ∀ row ∈ resources, ∃ row' ∈ resources', Evolves naming row row')
    (hnew : ∀ row' ∈ resources', (∃ row ∈ resources, Evolves naming row row') ∨
      ∀ m ∈ removals, row'.allocationId ≠ m.allocationId) : RowsKept resources' removals := by
  constructor
  · intro m hm hpend
    obtain ⟨row, hrow, hdest⟩ := h.pending m hm hpend
    obtain ⟨row', hrow', hevolves⟩ := hold row hrow
    obtain rfl := hevolves.destroying (isDestroying_iff.mp hdest).2.2.2
    exact ⟨row', hrow', hdest⟩
  · intro m hm hdone row' hrow'
    rcases hnew row' hrow' with ⟨row, hrow, hevolves⟩ | hfresh
    · rw [(identity_eq_iff.mp hevolves.identity).2.1]
      exact h.completed m hm hdone row hrow
    · exact hfresh m hm

theorem RowsKept.rewrite (h : RowsKept resources removals)
    (hrows : Rewrites naming resources resources') : RowsKept resources' removals :=
  h.evolve (fun _ => exists_right_of_mem hrows) fun _ hrow' => .inl (exists_left_of_mem hrows hrow')

include hsite in
theorem Confined.rowsKept : RowsKept site.resources site.removals :=
  ⟨hsite.pending, hsite.completed⟩

include hsite he in
/-- **A step of an execution keeps the invariant**, if rows and removals stay right and what follows
is about its allocation. -/
theorem Confined.advance (hchange : Amends change)
    (hexec : ∀ m owner, (change m).executedBy owner = true → m.executedBy owner = true)
    (hrems : site'.removals = site.removals.map change)
    (hexecs : site'.executions = setPhase site.executions e phase)
    (hled : Ledger platform naming site'.native)
    (hstocked : Stocked naming site'.native.plans site'.broker)
    (hfollows : Follows naming site site') (hrows : RowsKept site'.resources site'.removals)
    (hok : ∀ m ∈ site.removals, RemovalOk naming site m → RemovalOk naming site' (change m))
    (hphase : ∀ plan allocation, Confirmed naming site e.incarnation e.physical plan allocation →
      PhaseOk naming site (Claimed site.removals e) plan allocation e.phase →
        PhaseOk naming site (Claimed site.removals e) plan allocation phase) :
    Confined platform naming site' := by
  refine ⟨hled, hstocked, ?_, ?_, ?_, hrows.pending, hrows.completed, ?_, ?_, ?_⟩
  · rw [hrems]
    exact nodup_key_map hchange.key hsite.keys_nodup
  · rw [hrems]
    exact nodup_key_map hchange.allocationId hsite.allocations_nodup
  · rw [hexecs]
    exact nodup_key_map (fun _ => key_ite rfl) hsite.owners_nodup
  · intro m' hm'
    rw [hrems] at hm'
    obtain ⟨m, hm, rfl⟩ := mem_map.mp hm'
    exact hok m hm (hsite.removals m hm)
  · intro x' hx'
    rw [hexecs] at hx'
    obtain ⟨x, hx, rfl⟩ := mem_map.mp hx'
    have hclaim : ∀ x : Execution, Claimed site'.removals x → Claimed site.removals x := by
      intro x hclaimed
      rw [hrems] at hclaimed
      exact hchange.claimed (fun m => hexec m x.owner) hclaimed
    split
    · -- the execution itself goes on, no other has its owner ID
      rename_i howner
      obtain rfl := inj_on_of_nodup_map hsite.owners_nodup hx he howner
      obtain ⟨plan, allocation, hconf, hold⟩ := hsite.executions x hx
      exact ⟨plan, allocation, hconf.follows hfollows,
        (hphase plan allocation hconf hold).follows hconf.planned hconf.allocated
          hfollows (hclaim x)⟩
    · exact (hsite.executions x hx).follows hfollows (hclaim x)
  · intro x' hx'
    rw [hexecs] at hx'
    obtain ⟨x, hx, rfl⟩ := mem_map.mp hx'
    obtain ⟨m, hm, hof⟩ := hsite.linked x hx
    refine ⟨change m, hrems ▸ mem_map_of_mem hm, ?_⟩
    have hof' := hchange.of hof
    split
    · exact ⟨hof'.key, hof'.resourceId, hof'.allocationId, hof'.revision⟩
    · exact hof'

theorem Follows.of_same (hplans : site'.native.plans = site.native.plans)
    (hdrawn : site'.native.drawn = site.native.drawn) (hbroker : site'.broker = site.broker) :
    Follows naming site site' := by
  refine ⟨fun plan hplan => hplans ▸ hplan, ?_⟩
  intro _ _ _ _ p hcut
  rw [hdrawn, hbroker]
  exact hcut

theorem Follows.of_evolves (h : BrokerEvolves naming site.native.plans site.broker broker) :
    Follows naming site { site with broker, executions } :=
  ⟨List.Subset.refl _, fun _ _ _ _ _ hcut => hcut.evolves h⟩

include hsite he

/-- The steps of an execution that touch no table. -/
theorem Confined.setPhase
    (hphase : ∀ plan allocation, Confirmed naming site e.incarnation e.physical plan allocation →
      PhaseOk naming site (Claimed site.removals e) plan allocation e.phase →
        PhaseOk naming site (Claimed site.removals e) plan allocation phase) :
    Confined platform naming { site with executions := setPhase site.executions e phase } :=
  hsite.advance he .id (fun _ _ h => h) (map_id' _).symm rfl hsite.ledger hsite.stocked
    (.of_same rfl rfl rfl) hsite.rowsKept (fun _ _ hok => hok.follows (.of_same rfl rfl rfl)) hphase

theorem Confined.work {work : Work}
    (hphase : e.phase = .working work) (h : Answers e site.broker work broker phase) :
    Confined platform naming
      { site with broker, executions := Deployments.setPhase site.executions e phase } := by
  obtain ⟨plan, allocation, hconf, hok⟩ := hsite.executions e he
  rw [hphase] at hok
  have hevolves : BrokerEvolves naming site.native.plans site.broker broker := h.evolves hok
  refine hsite.advance he .id (fun _ _ h => h) (map_id' _).symm rfl hsite.ledger
    (hsite.stocked.evolves hevolves) (.of_evolves hevolves) hsite.rowsKept
    (fun _ _ hok => hok.follows (.of_evolves hevolves)) ?_
  intro plan' allocation' hconf' hok'
  rw [hphase] at hok'
  exact hsite.answer he hconf' hok' h

omit hsite he

theorem RowsKept.amend (h : RowsKept resources removals) (hchange : Amends change)
    (hstate : ∀ m, (change m).state = .completed ↔ m.state = .completed) :
    RowsKept resources (removals.map change) := by
  constructor
  · intro m' hm' hpend
    obtain ⟨m, hm, rfl⟩ := mem_map.mp hm'
    rw [hchange.resourceId, hchange.allocationId, hchange.revision]
    exact h.pending m hm fun hdone => hpend ((hstate m).mpr hdone)
  · intro m' hm' hdone
    obtain ⟨m, hm, rfl⟩ := mem_map.mp hm'
    rw [hchange.allocationId]
    exact h.completed m hm ((hstate m).mp hdone)

/-- A removal that is given another state is of the same allocation. -/
theorem Amends.removalOk (hchange : Amends change) (h : RemovalOk naming site m)
    (hsite : Follows naming site site') (hphys : (change m).physical = m.physical) :
    RemovalOk naming site' (change m) := by
  unfold RemovalOk
  rw [hchange.resourceId, hchange.allocationId, hphys]
  exact h.follows hsite

include hsite he

theorem Confined.record (hphase : e.phase = .recording targets purges)
    (h : recordPurges site.removals e purges = .ok removals) : Confined platform naming { site with
      removals
      executions := Deployments.setPhase site.executions e
        (.working (.deleteConsumers targets purges)) } := by
  obtain ⟨m₀, hm₀, hselect₀⟩ := updateOne_exists h
  have hclaim : Claimed site.removals e :=
    ⟨m₀, hm₀, (of_decide_eq_true hselect₀).1, (of_decide_eq_true hselect₀).2.1⟩
  obtain rfl := updateOne_ok h
  obtain ⟨plan, allocation, hconf, hok⟩ := hsite.executions e he
  rw [hphase] at hok
  have hchange : Amends fun m : Removal =>
      if decide (m.key = e.key ∧ m.executedBy e.owner ∧ m.physical = e.physical) then
        { m with physical := ⟨e.physical.owned, some purges⟩ } else m :=
    .ite ⟨fun _ => rfl, fun _ => rfl, fun _ => rfl, fun _ => rfl⟩
  refine hsite.advance he hchange ?_ rfl rfl hsite.ledger hsite.stocked (.of_same rfl rfl rfl)
    (hsite.rowsKept.amend hchange ?_) ?_ ?_
  · intro m owner hexec
    split at hexec <;> exact hexec
  · intro m
    split <;> exact Iff.rfl
  · intro m hm hrem
    split
    · -- the removal is this execution's, and the numbers were read under its claim
      rename_i hselect
      have hof := hsite.of_key he hm (of_decide_eq_true hselect).1
      refine ⟨plan, allocation, hconf.planned, hconf.allocated, ?_, hconf.place, ?_⟩
      · rw [hconf.same]
        exact Incarnation.mk.injEq _ _ _ _ ▸ ⟨hof.resourceId.symm, hof.allocationId.symm⟩
      · intro purges' hpurges p hp
        cases hpurges
        exact hok.2 p hp hclaim
    · exact hrem.follows (.of_same rfl rfl rfl)
  · intro plan' allocation' _ hok'
    rw [hphase] at hok'
    exact ⟨hok'.1, fun p hp => hok'.2 p hp hclaim⟩

theorem Confined.release : Confined platform naming { site with
      removals := releaseRemoval site.removals e
      executions := Deployments.setPhase site.executions e .ended } := by
  have hchange : Amends fun m : Removal =>
      if m.key = e.key ∧ m.executedBy e.owner then { m with state := .accepted } else m :=
    .ite ⟨fun _ => rfl, fun _ => rfl, fun _ => rfl, fun _ => rfl⟩
  refine hsite.advance he hchange ?_ rfl rfl hsite.ledger hsite.stocked (.of_same rfl rfl rfl)
    (hsite.rowsKept.amend hchange ?_) ?_ fun _ _ _ _ => trivial
  · intro m owner hexec
    split at hexec
    · cases hexec
    · exact hexec
  · intro m
    split
    next hselect => exact ⟨nofun, fun hdone => absurd hdone (executedBy_ne_completed hselect.2)⟩
    · exact Iff.rfl
  · intro m _ hrem
    exact hchange.removalOk hrem (.of_same rfl rfl rfl) (key_ite rfl)

omit hsite he

/-- The removal an execution completes, and the row it deletes. -/
theorem completeRemoval_ok
    (h : completeRemoval resources removals e = .ok (resources', removals')) :
    (∃ m ∈ removals, m.key = e.key ∧ m.allocationId = e.allocationId ∧
        m.resourceRevision = e.revision ∧ m.executedBy e.owner = true) ∧
      removals' = removals.map (fun m =>
        if decide (m.key = e.key ∧ m.allocationId = e.allocationId ∧
          m.resourceRevision = e.revision ∧ m.executedBy e.owner) then
          { m with state := .completed } else m) ∧
      finishRemoval resources e.resourceId e.allocationId e.revision = .ok resources' := by
  obtain ⟨completed, hdone, h⟩ := bind_eq_ok.mp h
  obtain ⟨finished, hfinished, h⟩ := bind_eq_ok.mp h
  cases h
  obtain ⟨m, hm, hselect⟩ := updateOne_exists hdone
  exact ⟨⟨m, hm, of_decide_eq_true hselect⟩, updateOne_ok hdone, hfinished⟩

include hsite in
theorem Confined.complete (hdig : DigestFaithful platform)
    (hnames : TokenNames platform) (he : e ∈ site.executions)
    (h : completeRemoval site.resources site.removals e = .ok (resources, removals)) :
    Confined platform naming { site with
      native := site.native.withResources resources
      removals
      executions := Deployments.setPhase site.executions e .ended } := by
  obtain ⟨⟨m₀, hm₀, hkey₀, halloc₀, hrev₀, hexec₀⟩, rfl, hfinish⟩ := completeRemoval_ok h
  have hrest := finishRemoval_ok hfinish
  have hsub : ∀ row ∈ resources, row ∈ site.resources := by
    intro row hrow
    rw [hrest] at hrow
    exact (mem_filter.mp hrow).1
  have hchange : Amends fun m : Removal =>
      if decide (m.key = e.key ∧ m.allocationId = e.allocationId ∧
        m.resourceRevision = e.revision ∧ m.executedBy e.owner) then
        { m with state := .completed } else m :=
    .ite ⟨fun _ => rfl, fun _ => rfl, fun _ => rfl, fun _ => rfl⟩
  have hacct := hsite.ledger.accounted.step hdig hnames.plain (NativeStep.finishRemoval hfinish)
  refine hsite.advance he hchange ?_ rfl rfl
    (hsite.ledger.rewrite hacct (fun row hrow => ⟨row, hsub row hrow, rfl⟩) rfl rfl)
    hsite.stocked (.of_same rfl rfl rfl) ⟨?_, ?_⟩ ?_ fun _ _ _ _ => trivial
  · intro m owner hexec
    split at hexec
    · cases hexec
    · exact hexec
  · -- the row of another removal is not the one that goes
    intro m' hm' hpend
    obtain ⟨m, hm, rfl⟩ := mem_map.mp hm'
    split at hpend
    · exact absurd rfl hpend
    rename_i hother
    rw [hchange.resourceId, hchange.allocationId, hchange.revision]
    obtain ⟨row, hrow, hdest⟩ := hsite.pending m hm hpend
    refine ⟨row, ?_, hdest⟩
    rw [hrest]
    refine mem_filter.mpr ⟨hrow, ?_⟩
    rw [Bool.not_eq_true', decide_eq_false_iff_not]
    intro hgone
    have hsame : m = m₀ := inj_on_of_nodup_map hsite.allocations_nodup hm hm₀
      ((isDestroying_iff.mp hdest).2.1.symm.trans (hgone.2.1.trans halloc₀.symm))
    exact hother (decide_eq_true (hsame ▸ ⟨hkey₀, halloc₀, hrev₀, hexec₀⟩))
  · intro m' hm' hdone row hrow
    obtain ⟨m, hm, rfl⟩ := mem_map.mp hm'
    rw [hchange.allocationId]
    split at hdone
    · -- the row of the allocation was the one that went
      rename_i hselect
      obtain ⟨hkey, halloc, -, hexec⟩ := of_decide_eq_true hselect
      intro hsame
      have hof := hsite.of_key he hm hkey
      obtain ⟨row₀, hrow₀, hdest⟩ := hsite.pending m hm (executedBy_ne_completed hexec)
      obtain ⟨hid, hallocId, hrev, hstate⟩ := isDestroying_iff.mp hdest
      have hrow' : row = row₀ := hsite.ledger.accounted.rows.eq_of_allocation (hsub row hrow) hrow₀
        (hsame.trans hallocId.symm)
      have hkept : row ∈ resources := hrow
      rw [hrest] at hkept
      have hnot := (mem_filter.mp hkept).2
      rw [Bool.not_eq_true', decide_eq_false_iff_not, hrow'] at hnot
      exact hnot ⟨hid.trans hof.resourceId, hallocId.trans hof.allocationId,
        hrev.trans hof.revision, hstate⟩
    · exact hsite.completed m hm hdone row (hsub row hrow)
  · intro m _ hrem
    exact hchange.removalOk hrem (.of_same rfl rfl rfl) (key_ite rfl)

/-! ### The first transaction -/

theorem acceptRemoval_ok
    (h : acceptRemoval naming resources removals actor requestId resourceId expectedRevision
      = .ok (resources', accepted)) : (resources' = resources ∧ accepted = removals) ∨
      ∃ begun, beginRemoval naming resources resourceId expectedRevision = .ok begun ∧
        resources' = begun.1 ∧ (∀ m ∈ removals, m.key ≠ (actor, requestId)) ∧
        accepted = removals ++ [⟨actor, requestId, resourceId, begun.2.revision,
          ⟨begun.2.physical, none⟩, begun.2.allocationId, .accepted⟩] := by
  unfold acceptRemoval at h
  split at h
  · split at h
    · cases h
      exact .inl ⟨rfl, rfl⟩
    · cases h
  next hnone =>
    obtain ⟨begun, hbegun, h⟩ := bind_eq_ok.mp h
    cases h
    refine .inr ⟨begun, hbegun, rfl, ?_, rfl⟩
    intro m hm hkey
    exact find?_eq_none.mp hnone m hm (decide_eq_true hkey)

/-- A place that matches the allocation is the one its data has. -/
theorem place_of_matches (hmat : physicalMatches naming row = true)
    (hplace : row.physical = .name (ownedName row.resourceId row.allocationId) ∨
      row.physical = row.place naming) : row.physical = row.place naming := by
  rcases hplace with hplace | hplace
  · unfold physicalMatches at hmat
    rw [hplace] at hmat
    rw [hplace]
    cases hkind : row.kind with
    | kv | store =>
      simp only [Resource.place, NativeAllocation.physical, hkind, NativeAllocation.owned]
    | state =>
      simp only [hkind, decide_eq_true_eq] at hmat
      simp only [Resource.place, NativeAllocation.physical, hkind, hmat]
    | job | consumer => simp [hkind] at hmat
  · exact hplace

include hsite

theorem Confined.accept (hdig : DigestFaithful platform) (hnames : TokenNames platform)
    (h : acceptRemoval naming site.resources site.removals actor requestId resourceId
      expectedRevision = .ok (resources, accepted)) : Confined platform naming { site with
      native := site.native.withResources resources
      removals := accepted } := by
  rcases acceptRemoval_ok h with ⟨rfl, rfl⟩ | ⟨begun, hbegin, rfl, hnew, rfl⟩
  · exact hsite
  have hacct := hsite.ledger.accounted.step hdig hnames.plain (NativeStep.beginRemoval hbegin)
  have hrew := (beginRemoval_rewrites hsite.ledger.accounted.rows hbegin).1
  have hkept := hsite.rowsKept.rewrite hrew
  have hident : ∀ row' ∈ begun.1, ∃ row ∈ site.resources, row'.identity = row.identity := by
    intro row' hrow'
    obtain ⟨row, hrow, hevolves⟩ := exists_left_of_mem hrew hrow'
    exact ⟨row, hrow, hevolves.identity⟩
  obtain ⟨row, hrow, hid, hstate, hmat, hbegun⟩ := beginRemoval_ok hbegin
  have hallocation : begun.2.allocationId = row.allocationId := by rw [hbegun]
  have hphys : begun.2.physical = row.physical := by rw [hbegun]
  -- a detached row is of no removal yet
  have hother : ∀ m ∈ site.removals, m.allocationId ≠ row.allocationId := by
    intro m hm hsame
    by_cases hdone : m.state = .completed
    · exact hsite.completed m hm hdone row hrow hsame.symm
    obtain ⟨row', hrow', hdest⟩ := hsite.pending m hm hdone
    obtain ⟨-, halloc', -, hstate'⟩ := isDestroying_iff.mp hdest
    have heq := hsite.ledger.accounted.rows.eq_of_allocation hrow' hrow (halloc'.trans hsame)
    rw [heq, hstate] at hstate'
    cases hstate'
  refine ⟨hsite.ledger.rewrite hacct hident rfl rfl, hsite.stocked, ?_, ?_,
    hsite.owners_nodup, ?_, ?_, ?_, ?_, ?_⟩
  · exact nodup_map_concat hsite.keys_nodup hnew
  · exact nodup_map_concat hsite.allocations_nodup (hallocation ▸ hother)
  · refine forall_mem_concat hkept.pending fun _ => ⟨begun.2, ?_, ?_⟩
    · rw [hbegun]
      exact mem_map.mpr ⟨row, hrow, if_pos hid⟩
    · refine isDestroying_iff.mpr ⟨?_, rfl, rfl, ?_⟩
      · rw [hbegun]
        exact hid
      · rw [hbegun]
  · exact forall_mem_concat hkept.completed nofun
  · refine forall_mem_concat (fun m hm => (hsite.removals m hm).follows (.of_same rfl rfl rfl)) ?_
    obtain ⟨plan, hplan, allocation, halloc, hof, howner⟩ := hsite.ledger.planned row hrow
    refine ⟨plan, allocation, hplan, halloc, ?_, ?_, nofun⟩
    · show (⟨allocation.resourceId, allocation.allocationId⟩ : Incarnation) = _
      rw [hof.2.2.1, hof.2.2.2, hid, hallocation]
    · rw [← howner, physical_eq_place hof, hphys]
      exact place_of_matches hmat (hsite.ledger.accounted.rows.place row hrow)
  · intro e he
    refine (hsite.executions e he).follows (.of_same rfl rfl rfl) ?_
    rintro ⟨m, hm, hkey, hexec⟩
    rcases mem_append.mp hm with hm | hm
    · exact ⟨m, hm, hkey, hexec⟩
    · rw [mem_singleton.mp hm] at hexec
      cases hexec
  · intro e he
    obtain ⟨m, hm, hof⟩ := hsite.linked e he
    exact ⟨m, mem_append_left _ hm, hof⟩

theorem Confined.claim {owner : String} (hfresh : ∀ e ∈ site.executions, e.owner ≠ owner)
    (h : claimRemoval site.resources site.removals actor requestId owner now
      = .ok (claimed, execution)) : Confined platform naming { site with
      removals := claimed
      executions := site.executions ++ execution.toList } := by
  unfold claimRemoval at h
  split at h
  · cases h
  rename_i m₀ hfind
  split at h
  · cases h
    rwa [Option.toList_none, append_nil]
  obtain ⟨updated, hupdated, h⟩ := bind_eq_ok.mp (guard_eq_ok.mp h).2
  cases h
  obtain rfl := updateOne_ok hupdated
  have hm₀ := mem_of_find?_eq_some hfind
  have hkey₀ : m₀.key = (actor, requestId) := (of_find? hfind :)
  have hchange : Amends fun m : Removal =>
      if decide (m.key = (actor, requestId) ∧ m.claimable now) then
        { m with state := .executing owner (now + 30) } else m :=
    .ite ⟨fun _ => rfl, fun _ => rfl, fun _ => rfl, fun _ => rfl⟩
  have hrows := hsite.rowsKept.amend hchange (by
    intro m
    split
    next hselect =>
      refine ⟨nofun, fun hdone => ?_⟩
      have hclaimable := (of_decide_eq_true hselect).2
      unfold Removal.claimable at hclaimable
      rw [hdone] at hclaimable
      cases hclaimable
    · exact Iff.rfl)
  refine ⟨hsite.ledger, hsite.stocked, ?_, ?_, ?_, hrows.pending, hrows.completed, ?_, ?_, ?_⟩
  · exact nodup_key_map hchange.key hsite.keys_nodup
  · exact nodup_key_map hchange.allocationId hsite.allocations_nodup
  · exact nodup_map_concat hsite.owners_nodup hfresh
  · intro m' hm'
    obtain ⟨m, hm, rfl⟩ := mem_map.mp hm'
    exact hchange.removalOk (hsite.removals m hm) (.of_same rfl rfl rfl) (key_ite rfl)
  · refine forall_mem_concat (fun e he => ?_) ?_
    · -- the new claim is another owner's
      refine (hsite.executions e he).follows (.of_same rfl rfl rfl) (hchange.claimed ?_)
      intro m hexec
      split at hexec
      · exact absurd (of_decide_eq_true hexec).symm (hfresh e he)
      · exact hexec
    · obtain ⟨plan, allocation, hconf⟩ := hsite.removals m₀ hm₀
      exact ⟨plan, allocation, hconf.follows (.of_same rfl rfl rfl), trivial⟩
  · refine forall_mem_concat (fun e he => ?_)
      ⟨_, mem_map_of_mem hm₀, hchange.of ⟨hkey₀, rfl, rfl, rfl⟩⟩
    obtain ⟨m, hm, hof⟩ := hsite.linked e he
    exact ⟨_, mem_map_of_mem hm, hchange.of hof⟩

/-! ### Other steps -/

theorem Confined.frame (hled : Ledger platform naming native)
    (hstocked : Stocked naming native.plans broker)
    (hfollows : Follows naming site { site with native, broker })
    (hrows : RowsKept native.store.resources site.removals) :
    Confined platform naming { site with native, broker } where
  __ := hsite
  ledger := hled
  stocked := hstocked
  pending := hrows.pending
  completed := hrows.completed
  removals := fun m hm => (hsite.removals m hm).follows hfollows
  executions := fun e he => (hsite.executions e he).follows hfollows id

/-- The allocation of a removal was drawn. -/
theorem Confined.drawn (hm : m ∈ site.removals) : m.allocationId ∈ site.native.drawn := by
  obtain ⟨plan, allocation, hconf⟩ := hsite.removals m hm
  have hsame : allocation.allocationId = m.allocationId := (Incarnation.mk.inj hconf.same).2
  rw [← hsame]
  exact (hsite.ledger.proper plan hconf.planned allocation hconf.allocated).2.2

/-- What plans and other transactions do to rows leaves those of removals. -/
theorem Confined.rows_of_effect (h : TableEffect naming site.native native) :
    RowsKept native.store.resources site.removals := by
  cases h with
  | rewrite hrows => exact hsite.rowsKept.rewrite hrows
  | plan _ _ _ hext =>
    refine @RowsKept.evolve naming _ _ _ hsite.rowsKept ?_ ?_
    · intro row hrow
      obtain ⟨row', hrow', hevolves, -⟩ := hext.old row hrow
      exact ⟨row', hrow', hevolves⟩
    · intro row' hrow'
      refine (hext.new row' hrow').imp_right fun hnew m hm hsame => ?_
      exact hnew.2 (hsame ▸ hsite.drawn hm)

theorem Confined.follows_of_effect (h : TableEffect naming site.native native) :
    Follows naming site { site with native } := by
  cases h with
  | rewrite _ hplans hdrawn => exact .of_same hplans hdrawn rfl
  | plan plan hplans hdrawn =>
    constructor
    · intro other hother
      rw [hplans]
      exact mem_append_left _ hother
    · intro other hother allocation halloc p hcut
      rw [hdrawn]
      exact hcut.append (hsite.ledger.proper other hother allocation halloc).2.2 _

/-- **Every step keeps the invariant.** -/
theorem Confined.step
    (hdig : DigestFaithful platform) (hnames : TokenNames platform) {actor : Actor}
    (h : SiteStep platform naming actor site site') : Confined platform naming site' := by
  cases h with
  | tables h =>
    have heffect := h.effect hnames hsite.ledger.accounted
    have hfollows := hsite.follows_of_effect heffect
    exact hsite.frame (hsite.ledger.step hdig hnames h) (hsite.stocked.mono hfollows.plans)
      hfollows (hsite.rows_of_effect heffect)
  | broker h =>
    exact hsite.frame hsite.ledger (hsite.stocked.evolves h.evolves) (.of_evolves h.evolves)
      hsite.rowsKept
  | start hfresh hacc hclaim => exact (hsite.accept hdig hnames hacc).claim hfresh hclaim
  | select he _ h => exact hsite.setPhase he fun _ _ hconf _ => hsite.select hconf h
  | work he hphase h => exact hsite.work he hphase (Execution.request_answers h)
  | record he hphase h => exact hsite.record he hphase h
  | fail he _ => exact hsite.setPhase he fun _ _ _ _ => trivial
  | release he _ => exact hsite.release he
  | complete he _ h => exact hsite.complete hdig hnames he h

end Invariant

/-- The states that runs reach. -/
def Reached (platform : Platform Claims Evidence Edit) (naming : Naming)
    (policy : PolicyTables Claims) (site : Site Claims Evidence) : Prop :=
  ReflTransGen (fun site site' => ∃ actor, SiteStep platform naming actor site site')
    (Site.initial policy) site

/-- A row goes between two states. -/
def Deletes (site site' : Site Claims Evidence) (row : Resource) : Prop :=
  row ∈ site.resources ∧ ∀ row' ∈ site'.resources, row'.identity ≠ row.identity

section Rows

theorem not_deletes_of_rewrites (h : Rewrites naming site.resources native.store.resources) :
    ¬ Deletes site ⟨native, removals, executions, broker⟩ row := by
  rintro ⟨hrow, hgone⟩
  obtain ⟨row', hrow', hevolves⟩ := exists_right_of_mem h hrow
  exact hgone row' hrow' hevolves.identity

theorem not_deletes_of_effect
    (h : TableEffect naming site.native native) : ¬ Deletes site { site with native } row := by
  cases h with
  | rewrite hrows => exact not_deletes_of_rewrites hrows
  | plan _ _ _ hext =>
    rintro ⟨hrow, hgone⟩
    obtain ⟨row', hrow', hevolves, -⟩ := hext.old row hrow
    exact hgone row' hrow' hevolves.identity

theorem not_deletes_same : ¬ Deletes site { site with removals, executions, broker } row :=
  fun h => h.2 row h.1 rfl

/-- **Only the execution that has the claim deletes a row.** -/
theorem Confined.deletes (hnames : TokenNames platform) (hsite : Confined platform naming site)
    (h : SiteStep platform naming actor site site') (hdeletes : Deletes site site' row) :
    ∃ e ∈ site.executions, actor = .execution e ∧ ∃ m ∈ site.removals, m.Of e ∧
      m.executedBy e.owner = true ∧ row.resourceId = m.resourceId ∧
      row.allocationId = m.allocationId := by
  cases h with
  | tables h =>
    exact absurd hdeletes (not_deletes_of_effect (h.effect hnames hsite.ledger.accounted))
  | broker | select | work | record | fail | release => exact absurd hdeletes not_deletes_same
  | start _ hacc _ =>
    rcases acceptRemoval_ok hacc with ⟨rfl, rfl⟩ | ⟨begun, hbegin, rfl, -, -⟩
    · exact absurd hdeletes (not_deletes_of_rewrites (.refl naming _))
    · exact absurd hdeletes (not_deletes_of_rewrites
        (beginRemoval_rewrites hsite.ledger.accounted.rows hbegin).1)
  | @complete _ e resources _ he _ h =>
    obtain ⟨⟨m, hm, hkey, -, -, hexec⟩, -, hfinish⟩ := completeRemoval_ok h
    have hof := hsite.of_key he hm hkey
    refine ⟨e, he, rfl, m, hm, hof, hexec, ?_⟩
    obtain ⟨hrow, hgone⟩ := hdeletes
    have hnot : row ∉ resources := fun hkept => hgone row hkept rfl
    rw [finishRemoval_ok hfinish, mem_filter, Bool.not_eq_true', decide_eq_false_iff_not] at hnot
    have hsel := not_not.mp fun hother => hnot ⟨hrow, hother⟩
    exact ⟨hsel.1.trans hof.resourceId.symm, hsel.2.1.trans hof.allocationId.symm⟩

/-- What a step of a removal takes from the broker. -/
theorem Confined.destroys (hsite : Confined platform naming site)
    (h : SiteStep platform naming actor site site') (hactor : actor ≠ .outside)
    (hlost : Streams.Loses site.broker site'.broker owner) :
    ∃ e ∈ site.executions, actor = .execution e ∧ ∃ m ∈ site.removals, m.Of e ∧
      owner.resourceId = m.resourceId ∧
      NotLater site.native.drawn owner.allocationId m.allocationId := by
  cases h with
  | tables | broker => exact absurd rfl hactor
  | @work _ e work broker phase he hphase h =>
    obtain ⟨m, hm, hof⟩ := hsite.linked e he
    obtain ⟨plan, allocation, hconf, hok⟩ := hsite.executions e he
    rw [hphase] at hok
    obtain ⟨hid, hlater⟩ := hsite.loses hconf hok (Execution.request_answers h) hlost
    refine ⟨e, he, rfl, m, hm, hof, hid.trans hof.resourceId.symm, ?_⟩
    rw [hof.allocationId]
    exact hlater
  | start | select | record | fail | release | complete =>
    exact absurd hlost (Streams.not_loses_refl _ _)

end Rows

/-- **A removal destroys only the allocation it was confirmed for.**  Whatever step comes after
whatever run: what a removal takes from the broker belongs to its resource and to no allocation
drawn after its own, and a row goes only by an execution that has the claim on that row's removal.
-/
theorem removal_destroys_confirmed {platform : Platform Claims Evidence Edit}
    (hdigest : DigestFaithful platform) (hnames : TokenNames platform) {naming : Naming}
    {policy : PolicyTables Claims} {site site' : Site Claims Evidence}
    (hrun : Reached platform naming policy site) {actor : Actor}
    (hstep : SiteStep platform naming actor site site') :
    (actor ≠ .outside → ∀ owner, Streams.Loses site.broker site'.broker owner →
      ∃ e ∈ site.executions, actor = .execution e ∧ ∃ m ∈ site.removals, m.Of e ∧
        owner.resourceId = m.resourceId ∧
        NotLater site.native.drawn owner.allocationId m.allocationId) ∧
    ∀ row, Deletes site site' row →
      ∃ e ∈ site.executions, actor = .execution e ∧ ∃ m ∈ site.removals, m.Of e ∧
        m.executedBy e.owner = true ∧ row.resourceId = m.resourceId ∧
        row.allocationId = m.allocationId := by
  have hsite : Confined platform naming site :=
    Run.keeps (P := Confined platform naming)
      (fun _ _ ⟨_, hstep⟩ hsite => hsite.step hdigest hnames hstep) hrun
      (.initial platform naming policy)
  exact ⟨fun hactor _ hlost => hsite.destroys hstep hactor hlost,
    fun _ hdeletes => hsite.deletes hnames hstep hdeletes⟩

/-- **A removal goes with its row**: an allocation has one removal at most; until that is completed
its row is there, on its way out, and then it is not. -/
theorem removals_in_step {platform : Platform Claims Evidence Edit}
    (hdigest : DigestFaithful platform) (hnames : TokenNames platform)
    (hrun : Reached platform naming policy site) :
    (site.removals.map Removal.allocationId).Nodup ∧ RowsKept site.resources site.removals := by
  have hsite := Run.keeps (P := Confined platform naming)
    (fun _ _ ⟨_, hstep⟩ hsite => hsite.step hdigest hnames hstep) hrun (.initial _ _ _)
  exact ⟨hsite.allocations_nodup, hsite.rowsKept⟩

/-! ## The store of the archive -/

theorem archivePlatform_tokens : TokenNames archivePlatform := by
  intro keeps graph h participant hpart entry hentry
  cases h
  obtain rfl := mem_singleton.mp hpart
  cases keeps with
  | false => cases hentry
  | true =>
    obtain rfl := mem_singleton.mp hentry
    decide

/-- What is done at the archive's site. -/
inductive SiteDeed where
  | table (d : Deed)
  | store
  | start
  | advance

/-- The next step of an execution that asks for something. -/
def advance (site : Site Unit Bool) (e : Execution) : Except AuthError (Site Unit Bool) :=
  match e.phase with
  | .selecting => do
      let phase ← selectRow site.resources e
      return { site with executions := setPhase site.executions e phase }
  | .working work => do
      let answer ← e.request site.broker work
      return { site with broker := answer.1, executions := setPhase site.executions e answer.2 }
  | _ => .error .denied

/-- Perform one deed.  There is one plan, one row and one execution. -/
def siteDeed (site : Site Unit Bool) : SiteDeed → Except AuthError (Site Unit Bool)
  | .table d => do
      let native ← deed site.native d
      return { site with native }
  | .store =>
    match site.broker, site.native.plans.flatMap ResourcePlan.allocations with
    | [], [allocation] =>
      if allocation.kind = .store then
        let broker := Streams.create [] ("OBJ_" ++ allocation.owned)
          allocation.incarnation.marker (some allocation.incarnation)
        .ok { site with broker }
      else .error .denied
    | _, _ => .error .denied
  | .start =>
    match site.executions, site.resources with
    | [], [row] => do
        let accepted ← acceptRemoval spelledNaming site.resources site.removals "root" "request"
          row.resourceId row.revision
        let claimed ← claimRemoval accepted.1 accepted.2 "root" "request" "runner" 0
        return { site with
          native := site.native.withResources accepted.1
          removals := claimed.1
          executions := site.executions ++ claimed.2.toList }
    | _, _ => .error .denied
  | .advance =>
    match site.executions with
    | [e] => advance site e
    | _ => .error .denied

theorem advance_step (he : e ∈ site.executions) (h : advance site e = .ok site') :
    SiteStep archivePlatform spelledNaming (.execution e) site site' := by
  unfold advance at h
  split at h
  next hphase =>
    obtain ⟨phase, hselect, h⟩ := bind_eq_ok.mp h
    cases h
    exact .select he hphase hselect
  next work hphase =>
    obtain ⟨answer, hreq, h⟩ := bind_eq_ok.mp h
    cases h
    exact .work he hphase hreq
  · cases h

theorem siteDeed_step (h : siteDeed site d = .ok site') :
    ∃ actor, SiteStep archivePlatform spelledNaming actor site site' := by
  cases d with
  | table d =>
    obtain ⟨native, hdeed, h⟩ := bind_eq_ok.mp h
    cases h
    exact ⟨_, .tables (deed_table hdeed)⟩
  | store =>
    simp only [siteDeed] at h
    split at h
    next allocation hbroker hplans =>
      split at h
      next hkind =>
        cases h
        obtain ⟨plan, hplan, halloc⟩ := mem_flatMap.mp (by
          rw [hplans]
          exact mem_singleton_self allocation)
        refine ⟨.outside, .broker ?_⟩
        rw [hbroker]
        exact .create hplan halloc (.inr ⟨hkind, rfl⟩) nofun
      · cases h
    · cases h
  | start =>
    simp only [siteDeed] at h
    split at h
    next row hnone _ =>
      obtain ⟨accepted, hacc, h⟩ := bind_eq_ok.mp h
      obtain ⟨claimed, hclaim, h⟩ := bind_eq_ok.mp h
      cases h
      refine ⟨_, .start ?_ hacc hclaim⟩
      rw [hnone]
      nofun
    · cases h
  | advance =>
    simp only [siteDeed] at h
    split at h
    next e hone => exact ⟨_, advance_step (by rw [hone]; exact mem_singleton_self _) h⟩
    · cases h

/-- The store is there, and the next step of the execution leaves nothing on the broker. -/
def empties (deeds : List SiteDeed) : Bool :=
  match deeds.foldlM siteDeed (Site.initial archivePolicy) with
  | .error _ => false
  | .ok site =>
    match site.executions, site.broker with
    | [e], [s] =>
      match advance site e with
      | .error _ => false
      | .ok site' => s.owner.isSome ∧ site'.broker.isEmpty
    | _, _ => false

theorem empties_eq_true (h : empties deeds = true) :
    ∃ site site' : Site Unit Bool, deeds.foldlM siteDeed (Site.initial archivePolicy) = .ok site ∧
      ∃ e ∈ site.executions, SiteStep archivePlatform spelledNaming (.execution e) site site' ∧
        ∃ owner, Streams.Loses site.broker site'.broker owner := by
  unfold empties at h
  split at h
  · cases h
  rename_i site hsite
  split at h
  next e s hone hbroker =>
    split at h
    · cases h
    rename_i site' hadvance
    obtain ⟨howner, hempty⟩ := of_decide_eq_true h
    obtain ⟨owner, howner⟩ := Option.isSome_iff_exists.mp howner
    have he : e ∈ site.executions := by
      rw [hone]
      exact mem_singleton_self _
    refine ⟨site, site', hsite, e, he, advance_step he hadvance, owner,
      .stream s.name owner, ?_, ?_, rfl⟩
    · rw [hbroker]
      exact ⟨s, mem_singleton_self _, rfl, howner⟩
    · rintro ⟨s', hs', -⟩
      rw [isEmpty_iff.mp hempty] at hs'
      cases hs'
  · cases h

/-- The archive drops its store, and the store is removed: what goes is the store's. -/
theorem removal_destroys_confirmed_store : ∃ site site' : Site Unit Bool, ∃ e ∈ site.executions,
      SiteStep archivePlatform spelledNaming (.execution e) site site' ∧
        ∃ owner, Streams.Loses site.broker site'.broker owner ∧
          ∃ m ∈ site.removals, owner.resourceId = m.resourceId ∧
            NotLater site.native.drawn owner.allocationId m.allocationId := by
  have hempties : empties [.table (.install true none), .table (.provision "one"), .table .plan,
      .table .commit, .store, .table (.install false (some "archive")), .start, .advance,
      .advance] = true := by
    decide +kernel
  obtain ⟨site, site', hdeeds, e, he, hstep, owner, hlost⟩ := empties_eq_true hempties
  have hrun : Reached archivePlatform spelledNaming archivePolicy site :=
    Run.of_foldlM (f := siteDeed) (fun _ _ _ h => siteDeed_step h) hdeeds
  obtain ⟨_, -, -, m, hm, -, hid, hlater⟩ := (removal_destroys_confirmed archivePlatform_faithful
    archivePlatform_tokens hrun hstep).1 nofun owner hlost
  exact ⟨site, site', e, he, hstep, owner, hlost, m, hm, hid, hlater⟩

theorem removals_in_step_store : ∃ site : Site Unit Bool, site.executions ≠ [] ∧
    RowsKept site.resources site.removals := by
  obtain ⟨site, _, hdeeds, e, he, -⟩ := @empties_eq_true [.table (.install true none),
    .table (.provision "one"), .table .plan, .table .commit, .store,
    .table (.install false (some "archive")), .start, .advance, .advance] (by decide +kernel)
  exact ⟨site, ne_nil_of_mem he, (removals_in_step archivePlatform_faithful archivePlatform_tokens
    (Run.of_foldlM (f := siteDeed) (fun _ _ _ h => siteDeed_step h) hdeeds)).2⟩

end Deployments
