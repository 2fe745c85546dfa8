/-
# What belongs to which allocation

The rows of the resource table and the data on the broker, traced to the plans that allocated
them.

A plan draws an allocation ID only for a resource that has no row, so the allocation of a row is
the last one drawn for its resource (`Ledger.latest`).  Buckets, consumers and most subjects are
told apart by the IDs in their names.  The subject of a job key has only the deployment's
namespace and the job's name, which a deployment's one participant makes the resource's.
-/
import Trellis.Deployments.Removal
import Trellis.Deployments.Coverage

open Catalog Auth TransportAuthorization

namespace Deployments

open List Checked

variable {Claims Evidence Edit : Type} {allocation : NativeAllocation} {name consumer : String}

/-! ## Names of streams -/

/-- What a stream's name begins with. -/
def front (name : String) : List Char := name.toList.take 4

theorem NativeAllocation.Creates.front_eq (h : allocation.Creates name) :
    (allocation.kind = .kv ∧ front name = "KV_T".toList) ∨
      (allocation.kind = .store ∧ front name = "OBJ_".toList) := by
  rcases h with ⟨hkind, rfl⟩ | ⟨hkind, rfl⟩
  · refine .inl ⟨hkind, ?_⟩
    unfold front NativeAllocation.owned
    rw [String.toList_append, toList_ownedName]
    rfl
  · refine .inr ⟨hkind, ?_⟩
    unfold front NativeAllocation.owned
    rw [String.toList_append, toList_ownedName]
    rfl

theorem front_keysStream : front (keysStream jobsNamespace) = "KV_J".toList := by
  unfold front keysStream jobsKeysBucket
  rw [String.toList_append, String.toList_append]
  rfl

theorem SharedName.front_mem (h : SharedName naming name) :
    front name ∈ ["JOBS".toList, "trel".toList, "KV_t".toList, "KV_J".toList] := by
  rcases h with h | ⟨deployment, rfl⟩
  · simp only [mem_cons, not_mem_nil, or_false] at h
    rcases h with rfl | rfl | rfl | rfl | rfl
    all_goals decide
  · rw [front_keysStream]
    decide

/-- No allocation has a shared stream for its own. -/
theorem NativeAllocation.Creates.not_shared
    (h : allocation.Creates name) : ¬ SharedName naming name := by
  intro hshared
  have hmem := hshared.front_mem
  rcases h.front_eq with ⟨-, hfront⟩ | ⟨-, hfront⟩
  all_goals
    rw [hfront] at hmem
    revert hmem
    decide

theorem Emits.stream
    {stream subject : String} (h : Emits naming deployment allocation stream subject) :
    allocation.Creates stream ∨ SharedName naming stream := by
  cases h with
  | value hkind _ => exact .inl (.inl ⟨hkind, rfl⟩)
  | object hkind _ => exact .inl (.inr ⟨hkind, rfl⟩)
  | state _ _ | event _ _ | work _ => exact .inr (.inl (by decide))
  | key _ _ => exact .inr (.inr ⟨deployment, rfl⟩)

theorem NativeAllocation.Attaches.shared (naming : Naming)
    (h : allocation.Attaches stream consumer) :
    SharedName naming stream := by
  rcases h with ⟨-, rfl, -⟩ | ⟨-, rfl, -⟩ | ⟨-, rfl, -⟩
  all_goals exact .inl (by decide)

/-! ## Names of allocations -/

/-- The name of a bucket or a consumer tells its allocation. -/
theorem incarnation_of_owned (h : Proper allocation)
    (h' : Proper other) (heq : allocation.owned = other.owned) :
    allocation.incarnation = other.incarnation := by
  have hlist := congrArg String.toList heq
  unfold NativeAllocation.owned at hlist
  rw [toList_ownedName, toList_ownedName] at hlist
  obtain ⟨hleft, hright⟩ := append_inj' hlist (h.ulid.1.trans h'.ulid.1.symm)
  have hid := append_cancel_left (append_cancel_right hleft)
  unfold NativeAllocation.incarnation
  rw [String.toList_injective hid, String.toList_injective hright]

theorem NativeAllocation.Creates.incarnation_eq
    (h : allocation.Creates name) (h' : other.Creates name)
    (hprop : Proper allocation) (hprop' : Proper other) :
    allocation.incarnation = other.incarnation := by
  have hsame : allocation.kind = other.kind := by
    rcases h.front_eq with ⟨hkind, hfront⟩ | ⟨hkind, hfront⟩
    all_goals rcases h'.front_eq with ⟨hkind', hfront'⟩ | ⟨hkind', hfront'⟩
    · rw [hkind, hkind']
    · exact absurd (hfront.symm.trans hfront') (by decide)
    · exact absurd (hfront.symm.trans hfront') (by decide)
    · rw [hkind, hkind']
  apply incarnation_of_owned hprop hprop'
  rcases h with ⟨hkind, hname⟩ | ⟨hkind, hname⟩
  all_goals rcases h' with ⟨hkind', hname'⟩ | ⟨hkind', hname'⟩
  · exact (String.append_right_inj _).mp (hname.symm.trans hname')
  · exact absurd (hkind.symm.trans (hsame.trans hkind')) (by decide)
  · exact absurd (hkind.symm.trans (hsame.trans hkind')) (by decide)
  · exact (String.append_right_inj _).mp (hname.symm.trans hname')

theorem NativeAllocation.Attaches.incarnation_eq (h : allocation.Attaches stream consumer)
    (h' : other.Attaches stream consumer) (hprop : Proper allocation)
    (hprop' : Proper other) : allocation.incarnation = other.incarnation := by
  apply incarnation_of_owned hprop hprop'
  rcases h with ⟨-, rfl, hname⟩ | ⟨-, rfl, hname⟩ | ⟨-, rfl, hname⟩
  all_goals rcases h' with ⟨-, hstr, hname'⟩ | ⟨-, hstr, hname'⟩ | ⟨-, hstr, hname'⟩
  -- the stream tells whether the name has the suffix of a replay
  all_goals first
    | exact absurd hstr (by decide)
    | exact hname.symm.trans hname'
    | exact (String.append_left_inj _).mp (hname.symm.trans hname')

/-! ## Rows and plans -/

/-- The compiler admits no wildcard and no dot in the name of a resource. -/
def TokenNames (platform : Platform Claims Evidence Edit) : Prop :=
  ∀ evidence graph, platform.compileEvidence evidence = .ok graph →
    ∀ participant ∈ graph.participants, ∀ entry ∈ participant.resources, Plain entry.1

theorem TokenNames.plain (h : TokenNames platform) : PlainNames platform :=
  fun evidence graph hgraph participant hpart entry hentry =>
    (h evidence graph hgraph participant hpart entry hentry).1

/-- Every row is known by the digest of what it is for. -/
def WellIdentified (naming : Naming) (rows : List Resource) : Prop :=
  ∀ row ∈ rows,
    row.resourceId = naming.resourceId row.ownerId row.participantId row.kind row.localName

section Planning

/-- The rows after one round are those before it and that of its allocation. -/
theorem planOne_rows (hrows : WellIdentified naming rows)
    (h : planOne naming deployment participant bindingRevision fresh rows declared
      = .ok (rows', allocation)) :
    WellIdentified naming rows' ∧ (∀ row ∈ rows, ∃ row' ∈ rows', row'.identity = row.identity) ∧
      (∀ row' ∈ rows', (∃ row ∈ rows, row'.identity = row.identity) ∨
        allocation.Of row' ∧ row'.ownerId = deployment) ∧
      ∃ row' ∈ rows', allocation.Of row' ∧ row'.ownerId = deployment := by
  rcases planOne_ok h with ⟨planned, hplan, hid, -, rfl, rfl⟩ | ⟨-, rfl, rfl⟩
  · have hsame : ∀ row : Resource, (if row.resourceId
        = naming.resourceId deployment participant declared.2.kind declared.1 then
          { row with state := .pending } else row).identity = row.identity :=
      fun _ => key_ite rfl
    refine ⟨?_, fun row hrow => ⟨_, mem_map_of_mem hrow, hsame row⟩, ?_, ?_⟩
    · intro row' hrow'
      obtain ⟨row, hrow, rfl⟩ := mem_map.mp hrow'
      obtain ⟨hrowId, -, howner, hpart, hkind, hname⟩ := identity_eq_iff.mp (hsame row)
      rw [hrowId, howner, hpart, hkind, hname]
      exact hrows row hrow
    · intro row' hrow'
      obtain ⟨row, hrow, rfl⟩ := mem_map.mp hrow'
      exact .inl ⟨row, hrow, hsame row⟩
    · -- the row that was found is the declaration's, by its digest
      obtain ⟨howner, -, hkind, hname⟩ :=
        naming.resourceId_inj ((hrows planned hplan).symm.trans hid)
      obtain ⟨hid', hsame', howner', -, hkind', hname'⟩ := identity_eq_iff.mp (hsame planned)
      refine ⟨_, mem_map_of_mem hplan, ⟨?_, ?_, ?_, ?_⟩, howner'.trans howner⟩
      · exact (hname'.trans hname).symm
      · exact (hkind'.trans hkind).symm
      · exact (hid'.trans hid).symm
      · exact hsame'.symm
  · refine ⟨?_, ?_, ?_, ?_⟩
    · exact forall_mem_concat hrows rfl
    · exact fun row hrow => ⟨row, mem_append_left _ hrow, rfl⟩
    · refine forall_mem_concat ?_ (.inr ⟨⟨rfl, rfl, rfl, rfl⟩, rfl⟩)
      exact fun row hrow => .inl ⟨row, hrow, rfl⟩
    · exact ⟨_, mem_append_right _ (mem_singleton_self _), ⟨rfl, rfl, rfl, rfl⟩, rfl⟩

theorem of_of_identity
    (hident : row'.identity = row.identity) (h : allocation.Of row ∧ row.ownerId = deployment) :
    allocation.Of row' ∧ row'.ownerId = deployment :=
  ⟨of_identity h.1 hident, (identity_eq_iff.mp hident).2.2.1.trans h.2⟩

/-- The rows after a plan are those before it and those of its allocations. -/
theorem planAll_rows (hrows : WellIdentified naming rows)
    (h : planAll naming deployment participant bindingRevision fresh declared rows
      = .ok (rows', allocations)) : (∀ row ∈ rows, ∃ row' ∈ rows', row'.identity = row.identity) ∧
      (∀ row' ∈ rows', (∃ row ∈ rows, row'.identity = row.identity) ∨
        ∃ allocation ∈ allocations, allocation.Of row' ∧ row'.ownerId = deployment) ∧
      ∀ allocation ∈ allocations, ∃ row' ∈ rows',
        allocation.Of row' ∧ row'.ownerId = deployment := by
  induction declared generalizing rows allocations with
  | nil =>
    cases h
    exact ⟨fun row hrow => ⟨row, hrow, rfl⟩, fun row hrow => .inl ⟨row, hrow, rfl⟩, nofun⟩
  | cons declared rest ih =>
    obtain ⟨⟨middle, allocation⟩, hone, h⟩ := bind_eq_ok.mp h
    obtain ⟨⟨final, others⟩, hrest, h⟩ := bind_eq_ok.mp h
    cases h
    obtain ⟨hmiddle, hkept, hfrom, row₁, hrow₁, hof₁⟩ := planOne_rows hrows hone
    obtain ⟨hkept', hfrom', hothers⟩ := ih hmiddle hrest
    refine ⟨?_, ?_, ?_⟩
    · intro row hrow
      obtain ⟨row', hrow', hsame⟩ := hkept row hrow
      obtain ⟨row'', hrow'', hsame'⟩ := hkept' row' hrow'
      exact ⟨row'', hrow'', hsame'.trans hsame⟩
    · intro row'' hrow''
      rcases hfrom' row'' hrow'' with ⟨row', hrow', hsame'⟩ | ⟨other, hother, hof⟩
      · rcases hfrom row' hrow' with ⟨row, hrow, hsame⟩ | hof
        · exact .inl ⟨row, hrow, hsame'.trans hsame⟩
        · exact .inr ⟨allocation, mem_cons_self, of_of_identity hsame' hof⟩
      · exact .inr ⟨other, mem_cons_of_mem _ hother, hof⟩
    · intro other hother
      rcases mem_cons.mp hother with rfl | hother
      · obtain ⟨row', hrow', hsame⟩ := hkept' row₁ hrow₁
        exact ⟨row', hrow', of_of_identity hsame hof₁⟩
      · exact hothers other hother

end Planning

/-- What a step beside removals does: rows evolve, or a plan is made whose allocations are those of
rows. -/
inductive TableEffect (naming : Naming) (world world' : World Claims Evidence) : Prop
  | rewrite (hrows : Rewrites naming world.store.resources world'.store.resources)
      (hplans : world'.plans = world.plans) (hdrawn : world'.drawn = world.drawn)
  | plan (plan : ResourcePlan) (hplans : world'.plans = world.plans ++ [plan])
      (hdrawn : world'.drawn = world.drawn ++ plan.allocations.map NativeAllocation.allocationId)
      (hextends : Extends naming world.drawn world.store.resources world'.store.resources)
      (hplain : ∀ allocation ∈ plan.allocations, Plain allocation.name)
      (hfrom : ∀ row' ∈ world'.store.resources,
        (∃ row ∈ world.store.resources, row'.identity = row.identity) ∨
          ∃ allocation ∈ plan.allocations, allocation.Of row' ∧ row'.ownerId = plan.deployment)
      (hrows : ∀ allocation ∈ plan.allocations, ∃ row' ∈ world'.store.resources,
        allocation.Of row' ∧ row'.ownerId = plan.deployment)

variable {platform : Platform Claims Evidence Edit} {world : World Claims Evidence} {other : String}

theorem TableStep.effect (hnames : TokenNames platform)
    (hworld : Accounted platform naming world) (h : TableStep platform naming world world') :
    TableEffect naming world world' := by
  cases h with
  | write h => exact .rewrite (h.native.rewrites naming) rfl rfl
  | @plan _ _ planned hdraws h =>
    obtain ⟨hext, -⟩ := planResources_rows hnames.plain hworld.rows hdraws h
    obtain ⟨d, b, participant, rows, hbound, hpart, hplan, hstore, hdep, -⟩ := planResources_ok h
    obtain ⟨row, graph, -, hgraph, hfound⟩ := revisionParticipant_ok.mp hpart
    obtain ⟨-, hfrom, halloc⟩ := planAll_rows hworld.rows.named hplan
    rw [← hdep] at hfrom halloc
    rw [hstore] at hext ⊢
    refine .plan planned.2 rfl rfl hext ?_ hfrom halloc
    intro allocation hallocation
    obtain ⟨entry, hentry, allocationId, rfl⟩ := exists_left_of_mem (planAll_ok hplan) hallocation
    exact hnames _ graph hgraph participant (mem_of_find?_eq_some hfound) entry hentry
  | @fail plan hplan =>
    obtain ⟨update, hres, hstays⟩ := failPlan_stays naming world.store plan
    refine .rewrite ?_ rfl rfl
    rw [hres]
    exact .map fun row _ => (hstays row).evolves
  | commit hplan h =>
    obtain ⟨d, b, rows, -, -, hcom, rfl⟩ := commitPlan_ok h
    obtain ⟨hrew, -⟩ := commitAll_ok (hworld.plans _ hplan) (List.Subset.refl _) hworld.rows hcom
    exact .rewrite hrew rfl rfl

/-! ## The ledger -/

/-- The allocation was drawn no later than the other. -/
def NotLater (drawn : List String) (allocationId other : String) : Prop :=
  allocationId ∈ drawn ∧ drawn.idxOf allocationId ≤ drawn.idxOf other

theorem NotLater.append
    (h : NotLater drawn allocationId other) (hother : other ∈ drawn) (more : List String) :
    NotLater (drawn ++ more) allocationId other := by
  refine ⟨mem_append_left _ h.1, ?_⟩
  rw [idxOf_append_of_mem h.1, idxOf_append_of_mem hother]
  exact h.2

/-- Rows and plans agree: allocations have their texts, every row was planned, and its allocation is
the last drawn for its resource. -/
structure Ledger (platform : Platform Claims Evidence Edit) (naming : Naming)
    (world : World Claims Evidence) : Prop where
  accounted : Accounted platform naming world
  proper : ∀ plan ∈ world.plans, ∀ allocation ∈ plan.allocations,
    Proper allocation ∧ Plain allocation.name ∧ allocation.allocationId ∈ world.drawn
  planned : ∀ row ∈ world.store.resources, ∃ plan ∈ world.plans,
    ∃ allocation ∈ plan.allocations, allocation.Of row ∧ row.ownerId = plan.deployment
  latest : ∀ row ∈ world.store.resources, ∀ plan ∈ world.plans,
    ∀ allocation ∈ plan.allocations, allocation.resourceId = row.resourceId →
      NotLater world.drawn allocation.allocationId row.allocationId

theorem Ledger.initial (platform : Platform Claims Evidence Edit) (naming : Naming)
    (policy : PolicyTables Claims) :
    Ledger platform naming (World.initial policy : World Claims Evidence) where
  accounted := .initial platform naming policy
  proper := nofun
  planned := nofun
  latest := nofun

/-- Rows that only evolve, or go, stay in the ledger. -/
theorem Ledger.rewrite (hworld : Ledger platform naming world)
    (hacct : Accounted platform naming world') (hrows : ∀ row' ∈ world'.store.resources,
      ∃ row ∈ world.store.resources, row'.identity = row.identity)
    (hplans : world'.plans = world.plans) (hdrawn : world'.drawn = world.drawn) :
    Ledger platform naming world' := by
  refine ⟨hacct, ?_, ?_, ?_⟩
  · rw [hplans, hdrawn]
    exact hworld.proper
  · intro row' hrow'
    obtain ⟨row, hrow, hsame⟩ := hrows row' hrow'
    obtain ⟨plan, hplan, allocation, halloc, hof⟩ := hworld.planned row hrow
    rw [hplans]
    exact ⟨plan, hplan, allocation, halloc, of_of_identity hsame hof⟩
  · intro row' hrow'
    obtain ⟨row, hrow, hsame⟩ := hrows row' hrow'
    obtain ⟨hid, halloc, -⟩ := identity_eq_iff.mp hsame
    rw [hplans, hdrawn, hid, halloc]
    exact hworld.latest row hrow

theorem Ledger.step (hdig : DigestFaithful platform) (hnames : TokenNames platform)
    (hworld : Ledger platform naming world) (h : TableStep platform naming world world') :
    Ledger platform naming world' := by
  have hacct := hworld.accounted.step hdig hnames.plain (.tables h)
  cases h.effect hnames hworld.accounted with
  | rewrite hrows hplans hdrawn =>
    refine hworld.rewrite hacct ?_ hplans hdrawn
    intro row' hrow'
    obtain ⟨row, hrow, hevolves⟩ := exists_left_of_mem hrows hrow'
    exact ⟨row, hrow, hevolves.identity⟩
  | plan plan hplans hdrawn hext hplain hfrom halloc =>
    refine ⟨hacct, ?_, ?_, ?_⟩
    · intro other hother allocation hallocation
      rw [hplans] at hother
      rcases mem_append.mp hother with hother | hother
      · obtain ⟨hprop, hname, hmem⟩ := hworld.proper other hother allocation hallocation
        exact ⟨hprop, hname, hdrawn ▸ mem_append_left _ hmem⟩
      · obtain rfl := mem_singleton.mp hother
        obtain ⟨row, hrow, hof, -⟩ := halloc allocation hallocation
        exact ⟨hacct.rows.proper hrow hof, hplain allocation hallocation,
          hof.2.2.2 ▸ hacct.rows.drawn row hrow⟩
    · intro row' hrow'
      rw [hplans]
      rcases hfrom row' hrow' with ⟨row, hrow, hsame⟩ | ⟨allocation, hallocation, hof⟩
      · obtain ⟨other, hother, allocation, hallocation, hof⟩ := hworld.planned row hrow
        exact ⟨other, mem_append_left _ hother, allocation, hallocation, of_of_identity hsame hof⟩
      · exact ⟨plan, mem_append_right _ (mem_singleton_self _), allocation, hallocation, hof⟩
    · intro row' hrow' other hother allocation hallocation hid
      rw [hplans] at hother
      rcases mem_append.mp hother with hother | hother
      · -- an older allocation against a row that is older still, or new
        obtain ⟨-, -, hmem⟩ := hworld.proper other hother allocation hallocation
        rw [hdrawn]
        rcases hext.new row' hrow' with ⟨row, hrow, hevolves⟩ | ⟨-, hfresh⟩
        · obtain ⟨hrowId, hsame, -⟩ := identity_eq_iff.mp hevolves.identity
          rw [hrowId] at hid
          rw [hsame]
          exact (hworld.latest row hrow other hother allocation hallocation hid).append
            (hworld.accounted.rows.drawn row hrow) _
        · refine ⟨mem_append_left _ hmem, ?_⟩
          rw [idxOf_append_of_mem hmem, idxOf_append_of_notMem hfresh]
          exact le_trans (idxOf_lt_length_of_mem hmem).le (Nat.le_add_right _ _)
      · -- the plan's allocation for the resource is the row's own
        obtain rfl := mem_singleton.mp hother
        obtain ⟨row, hrow, hof, -⟩ := halloc allocation hallocation
        have hsame : row = row' := hacct.rows.eq_of_id hrow hrow' (hof.2.2.1.symm.trans hid)
        rw [hof.2.2.2, hsame]
        exact ⟨hacct.rows.drawn row' hrow', le_refl _⟩

/-! ## What the broker keeps -/

section Stock

variable (naming : Naming) (plans : List ResourcePlan)

/-- A stream is shared, or was created for an allocation that was planned. -/
def StreamOwned (s : Streams.Stream Incarnation) : Prop :=
  (s.owner = none ∧ SharedName naming s.name) ∨ ∃ plan ∈ plans, ∃ allocation ∈ plan.allocations,
      allocation.Creates s.name ∧ s.owner = some allocation.incarnation

/-- A message is of an allocation that was planned, or a value of a user's State. -/
def MessageOwned (stream : String) (m : Streams.Message Incarnation) : Prop :=
  (∃ plan ∈ plans, ∃ allocation ∈ plan.allocations,
    Emits naming plan.deployment allocation stream m.subject ∧ m.owner = allocation.incarnation) ∨
    (stream = stateStream ∧ '.' ∉ m.owner.resourceId.toList ∧
      '.' ∉ m.owner.allocationId.toList ∧ m.subject = dotted ["$KV", "trellis_state",
        dotted [m.owner.resourceId, m.owner.allocationId]])

def ConsumerOwned (stream : String) (c : Streams.Consumer Incarnation) : Prop :=
  ∃ plan ∈ plans, ∃ allocation ∈ plan.allocations,
    allocation.Attaches stream c.name ∧ c.owner = allocation.incarnation

/-- Everything the broker keeps has its place. -/
structure Stocked (broker : Broker) : Prop where
  nodup : (broker.map Streams.Stream.name).Nodup
  streams : ∀ s ∈ broker, StreamOwned naming plans s
  messages : ∀ s ∈ broker, ∀ m ∈ s.messages, MessageOwned naming plans s.name m
  consumers : ∀ s ∈ broker, ∀ c ∈ s.consumers, ConsumerOwned plans s.name c

/-- The name is one of an allocation's own streams. -/
def IsBucket (name : String) : Prop :=
  ∃ allocation : NativeAllocation, allocation.Creates name

/-- What a step of the broker, or of a removal, may do. -/
abbrev BrokerEvolves (broker broker' : Broker) : Prop :=
  Streams.Evolves (StreamOwned naming plans) (MessageOwned naming plans) (ConsumerOwned plans)
    IsBucket broker broker'

variable {naming plans}

theorem BrokerStep.evolves (h : BrokerStep naming plans broker broker') :
    BrokerEvolves naming plans broker broker' := by
  cases h with
  | share hname hfree => exact .create (.inl ⟨rfl, hname⟩) hfree
  | create hplan halloc hname hfree => exact .create (.inr ⟨_, hplan, _, halloc, hname, rfl⟩) hfree
  | attach hplan halloc hname => exact .createConsumer ⟨_, hplan, _, halloc, hname, rfl⟩
  | publish hplan halloc h => exact .publish fun _ => .inl ⟨_, hplan, _, halloc, h, rfl⟩
  | publishUser hid halloc => exact .publish fun _ => .inr ⟨rfl, hid, halloc, rfl⟩
  | discard => exact .discard

theorem Stocked.evolves (h : Stocked naming plans broker)
    (hstep : BrokerEvolves naming plans broker broker') : Stocked naming plans broker' := by
  obtain ⟨hstreams, hmsgs, hconss⟩ := hstep.keeps h.streams h.messages h.consumers
    (fun s s' hname howner hs => by rw [StreamOwned, hname, howner]; exact hs)
    (fun _ hs => hs) (fun _ _ hm => hm) fun _ _ hc => hc
  exact ⟨hstep.nodup h.nodup, hstreams, hmsgs, hconss⟩

theorem Stocked.mono
    (h : Stocked naming plans broker) (hplans : plans ⊆ plans') : Stocked naming plans' broker where
  nodup := h.nodup
  streams := fun s hs => (h.streams s hs).imp_right fun ⟨plan, hplan, hrest⟩ =>
    ⟨plan, hplans hplan, hrest⟩
  messages := fun s hs m hm => (h.messages s hs m hm).imp_left fun ⟨plan, hplan, hrest⟩ =>
    ⟨plan, hplans hplan, hrest⟩
  consumers := fun s hs c hc => let ⟨plan, hplan, hrest⟩ := h.consumers s hs c hc
    ⟨plan, hplans hplan, hrest⟩

end Stock

/-! ## Subjects -/

variable {tokens : List String}

theorem selects_iff : Selects (dotted tokens) subject ↔
      Glob.Matches (patternTokens tokens) (Text.split '.' subject) :=
  ⟨Selects.matched, Selects.mk⟩

/-- What a filter of plain tokens selects begins with them and goes on as the tail says. -/
theorem selects_tokens {tokens' tail rest : List String}
    (hplain : ∀ token ∈ tokens, Plain token) (hne : tokens ≠ [])
    (hsubj : Text.split '.' subject = tokens' ++ rest) (hlen : tokens'.length = tokens.length)
    (h : Selects (dotted (tokens ++ tail)) subject) :
    tokens' = tokens ∧ Glob.Matches ((tail.flatMap (Text.split '.')).map tokenOf) rest := by
  rw [selects_iff, patternTokens, split_dotted (by simp [hne]), flatMap_append,
    map_append, literals_of_plain hplain] at h
  obtain ⟨rest', hrest', hmat⟩ := Glob.Matches.of_literals h
  obtain ⟨hsame, rfl⟩ := append_inj (hsubj.symm.trans hrest') hlen
  exact ⟨hsame, hmat⟩

/-- A filter whose tokens are joined texts themselves is read as their own tokens. -/
theorem selects_nest (before after : List String) {inner : List String}
    (hne : inner ≠ []) (h : Selects (dotted (before ++ dotted inner :: after)) subject) :
    Selects (dotted (before ++ inner ++ after)) subject := by
  rw [selects_iff] at h ⊢
  rwa [patternTokens_nest hne] at h

theorem flatMap_split (h : ∀ token ∈ tokens, Plain token) :
    tokens.flatMap (Text.split '.') = tokens := by
  induction tokens with
  | nil => rfl
  | cons token tokens ih =>
    rw [flatMap_cons, Text.split_of_notMem (h token mem_cons_self).1,
      ih fun other hother => h other (mem_cons_of_mem _ hother)]
    rfl

/-- The tokens of a queue's subjects. -/
def queueTokens (naming : Naming) (deployment area : String) (allocation : NativeAllocation) :
    List String :=
  ["trellis", area, naming.jobsNamespace deployment,
    queueToken allocation.name allocation.allocationId]

theorem queueTokens_ne_nil : queueTokens naming deployment area allocation ≠ [] :=
  cons_ne_nil _ _

theorem queueTokens_plain (naming : Naming) (deployment : String) (harea : Plain area)
    (h : Proper allocation) :
    ∀ token ∈ queueTokens naming deployment area allocation, Plain token := by
  intro token htoken
  simp only [queueTokens, mem_cons, not_mem_nil, or_false] at htoken
  rcases htoken with rfl | rfl | rfl | rfl
  · decide
  · exact harea
  · exact plain_of_digest (naming.jobsNamespace_text deployment)
  · exact h.plain_token

/-- The tokens of a job's keys. -/
def keyTokens (naming : Naming) (deployment name : String) : List String :=
  ["$KV", jobsKeysBucket (naming.jobsNamespace deployment), naming.jobsNamespace deployment, name]

theorem keyTokens_ne_nil : keyTokens naming deployment name ≠ [] :=
  cons_ne_nil _ _

theorem keyTokens_plain
    (h : Plain name) : ∀ token ∈ keyTokens naming deployment name, Plain token := by
  have hdig := naming.jobsNamespace_text deployment
  intro token htoken
  simp only [keyTokens, mem_cons, not_mem_nil, or_false] at htoken
  rcases htoken with rfl | rfl | rfl | rfl
  · decide
  · refine plain_of_long ?_ ?_
    · simp [jobsKeysBucket, hdig.2]
    · have hlen := hdig.1
      simp only [jobsKeysBucket, String.toList_append, length_append]
      omega
  · exact plain_of_digest hdig
  · exact h

/-- The tokens of a State's values. -/
def stateTokens (resourceId allocationId : String) : List String :=
  ["$KV", "trellis_state", resourceId, allocationId]

theorem split_state (hid : '.' ∉ resourceId.toList)
    (halloc : '.' ∉ allocationId.toList) (rest : List String) :
    Text.split '.' (dotted ("$KV" :: "trellis_state" :: dotted [resourceId, allocationId] :: rest))
      = stateTokens resourceId allocationId ++ rest.flatMap (Text.split '.') := by
  rw [split_dotted (cons_ne_nil _ _), flatMap_cons, flatMap_cons, flatMap_cons,
    split_dotted (cons_ne_nil _ _), flatMap_cons, flatMap_cons,
    Text.split_of_notMem hid, Text.split_of_notMem halloc]
  rfl

/-! ## Streams of subjects -/

section Inversion

theorem keysStream_ne (h : front name ≠ "KV_J".toList) : name ≠ keysStream jobsNamespace :=
  fun heq => h (heq ▸ front_keysStream)

/-- What is stored on a shared stream. -/
theorem Emits.of_shared {stream : String} (h : Emits naming deployment allocation stream subject)
    (hshared : SharedName naming stream) :
    (stream = stateStream ∧ ∃ key, subject = dotted ["$KV", "trellis_state",
      dotted [allocation.resourceId, allocation.allocationId], key]) ∨
    (allocation.kind = .job ∧ ((stream = jobsStream ∧ ∃ rest, subject
        = dotted [dotted (queueTokens naming deployment "jobs" allocation), rest]) ∨
      (stream = jobsWorkStream ∧
        subject = dotted (queueTokens naming deployment "work" allocation)) ∨
      (stream = keysStream (naming.jobsNamespace deployment) ∧
        ∃ hash, subject = dotted (keyTokens naming deployment allocation.name ++ [hash])))) := by
  cases h with
  | value hkind _ => exact absurd hshared (NativeAllocation.Creates.not_shared (.inl ⟨hkind, rfl⟩))
  | object hkind _ => exact absurd hshared (NativeAllocation.Creates.not_shared (.inr ⟨hkind, rfl⟩))
  | state _ key => exact .inl ⟨rfl, key, rfl⟩
  | event hkind rest => exact .inr ⟨hkind, .inl ⟨rfl, rest, rfl⟩⟩
  | work hkind => exact .inr ⟨hkind, .inr (.inl ⟨rfl, rfl⟩)⟩
  | key hkind hash => exact .inr ⟨hkind, .inr (.inr ⟨rfl, hash, rfl⟩)⟩

theorem Emits.of_state (h : Emits naming deployment allocation stateStream subject) :
    ∃ key, subject = dotted ["$KV", "trellis_state",
      dotted [allocation.resourceId, allocation.allocationId], key] := by
  rcases h.of_shared (.inl (by decide)) with ⟨-, hkey⟩ |
    ⟨-, ⟨hother, -⟩ | ⟨hother, -⟩ | ⟨hother, -⟩⟩
  · exact hkey
  · exact absurd hother (by decide)
  · exact absurd hother (by decide)
  · exact absurd hother (keysStream_ne (by decide))

theorem Emits.of_events (h : Emits naming deployment allocation jobsStream subject) :
    allocation.kind = .job ∧
      ∃ rest, subject =
        dotted [dotted (queueTokens naming deployment "jobs" allocation), rest] := by
  rcases h.of_shared (.inl (by decide)) with
    ⟨hother, -⟩ | ⟨hkind, ⟨-, hrest⟩ | ⟨hother, -⟩ | ⟨hother, -⟩⟩
  · exact absurd hother (by decide)
  · exact ⟨hkind, hrest⟩
  · exact absurd hother (by decide)
  · exact absurd hother (keysStream_ne (by decide))

theorem Emits.of_work (h : Emits naming deployment allocation jobsWorkStream subject) :
    allocation.kind = .job ∧
      subject = dotted (queueTokens naming deployment "work" allocation) := by
  rcases h.of_shared (.inl (by decide)) with
    ⟨hother, -⟩ | ⟨hkind, ⟨hother, -⟩ | ⟨-, hsubj⟩ | ⟨hother, -⟩⟩
  · exact absurd hother (by decide)
  · exact absurd hother (by decide)
  · exact ⟨hkind, hsubj⟩
  · exact absurd hother (keysStream_ne (by decide))

theorem Emits.of_keys
    (h : Emits naming deployment allocation (keysStream (naming.jobsNamespace owner)) subject) :
    allocation.kind = .job ∧ owner = deployment ∧
      ∃ hash, subject = dotted (keyTokens naming deployment allocation.name ++ [hash]) := by
  rcases h.of_shared (.inr ⟨owner, rfl⟩) with
    ⟨hother, -⟩ | ⟨hkind, ⟨hother, -⟩ | ⟨hother, -⟩ | ⟨hsame, hhash⟩⟩
  · exact absurd hother.symm (keysStream_ne (by decide))
  · exact absurd hother.symm (keysStream_ne (by decide))
  · exact absurd hother.symm (keysStream_ne (by decide))
  · exact ⟨hkind, naming.jobsNamespace_inj
      ((String.append_right_inj _).mp ((String.append_right_inj _).mp hsame)), hhash⟩

end Inversion

/-! ## What is purged -/

/-- The streams and filters of a job's purges. -/
inductive Captures (naming : Naming) (deployment : String) (allocation : NativeAllocation) :
    String → String → Prop
  | events : Captures naming deployment allocation jobsStream
      (dotted [dotted (queueTokens naming deployment "jobs" allocation), ">"])
  | work : Captures naming deployment allocation jobsWorkStream
      (dotted (queueTokens naming deployment "work" allocation))
  | keys : Captures naming deployment allocation (keysStream (naming.jobsNamespace deployment))
      (dotted (keyTokens naming deployment allocation.name ++ [">"]))

variable {filter : String}

theorem Captures.shared (h : Captures naming deployment allocation stream filter) :
    SharedName naming stream := by
  cases h with
  | events | work => exact .inl (by decide)
  | keys => exact .inr ⟨deployment, rfl⟩

section Purging

variable {other : NativeAllocation}

variable (hworld : Ledger platform naming world) (h : Proper allocation) (h' : Proper other)

include h h'

theorem queueTokens_inj (heq : queueTokens naming deployment area allocation
      = queueTokens naming deployment' area other) :
    deployment = deployment' ∧ allocation.name = other.name := by
  simp only [queueTokens, List.cons.injEq, and_true, true_and] at heq
  obtain ⟨hspace, heq⟩ := heq
  refine ⟨naming.jobsNamespace_inj hspace, ?_⟩
  rw [allocationId_of_token h h' heq] at heq
  exact (String.append_left_inj _).mp ((String.append_left_inj _).mp heq)

theorem events_selected
    (hsel : Selects (dotted [dotted (queueTokens naming deployment' "jobs" other), ">"])
      (dotted [dotted (queueTokens naming deployment "jobs" allocation), rest])) :
    deployment = deployment' ∧ allocation.name = other.name := by
  have hplain := queueTokens_plain naming deployment (by decide : Plain "jobs") h
  have hplain' := queueTokens_plain naming deployment' (by decide : Plain "jobs") h'
  have hsplit : Text.split '.'
      (dotted [dotted (queueTokens naming deployment "jobs" allocation), rest])
      = queueTokens naming deployment "jobs" allocation ++ Text.split '.' rest := by
    rw [split_dotted (cons_ne_nil _ _), flatMap_cons,
      split_dotted queueTokens_ne_nil, flatMap_split hplain, flatMap_cons,
      flatMap_nil, append_nil]
  have hnest := selects_nest [] [">"] queueTokens_ne_nil hsel
  obtain ⟨hsame, -⟩ := selects_tokens hplain' queueTokens_ne_nil hsplit rfl hnest
  exact queueTokens_inj h h' hsame

theorem work_selected (hsel : Selects (dotted (queueTokens naming deployment' "work" other))
      (dotted (queueTokens naming deployment "work" allocation))) :
    deployment = deployment' ∧ allocation.name = other.name := by
  have hplain := queueTokens_plain naming deployment (by decide : Plain "work") h
  have hplain' := queueTokens_plain naming deployment' (by decide : Plain "work") h'
  have hsplit : Text.split '.' (dotted (queueTokens naming deployment "work" allocation))
      = queueTokens naming deployment "work" allocation ++ [] := by
    rw [split_dotted queueTokens_ne_nil, flatMap_split hplain, append_nil]
  obtain ⟨hsame, -⟩ := selects_tokens hplain' queueTokens_ne_nil hsplit rfl hsel
  exact queueTokens_inj h h' hsame

omit h h'

theorem key_selected {name' hash : String} (h : Plain name) (h' : Plain name')
    (hsel : Selects (dotted (keyTokens naming deployment' name' ++ [">"]))
      (dotted (keyTokens naming deployment name ++ [hash]))) : name = name' := by
  have hne : keyTokens naming deployment name ++ [hash] ≠ [] := by simp
  have hsplit := split_dotted hne
  rw [flatMap_append, flatMap_split (keyTokens_plain h)] at hsplit
  obtain ⟨hsame, -⟩ := selects_tokens (keyTokens_plain h') keyTokens_ne_nil hsplit rfl hsel
  simp only [keyTokens, List.cons.injEq, and_true] at hsame
  exact hsame.2.2.2

include hworld

/-- **A job's purges select data of that job only.** -/
theorem Captures.owner (hplan : plan ∈ world.plans)
    (halloc : allocation ∈ plan.allocations) (hjob : allocation.kind = .job)
    (h : Captures naming plan.deployment allocation stream filter)
    (hm : MessageOwned naming world.plans stream m)
    (hsel : Selects filter m.subject) : ∃ other ∈ world.plans, ∃ allocation' ∈ other.allocations,
      m.owner = allocation'.incarnation ∧ allocation'.resourceId = allocation.resourceId := by
  obtain ⟨hprop, hname, -⟩ := hworld.proper plan hplan allocation halloc
  rcases hm with ⟨other, hother, allocation', halloc', hemits, howner⟩ | ⟨huser, -⟩
  · obtain ⟨hprop', hname', -⟩ := hworld.proper other hother allocation' halloc'
    refine ⟨other, hother, allocation', halloc', howner, ?_⟩
    have hsame_resource : allocation'.kind = .job → other.deployment = plan.deployment ∧
        allocation'.name = allocation.name → allocation'.resourceId = allocation.resourceId := by
      -- a deployment has one participant, so a job is known by its namespace and name
      rintro hkind ⟨hdep, hname⟩
      have hown := hworld.accounted.plans plan hplan
      have hown' := hworld.accounted.plans other hother
      obtain ⟨d, hd, hid, hpart⟩ := hown.deployment
      obtain ⟨d', hd', hid', hpart'⟩ := hown'.deployment
      have hsame : d' = d := inj_on_of_nodup_map hworld.accounted.sound.deployments_nodup hd' hd
        (hid'.trans (hdep.trans hid.symm))
      rw [hown.named allocation halloc, hown'.named allocation' halloc', hdep,
        hkind.trans hjob.symm, hname, ← hpart', ← hpart, hsame]
    cases h with
    | events =>
      obtain ⟨hkind, rest, hsubj⟩ := hemits.of_events
      rw [hsubj] at hsel
      exact hsame_resource hkind (events_selected hprop' hprop hsel)
    | work =>
      obtain ⟨hkind, hsubj⟩ := hemits.of_work
      rw [hsubj] at hsel
      exact hsame_resource hkind (work_selected hprop' hprop hsel)
    | keys =>
      obtain ⟨hkind, hdep, hash, hsubj⟩ := hemits.of_keys
      rw [hsubj] at hsel
      exact hsame_resource hkind ⟨hdep.symm, key_selected hname' hname hsel⟩
  · -- a user's State is on no stream of jobs
    cases h with
    | events | work => exact absurd huser (by decide)
    | keys => exact absurd huser.symm (keysStream_ne (by decide))

/-- **The purge of a State selects values of its allocation only.** -/
theorem state_owner (hplan : plan ∈ world.plans) (halloc : allocation ∈ plan.allocations)
    (hm : MessageOwned naming world.plans stateStream m)
    (hsel : Selects (dotted ["$KV", "trellis_state",
      dotted [allocation.resourceId, allocation.allocationId], ">"]) m.subject) :
    m.owner = allocation.incarnation := by
  obtain ⟨hprop, -, -⟩ := hworld.proper plan hplan allocation halloc
  have hplain : ∀ token ∈ stateTokens allocation.resourceId allocation.allocationId,
      Plain token := by
    intro token htoken
    simp only [stateTokens, mem_cons, not_mem_nil, or_false] at htoken
    rcases htoken with rfl | rfl | rfl | rfl
    · decide
    · decide
    · exact plain_of_digest hprop.id
    · exact plain_of_long hprop.ulid.2 (by rw [hprop.ulid.1]; decide)
  have hne : stateTokens allocation.resourceId allocation.allocationId ≠ [] := cons_ne_nil _ _
  have hmatch : Selects
      (dotted (stateTokens allocation.resourceId allocation.allocationId ++ [">"]))
      m.subject := selects_nest ["$KV", "trellis_state"] [">"] (cons_ne_nil _ _) hsel
  rcases hm with ⟨other, hother, allocation', halloc', hemits, howner⟩ | ⟨-, hid, hallocId, hsubj⟩
  · obtain ⟨hprop', -, -⟩ := hworld.proper other hother allocation' halloc'
    obtain ⟨key, hsubj⟩ := hemits.of_state
    have hsplit := split_state hprop'.id.2 hprop'.ulid.2 [key]
    rw [← hsubj] at hsplit
    obtain ⟨hsame, -⟩ := selects_tokens hplain hne hsplit rfl hmatch
    simp only [stateTokens, List.cons.injEq, and_true, true_and] at hsame
    rw [howner]
    unfold NativeAllocation.incarnation
    rw [hsame.1, hsame.2]
  · -- a user's value has no token after the allocation
    have hsplit := split_state hid hallocId []
    rw [← hsubj] at hsplit
    obtain ⟨-, hrest⟩ := selects_tokens hplain hne hsplit rfl hmatch
    exact absurd hrest (by decide)

end Purging

end Deployments
