/-
# What the bindings of a deployment list

A deployment's binding carries a document of its materialized resources.  Installations hand it
on, a lifecycle change keeps or clears it, and a committed plan replaces it.

In every run a listed entry bears the names some allocation of the deployment owns (`WellNamed`).
That the allocation is attached, and declared by the revision in force (`Listed`), needs that no
installation drops a listed store, job queue or event consumer (`Keeps`): only KV entries are held
against what the new revision declares.
-/
import Trellis.Deployments.Resources

open Catalog Auth

namespace Deployments

open List Checked

variable {Claims Evidence Edit : Type}

/-! ## Entries -/

/-- The entry of one resource, of whatever kind. -/
inductive ResourceBinding where
  | state (resourceId : String)
  | kv (binding : KvBinding)
  | store (binding : StoreBinding)
  | job (binding : QueueBinding)
  | consumer (binding : ConsumerBinding)
  deriving DecidableEq, Repr

def NativeAllocation.binding (naming : Naming) (deployment : String)
    (allocation : NativeAllocation) : ResourceBinding :=
  match allocation.kind with
  | .state => .state allocation.resourceId
  | .kv => .kv ⟨allocation.owned⟩
  | .store => .store ⟨allocation.owned⟩
  | .job => .job (allocation.queue naming deployment)
  | .consumer => .consumer allocation.consumer

def ResourceBindings.queues (document : ResourceBindings) : List (String × QueueBinding) :=
  (document.jobs.map JobsBinding.queues).getD []

/-- The entries of one kind, by their names. -/
def ResourceBindings.entries (document : ResourceBindings) :
    ResourceKind → List (String × ResourceBinding)
  | .state => document.state.map fun entry => (entry.1, .state entry.2)
  | .kv => document.kv.map fun entry => (entry.1, .kv entry.2)
  | .store => document.store.map fun entry => (entry.1, .store entry.2)
  | .job => document.queues.map fun entry => (entry.1, .job entry.2)
  | .consumer => document.eventConsumers.map fun entry => (entry.1, .consumer entry.2)

theorem entries_empty (kind : ResourceKind) : ({} : ResourceBindings).entries kind = [] := by
  cases kind with
  | state | kv | store | job | consumer => rfl

theorem queues_planBindings : (planBindings naming deployment allocations).queues
      = allocationsOf allocations .job (NativeAllocation.queue naming deployment) := by
  unfold planBindings
  dsimp only
  split
  next hnil => exact hnil.symm
  · rfl

variable {platform : Platform Claims Evidence Edit}

theorem map_allocationsOf {wrap : α → ResourceBinding}
    (h : ∀ allocation : NativeAllocation, allocation.kind = kind →
      wrap (binding allocation) = allocation.binding naming deployment) :
    entry ∈ (allocationsOf allocations kind binding).map (fun entry => (entry.1, wrap entry.2)) ↔
      ∃ allocation ∈ allocations, allocation.kind = kind ∧
        entry = (allocation.name, allocation.binding naming deployment) := by
  unfold allocationsOf
  rw [map_map, mem_map]
  constructor
  · rintro ⟨allocation, hmem, rfl⟩
    obtain ⟨hmem, hkind⟩ := mem_filter.mp hmem
    have hkind := of_decide_eq_true hkind
    exact ⟨allocation, hmem, hkind, Prod.ext rfl (h allocation hkind)⟩
  · rintro ⟨allocation, hmem, hkind, rfl⟩
    exact ⟨allocation, mem_filter.mpr ⟨hmem, decide_eq_true hkind⟩,
      Prod.ext rfl (h allocation hkind)⟩

theorem binding_of_kind {allocation : NativeAllocation} : allocation.kind = kind →
    allocation.binding naming deployment = match kind with
      | .state => .state allocation.resourceId
      | .kv => .kv ⟨allocation.owned⟩
      | .store => .store ⟨allocation.owned⟩
      | .job => .job (allocation.queue naming deployment)
      | .consumer => .consumer allocation.consumer := by
  rintro rfl
  rfl

/-- A committed plan lists its allocations and nothing else. -/
theorem mem_entries_planBindings :
    entry ∈ (planBindings naming deployment allocations).entries kind ↔
      ∃ allocation ∈ allocations, allocation.kind = kind ∧
        entry = (allocation.name, allocation.binding naming deployment) := by
  cases kind with
  | state | kv | store | consumer =>
    exact map_allocationsOf fun allocation hkind => (binding_of_kind hkind).symm
  | job =>
    unfold ResourceBindings.entries
    rw [queues_planBindings]
    exact map_allocationsOf fun allocation hkind => (binding_of_kind hkind).symm

/-- An installation hands entries on; those of KV resources only if they are declared. -/
theorem mem_entries_carried (h : entry ∈ (carriedCommitments document participant).entries kind) :
    entry ∈ document.entries kind ∧
      (kind = .kv → (kind, entry.1) ∈ participant.resourceIdentities) := by
  cases kind with
  | kv =>
    obtain ⟨listed, hlist, rfl⟩ := mem_map.mp h
    obtain ⟨hmem, hdecl⟩ := mem_filter.mp hlist
    exact ⟨mem_map_of_mem hmem, fun _ => of_decide_eq_true hdecl⟩
  | state | store | job | consumer => exact ⟨h, nofun⟩

/-! ## Names -/

/-- The entry bears the names of an allocation of the deployment. -/
def NamedFor (naming : Naming) (deployment : String) (kind : ResourceKind)
    (entry : String × ResourceBinding) : Prop :=
  ∃ (allocation : NativeAllocation) (participant : String), allocation.kind = kind ∧
    entry = (allocation.name, allocation.binding naming deployment) ∧
    allocation.resourceId = naming.resourceId deployment participant kind allocation.name ∧
    IsUlid allocation.allocationId ∧ '.' ∉ allocation.name.toList

structure WellNamed (naming : Naming) (deployment : String)
    (document : ResourceBindings) : Prop where
  entry : ∀ kind, ∀ entry ∈ document.entries kind, NamedFor naming deployment kind entry
  jobs : ∀ jobs ∈ document.jobs, jobs.jobsNamespace = naming.jobsNamespace deployment

theorem WellNamed.empty (naming : Naming) (deployment : String) :
    WellNamed naming deployment {} where
  entry := by
    intro kind entry hentry
    rw [entries_empty] at hentry
    cases hentry
  jobs := fun _ hjobs => nomatch hjobs

theorem WellNamed.carried (h : WellNamed naming deployment document) (participant : Participant) :
    WellNamed naming deployment (carriedCommitments document participant) where
  entry := fun kind entry hentry => h.entry kind entry (mem_entries_carried hentry).1
  jobs := h.jobs

/-- What an installation was handed, as its callers have it. -/
theorem Admitted.document (h : Admitted store input existing fresh) :
    input.resourceCommitments = {} ∨
      ∃ d b, boundDeployment store (existing.getD fresh) = some (d, b) ∧
        input.participantId = d.participantId ∧
        input.resourceCommitments = b.resourceCommitments := by
  cases existing with
  | none => exact .inl (h.new rfl).2
  | some deployment => exact .inr (h.onto deployment rfl)

/-- Every document of a deployment is well named. -/
def WellListed (naming : Naming) (store : Store Claims Evidence) : Prop :=
  ∀ b ∈ store.bindings, WellNamed naming b.deploymentId b.resourceCommitments

theorem WellListed.effect (h : NativeEffect platform store store')
    (hlist : WellListed naming store) : WellListed naming store' := by
  cases h with
  | frame _ hbinds _ _ =>
    intro b hb
    exact hlist b (hbinds ▸ hb)
  | @install _ input existing _ fresh deployment _ hadm h =>
    obtain ⟨hdep, plan, -, hins⟩ := installDeployment_ok h
    obtain ⟨revision, -, hbinds, -⟩ := hins.binding
    intro b hb
    rw [hbinds] at hb
    rcases mem_putBinding hb with ⟨hb, -⟩ | ⟨revision, rfl⟩
    · exact hlist b hb
    refine WellNamed.carried ?_ plan.participant
    rcases hadm.document with hempty | ⟨d, b, hbound, -, hcomms⟩
    · rw [hempty]
      exact .empty naming _
    have hb' := (boundDeployment_eq_some.mp hbound).2
    have hid : b.deploymentId = existing.getD fresh := (of_find? hb' :)
    rw [hcomms]
    rw [hdep, ← hid]
    exact hlist b (mem_of_find?_eq_some hb')
  | lifecycle h =>
    obtain ⟨d, b₀, resources, identities, -, -, rfl⟩ := changeDeployment_ok h
    intro b' hb'
    obtain ⟨b, hb, rfl⟩ := mem_map.mp hb'
    split
    · split
      · exact .empty naming _
      · exact hlist b hb
    · exact hlist b hb

theorem WellListed.step (h : NativeStep platform naming world world')
    (hworld : Accounted platform naming world) (hlist : WellListed naming world.store) :
    WellListed naming world'.store := by
  cases h
  case beginRemoval | finishRemoval => exact hlist
  rename_i h
  cases h with
  | write h => exact hlist.effect h.native
  | plan _ h =>
    obtain ⟨d, b, participant, rows, -, -, -, hstore, -⟩ := planResources_ok h
    rw [hstore]
    exact hlist
  | fail => exact hlist
  | @commit plan _ hplan h =>
    obtain ⟨d, b₀, rows, -, -, hcom, rfl⟩ := commitPlan_ok h
    have hplanned := hworld.plans plan hplan
    obtain ⟨hrew, -, hcomm⟩ := commitAll_ok hplanned (List.Subset.refl _) hworld.rows hcom
    have hrows := hworld.rows.rewrite hrew
    intro b' hb'
    obtain ⟨b, hb, rfl⟩ := mem_map.mp hb'
    split
    next hid =>
      rw [hid]
      refine ⟨?_, ?_⟩
      · intro kind entry hentry
        obtain ⟨allocation, halloc, hkind, rfl⟩ := mem_entries_planBindings.mp hentry
        obtain ⟨row, hrow, ⟨hname, -, -, hsame⟩, -⟩ := hcomm allocation halloc
        refine ⟨allocation, plan.participant, hkind, rfl, ?_, ?_, ?_⟩
        · rw [hplanned.named allocation halloc, hkind]
        · rw [hsame]
          exact hrows.ulid row hrow
        · rw [hname]
          exact hrows.plain row hrow
      · intro jobs hjobs
        unfold planBindings at hjobs
        dsimp only at hjobs
        split at hjobs
        · cases hjobs
        · rw [← Option.some.inj hjobs]
    · exact hlist b hb

/-! ## Attached entries -/

variable (platform)

/-- The entry is that of an attached allocation which the revision declares. -/
def Backed (naming : Naming) (store : Store Claims Evidence) (deployment : String) (revision : Nat)
    (kind : ResourceKind) (entry : String × ResourceBinding) : Prop :=
  ∃ row ∈ store.resources, row.ownerId = deployment ∧ row.kind = kind ∧ row.localName = entry.1 ∧
    row.Attached ∧
    (∃ allocation : NativeAllocation, allocation.Of row ∧
      allocation.binding naming deployment = entry.2) ∧
    (∃ d ∈ store.deployments, d.deploymentId = deployment ∧ d.participantId = row.participantId) ∧
    Declares platform store row.participantId revision kind entry.1

/-- Everything of the kind that is listed is attached and declared. -/
def Listed (naming : Naming) (kind : ResourceKind) (store : Store Claims Evidence) : Prop :=
  ∀ b ∈ store.bindings, ∀ entry ∈ b.resourceCommitments.entries kind,
    Backed platform naming store b.deploymentId b.installedRevision kind entry

/-- No revision comes into force that drops a listed resource of the kind, KV resources apart. -/
def Keeps (kind : ResourceKind) (store store' : Store Claims Evidence) : Prop :=
  kind ≠ .kv → ∀ b ∈ store.bindings, ∀ b' ∈ store'.bindings, b'.deploymentId = b.deploymentId →
    ∀ d ∈ store'.deployments, d.deploymentId = b.deploymentId →
      ∀ entry ∈ b.resourceCommitments.entries kind,
        Declares platform store' d.participantId b'.installedRevision kind entry.1

variable {platform}

theorem of_identity {allocation : NativeAllocation} (h : allocation.Of row)
    (hident : row'.identity = row.identity) : allocation.Of row' := by
  obtain ⟨hname, hkind, hid, hsame⟩ := h
  obtain ⟨hid', hsame', -, -, hkind', hname'⟩ := identity_eq_iff.mp hident
  exact ⟨hname.trans hname'.symm, hkind.trans hkind'.symm, hid.trans hid'.symm,
    hsame.trans hsame'.symm⟩

/-- What backs an entry goes on while rows stay attached and deployments and revisions stay. -/
theorem Backed.frame (h : Backed platform naming store deployment revision kind entry)
    (hrows : ∀ row ∈ store.resources, row.ownerId = deployment → row.kind = kind →
      row.localName = entry.1 → row.Attached →
        ∃ row' ∈ store'.resources, row'.identity = row.identity ∧ row'.Attached)
    (hdeps : ∀ d ∈ store.deployments, ∃ d' ∈ store'.deployments,
      d'.deploymentId = d.deploymentId ∧ d'.participantId = d.participantId)
    (hdeclares : ∀ participantId, (∃ d ∈ store.deployments, d.deploymentId = deployment ∧
        d.participantId = participantId) →
      Declares platform store participantId revision kind entry.1 →
      Declares platform store' participantId revision' kind entry.1) :
    Backed platform naming store' deployment revision' kind entry := by
  obtain ⟨row, hrow, howner, hkind, hname, hatt, ⟨allocation, hof, hbind⟩,
    ⟨d, hd, hid, hpart⟩, hdecl⟩ := h
  obtain ⟨row', hrow', hident, hatt'⟩ := hrows row hrow howner hkind hname hatt
  obtain ⟨d', hd', hid', hpart'⟩ := hdeps d hd
  have hstill := hdeclares row.participantId ⟨d, hd, hid, hpart⟩ hdecl
  obtain ⟨-, -, howner', hsame, hkind', hname'⟩ := identity_eq_iff.mp hident
  refine ⟨row', hrow', howner'.trans howner, hkind'.trans hkind, hname'.trans hname, hatt',
    ⟨allocation, of_identity hof hident, hbind⟩,
    ⟨d', hd', hid'.trans hid, hpart'.trans (hpart.trans hsame.symm)⟩, ?_⟩
  rw [hsame]
  exact hstill

/-- Only the rows change. -/
theorem Backed.of_rows (h : Backed platform naming store deployment revision kind entry)
    (hdeps : store'.deployments = store.deployments) (hinst : store'.installed = store.installed)
    (hrows : ∀ row ∈ store.resources, row.Attached →
      ∃ row' ∈ store'.resources, row'.identity = row.identity ∧ row'.Attached) :
    Backed platform naming store' deployment revision kind entry := by
  refine h.frame (fun row hrow _ _ _ => hrows row hrow) ?_ ?_
  · intro d hd
    exact ⟨d, hdeps ▸ hd, rfl, rfl⟩
  · intro _ _ hdecl
    exact hdecl.of_append (hinst.trans (append_nil _).symm)

/-- Where an installation leaves a row that it does not detach. -/
theorem Installs.attached (h : Installs platform store input existing deployment plan store')
    (hrow : row ∈ store.resources) (hatt : row.Attached) (hkeep : row.ownerId ≠ deployment ∨
      (row.kind, row.localName) ∈ plan.participant.resourceIdentities) :
    ∃ row' ∈ store'.resources, row'.identity = row.identity ∧ row'.Attached := by
  obtain ⟨resources, hdetached, hres⟩ := h.resources
  obtain ⟨kept, hkept, hdetach⟩ := exists_right_of_mem (mapM_eq_ok_iff.mp hdetached) hrow
  obtain rfl := detachResource_keep hkeep hdetach
  rw [hres]
  split
  · refine ⟨_, mem_map_of_mem hkept, ?_⟩
    unfold carryEvidence
    split
    · exact ⟨rfl, hatt⟩
    · exact ⟨rfl, hatt⟩
  · exact ⟨kept, hkept, rfl, hatt⟩

/-- **An installation leaves what it lists attached and declared**, unless it drops a listed
resource that is no KV resource. -/
theorem Listed.install (hdig : DigestFaithful platform) (hsound : Sound platform store)
    (hadm : Admitted store input existing fresh)
    (h : installDeployment platform store actor input existing title fresh now
      = .ok (store', deployment))
    (hkeeps : Keeps platform kind store store') (hlist : Listed platform naming kind store) :
    Listed platform naming kind store' := by
  have heffect : NativeEffect platform store store' := .install hadm h
  obtain ⟨added, hmore⟩ := heffect.installed
  have hsound' := hsound.install hdig hadm h
  obtain ⟨hdep, plan, hplan, hins⟩ := installDeployment_ok h
  obtain ⟨graph, hcomp, -⟩ := checkInstallation_ok hplan
  obtain ⟨current, hcur, -, installed, hinst, -, graph', participant, hcompiled, -, -,
    hsame⟩ := hsound.installed_row hdig hdep hadm hcomp hins
  -- the revision in force declares what the installation compiled
  have hpart : revisionParticipant platform store' input.participantId
      current.installedRevision = .ok participant := by
    obtain ⟨hgraph, hfound, -⟩ := compileParticipant_ok.mp hcompiled
    exact revisionParticipant_ok.mpr ⟨installed, graph', hinst, hgraph, hfound⟩
  have hidents : participant.resourceIdentities = plan.participant.resourceIdentities := by
    unfold Participant.resourceIdentities
    rw [hsame]
  obtain ⟨revision, -, hbinds, -⟩ := hins.binding
  intro b' hb' entry hentry
  have hcases := hb'
  rw [hbinds] at hcases
  rcases mem_putBinding hcases with ⟨hold, hother⟩ | ⟨count, hnew⟩
  · -- another deployment
    refine (hlist b' hold entry hentry).frame ?_ (fun d hd => heffect.deployment hd)
      fun _ _ hdecl => hdecl.of_append hmore
    intro row hrow howner _ _ hatt
    refine hins.attached hrow hatt (.inl ?_)
    rw [howner]
    exact hother
  · have hid : b'.deploymentId = deployment := by rw [hnew]
    have hdocument : b'.resourceCommitments
        = carriedCommitments input.resourceCommitments plan.participant := by rw [hnew]
    rw [hdocument] at hentry
    obtain ⟨hentry, hkv⟩ := mem_entries_carried hentry
    rcases hadm.document with hempty | ⟨d, b, hbound, hinput, hcomms⟩
    · rw [hempty, entries_empty] at hentry
      cases hentry
    rw [← hdep] at hbound
    obtain ⟨hd, hb⟩ := boundDeployment_eq_some.mp hbound
    have hdid : d.deploymentId = deployment := (of_find? hd :)
    have hbid : b.deploymentId = deployment := (of_find? hb :)
    rw [hcomms] at hentry
    obtain rfl : b' = current := eq_of_find? hsound'.consistent.bindings_nodup hcur hb' hid
    -- the deployment's own participant is the one that is installed
    obtain ⟨d', hd', hdid', hdparticipant'⟩ := heffect.deployment (mem_of_find?_eq_some hd)
    have hdecl : (kind, entry.1) ∈ plan.participant.resourceIdentities := by
      by_cases hkind : kind = .kv
      · exact hkv hkind
      obtain ⟨declaring, hdeclaring, hmem⟩ := hkeeps hkind b (mem_of_find?_eq_some hb) b'
        hb' (hid.trans hbid.symm) d' hd' (hdid'.trans (hdid.trans hbid.symm)) entry hentry
      rw [hdparticipant', ← hinput, hpart] at hdeclaring
      rw [← hidents, Except.ok.inj hdeclaring]
      exact hmem
    rw [hid, ← hbid]
    refine (hlist b (mem_of_find?_eq_some hb) entry hentry).frame ?_
      (fun d hd => heffect.deployment hd) ?_
    · intro row hrow _ hkind hname hatt
      refine hins.attached hrow hatt (.inr ?_)
      rw [hkind, hname]
      exact hdecl
    · rintro participantId ⟨d₀, hd₀, hid₀, rfl⟩ -
      have hsameDeployment := eq_of_find? hsound.deployments_nodup hd hd₀ (hid₀.trans hbid)
      rw [hsameDeployment, ← hinput]
      exact ⟨participant, hpart, hidents ▸ hdecl⟩

theorem lifecycleResources_attached
    (h : lifecycleResources rows deployment bindingRevision state = .ok rows')
    (hrow : row ∈ rows) (hatt : row.Attached)
    (hkeep : row.ownerId ≠ deployment ∨ state ≠ .revoked) :
    ∃ row' ∈ rows', row'.identity = row.identity ∧ row'.Attached := by
  unfold lifecycleResources at h
  split at h
  next hrevoked =>
    obtain ⟨kept, hkept, hdetach⟩ := exists_right_of_mem (mapM_eq_ok_iff.mp h) hrow
    obtain rfl := detachResource_keep
      (.inl (hkeep.resolve_right fun hstate => hstate hrevoked)) hdetach
    exact ⟨kept, hkept, rfl, hatt⟩
  · rw [← Except.ok.inj h]
    refine ⟨_, mem_map_of_mem hrow, ?_⟩
    split
    · exact ⟨rfl, hatt⟩
    · exact ⟨rfl, hatt⟩

theorem Listed.lifecycle
    (h : changeDeployment platform store actor deployment expectedRevision state now = .ok store')
    (hlist : Listed platform naming kind store) : Listed platform naming kind store' := by
  have heffect : NativeEffect platform store store' := .lifecycle h
  obtain ⟨added, hmore⟩ := heffect.installed
  have hdeps := fun d hd => heffect.deployment (d := d) hd
  obtain ⟨d, b₀, resources, identities, -, hres, rfl⟩ := changeDeployment_ok h
  intro b' hb' entry hentry
  obtain ⟨b, hb, rfl⟩ := mem_map.mp hb'
  by_cases hid : b.deploymentId = deployment
  · rw [if_pos hid] at hentry ⊢
    by_cases hrevoked : state = .revoked
    · dsimp only at hentry
      rw [if_pos hrevoked, entries_empty] at hentry
      cases hentry
    · dsimp only at hentry
      rw [if_neg hrevoked] at hentry
      refine (hlist b hb entry hentry).frame ?_ hdeps fun _ _ hdecl => hdecl.of_append hmore
      intro row hrow _ _ _ hatt
      exact lifecycleResources_attached hres hrow hatt (.inr hrevoked)
  · rw [if_neg hid] at hentry ⊢
    refine (hlist b hb entry hentry).frame ?_ hdeps fun _ _ hdecl => hdecl.of_append hmore
    intro row hrow howner _ _ hatt
    refine lifecycleResources_attached hres hrow hatt (.inl ?_)
    rw [howner]
    exact hid

/-- **Every step that keeps to the condition leaves what is listed attached.** -/
theorem Listed.step (hdig : DigestFaithful platform) (hplain : PlainNames platform)
    (h : NativeStep platform naming world world')
    (hkeeps : Keeps platform kind world.store world'.store)
    (hworld : Accounted platform naming world) (hlist : Listed platform naming kind world.store) :
    Listed platform naming kind world'.store := by
  cases h
  case beginRemoval h =>
    intro b hb entry hentry
    refine (hlist b hb entry hentry).of_rows rfl rfl ?_
    intro row hrow hatt
    exact ⟨row, (beginRemoval_rewrites hworld.rows h).2 row hrow hatt, rfl, hatt⟩
  case finishRemoval h =>
    intro b hb entry hentry
    refine (hlist b hb entry hentry).of_rows rfl rfl ?_
    intro row hrow hatt
    refine ⟨row, ?_, rfl, hatt⟩
    rw [finishRemoval_ok h]
    refine mem_filter.mpr ⟨hrow, ?_⟩
    rw [Bool.not_eq_true', decide_eq_false_iff_not]
    exact fun hsel => hatt.2 hsel.2.2.2
  rename_i h
  cases h with
  | write h =>
    cases h.native with
    | frame hdeps hbinds hinst hres =>
      intro b hb entry hentry
      rw [hbinds] at hb
      apply (hlist b hb entry hentry).of_rows hdeps hinst
      intro row hrow hatt
      exact ⟨row, hres ▸ hrow, rfl, hatt⟩
    | install hadm h => exact hlist.install hdig hworld.sound hadm h hkeeps
    | lifecycle h => exact hlist.lifecycle h
  | @plan _ _ planned hdraws h =>
    obtain ⟨d, b, participant, rows, hbound, hpart, hplan, hstore, -⟩ := planResources_ok h
    have hext := (planResources_rows hplain hworld.rows hdraws h).1
    rw [hstore] at hext ⊢
    intro b hb entry hentry
    refine (hlist b hb entry hentry).of_rows rfl rfl ?_
    intro row hrow hatt
    obtain ⟨row', hrow', hevolves, hstill⟩ := hext.old row hrow
    exact ⟨row', hrow', hevolves.identity, hstill hatt⟩
  | @fail plan hplan =>
    obtain ⟨update, hres, hstays⟩ := failPlan_stays naming world.store plan
    intro b hb entry hentry
    refine (hlist b hb entry hentry).of_rows rfl rfl ?_
    intro row hrow hatt
    refine ⟨update row, ?_, (hstays row).evolves.identity, (hstays row).attached hatt⟩
    rw [hres]
    exact mem_map_of_mem hrow
  | @commit plan _ hplan h =>
    obtain ⟨d, b₀, rows, hbound, hrev, hcom, rfl⟩ := commitPlan_ok h
    have hplanned := hworld.plans plan hplan
    obtain ⟨-, hext, hcomm⟩ := commitAll_ok hplanned (List.Subset.refl _) hworld.rows hcom
    intro b' hb' entry hentry
    obtain ⟨b, hb, rfl⟩ := mem_map.mp hb'
    by_cases hid : b.deploymentId = plan.deployment
    · rw [if_pos hid] at hentry ⊢
      obtain ⟨allocation, halloc, hkind, rfl⟩ := mem_entries_planBindings.mp hentry
      obtain ⟨row, hrow, hof, howner, hpart, hatt⟩ := hcomm allocation halloc
      have hb₀ := (boundDeployment_eq_some.mp hbound).2
      obtain rfl : b = b₀ := eq_of_find? hworld.sound.consistent.bindings_nodup hb₀ hb hid
      obtain ⟨d', hd', hdid, hdparticipant⟩ := hplanned.deployment
      refine ⟨row, hrow, howner.trans hid.symm, hof.2.1.symm.trans hkind, hof.1.symm, hatt,
        ⟨allocation, hof, by rw [hid]⟩,
        ⟨d', hd', hdid.trans hid.symm, hdparticipant.trans hpart.symm⟩, ?_⟩
      rw [hpart, hrev, ← hkind]
      exact hplanned.declared allocation halloc
    · rw [if_neg hid] at hentry ⊢
      refine (hlist b hb entry hentry).of_rows rfl rfl ?_
      intro row hrow hatt
      obtain ⟨row', hrow', hevolves, hstill⟩ := hext.old row hrow
      exact ⟨row', hrow', hevolves.identity, hstill hatt⟩

end Deployments
