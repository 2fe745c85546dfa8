/-
# Policies cover attached resources

Along a run that drops no listed resource of a kind, what a compiled policy grants of that kind
belongs to an attached allocation that the instance's pinned revision and the deployment's current
one both declare.

Dropping a resource breaks it: `install_deployment_in_transaction` filters only the KV bindings it
carries over against the new revision, so an instance is still given the object store, job queue
or event consumer that was dropped and detached.
-/
import Trellis.Deployments.NativeTransport
import Trellis.Deployments.Review

open Catalog Auth

namespace Deployments

open List Checked

variable {Claims Evidence Edit : Type} {row : Resource} {transport : TransportPatterns}

/-! ## Policies cover attached resources -/

/-- The instance's deployment owns the row, it is attached, and the pinned revision and the one in
force declare it. -/
structure Covered (platform : Platform Claims Evidence Edit) (store : Store Claims Evidence)
    (i : Instance) (b : Binding) (row : Resource) : Prop where
  owner : row.ownerId = i.deploymentId
  attached : row.Attached
  pinned : Declares platform store row.participantId i.installedRevision row.kind row.localName
  current : Declares platform store row.participantId b.installedRevision row.kind row.localName

theorem Registered.proper {drawn : List String}
    (h : Registered naming drawn rows) (hrow : row ∈ rows) (hof : allocation.Of row) :
    Proper allocation := by
  obtain ⟨hname, -, hid, hsame⟩ := hof
  refine ⟨?_, ?_, ?_⟩
  · rw [hid, h.named row hrow]
    exact naming.resourceId_text _ _ _ _
  · rw [hsame]
    exact h.ulid row hrow
  · rw [hname]
    exact h.plain row hrow

theorem Resource.allocation_of : row.allocation.Of row := ⟨rfl, rfl, rfl, rfl⟩

theorem Permits.reach (h : transport.Permits subject) (haddr : addressee subject = some address) :
    transport.Reach address := by
  obtain ⟨tokens, htoks, hmat⟩ := h
  exact ⟨tokens, htoks, subject, hmat, haddr⟩

/-- What is known of every world that a run with the condition reaches. -/
structure Attends (platform : Platform Claims Evidence Edit) (naming : Naming)
    (kind : ResourceKind) (world : World Claims Evidence) : Prop where
  accounted : Accounted platform naming world
  named : WellListed naming world.store
  listed : Listed platform naming kind world.store

theorem Attends.initial (platform : Platform Claims Evidence Edit) (naming : Naming)
    (kind : ResourceKind) (policy : PolicyTables Claims) :
    Attends platform naming kind (World.initial policy : World Claims Evidence) where
  accounted := .initial platform naming policy
  named := nofun
  listed := nofun

theorem Attends.step (hdig : DigestFaithful platform) (hplain : PlainNames platform)
    (h : NativeStep platform naming world world' ∧ Keeps platform kind world.store world'.store)
    (hworld : Attends platform naming kind world) : Attends platform naming kind world' where
  accounted := hworld.accounted.step hdig hplain h.1
  named := WellListed.step h.1 hworld.accounted hworld.named
  listed := Listed.step hdig hplain h.1 h.2 hworld.accounted hworld.listed

/-- The row behind an entry of the projected document is covered. -/
theorem Attends.covered (h : Attends platform naming kind world)
    (hbound : boundDeployment world.store i.deploymentId = some (d, b))
    (hnarr : Narrows document b.resourceCommitments)
    (hdecl : i.installedRevision = b.installedRevision ∨ ∀ kind, ∀ entry ∈ document.entries kind,
        Declares platform world.store d.participantId i.installedRevision kind entry.1 ∧
          Declares platform world.store d.participantId b.installedRevision kind entry.1)
    (hentry : entry ∈ document.entries kind) :
    ∃ row ∈ world.store.resources, row.kind = kind ∧ Covered platform world.store i b row ∧
      ∃ allocation : NativeAllocation, allocation.Of row ∧
        entry = (allocation.name, allocation.binding naming i.deploymentId) := by
  obtain ⟨hfindd, hfindb⟩ := boundDeployment_eq_some.mp hbound
  have hb : b ∈ world.store.bindings := mem_of_find?_eq_some hfindb
  have hbid : b.deploymentId = i.deploymentId := (of_find? hfindb :)
  obtain ⟨row, hrow, howner, hkind, hname, hatt, ⟨allocation, hof, hbind⟩,
    ⟨d', hd', hdid', hpart⟩, hcur⟩ :=
    h.listed b hb entry (hnarr.entry kind entry hentry)
  obtain rfl : d' = d :=
    eq_of_find? h.accounted.sound.deployments_nodup hfindd hd' (hdid'.trans hbid)
  have hpinned : Declares platform world.store row.participantId i.installedRevision kind
      entry.1 := by
    rcases hdecl with hsame | hboth
    · rw [hsame]
      exact hcur
    · rw [← hpart]
      exact (hboth kind entry hentry).1
  refine ⟨row, hrow, hkind, ⟨howner.trans hbid, hatt, ?_, ?_⟩, allocation, hof, ?_⟩
  · rw [hkind, hname]
    exact hpinned
  · rw [hkind, hname]
    exact hcur
  · rw [hof.1, hname, ← hbid, hbind]

/-- **A policy covers attached resources only.**  In every run that drops no listed resource of the
kind, a policy that permits a data subject of such a resource covers it, and one that permits a
deployment's job keys covers a job of it. -/
theorem transport_covers_attached {platform : Platform Claims Evidence Edit}
    (hdigest : DigestFaithful platform) (hplain : PlainNames platform) {naming : Naming}
    {kind : ResourceKind} {policy : PolicyTables Claims} {world : World Claims Evidence}
    (hrun : ReflTransGen (fun world world' => NativeStep platform naming world world' ∧
      Keeps platform kind world.store world'.store) (World.initial policy) world)
    {id : String} {now : Int} {projection : NativeInstanceProjection Evidence}
    (hprojection : projectInstance platform world.store id now = .ok projection)
    {service : Bool} {routes : Routes} {operationProviders : List String}
    {transport : TransportPatterns}
    (hcompile : compileTransport platform projection service routes operationProviders =
      .ok transport) : ∃ i ∈ world.store.instances, i.instanceId = id ∧
      ∃ b ∈ world.store.bindings, b.deploymentId = i.deploymentId ∧
        (∀ row ∈ world.store.resources, row.kind = kind → ∀ subject, row.HasSubject naming subject →
          transport.Permits subject → Covered platform world.store i b row) ∧
        (kind = .job → ∀ deployment subject,
          addressee subject = some (.bucket (jobsKeysBucket (naming.jobsNamespace deployment))) →
          transport.Permits subject → ∃ row ∈ world.store.resources, row.kind = .job ∧
            row.ownerId = deployment ∧ Covered platform world.store i b row) := by
  have hworld : Attends platform naming kind world :=
    Run.keeps (P := Attends platform naming kind)
      (fun _ _ hstep hbefore => hbefore.step hdigest hplain hstep) hrun
      (.initial platform naming kind policy)
  obtain ⟨i, d, b, ⟨hi, hid⟩, hbound, hdeployment, hnarrows, hdeclared⟩ :=
    projectInstance_ok hprojection
  have hfindb := (boundDeployment_eq_some.mp hbound).2
  have hb : b ∈ world.store.bindings := mem_of_find?_eq_some hfindb
  have hbid : b.deploymentId = i.deploymentId := (of_find? hfindb :)
  have hnamed : WellNamed naming projection.deploymentId projection.resources := by
    rw [hdeployment, ← hbid]
    exact (hworld.named b hb).narrow hnarrows
  refine ⟨i, hi, hid, b, hb, hbid, ?_, ?_⟩
  · intro row hrow hkind subject ⟨address, haddress, haddressed⟩ hpermits
    have hproper := hworld.accounted.rows.proper hrow row.allocation_of
    have hsource := compileTransport_source hnamed hcompile (Permits.reach hpermits haddress)
    obtain ⟨listed, entry, hentry, hunique⟩ := hsource.entry_of_addressed hproper haddressed
    -- the entry bears the names of some allocation, hence it is of the row's kind
    obtain ⟨other, hother, hotherKind, hsame⟩ :=
      NamedFor.exists_proper (hnamed.entry listed entry hentry)
    have hlisted : listed = kind :=
      (hotherKind.symm.trans (hunique other hother hotherKind hsame).1).trans hkind
    subst hlisted
    obtain ⟨row', hrow', hkind', hcovered, allocation, hof, hbears⟩ :=
      hworld.covered hbound hnarrows hdeclared hentry
    obtain ⟨-, hallocation⟩ := hunique allocation (hworld.accounted.rows.proper hrow' hof)
      (hof.2.1.trans hkind') (hdeployment ▸ hbears)
    obtain rfl : row' = row :=
      hworld.accounted.rows.eq_of_allocation hrow' hrow (hof.2.2.2.symm.trans hallocation)
    exact hcovered
  · rintro rfl deployment subject haddress hpermits
    have hsource := compileTransport_source hnamed hcompile (Permits.reach hpermits haddress)
    obtain ⟨entry, hentry, hns⟩ := hsource.entry_of_keys hnamed
    obtain ⟨row, hrow, hkind, hcovered, -⟩ := hworld.covered hbound hnarrows hdeclared hentry
    refine ⟨row, hrow, hkind, ?_, hcovered⟩
    rw [hcovered.owner, ← hdeployment]
    exact hns.symm

/-- **Deployments are kept apart**, whatever revisions were installed and dropped: no data subject
belongs to two resources, and an instance is given no subject of another deployment's data. -/
theorem deployments_kept_apart {platform : Platform Claims Evidence Edit}
    (hdigest : DigestFaithful platform) (hplain : PlainNames platform) {naming : Naming}
    {policy : PolicyTables Claims} {world : World Claims Evidence}
    (hrun : ReflTransGen (NativeStep platform naming) (World.initial policy) world) :
    (∀ row ∈ world.store.resources, ∀ row' ∈ world.store.resources, ∀ subject,
      row.HasSubject naming subject → row'.HasSubject naming subject → row = row') ∧
    ∀ name now projection service routes operationProviders transport,
      projectInstance platform world.store name now = .ok projection →
      compileTransport platform projection service routes operationProviders = .ok transport →
      ∃ i ∈ world.store.instances, i.instanceId = name ∧ ∀ row ∈ world.store.resources, ∀ subject,
        row.HasSubject naming subject → transport.Permits subject →
          row.ownerId = i.deploymentId := by
  obtain ⟨hworld, hlisted⟩ := Run.keeps (P := fun world => Accounted platform naming world ∧
      WellListed naming world.store)
    (fun _ _ hstep ⟨hbefore, hlisted⟩ =>
      ⟨hbefore.step hdigest hplain hstep, WellListed.step hstep hbefore hlisted⟩)
    hrun ⟨.initial .., forall_mem_nil _⟩
  have hproper : ∀ row ∈ world.store.resources, Proper row.allocation := fun row hrow =>
    hworld.rows.proper hrow row.allocation_of
  constructor
  · rintro row hrow row' hrow' subject ⟨address, haddress, hadd⟩ ⟨address', haddress', hadd'⟩
    obtain rfl : address = address' := Option.some.inj (haddress.symm.trans haddress')
    exact hworld.rows.eq_of_allocation hrow hrow'
      (Addressed.unique (hproper row hrow) (hproper row' hrow') hadd hadd').2
  · intro name now projection service routes operationProviders transport hprojection hcompile
    obtain ⟨i, d, b, ⟨hi, hid⟩, hbound, hdeployment, hnarrows, -⟩ := projectInstance_ok hprojection
    have hfindb := (boundDeployment_eq_some.mp hbound).2
    have hbid : b.deploymentId = i.deploymentId := (of_find? hfindb :)
    have hnamed : WellNamed naming projection.deploymentId projection.resources := by
      rw [hdeployment, ← hbid]
      exact (hlisted b (mem_of_find?_eq_some hfindb)).narrow hnarrows
    refine ⟨i, hi, hid, ?_⟩
    rintro row hrow subject ⟨address, haddress, hadd⟩ hpermits
    rw [← hdeployment]
    exact (compileTransport_source hnamed hcompile (Permits.reach hpermits haddress)).owner_eq
      hnamed
      (hproper row hrow) hadd (hworld.rows.named row hrow)

/-! ## An archive -/

/-- Evidence tells whether the archive declares its object store. -/
def archive (keeps : Bool) : Participant where
  participantId := "acme.archive"
  kind := .service
  implements := []
  uses := []
  required := []
  optional := []
  resources := if keeps then [("files", ⟨false, .store 0 none none⟩)] else []
  resources_nodup := by cases keeps <;> decide

def archivePlatform : Platform Unit Bool Unit where
  library := noClaims
  catalog := clockCatalog
  compileEvidence := fun keeps => .ok ⟨[archive keeps], fun _ => none⟩
  participantDigest := fun _ participant =>
    if participant = archive true then .ok "1"
    else if participant = archive false then .ok "0"
    else .error .denied
  identityKeyId := .ok
  isBlank := fun text => text = ""

theorem archive_digest (h : archivePlatform.participantDigest graph participant = .ok digest) :
    (digest = "1" ∧ participant = archive true) ∨ (digest = "0" ∧ participant = archive false) := by
  unfold archivePlatform at h
  simp only at h
  split at h
  next hpart => exact .inl ⟨(Except.ok.inj h).symm, hpart⟩
  · split at h
    next hpart => exact .inr ⟨(Except.ok.inj h).symm, hpart⟩
    · cases h

theorem archivePlatform_faithful : DigestFaithful archivePlatform := by
  intro graph graph' participant participant' digest h h'
  rcases archive_digest h with ⟨rfl, rfl⟩ | ⟨rfl, rfl⟩
  · rcases archive_digest h' with ⟨-, rfl⟩ | ⟨hdig, -⟩
    · exact ⟨rfl, rfl, rfl⟩
    · exact absurd hdig (by decide)
  · rcases archive_digest h' with ⟨hdig, -⟩ | ⟨-, rfl⟩
    · exact absurd hdig (by decide)
    · exact ⟨rfl, rfl, rfl⟩

theorem archivePlatform_plain : PlainNames archivePlatform := by
  intro keeps graph h participant hpart entry hentry
  cases h
  obtain rfl := mem_singleton.mp hpart
  cases keeps with
  | false => cases hentry
  | true =>
    obtain rfl := mem_singleton.mp hentry
    decide

/-- Two characters for each, none of them a dot. -/
def escape (c : Char) : List Char :=
  if c = '.' then ['a', 'b'] else ['c', c]

theorem escape_inj (h : escape c ++ rest = escape d ++ rest') : c = d ∧ rest = rest' := by
  unfold escape at h
  split at h <;> split at h
  · simp_all
  · simp at h
  · simp at h
  · simpa using h

theorem flatMap_escape_injective : Function.Injective (List.flatMap escape) := by
  intro text other h
  induction text generalizing other with
  | nil =>
    cases other with
    | nil => rfl
    | cons d other =>
      unfold escape at h
      simp only [flatMap_cons] at h
      split at h <;> cases h
  | cons c text ih =>
    cases other with
    | nil =>
      unfold escape at h
      simp only [flatMap_cons] at h
      split at h <;> cases h
    | cons d other =>
      obtain ⟨rfl, hrest⟩ := escape_inj h
      rw [ih hrest]

/-- A long text without dots that spells its lines. -/
def spelledDigest (lines : List String) : String :=
  String.ofList (List.replicate 43 'd' ++ (spell [lines]).toList.flatMap escape)

theorem spelledDigest_injective : Function.Injective spelledDigest := by
  intro lines lines' h
  have htail := append_cancel_left (String.ofList_injective h)
  have hspell := spell_injective (String.toList_injective (flatMap_escape_injective htail))
  exact (List.cons.inj hspell).1

theorem spelledDigest_text : IsDigest (spelledDigest lines) := by
  unfold IsDigest spelledDigest
  rw [String.toList_ofList]
  refine ⟨by simp, ?_⟩
  rw [mem_append, mem_flatMap]
  rintro (hpad | ⟨c, -, hc⟩)
  · exact absurd (eq_of_mem_replicate hpad) (by decide)
  · unfold escape at hc
    split at hc
    · exact absurd hc (by decide)
    rename_i hne
    simp only [mem_cons, not_mem_nil, or_false] at hc
    rcases hc with hc | hc
    · exact absurd hc (by decide)
    · exact hne hc.symm

def kindText : ResourceKind → String
  | .state => "state"
  | .kv => "kv"
  | .store => "store"
  | .job => "job"
  | .consumer => "consumer"

theorem kindText_injective : Function.Injective kindText := by
  intro kind kind' h
  cases kind <;> cases kind' <;> first | rfl | exact absurd h (by decide)

def spelledNaming : Naming where
  resourceId := fun deployment participant kind name =>
    spelledDigest ["deployment", deployment, participant, kindText kind, name]
  jobsNamespace := fun deployment => spelledDigest ["jobs", deployment]
  resourceId_text := fun _ _ _ _ => spelledDigest_text
  jobsNamespace_text := fun _ => spelledDigest_text
  resourceId_inj := by
    intro deployment participant kind name deployment' participant' kind' name' h
    have hlines := spelledDigest_injective h
    simp only [List.cons.injEq, and_true, true_and] at hlines
    exact ⟨hlines.1, hlines.2.1, kindText_injective hlines.2.2.1, hlines.2.2.2⟩
  jobsNamespace_inj := by
    intro deployment deployment' h
    have hlines := spelledDigest_injective h
    simp only [List.cons.injEq, and_true, true_and] at hlines
    exact hlines

/-- The policy of a system that has its health API and nothing deployed. -/
def archivePolicy : PolicyTables Unit :=
  { (clockStore []).policy with
    catalog := {
      accepted := fun api => if api = "trellis.health@v1" then
        some ⟨1, 1, "", .empty⟩ else none
      identities := [⟨selfHealthCapability, 1, 1, true, .capability⟩,
        ⟨serviceUpdateCapability, 1, 1, true, .capability⟩]
      groupMembers := []
      snapshots := [⟨"trellis.health@v1", 1, 1, "", [],
        [⟨selfHealthCapability, 1, 1, [⟨heartbeatAction, 1⟩]⟩]⟩] }
    principals := [] }

/-- What is done to a deployment of the archive. -/
inductive Deed where
  | install (keeps : Bool) (existing : Option String)
  | provision (name : String)
  | plan
  | commit

/-- The identifier a deployment's plan draws. -/
def archiveUlid (deployment : String) : String :=
  if deployment = "archive" then "01ARZ3NDEKTSV4RRFFQ69G5FAV" else "01BX5ZZKBKACTAV9WEVGEMMVRZ"

/-- The document an installation starts from. -/
def carriedFrom (store : Store Claims Evidence) (existing : Option String) : ResourceBindings :=
  ((existing.bind (boundDeployment store)).map fun bound => bound.2.resourceCommitments).getD {}

instance (store : Store Claims Evidence) (id : String) : Decidable (Unused store id) :=
  inferInstanceAs (Decidable (_ ∧ _ ∧ _))

/-- The deployment is new, or what is deployed is the archive. -/
def admits (store : Store Claims Evidence) (fresh : String) : Option String → Bool
  | none => Unused store fresh
  | some deployment => (boundDeployment store deployment).any fun bound =>
    bound.1.participantId = "acme.archive"

theorem admitted_of_admits (h : admits store fresh existing = true) :
    Admitted store ⟨keeps, "acme.archive", [], carriedFrom store existing, none⟩ existing
      fresh := by
  cases existing with
  | none => exact ⟨fun _ => ⟨of_decide_eq_true h, rfl⟩, nofun⟩
  | some deployment =>
    obtain ⟨⟨d, b⟩, hbound, hpart⟩ := (Option.any_eq_true _ _).mp h
    refine ⟨nofun, ?_⟩
    intro deployment' hsame
    cases hsame
    refine ⟨d, b, hbound, (of_decide_eq_true hpart).symm, ?_⟩
    unfold carriedFrom
    rw [Option.bind_some, hbound]
    rfl

/-- Perform one deed.  A deployment is planned once, and its store is the only allocation. -/
def deedOn (platform : Platform Unit Bool Unit) (deployment : String) (world : World Unit Bool) :
    Deed → Except AuthError (World Unit Bool)
  | .install keeps existing => do
      if !admits world.store deployment existing then .error .denied
      let changed ← installDeployment platform world.store "root"
        ⟨keeps, "acme.archive", [], carriedFrom world.store existing, none⟩ existing "Archive"
        deployment 0
      return { world with store := changed.1 }
  | .provision name => do
      let store ← provisionInstance platform world.store deployment (some name) name name name 0
      return { world with store }
  | .plan => do
      let planned ← planResources platform spelledNaming world.store deployment
        fun _ => archiveUlid deployment
      if archiveUlid deployment ∈ world.drawn ∨ 1 < planned.2.allocations.length then
        .error .denied
      return {
        store := planned.1
        plans := world.plans ++ [planned.2]
        drawn := world.drawn ++ planned.2.allocations.map NativeAllocation.allocationId }
  | .commit => do
      let some made := world.plans.getLast?
        | .error .storage
      let store ← commitPlan spelledNaming world.store made
      return { world with store }

abbrev deed : World Unit Bool → Deed → Except AuthError (World Unit Bool) :=
  deedOn archivePlatform "archive"

theorem deed_table {platform : Platform Unit Bool Unit}
    (h : deedOn platform deployment world d = .ok world') :
    TableStep platform spelledNaming world world' := by
  cases d with
  | install keeps existing =>
    simp only [deedOn, error_bind, guard_eq_ok, bind_eq_ok,
      pure_eq_ok, Bool.not_eq_true', Bool.not_eq_false] at h
    obtain ⟨hadmits, changed, hinstall, rfl⟩ := h
    exact .write (.install (admitted_of_admits hadmits) hinstall)
  | provision name =>
    obtain ⟨store, hprovision, h⟩ := bind_eq_ok.mp h
    cases h
    exact .write (.provision hprovision)
  | plan =>
    simp only [deedOn, error_bind, guard_eq_ok, bind_eq_ok, pure_eq_ok, not_or, not_lt] at h
    obtain ⟨planned, hplan, ⟨hfresh, hlen⟩, rfl⟩ := h
    refine .plan ⟨?_, ?_, ?_⟩ hplan
    · intro _ _
      unfold archiveUlid
      split <;> exact ⟨by decide, by decide⟩
    · exact fun _ _ => hfresh
    · match planned.2.allocations, hlen with
      | [], _ => exact nodup_nil
      | [_], _ => exact nodup_singleton _
  | commit =>
    simp only [deedOn] at h
    split at h
    next made hmade =>
      obtain ⟨store, hcom, h⟩ := bind_eq_ok.mp h
      cases h
      exact .commit (mem_of_getLast? hmade) hcom
    · cases h

theorem deed_step (h : deed world d = .ok world') :
    NativeStep archivePlatform spelledNaming world world' :=
  .tables (deed_table h)

instance (platform : Platform Claims Evidence Edit) (store : Store Claims Evidence)
    (participantId : String) (revision : Nat) (kind : ResourceKind) (name : String) :
    Decidable (Declares platform store participantId revision kind name) :=
  decidable_of_iff ((revisionParticipant platform store participantId revision).toOption.any
    fun participant => participant.resourceIdentities.any fun row => row = (kind, name)) (by
      unfold Declares
      cases revisionParticipant platform store participantId revision <;>
        simp [Except.toOption])

instance (platform : Platform Claims Evidence Edit) (kind : ResourceKind)
    (store store' : Store Claims Evidence) : Decidable (Keeps platform kind store store') :=
  inferInstanceAs (Decidable (_ → _))

/-- A deed that drops no store a deployment lists. -/
def keptDeed (world : World Unit Bool) (d : Deed) : Except AuthError (World Unit Bool) := do
  let world' ← deed world d
  if ¬ Keeps archivePlatform .store world.store world'.store then .error .denied
  return world'

theorem keptDeed_step (h : keptDeed world d = .ok world') :
    NativeStep archivePlatform spelledNaming world world' ∧
      Keeps archivePlatform .store world.store world'.store := by
  simp only [keptDeed, bind_eq_ok, error_bind, guard_eq_ok, pure_eq_ok, not_not] at h
  obtain ⟨_, hdeed, hkeeps, rfl⟩ := h
  exact ⟨deed_step hdeed, hkeeps⟩

/-- A policy with no routes of its own. -/
def noRoutes : Routes := ⟨{}, by simp⟩

/-- The policy an instance of the archive gets in a world. -/
def archiveTransport (world : World Unit Bool) (name : String) :
    Except AuthError (NativeInstanceProjection Bool × TransportPatterns) := do
  let projection ← projectInstance archivePlatform world.store name 0
  let transport ← compileTransport archivePlatform projection true noRoutes []
  return (projection, transport)

/-- A row of an object store whose objects the policy grants. -/
def GrantsObjects (transport : TransportPatterns) (row : Resource) : Prop :=
  row.kind = .store ∧ Plain row.allocation.owned ∧
    ["$O", row.allocation.owned, ">"] ∈ transport.publish

instance (transport : TransportPatterns) (row : Resource) :
    Decidable (GrantsObjects transport row) :=
  inferInstanceAs (Decidable (_ ∧ _ ∧ _))

theorem GrantsObjects.permits (h : GrantsObjects transport row) :
    row.HasSubject spelledNaming ["$O", row.allocation.owned, "file"] ∧
      transport.Permits ["$O", row.allocation.owned, "file"] := by
  obtain ⟨hkind, hplain, hpat⟩ := h
  constructor
  · refine ⟨.objects row.allocation.owned, rfl, ?_⟩
    exact addressed_of_objects hkind (.inl rfl)
  · refine ⟨_, mem_append_left _ hpat, ?_⟩
    have hfront : ∀ token ∈ ["$O", row.allocation.owned], Plain token := by
      intro token htoken
      simp only [mem_cons, not_mem_nil, or_false] at htoken
      rcases htoken with rfl | rfl
      · decide
      · exact hplain
    have htoks : patternTokens ["$O", row.allocation.owned, ">"]
        = ["$O", row.allocation.owned].map Glob.Token.literal ++ [.greater] := by
      have hsplit := @split_dotted (["$O", row.allocation.owned] ++ [">"]) (by simp)
      show (Text.split '.' (dotted (["$O", row.allocation.owned] ++ [">"]))).map _ = _
      rw [hsplit, flatMap_append, map_append, literals_of_plain hfront]
      rfl
    rw [htoks]
    simp [Glob.Matches]

/-- An instance in the world of some deeds is granted the objects of such a row. -/
def archiveGrants (perform : World Unit Bool → Act → Except AuthError (World Unit Bool))
    (deeds : List Act) (name : String) (such : Resource → Bool) : Bool :=
  match deeds.foldlM perform (World.initial archivePolicy) with
  | .error _ => false
  | .ok world =>
    match archiveTransport world name with
    | .error _ => false
    | .ok (_, transport) => world.store.resources.any fun row =>
      such row ∧ GrantsObjects transport row

theorem archiveGrants_eq_true
    {perform : World Unit Bool → Act → Except AuthError (World Unit Bool)}
    (h : archiveGrants perform deeds name such = true) :
    ∃ world projection transport, deeds.foldlM perform (World.initial archivePolicy) = .ok world ∧
      projectInstance archivePlatform world.store name 0 = .ok projection ∧
      compileTransport archivePlatform projection true noRoutes [] = .ok transport ∧
      ∃ row ∈ world.store.resources, such row ∧ GrantsObjects transport row := by
  unfold archiveGrants at h
  split at h
  · cases h
  rename_i world hworld
  split at h
  · cases h
  rename_i projection transport hok
  obtain ⟨row, hrow, hgrants⟩ := any_eq_true.mp h
  obtain ⟨projection', hproj, hok⟩ := bind_eq_ok.mp hok
  obtain ⟨transport', htrans, hok⟩ := bind_eq_ok.mp hok
  obtain ⟨rfl, rfl⟩ := Prod.mk.inj (pure_eq_ok.mp hok)
  exact ⟨world, projection', transport', hworld, hproj, htrans, row, hrow,
    of_decide_eq_true hgrants⟩

/-- A new revision drops the store, and an instance of it may still write the objects. -/
theorem dropped_store_granted : DigestFaithful archivePlatform ∧ PlainNames archivePlatform ∧
      ∃ world : World Unit Bool, ReflTransGen (NativeStep archivePlatform spelledNaming)
          (World.initial archivePolicy) world ∧
        ∃ projection, projectInstance archivePlatform world.store "two" 0 = .ok projection ∧
          ∃ transport, compileTransport archivePlatform projection true noRoutes [] =
            .ok transport ∧
            ∃ row ∈ world.store.resources, ∃ subject, row.HasSubject spelledNaming subject ∧
              transport.Permits subject ∧ ¬ row.Attached := by
  refine ⟨archivePlatform_faithful, archivePlatform_plain, ?_⟩
  have hgrants : archiveGrants deed [.install true none, .provision "one", .plan, .commit,
      .install false (some "archive"), .provision "two"] "two" (·.state = .detached) = true := by
    decide +kernel
  obtain ⟨world, projection, transport, hdeeds, hprojection, htransport, row, hrow, hstate,
    hrowGrants⟩ := archiveGrants_eq_true hgrants
  have hrun : ReflTransGen (NativeStep archivePlatform spelledNaming)
      (World.initial archivePolicy) world :=
    Run.of_foldlM (f := deed) (fun _ _ _ h => deed_step h) hdeeds
  refine ⟨world, hrun, projection, hprojection, transport, htransport, row, hrow, _,
    hrowGrants.permits.1, hrowGrants.permits.2, ?_⟩
  exact fun hattached => hattached.1 (of_decide_eq_true hstate)

/-- After an upgrade that keeps the store a new instance is granted it, and it is covered. -/
theorem transport_covers_attached_archive :
    ∃ world : World Unit Bool, ∃ i ∈ world.store.instances, i.instanceId = "two" ∧
      ∃ b ∈ world.store.bindings, ∃ row ∈ world.store.resources, row.kind = .store ∧
        Covered archivePlatform world.store i b row := by
  have hgrants : archiveGrants keptDeed [.install true none, .provision "one", .plan, .commit,
      .install true (some "archive"), .provision "two"] "two" (·.state = .ready) = true := by
    decide +kernel
  obtain ⟨world, projection, transport, hdeeds, hprojection, htransport, row, hrow, -,
    hrowGrants⟩ := archiveGrants_eq_true hgrants
  have hrun : ReflTransGen (fun world world' =>
      NativeStep archivePlatform spelledNaming world world' ∧
        Keeps archivePlatform .store world.store world'.store)
      (World.initial archivePolicy) world :=
    Run.of_foldlM (f := keptDeed) (fun _ _ _ h => keptDeed_step h) hdeeds
  obtain ⟨i, hi, hid, b, hb, -, hcovered, -⟩ := transport_covers_attached archivePlatform_faithful
    archivePlatform_plain hrun hprojection htransport
  exact ⟨world, i, hi, hid, b, hb, row, hrow, hrowGrants.1,
    hcovered row hrow hrowGrants.1 _ hrowGrants.permits.1 hrowGrants.permits.2⟩

/-- The archive and an annex, each with a store and an instance. -/
def bothDeeds : List (String × Deed) :=
  [("archive", .install true none), ("annex", .install true none), ("archive", .provision "one"),
    ("annex", .provision "two"), ("archive", .plan), ("archive", .commit), ("annex", .plan),
    ("annex", .commit)]

def bothDeed (world : World Unit Bool) (d : String × Deed) : Except AuthError (World Unit Bool) :=
  deedOn archivePlatform d.1 world d.2

/-- The archive's instance may write to its own store and not to the annex's. -/
theorem deployments_kept_apart_archive : ∃ world : World Unit Bool,
    ∃ row ∈ world.store.resources, ∃ row' ∈ world.store.resources, ∃ projection transport,
      projectInstance archivePlatform world.store "one" 0 = .ok projection ∧
      compileTransport archivePlatform projection true noRoutes [] = .ok transport ∧
      ∃ subject subject', row.HasSubject spelledNaming subject ∧ transport.Permits subject ∧
        row'.HasSubject spelledNaming subject' ∧ ¬ row.HasSubject spelledNaming subject' ∧
        ¬ transport.Permits subject' := by
  have hone : archiveGrants bothDeed bothDeeds "one" (·.ownerId = "archive") = true := by
    decide +kernel
  have htwo : archiveGrants bothDeed bothDeeds "two" (·.ownerId = "annex") = true := by
    decide +kernel
  obtain ⟨world, projection, transport, hdeeds, hprojection, htransport, row, hrow, howner,
    hgrants⟩ := archiveGrants_eq_true hone
  obtain ⟨world', _, _, hdeeds', -, -, row', hrow', howner', hgrants'⟩ := archiveGrants_eq_true htwo
  obtain rfl := Except.ok.inj (hdeeds.symm.trans hdeeds')
  have hrun := Run.of_foldlM (f := bothDeed) (fun _ _ _ h => NativeStep.tables (deed_table h))
    hdeeds
  obtain ⟨hdisjoint, hown⟩ :=
    deployments_kept_apart archivePlatform_faithful archivePlatform_plain hrun
  obtain ⟨i, hi, -, hothers⟩ := hown _ _ _ _ _ _ _ hprojection htransport
  obtain ⟨hsubject, hpermits⟩ := hgrants.permits
  have hsubject' := hgrants'.permits.1
  have hne : row.ownerId ≠ row'.ownerId := by
    rw [of_decide_eq_true howner, of_decide_eq_true howner']
    decide
  refine ⟨world, row, hrow, row', hrow', projection, transport, hprojection, htransport, _, _,
    hsubject, hpermits, hsubject', ?_, ?_⟩
  · exact fun h => hne (by rw [hdisjoint row hrow row' hrow' _ h hsubject'])
  · intro h
    exact hne ((hothers row hrow _ hsubject hpermits).trans
      (hothers row' hrow' _ hsubject' h).symm)

/-- The archive and its first instance, deployed in one transaction. -/
theorem sound_of_transactions_archive : ∃ policy store,
    ReflTransGen (Transaction archivePlatform) (.initial policy) store ∧
      store.instances ≠ [] ∧ Sound archivePlatform store := by
  let policy := { archivePolicy with
    principals := [⟨"root", .user, .active, 1⟩], bootstrapAdministrators := ["root"] }
  have hrun := Relation.ReflTransGen.single (@Transaction.provisionDeployment _ _ _ archivePlatform
    (.initial policy) "root" ⟨true, "acme.archive", [], {}, none⟩ "one" "Archive"
    ⟨"archive", "one", "one"⟩ 0 _ (by unfold Unused; decide) rfl rfl)
  exact ⟨policy, _, hrun, by decide,
    sound_of_transactions archivePlatform_faithful hrun (.initial _ _)⟩

end Deployments
