/-
# Revoked grants and service updates

An applied update, submitted or approved, may grant only to the instance that submitted
it, and only what the new revision selects and the revision the instance ran did not.  The
part that moves the instance keeps to this.  The installation before it does not: it hands
the grant that event consumers need to every instance of the deployment again, revoked or
not.  So revoked grants survive an update exactly when nobody lacks that grant.
-/
import Trellis.Deployments.Updates

open Catalog Auth

namespace Deployments

open List Checked Except

variable {Claims Evidence Edit : Type} {store : Store Claims Evidence}
  {rows : List DirectCapability} {platform : Platform Claims Evidence Edit}

/-! ## Update requests -/

inductive UpdateRequest (Evidence : Type) where
  | submit (principal submitted : String) (evidence : Evidence) (updateId : String)
  | decide (actor updateId : String) (expectedRevision : Nat) (decision : Decision)
      (acknowledged : Option Bool) (fresh : FreshIds)

variable (platform)

def perform (store : Store Claims Evidence) (request : UpdateRequest Evidence) (now : Int) :
    Except AuthError (Store Claims Evidence × ServiceUpdate Evidence) :=
  match request with
  | .submit principal submitted evidence updateId =>
    Deployments.submit platform store principal submitted evidence updateId now
  | .decide actor updateId expectedRevision decision acknowledged fresh =>
    decideServiceUpdate platform store actor updateId expectedRevision decision acknowledged
      fresh now

/-- The build a request installs over a deployment, and the instance that submitted it. -/
structure Build (Evidence : Type) where
  (deploymentId instanceId : String)
  candidate : Candidate Evidence
  current : Installed

/-- The build of a submission or of a waiting update.  A claim's first update and an applied one
install nothing over a deployment. -/
def UpdateRequest.build (store : Store Claims Evidence) :
    UpdateRequest Evidence → Except AuthError (Build Evidence)
  | .submit principal _ evidence _ => do
      let i ← submittingInstance store principal
      let some d := store.deployments.find? fun row => row.deploymentId = i.deploymentId
        | .error .storage
      let candidate ← Candidate.compile platform evidence d.participantId
      let current ← installed platform store i.deploymentId
      return ⟨i.deploymentId, i.instanceId, candidate, current⟩
  | .decide _ updateId _ _ _ _ => do
      let update ← readUpdate store updateId
      if update.state ≠ .pending ∨ claimWaiting store update.deploymentId then .error .conflict
      else do
        let candidate ← Candidate.compile platform update.evidence update.participantId
        let current ← installed platform store update.deploymentId
        return ⟨update.deploymentId, update.instanceId, candidate, current⟩

/-! ## Survival -/

variable (rows) (principal) (id)

/-- The principal holds a direct grant of the capability. -/
def Holds : Prop :=
  ∃ row ∈ rows, row.principalId = principal ∧ row.capabilityId = id

instance : Decidable (Holds rows principal id) :=
  inferInstanceAs (Decidable (∃ row ∈ rows, _))

variable {rows principal id}

/-- The new revision selects the capability and the one the instance ran does not. -/
structure Adds (store store' : Store Claims Evidence) (deployment : String) (i : Instance)
    (id : CapabilityId) : Prop where
  selected : ∃ after next, installed platform store' deployment = .ok after ∧
    selectedCapabilities platform store' deployment after.revision = .ok next ∧ id ∈ next
  unselected : ∃ pinned,
    selectedCapabilities platform store deployment i.installedRevision = .ok pinned ∧ id ∉ pinned

/-- Only the submitting instance gets a grant it did not hold, of a capability the update adds; the
grants of all others are unchanged. -/
structure GrantsSurvive (store store' : Store Claims Evidence) (deployment instanceId : String) :
    Prop where
  added : ∀ i ∈ store.instances, ∀ id, ¬ Holds store.policy.directCapabilities i.principalId id →
    Holds store'.policy.directCapabilities i.principalId id →
    i.instanceId = instanceId ∧ Adds platform store store' deployment i id
  others : ∀ i ∈ store.instances, i.instanceId ≠ instanceId →
    grantsOf store'.policy.directCapabilities i.principalId
      = grantsOf store.policy.directCapabilities i.principalId

/-- Instances have their own IDs, principals and deployments, and an update is of its deployment's
participant. -/
structure Keyed (store : Store Claims Evidence) : Prop where
  instanceIds_nodup : (store.instances.map Instance.instanceId).Nodup
  principalIds_nodup : (store.instances.map Instance.principalId).Nodup
  principal : ∀ i ∈ store.instances,
    ∃ row ∈ store.policy.principals, row.principalId = i.principalId
  deployment : ∀ i ∈ store.instances, ∃ row ∈ store.deployments, row.deploymentId = i.deploymentId
  update : ∀ u ∈ store.updates, ∀ d ∈ store.deployments, d.deploymentId = u.deploymentId →
    u.participantId = d.participantId

/-- No instance lacks the grant the installation hands out, except perhaps the submitting one, when
the revision it runs does not select it. -/
def ConsumersHold (store : Store Claims Evidence) (build : Build Evidence) (now : Int) : Prop :=
  build.candidate.digest = build.current.digest ∨
    build.candidate.participant.declares .consumer = false ∨
    ∀ changed accepted authority,
      changes platform store build.deploymentId build.current build.candidate = .ok changed →
      acceptApis platform store build.candidate.graph changed.acceptedApis now = .ok accepted →
      capability accepted.policy.catalog consumerRuntimeCapability = .ok authority →
      ∀ i ∈ store.instances, i.deploymentId = build.deploymentId →
        if i.instanceId = build.instanceId then
          Holds store.policy.directCapabilities i.principalId consumerRuntimeCapability ∨ ∃ pinned,
              selectedCapabilities platform store build.deploymentId i.installedRevision
                = .ok pinned ∧ consumerRuntimeCapability ∉ pinned
        else HoldsAt store.policy.directCapabilities i.principalId authority

variable {platform}

/-- What a principal holds is read off its own grants. -/
theorem holds_iff_grantsOf :
    Holds rows principal id ↔ ∃ row ∈ grantsOf rows principal, row.capabilityId = id := by
  constructor
  · rintro ⟨row, hrow, hprin, hid⟩
    exact ⟨row, mem_filter.mpr ⟨hrow, decide_eq_true hprin⟩, hid⟩
  · rintro ⟨row, hrow, hid⟩
    obtain ⟨hrow, hprin⟩ := mem_filter.mp hrow
    exact ⟨row, hrow, of_decide_eq_true hprin, hid⟩

theorem HoldsAt.holds (h : HoldsAt rows principal authority) :
    Holds rows principal authority.capabilityId := by
  obtain ⟨row, hrow, hprin, hid, -⟩ := h
  exact ⟨row, hrow, hprin, hid⟩

/-- A store in which every instance keeps its grants survives. -/
theorem GrantsSurvive.of_grantsOf
    (h : ∀ i ∈ store.instances, grantsOf store'.policy.directCapabilities i.principalId
      = grantsOf store.policy.directCapabilities i.principalId) :
    GrantsSurvive platform store store' deployment instanceId where
  added := by
    intro i hi id hnot hholds
    rw [holds_iff_grantsOf, h i hi, ← holds_iff_grantsOf] at hholds
    exact absurd hholds hnot
  others := fun i hi _ => h i hi

/-! ## Moving the instance -/

/-- What moving an instance does to the grants of each instance. -/
structure Moves (platform : Platform Claims Evidence Edit) (store store' : Store Claims Evidence)
    (deployment instanceId : String) (revision : Nat) : Prop where
  others : ∀ i ∈ store.instances, i.instanceId ≠ instanceId →
    grantsOf store'.policy.directCapabilities i.principalId
      = grantsOf store.policy.directCapabilities i.principalId
  added : ∀ i ∈ store.instances, ∀ id, Holds store'.policy.directCapabilities i.principalId id →
    Holds store.policy.directCapabilities i.principalId id ∨
      (i.instanceId = instanceId ∧ i.installedRevision ≠ revision ∧ ∃ previous next,
          selectedCapabilities platform store deployment i.installedRevision = .ok previous ∧
          selectedCapabilities platform store deployment revision = .ok next ∧
          id ∈ next ∧ id ∉ previous)
  kept : ∀ principal id next,
    selectedCapabilities platform store deployment revision = .ok next → id ∈ next →
    Holds store.policy.directCapabilities principal id →
    Holds store'.policy.directCapabilities principal id

theorem moveInstance_moves (hids : (store.instances.map Instance.instanceId).Nodup)
    (hprins : (store.instances.map Instance.principalId).Nodup)
    (h : moveInstance platform store deployment instanceId revision = .ok store') :
    Moves platform store store' deployment instanceId revision := by
  obtain ⟨i, hi, ⟨-, rfl⟩ | ⟨hne, previous, next, d, rows, hprev, hnext, hrows, rfl⟩⟩ :=
    moveInstance_ok h
  · exact ⟨fun _ _ _ => rfl, fun _ _ _ h => .inl h, fun _ _ _ _ _ h => h⟩
  · have himem := mem_of_find?_eq_some hi
    have hiid := find?_some hi
    obtain ⟨authorities, hauths, rfl⟩ := addGrants_ok hrows
    refine ⟨?_, ?_, ?_⟩
    · intro j hj hjid
      have hother : j.principalId ≠ i.principalId := by
        intro heq
        have hij : j = i := inj_on_of_nodup_map hprins hj himem heq
        exact hjid (hij ▸ of_decide_eq_true hiid)
      refine (grantsOf_insertGrants ?_).trans ?_
      · intro grant hgrant hprin
        obtain ⟨authority, -, rfl⟩ := mem_map.mp hgrant
        exact absurd hprin.symm hother
      · unfold grantsOf withdrawGrants
        rw [filter_filter]
        refine filter_congr fun row _ => ?_
        by_cases hrow : row.principalId = j.principalId
        · simp [hrow, hother]
        · simp [hrow]
    · rintro j hj id ⟨row, hrow, hprin, rfl⟩
      rcases mem_insertGrants hrow with hrow | ⟨grant, hgrant, hgranted, hid, -⟩
      · exact .inl ⟨row, mem_withdrawGrants hrow, hprin, rfl⟩
      obtain ⟨authority, hauth, rfl⟩ := mem_map.mp hgrant
      have hij : j = i := inj_on_of_nodup_map hprins hj himem (hprin.symm.trans hgranted)
      subst hij
      obtain ⟨hnew, hold⟩ := hauths authority hauth
      rw [hid]
      exact .inr ⟨of_decide_eq_true hiid, hne, previous, next, hprev, hnext, hnew, hold⟩
    · rintro principal id next' hnext' hmem ⟨row, hrow, hprin, rfl⟩
      cases hnext.symm.trans hnext'
      refine ⟨row, subset_insertGrants _ _ _ (mem_filter.mpr ⟨hrow, ?_⟩), hprin, rfl⟩
      exact decide_eq_true fun hwithdrawn => hwithdrawn.2.2 hmem

theorem Moves.settle
    (h : Moves platform store store' deployment instanceId revision) (updateId : String)
    (state : UpdateState) :
    Moves platform store (settleUpdate store' updateId state) deployment instanceId revision :=
  ⟨h.others, h.added, h.kept⟩

/-! ## Applying an update -/

/-- Moving the instance after an installation that itself keeps to the rule. -/
theorem GrantsSurvive.of_moves
    {after : Installed} (hinsts : reinstalled.instances = store.instances)
    (hmoves : Moves platform reinstalled store' deployment instanceId after.revision)
    (hafter : installed platform store' deployment = .ok after)
    (hnext : selectedCapabilities platform store' deployment after.revision
      = selectedCapabilities platform reinstalled deployment after.revision)
    (hprevious : ∀ revision, revision ≠ after.revision →
      selectedCapabilities platform reinstalled deployment revision
        = selectedCapabilities platform store deployment revision)
    (hothers : ∀ i ∈ store.instances, i.instanceId ≠ instanceId →
      grantsOf reinstalled.policy.directCapabilities i.principalId
        = grantsOf store.policy.directCapabilities i.principalId)
    (hself : ∀ i ∈ store.instances, ∀ id, ¬ Holds store.policy.directCapabilities i.principalId id →
      Holds reinstalled.policy.directCapabilities i.principalId id →
      i.instanceId = instanceId ∧ Adds platform store store' deployment i id) :
    GrantsSurvive platform store store' deployment instanceId where
  added := by
    intro i hi id hnot hholds
    rcases hmoves.added i (hinsts ▸ hi) id hholds with hheld |
      ⟨hid, hrev, previous, next, hprev, hsel, hmem, hnotmem⟩
    · exact hself i hi id hnot hheld
    · rw [hprevious _ hrev] at hprev
      exact ⟨hid, ⟨after, next, hafter, hnext.trans hsel, hmem⟩, previous, hprev, hnotmem⟩
  others := by
    intro i hi hid
    exact (hmoves.others i (hinsts ▸ hi) hid).trans (hothers i hi hid)

theorem consumer_mem_selectedOf (h : participant.declares .consumer = true) :
    consumerRuntimeCapability ∈ selectedOf participant := by
  apply mem_append_right _
  unfold impliedCapabilities
  rw [h]
  simp

/-- An applied update survives exactly when nobody lacks the grant its installation hands out. -/
theorem applyUpdate_survives_iff (hstore : Consistent platform store)
    (hids : (store.instances.map Instance.instanceId).Nodup)
    (hprins : (store.instances.map Instance.principalId).Nodup)
    (hupd : readUpdate store updateId = .ok update)
    (hd : store.deployments.find? (fun row => row.deploymentId = update.deploymentId) = some d)
    (hcand : Candidate.compile platform evidence d.participantId = .ok candidate)
    (hcur : installed platform store update.deploymentId = .ok current)
    (hchg : candidate.digest ≠ current.digest →
      changes platform store update.deploymentId current candidate = .ok changed)
    (h : applyUpdate platform store actor updateId candidate changed current now = .ok store') :
    GrantsSurvive platform store store' update.deploymentId update.instanceId ↔
      ConsumersHold platform store ⟨update.deploymentId, update.instanceId, candidate, current⟩
        now := by
  obtain ⟨row, reinstalled, after, moved, hrow, hrein, hafter, hmoved, rfl⟩ := applyUpdate_ok h
  obtain rfl := ok.inj (hrow.symm.trans hupd)
  obtain ⟨hdeps, hbinds, hinst, -⟩ := moveInstance_frame hmoved
  have hafter' : installed platform (settleUpdate moved updateId .applied) row.deploymentId
      = .ok after :=
    (installed_congr hdeps hbinds hinst row.deploymentId).trans hafter
  have hnext : selectedCapabilities platform (settleUpdate moved updateId .applied)
      row.deploymentId after.revision
      = selectedCapabilities platform reinstalled row.deploymentId after.revision := by
    simp only [selectedCapabilities, revisionParticipant, settleUpdate, hdeps, hinst]
  by_cases hdig : candidate.digest = current.digest
  · -- nothing is installed
    unfold reinstall at hrein
    rw [if_pos hdig] at hrein
    cases hrein
    refine ⟨fun _ => .inl hdig, fun _ => ?_⟩
    exact .of_moves rfl ((moveInstance_moves hids hprins hmoved).settle updateId .applied)
      hafter' hnext (fun _ _ => rfl) (fun _ _ _ => rfl)
      (fun _ _ _ hnot hholds => absurd hholds hnot)
  · have hre := reinstall_ok hstore hcand hcur hdig hrein
    obtain ⟨-, hid, hkind, -⟩ := Candidate.compile_ok hcand
    obtain ⟨hrev, -, -, hsel⟩ := hre.installed_after hd hcand hafter
    have hmoves : Moves platform reinstalled (settleUpdate moved updateId .applied)
        row.deploymentId row.instanceId after.revision := by
      refine (moveInstance_moves ?_ ?_ hmoved).settle updateId .applied
      · rw [hre.instances]; exact hids
      · rw [hre.instances]; exact hprins
    have hprev : ∀ revision, revision ≠ after.revision →
        selectedCapabilities platform reinstalled row.deploymentId revision
          = selectedCapabilities platform store row.deploymentId revision := by
      intro revision hne
      unfold selectedCapabilities
      rw [hre.deployments, hd]
      unfold revisionParticipant installedEvidence
      dsimp only
      rw [hre.revisions, find?_append, find?_cons_of_neg, find?_nil, Option.or_none]
      rw [decide_eq_true_eq, hid, ← hrev]
      exact fun hnew => hne hnew.2.symm
    obtain ⟨accepted, rows, hacc, hrows, hpolicy⟩ := hre.accepted
    rcases grantConsumers_ok hrows with ⟨hnone, rfl⟩ | ⟨⟨-, hcons⟩, authority, hauth, rfl⟩
    · -- the build has no event consumer
      have hdecl : candidate.participant.declares .consumer = false :=
        Bool.eq_false_iff.mpr fun hcons => hnone ⟨hkind, hcons⟩
      refine ⟨fun _ => .inr (.inl hdecl), fun _ => ?_⟩
      refine .of_moves hre.instances hmoves hafter' hnext hprev ?_ ?_
      · intro i _ _
        rw [hpolicy]
      · intro i _ id hnot hholds
        rw [hpolicy] at hholds
        exact absurd hholds hnot
    · have hauthorityId := capability_capabilityId hauth
      have hin : consumerRuntimeCapability ∈ selectedOf candidate.participant :=
        consumer_mem_selectedOf hcons
      -- every instance of the deployment holds the grant once the build is installed
      have hholds : ∀ i ∈ store.instances, i.deploymentId = row.deploymentId →
          HoldsAt reinstalled.policy.directCapabilities i.principalId authority := by
        intro i hi hdep
        rw [hpolicy]
        have hmem : i.principalId ∈ instancePrincipals store.instances row.deploymentId :=
          mem_instancePrincipals.mpr ⟨i, hi, hdep, rfl⟩
        exact holdsAt_insertGrants (mem_map.mpr ⟨_, hmem, rfl⟩) _
      constructor
      · intro hsurvive
        refine .inr (.inr ?_)
        intro changed' accepted' authority' hchg' hacc' hauth' i hi hdep
        cases (hchg hdig).symm.trans hchg'
        cases hacc.symm.trans hacc'
        cases hauth.symm.trans hauth'
        split
        · by_cases hheld : Holds store.policy.directCapabilities i.principalId
              consumerRuntimeCapability
          · exact .inl hheld
          · have hafterwards := hmoves.kept i.principalId _ _ hsel hin
              (hauthorityId ▸ (hholds i hi hdep).holds)
            exact .inr (hsurvive.added i hi _ hheld hafterwards).2.unselected
        next hother =>
          have hsame := hmoves.others i (hre.instances ▸ hi) hother
          obtain ⟨held, hheld, hprin, hkey⟩ := hholds i hi hdep
          have hmem : held ∈ grantsOf _ i.principalId :=
            mem_filter.mpr ⟨hheld, decide_eq_true hprin⟩
          rw [← hsame, hsurvive.others i hi hother] at hmem
          exact ⟨held, (mem_filter.mp hmem).1, hprin, hkey⟩
      · intro hcondition
        rcases hcondition with hcondition | hcondition | hcondition
        · exact absurd hcondition hdig
        · rw [hcons] at hcondition
          cases hcondition
        have hcond := hcondition _ _ _ (hchg hdig) hacc hauth
        refine .of_moves hre.instances hmoves hafter' hnext hprev ?_ ?_
        · intro i hi hother
          rw [hpolicy]
          apply grantsOf_insertGrants
          intro grant hgrant hprin
          obtain ⟨principal, hmem, rfl⟩ := mem_map.mp hgrant
          obtain ⟨j, hj, hdep, hjprincipal⟩ := mem_instancePrincipals.mp hmem
          have hij : j = i := inj_on_of_nodup_map hprins hj hi (hjprincipal.trans hprin)
          subst hij
          have hheld := hcond j hj hdep
          rwa [if_neg hother] at hheld
        · rintro i hi id hnot ⟨grant, hgrant, hprin, rfl⟩
          rw [hpolicy] at hgrant
          rcases mem_insertGrants hgrant with hold | ⟨added, hadded, hto, hgranted, hgen⟩
          · exact absurd ⟨grant, hold, hprin, rfl⟩ hnot
          obtain ⟨principal, hmem, rfl⟩ := mem_map.mp hadded
          obtain ⟨j, hj, hdep, hjprincipal⟩ := mem_instancePrincipals.mp hmem
          have hij : j = i := inj_on_of_nodup_map hprins hj hi
            ((hjprincipal.trans hto.symm).trans hprin)
          subst hij
          have hcap : grant.capabilityId = consumerRuntimeCapability := hgranted.trans hauthorityId
          have hheld := hcond j hj hdep
          split at hheld
          next hself =>
            rw [hcap] at hnot ⊢
            rcases hheld with hheld | hpinned
            · exact absurd hheld hnot
            · exact ⟨hself, ⟨after, _, hafter', hnext.trans hsel, hin⟩, hpinned⟩
          · refine absurd ?_ hnot
            rw [hgranted]
            exact hheld.holds

/-! ## Claims and submissions -/

theorem insertUnique_ok {rows rows' : List α} (h : insertUnique rows sameKey new = .ok rows') :
    (∀ row ∈ rows, sameKey row = false) ∧ rows' = rows ++ [new] := by
  obtain ⟨hfresh, h⟩ := guard_eq_ok.mp h
  refine ⟨?_, (ok.inj h).symm⟩
  intro row hrow
  exact Bool.eq_false_iff.mpr fun hkey => hfresh (any_eq_true.mpr ⟨row, hrow, hkey⟩)

/-- The grants of a provisioned instance go to its own principal. -/
theorem grantsOf_insertNewGrants (hne : other ≠ principal) {authorities : List CapabilityAuthority}
    (h : authorities.foldlM (insertNewGrant principal expiresAt) rows = .ok rows') :
    grantsOf rows' other = grantsOf rows other := by
  induction authorities generalizing rows with
  | nil => rw [ok.inj h]
  | cons authority rest ih =>
    obtain ⟨middle, hmiddle, h⟩ := bind_eq_ok.mp h
    obtain ⟨-, rfl⟩ := insertUnique_ok hmiddle
    have hnew : decide (principal = other) = false := decide_eq_false hne.symm
    rw [ih h, grantsOf, filter_append, filter_singleton, hnew, cond_false, append_nil, grantsOf]

/-- The tables a provisioned instance leaves. -/
theorem provisionInstance_ok
    (h : provisionInstance platform store deployment publicKey title principalId instanceId now
      = .ok store') : ∃ d b state rows identities, boundDeployment store deployment = some (d, b) ∧
      (∀ p ∈ store.policy.principals, p.principalId ≠ principalId) ∧
      (∀ i ∈ store.instances, i.instanceId ≠ instanceId) ∧
      (∃ authorities : List CapabilityAuthority,
        authorities.foldlM (insertNewGrant principalId d.expiresAt) store.policy.directCapabilities
          = .ok rows) ∧
      store' = { store with
        policy := { store.policy with
          principals := store.policy.principals ++
            [⟨principalId, d.participantKind.principalKind, .active, 1⟩]
          directCapabilities := rows }
        instances := store.instances ++
          [⟨instanceId, deployment, principalId, b.installedRevision, state⟩]
        identities } := by
  obtain ⟨-, h⟩ := guard_eq_ok.mp h
  obtain ⟨key, -, h⟩ := bind_eq_ok.mp h
  split at h
  next d b hbound =>
    obtain ⟨evidence, -, h⟩ := bind_eq_ok.mp h
    obtain ⟨graph, -, h⟩ := bind_eq_ok.mp h
    simp only [error_bind, guard_eq_ok, bind_eq_ok, pure_eq_ok] at h
    obtain ⟨-, principals, hprins, state, -, instances, hinsts, -, -, authorities, -, rows,
      hrows, rfl⟩ := h
    obtain ⟨hnew, rfl⟩ := insertUnique_ok hprins
    obtain ⟨hnew', rfl⟩ := insertUnique_ok hinsts
    refine ⟨d, b, state, rows, _, (Option.filter_eq_some_iff.mp hbound).1, ?_, ?_,
      ⟨authorities, hrows⟩, rfl⟩
    · exact fun p hp => of_decide_eq_false (hnew p hp)
    · exact fun i hi => of_decide_eq_false (hnew' i hi)
  · cases h

/-- Approving a claim leaves the grants of every instance there was as they were. -/
theorem approveClaim_grants (hkeys : Keyed store)
    (h : approveClaim platform store actor acknowledged claim updateId candidate fresh now
      = .ok store') (hi : i ∈ store.instances) :
    grantsOf store'.policy.directCapabilities i.principalId
      = grantsOf store.policy.directCapabilities i.principalId := by
  obtain ⟨changed, -, h⟩ := bind_eq_ok.mp h
  obtain ⟨-, -, h⟩ := bind_eq_ok.mp h
  split at h
  · obtain ⟨accepted, hacc, h⟩ := bind_eq_ok.mp h
    obtain ⟨input, -, h⟩ := bind_eq_ok.mp h
    obtain ⟨⟨created, deployment⟩, hnew, h⟩ := bind_eq_ok.mp h
    obtain ⟨provisioned, hprov, h⟩ := bind_eq_ok.mp h
    cases h
    obtain ⟨catalog, reviews, rfl⟩ := acceptApis_ok hacc
    obtain ⟨-, plan, -, hins⟩ := installDeployment_ok hnew
    obtain ⟨rows, hrows, hpolicy⟩ := hins.grants
    -- the deployment is new, so no instance runs on it yet
    have hnobody : instancePrincipals store.instances deployment = [] := by
      rw [eq_nil_iff_forall_not_mem]
      intro principal hmem
      obtain ⟨j, hj, hdep, -⟩ := mem_instancePrincipals.mp hmem
      obtain ⟨row, hrow, hid⟩ := hkeys.deployment j hj
      obtain ⟨new, -, -, hfresh⟩ := hins.deployments
      exact (hfresh rfl).1 row hrow (hid.trans hdep)
    have hsame : rows = store.policy.directCapabilities := by
      rcases grantConsumers_ok hrows with ⟨-, rfl⟩ | ⟨-, authority, -, rfl⟩
      · rfl
      · rw [hnobody]
        rfl
    have hprin : ∃ row ∈ created.policy.principals, row.principalId = i.principalId := by
      rw [hpolicy]
      exact hkeys.principal i hi
    obtain ⟨_, _, _, granted, _, -, hfree, -, ⟨authorities, hgranted⟩, rfl⟩ :=
      provisionInstance_ok hprov
    obtain ⟨row, hrow, hid⟩ := hprin
    rw [hpolicy, hsame] at hgranted
    exact grantsOf_insertNewGrants (hid ▸ hfree row hrow) hgranted
  · cases h

/-- Accepting APIs does not look at the updates. -/
theorem acceptApis_updates (platform : Platform Claims Evidence Edit) (graph : PackageGraph)
    (now : Int) (store : Store Claims Evidence) (updates : List (ServiceUpdate Evidence))
    (apis : List ApiId) : acceptApis platform { store with updates } graph apis now
      = (acceptApis platform store graph apis now).map fun s => { s with updates } := by
  unfold acceptApis
  induction apis generalizing store with
  | nil => rfl
  | cons api rest ih =>
    rw [foldlM_cons, foldlM_cons, acceptOne, acceptOne]
    cases graph.resolveApi api with
    | error e => rfl
    | ok definition =>
      rw [ok_bind, ok_bind]
      cases reviewApi platform.catalog
          ⟨store.policy.catalog, store.reviews, (store.policy, store.bindings)⟩ definition api
          now with
      | error e => rfl
      | ok reviewed =>
        obtain ⟨middle, review⟩ := reviewed
        rw [ok_bind, ok_bind]
        dsimp only
        cases acceptApi platform.catalog middle
            ⟨review.reviewId, review.definitionDigest, false, false, false, [], []⟩ now with
        | error e => rfl
        | ok accepted =>
          exact ih { store with
            policy := { store.policy with catalog := accepted.1.tables }
            reviews := accepted.1.reviews }

theorem consumersHold_updates : ConsumersHold platform { store with updates } build now ↔
      ConsumersHold platform store build now := by
  refine or_congr Iff.rfl (or_congr Iff.rfl ?_)
  constructor
  · intro h changed accepted authority hchg hacc hauth
    refine h changed { accepted with updates } authority hchg ?_ hauth
    rw [acceptApis_updates, hacc]
    rfl
  · intro h changed accepted authority hchg hacc hauth
    rw [acceptApis_updates] at hacc
    cases hstore : acceptApis platform store build.candidate.graph changed.acceptedApis now with
    | error e =>
      rw [hstore] at hacc
      cases hacc
    | ok middle =>
      rw [hstore] at hacc
      cases hacc
      exact h changed middle authority hchg hstore hauth

theorem GrantsSurvive.of_updates
    (h : GrantsSurvive platform { store with updates } store' deployment instanceId) :
    GrantsSurvive platform { store with updates := updates' } store' deployment instanceId where
  added := by
    intro i hi id hnot hholds
    obtain ⟨hid, hadds⟩ := h.added i hi id hnot hholds
    exact ⟨hid, hadds.selected, hadds.unselected⟩
  others := h.others

/-- The ways a decision can go. -/
theorem decideServiceUpdate_ok
    (h : decideServiceUpdate platform store actor updateId expectedRevision decision acknowledged
      fresh now = .ok (store', update)) : ∃ pending, readUpdate store updateId = .ok pending ∧
      ((pending.state ≠ .pending ∧ store' = store) ∨
        pending.state = .pending ∧ readUpdate store' updateId = .ok update ∧
          ((∃ state ≠ .applied, store' = settleUpdate store updateId state) ∨
          (claimWaiting store pending.deploymentId = true ∧ ∃ candidate,
            Candidate.compile platform pending.evidence pending.participantId = .ok candidate ∧
            approveClaim platform store actor acknowledged pending.deploymentId updateId candidate
              fresh now = .ok store') ∨
          claimWaiting store pending.deploymentId = false ∧ ∃ candidate current changed,
            Candidate.compile platform pending.evidence pending.participantId = .ok candidate ∧
            installed platform store pending.deploymentId = .ok current ∧
            changes platform store pending.deploymentId current candidate = .ok changed ∧
            applyUpdate platform store actor updateId candidate changed current now
              = .ok store')) := by
  obtain ⟨-, -, h⟩ := bind_eq_ok.mp h
  obtain ⟨pending, hpend, h⟩ := bind_eq_ok.mp h
  obtain rfl : pending.updateId = updateId := (of_find? (readUpdate_ok.mp hpend) :)
  refine ⟨pending, hpend, ?_⟩
  split at h
  next hretry =>
    cases h
    refine .inl ⟨?_, rfl⟩
    rw [hretry.1]
    nofun
  · obtain ⟨hstate, h⟩ := guard_eq_ok.mp h
    obtain ⟨final, hfinal, h⟩ := bind_eq_ok.mp h
    obtain ⟨found, hfound, h⟩ := bind_eq_ok.mp h
    cases h
    refine .inr ⟨not_not.mp (not_or.mp hstate).1, hfound, ?_⟩
    unfold decidePending at hfinal
    split at hfinal
    next hwait =>
      split at hfinal
      · obtain ⟨candidate, hcand, hfinal⟩ := bind_eq_ok.mp hfinal
        exact .inr (.inl ⟨hwait, candidate, hcand, hfinal⟩)
      next hrej =>
        unfold decideInstalled at hfinal
        rw [if_neg (fun h => h.2 rfl), if_neg hrej] at hfinal
        exact .inl ⟨.rejected, nofun, (ok.inj hfinal).symm⟩
    next hwait =>
      obtain ⟨current, hcur, hfinal⟩ := bind_eq_ok.mp hfinal
      unfold decideInstalled at hfinal
      split at hfinal
      · exact .inl ⟨.superseded, nofun, (ok.inj hfinal).symm⟩
      split at hfinal
      · obtain ⟨candidate, hcand, hfinal⟩ := bind_eq_ok.mp hfinal
        obtain ⟨changed, hchg, hfinal⟩ := bind_eq_ok.mp hfinal
        obtain ⟨-, -, hfinal⟩ := bind_eq_ok.mp hfinal
        obtain ⟨-, -, hfinal⟩ := bind_eq_ok.mp hfinal
        exact .inr (.inr ⟨Bool.eq_false_iff.mpr hwait, candidate, current, changed, hcand, hcur,
          hchg, hfinal⟩)
      · exact .inl ⟨.rejected, nofun, (ok.inj hfinal).symm⟩

/-! ## Requests -/

theorem submit_survives_iff (hstore : Consistent platform store) (hkeys : Keyed store)
    (h : submit platform store principal submitted evidence updateId now = .ok (store', update))
    (happ : update.state = .applied) :
    ∃ build, (UpdateRequest.submit principal submitted evidence updateId).build platform store
        = .ok build ∧
      (GrantsSurvive platform store store' update.deploymentId update.instanceId ↔
        ConsumersHold platform store build now) := by
  obtain ⟨hwaits, -⟩ | ⟨i, d, candidate, current, changed, recorded, hi, hd, hcand, hcur, hchg, -,
    hrecd, happly, hupd⟩ := submit_ok h
  · cases hwaits.symm.trans happ
  refine ⟨⟨i.deploymentId, i.instanceId, candidate, current⟩, ?_, ?_⟩
  · dsimp only [UpdateRequest.build]
    rw [hi, ok_bind, hd]
    show (Candidate.compile platform evidence d.participantId >>= _) = _
    rw [hcand, hcur]
    rfl
  · obtain ⟨updates, rfl, hfind⟩ := recordUpdate_ok hrecd
    have hpend : readUpdate { store with updates } updateId = .ok _ := readUpdate_ok.mpr hfind
    cases hupd.symm.trans (applyUpdate_update happly hpend)
    have hconsistent : Consistent platform { store with updates } := hstore.congr rfl rfl rfl
    have hcompared : candidate.digest ≠ current.digest →
        changes platform { store with updates } i.deploymentId current candidate = .ok changed := by
      intro hdig
      unfold submittedChanges at hchg
      rw [if_neg hdig] at hchg
      exact hchg
    have hiff := applyUpdate_survives_iff hconsistent hkeys.instanceIds_nodup
      hkeys.principalIds_nodup hpend hd hcand hcur hcompared happly
    rw [consumersHold_updates] at hiff
    exact ⟨fun h => hiff.mp h.of_updates, fun h => (hiff.mpr h).of_updates⟩

/-- **Revoked grants survive service updates** exactly when no instance of the deployment lacks the
grant for event consumers that the build hands out.  Requests that install nothing over a deployment
always keep to it. -/
theorem grants_survive_iff (platform : Platform Claims Evidence Edit)
    (store store' : Store Claims Evidence) (request : UpdateRequest Evidence) (now : Int)
    (update : ServiceUpdate Evidence) (hstore : Consistent platform store) (hkeys : Keyed store)
    (h : perform platform store request now = .ok (store', update))
    (happlied : update.state = .applied) :
    GrantsSurvive platform store store' update.deploymentId update.instanceId ↔
      ∀ build, request.build platform store = .ok build →
        ConsumersHold platform store build now := by
  -- a request without a build changes nobody's grants
  have hframe {e} (hnone : request.build platform store = .error e) :
      ∀ build, request.build platform store = .ok build →
        ConsumersHold platform store build now := by
    intro build hbuild
    rw [hnone] at hbuild
    cases hbuild
  -- and one with a build is judged by it
  have hbuilt {build} (hbuild : request.build platform store = .ok build) :
      ConsumersHold platform store build now ↔ ∀ build, request.build platform store = .ok build →
        ConsumersHold platform store build now := by
    refine ⟨fun hhold build' hbuild' => ?_, fun hhold => hhold build hbuild⟩
    exact ok.inj (hbuild.symm.trans hbuild') ▸ hhold
  cases request with
  | submit principal submitted evidence updateId =>
    obtain ⟨build, hbuild, hiff⟩ := submit_survives_iff hstore hkeys h happlied
    exact hiff.trans (hbuilt hbuild)
  | decide actor updateId expectedRevision decision acknowledged fresh =>
    obtain ⟨pending, hpending, ⟨hdecided, rfl⟩ | ⟨hstate, hupdate, ⟨state, hne, rfl⟩ |
      ⟨hwaiting, candidate, -, happroved⟩ | ⟨hwaiting, candidate, current, changed, hcandidate,
        hcurrent, hchanged, happly⟩⟩⟩ := decideServiceUpdate_ok h
    · refine ⟨fun _ => hframe (e := .conflict) ?_, fun _ => .of_grantsOf fun _ _ => rfl⟩
      dsimp only [UpdateRequest.build]
      rw [hpending, ok_bind, if_pos (.inl hdecided)]
    · -- an update that is settled otherwise does not read back as applied
      rw [readUpdate_settleUpdate hpending] at hupdate
      cases hupdate
      exact absurd happlied hne
    · refine ⟨fun _ => hframe (e := .conflict) ?_, fun _ => .of_grantsOf fun _ hi =>
        approveClaim_grants hkeys happroved hi⟩
      dsimp only [UpdateRequest.build]
      rw [hpending, ok_bind, if_pos (.inr hwaiting)]
    · have hjudged := @hbuilt ⟨pending.deploymentId, pending.instanceId, candidate, current⟩ ?_
      · refine .trans ?_ hjudged
        have hfind := readUpdate_ok.mp hpending
        cases hupdate.symm.trans (applyUpdate_update happly hpending)
        obtain ⟨d, b, -, hbound, -⟩ := installed_ok hcurrent
        have hd := (boundDeployment_eq_some.mp hbound).1
        have hparticipant := hkeys.update pending (mem_of_find?_eq_some hfind) d
          (mem_of_find?_eq_some hd) (of_find? hd :)
        rw [hparticipant] at hcandidate
        have hiff := applyUpdate_survives_iff hstore hkeys.instanceIds_nodup
          hkeys.principalIds_nodup hpending hd hcandidate hcurrent (fun _ => hchanged) happly
        exact hiff
      · dsimp only [UpdateRequest.build]
        rw [hpending, ok_bind, if_neg, hcandidate, hcurrent]
        · rfl
        · rintro (hnot | hclaim)
          · exact hnot hstate
          · rw [hwaiting] at hclaim
            cases hclaim

theorem clockStore_keyed : Keyed (clockStore grants) where
  instanceIds_nodup := (by decide : ["one", "two"].Nodup)
  principalIds_nodup := (by decide : ["first", "second"].Nodup)
  principal := (by decide : ∀ i ∈ (clockStore []).instances,
    ∃ row ∈ (clockStore []).policy.principals, row.principalId = i.principalId)
  deployment := (by decide : ∀ i ∈ (clockStore []).instances,
    ∃ row ∈ (clockStore []).deployments, row.deploymentId = i.deploymentId)
  update := fun _ hu => absurd hu not_mem_nil

/-- The second instance lacks the grant for event consumers; an update of the first gives it back.
-/
theorem grants_survive_fails :
    ∃ (store store' : Store Unit Participant) (update : ServiceUpdate Participant),
      Consistent clockPlatform store ∧ Keyed store ∧
      perform clockPlatform store (.submit "first" "acme.clock" (clock []) "update") 10
        = .ok (store', update) ∧
      update.state = .applied ∧
      ¬ Holds store.policy.directCapabilities "second" consumerRuntimeCapability ∧
      Holds store'.policy.directCapabilities "second" consumerRuntimeCapability ∧
      ¬ GrantsSurvive clockPlatform store store' update.deploymentId update.instanceId := by
  refine ⟨clockStore [⟨"first", consumerRuntimeCapability, 1, 1, none⟩], _, _,
    clockStore_consistent _, clockStore_keyed, rfl, rfl, by decide, by decide, ?_⟩
  intro hsurvive
  have hsame := hsurvive.others ⟨"two", "clocks", "second", 1, .active⟩ (by decide) (by decide)
  revert hsame
  decide

/-- While both instances hold it, the update of the first one changes nobody else. -/
theorem grants_survive_clock :
    ∃ (store' : Store Unit Participant) (update : ServiceUpdate Participant),
      perform clockPlatform (clockStore [⟨"first", consumerRuntimeCapability, 1, 1, none⟩,
          ⟨"second", consumerRuntimeCapability, 1, 1, none⟩])
        (.submit "first" "acme.clock" (clock []) "update") 10 = .ok (store', update) ∧
      GrantsSurvive clockPlatform (clockStore [⟨"first", consumerRuntimeCapability, 1, 1, none⟩,
          ⟨"second", consumerRuntimeCapability, 1, 1, none⟩]) store' update.deploymentId
        update.instanceId := by
  refine ⟨_, _, rfl, ?_⟩
  apply (grants_survive_iff clockPlatform _ _ (.submit "first" "acme.clock" (clock []) "update") 10
    _ (clockStore_consistent _) clockStore_keyed rfl rfl).mpr
  intro build hbuild
  cases hbuild
  refine .inr (.inr ?_)
  intro changed accepted authority hchanged haccepted hauthority
  cases hchanged
  cases haccepted
  cases hauthority
  intro i hi _
  rcases mem_pair.mp hi with rfl | rfl
  · exact .inl (by decide)
  · show HoldsAt _ "second" ⟨consumerRuntimeCapability, 1, 1⟩
    decide

end Deployments
