/-
# Updates that apply without a decision

An update a service submits for itself installs at once only when it asks for nothing the
deployment's installed revision did not have.  The approval test compares the candidate
with the deployment's binding; the grants are computed from the revisions themselves, the
instance's own and the new one.  In a consistent store the two agree, so nothing an
administrator did not see is granted, provided or declared.
-/
import Trellis.Deployments.Updates

open Catalog Auth

namespace Deployments

open List Checked

variable {Claims Evidence Edit : Type}

/-! ## Candidates within what is installed -/

/-- A redeclared resource that asks for no more: the same limits and no new event. -/
def Within (old new : ResourceDefinition) : Prop :=
  match old.body, new.body with
  | .kv _ history ttlMs maxValue, .kv _ history' ttlMs' maxValue' =>
    history' = history ∧ ttlMs' = ttlMs ∧ maxValue' = maxValue
  | .store ttlMs maxObject maxTotal, .store ttlMs' maxObject' maxTotal' =>
    ttlMs' = ttlMs ∧ maxObject' = maxObject ∧ maxTotal' = maxTotal
  | .consumer events, .consumer events' => events' ⊆ events
  | .state _, .state _ => True
  | .job .., .job .. => True
  | _, _ => False

theorem within_of_not_grows (h : resourceGrows old new = false) : Within old new := by
  obtain ⟨_, old⟩ := old
  obtain ⟨_, new⟩ := new
  cases old with
  | state =>
    cases new with
    | state => trivial
    | _ => cases h
  | kv _ history ttlMs maxValue =>
    cases new with
    | kv _ history' ttlMs' maxValue' =>
      have heq := not_not.mp (of_decide_eq_false h)
      obtain ⟨rfl, rfl, rfl⟩ : history = history' ∧ ttlMs = ttlMs' ∧ maxValue = maxValue' := by
        simpa using heq
      exact ⟨rfl, rfl, rfl⟩
    | _ => cases h
  | store ttlMs maxObject maxTotal =>
    cases new with
    | store ttlMs' maxObject' maxTotal' =>
      have heq := not_not.mp (of_decide_eq_false h)
      obtain ⟨rfl, rfl, rfl⟩ : ttlMs = ttlMs' ∧ maxObject = maxObject' ∧ maxTotal = maxTotal' := by
        simpa using heq
      exact ⟨rfl, rfl, rfl⟩
    | _ => cases h
  | job =>
    cases new with
    | job => trivial
    | _ => cases h
  | consumer events =>
    cases new with
    | consumer events' =>
      intro event hevent
      have hall : (events'.all fun event => event ∈ events) = true := by
        simpa [resourceGrows] using h
      exact of_decide_eq_true (all_eq_true.mp hall event hevent)
    | _ => cases h

theorem Within.kind_eq (h : Within old new) : new.kind = old.kind := by
  obtain ⟨_, old⟩ := old
  obtain ⟨_, new⟩ := new
  cases old <;> cases new <;> first | rfl | exact h.elim

/-- Changes that request no access stay within what is installed. -/
theorem changes_within (h : changes platform store deployment current candidate = .ok changed)
    (hreqs : requestsAccess changed = false) :
    (∀ id ∈ candidate.participant.required ++ candidate.participant.optional,
      id ∈ current.capabilities) ∧
    (∀ entry ∈ candidate.participant.keyedResources, ∃ old,
      (entry.1, old) ∈ current.resources ∧ Within old entry.2) ∧
    ∀ api ∈ candidate.participant.implements, api ∈ current.apis := by
  obtain ⟨acceptedApis, -, h⟩ := bind_eq_ok.mp h
  cases h
  unfold requestsAccess at hreqs
  simp only [Bool.or_eq_false_iff, decide_eq_false_iff_not, not_not, filter_eq_nil_iff,
    map_eq_nil_iff, decide_eq_true_eq] at hreqs
  obtain ⟨⟨⟨⟨⟨hcaps, hadded⟩, hreattached⟩, hchg⟩, hapis⟩, -⟩ := hreqs
  refine ⟨hcaps, ?_, hapis⟩
  intro entry hentry
  cases hprev : current.resources.find? fun row => row.1 = entry.1 with
  | none =>
    -- an undeclared resource is either added or reattached
    have hundeclared : entry.1 ∈ (candidate.participant.keyedResources.filter fun entry =>
        ((current.resources.find? fun row => row.1 = entry.1).map Prod.snd).isNone).map
          Prod.fst :=
      mem_map.mpr ⟨entry, mem_filter.mpr ⟨hentry, by rw [hprev]; rfl⟩, rfl⟩
    exact absurd (hadded entry.1 hundeclared) (hreattached entry.1 hundeclared)
  | some found =>
    have hkey := find?_some hprev
    have hgrows := hchg entry hentry
    rw [hprev] at hgrows
    refine ⟨found.2, ?_, within_of_not_grows (Bool.eq_false_iff.mpr hgrows)⟩
    rw [← of_decide_eq_true hkey]
    exact mem_of_find?_eq_some hprev

theorem declares_iff {participant : Participant} :
    participant.declares kind = true ↔
      ∃ entry ∈ participant.keyedResources, entry.2.kind = kind := by
  unfold Participant.declares
  rw [any_eq_true]
  constructor
  · rintro ⟨entry, hentry, hkind⟩
    exact ⟨_, mem_map_of_mem hentry, of_decide_eq_true hkind⟩
  · rintro ⟨entry, hentry, hkind⟩
    obtain ⟨source, hsource, rfl⟩ := mem_map.mp hentry
    exact ⟨source, hsource, decide_eq_true hkind⟩

/-- A participant within another one selects nothing the other does not. -/
theorem selectedOf_subset {new old : Participant}
    (hneeds : ∀ id ∈ new.required ++ new.optional, id ∈ old.required ++ old.optional)
    (hres : ∀ entry ∈ new.keyedResources, ∃ previous,
      (entry.1, previous) ∈ old.keyedResources ∧ Within previous entry.2) :
    selectedOf new ⊆ selectedOf old := by
  have hdecl : ∀ kind, new.declares kind = true → old.declares kind = true := by
    intro kind h
    obtain ⟨entry, hentry, rfl⟩ := declares_iff.mp h
    obtain ⟨previous, hprev, hwithin⟩ := hres entry hentry
    exact declares_iff.mpr ⟨_, hprev, hwithin.kind_eq.symm⟩
  have himplied : impliedCapabilities .service new ⊆ impliedCapabilities .service old := by
    intro id hid
    unfold impliedCapabilities at hid ⊢
    simp only [mem_append, mem_ite_nil_right, reduceCtorEq, false_and, or_false, true_and] at hid ⊢
    rcases hid with ⟨hjob, hid⟩ | ⟨hcons, hid⟩
    · exact .inl ⟨hdecl _ hjob, hid⟩
    · exact .inr ⟨hdecl _ hcons, hid⟩
  intro id hid
  rcases mem_append.mp hid with hid | hid
  · exact mem_append_left _ (hneeds id hid)
  · exact mem_append_right _ (himplied hid)

theorem Within.refl (definition : ResourceDefinition) : Within definition definition := by
  obtain ⟨_, body⟩ := definition
  cases body with
  | state | job => trivial
  | kv | store => exact ⟨rfl, rfl, rfl⟩
  | consumer events => exact List.Subset.refl events

/-! ## The result -/

/-- **Self-submitted updates do not escalate.**  What applies without a decision grants only what
the installed revision selected or implied; the deployment provides and declares nothing new, and
its limits and consumed events do not grow. -/
theorem submit_stays_within {platform : Platform Claims Evidence Edit}
    {store store' : Store Claims Evidence} (hstore : Consistent platform store)
    {principal submitted updateId : String} {evidence : Evidence} {now : Int}
    {update : ServiceUpdate Evidence}
    (h : submit platform store principal submitted evidence updateId now = .ok (store', update))
    (happlied : update.state = .applied) :
    ∃ before after selected, installed platform store update.deploymentId = .ok before ∧
      installed platform store' update.deploymentId = .ok after ∧
      selectedCapabilities platform store update.deploymentId before.revision = .ok selected ∧
      (∀ row ∈ store'.policy.directCapabilities, row ∉ store.policy.directCapabilities →
        row.capabilityId ∈ selected) ∧
      (∀ api ∈ after.apis, api ∈ before.apis) ∧
      ∀ entry ∈ after.resources, ∃ old, (entry.1, old) ∈ before.resources ∧ Within old entry.2 := by
  obtain ⟨hwaits, -⟩ | ⟨i, d, candidate, current, changed, recorded, -, hd, hcandidate, hcurrent,
    hchanges, hrequests, hrecorded, happly, hupdate⟩ := submit_ok h
  · cases hwaits.symm.trans happlied
  obtain ⟨updates, rfl, hrow⟩ := recordUpdate_ok hrecorded
  have hread := applyUpdate_update happly (readUpdate_ok.mpr hrow)
  cases hread.symm.trans hupdate
  obtain ⟨row, reinstalled, after, moved, hrow', hreinstall, hafter, hmoved, rfl⟩ :=
    applyUpdate_ok happly
  obtain rfl : row = _ := Option.some.inj ((readUpdate_ok.mp hrow').symm.trans hrow)
  obtain ⟨hdeployments, hbindings, hinstalled, -⟩ := moveInstance_frame hmoved
  obtain ⟨d', b, participant, hbound, hparticipant, rfl⟩ := installed_ok hcurrent
  obtain ⟨hd', hb⟩ := boundDeployment_eq_some.mp hbound
  obtain rfl := Option.some.inj (hd'.symm.trans hd)
  obtain ⟨hrequired, hoptional⟩ := hstore.needs hbound hparticipant
  have hselected : selectedCapabilities platform store i.deploymentId b.installedRevision
      = .ok (selectedOf participant) :=
    selectedCapabilities_ok.mpr ⟨d', participant, hd, hparticipant, rfl⟩
  have hafter' : installed platform (settleUpdate moved updateId .applied) i.deploymentId
      = .ok after :=
    (installed_congr hdeployments hbindings hinstalled i.deploymentId).trans hafter
  refine ⟨_, after, _, hcurrent, hafter', hselected, ?_⟩
  by_cases hdigest : candidate.digest = b.implementationDigest
  · -- the build was installed before: the instance moves to it
    unfold reinstall at hreinstall
    rw [if_pos hdigest] at hreinstall
    cases hreinstall
    cases hafter.symm.trans hcurrent
    refine ⟨?_, fun api hapi => hapi, fun entry hentry => ⟨entry.2, hentry, Within.refl _⟩⟩
    intro grant hgrant hnew
    rcases mem_moveInstance hmoved hgrant with hold | ⟨next, hnext, hmem⟩
    · exact absurd hold hnew
    · cases hnext.symm.trans hselected
      exact hmem
  · -- a changed build that requests no access is within what it replaces
    unfold submittedChanges at hchanges
    rw [if_neg hdigest] at hchanges
    obtain ⟨hneeds, hresources, hapis⟩ := changes_within hchanges hrequests
    have hrecorded' : Consistent platform { store with updates } := hstore.congr rfl rfl rfl
    have hre := reinstall_ok hrecorded' hcandidate hcurrent hdigest hreinstall
    obtain ⟨-, hafterApis, hafterResources, hnext⟩ := hre.installed_after hd hcandidate hafter
    have hsubset : selectedOf candidate.participant ⊆ selectedOf participant := by
      refine selectedOf_subset ?_ hresources
      rw [hrequired, hoptional]
      exact hneeds
    refine ⟨?_, ?_, ?_⟩
    · intro grant hgrant hnew
      rcases mem_moveInstance hmoved hgrant with hold | ⟨next, hnext', hmem⟩
      · rcases hre.mem_grants hold with hold | hmem
        · exact absurd hold hnew
        · exact hsubset hmem
      · cases hnext'.symm.trans hnext
        exact hsubset hmem
    · rw [hafterApis]
      exact hapis
    · rw [hafterResources]
      exact hresources

/-- The clock drops a capability it no longer needs; that applies at once. -/
theorem submit_stays_within_clock :
    ∃ (store' : Store Unit Participant) (update : ServiceUpdate Participant)
        (before after : Installed) (selected : List CapabilityId),
      submit clockPlatform (clockStore []) "first" "acme.clock" (clock []) "update" 10
        = .ok (store', update) ∧
      installed clockPlatform (clockStore []) update.deploymentId = .ok before ∧
      installed clockPlatform store' update.deploymentId = .ok after ∧
      selectedCapabilities clockPlatform (clockStore []) update.deploymentId before.revision
        = .ok selected ∧
      (∀ row ∈ store'.policy.directCapabilities, row.capabilityId ∈ selected) ∧
      (∀ api ∈ after.apis, api ∈ before.apis) ∧
      ∀ entry ∈ after.resources, ∃ old, (entry.1, old) ∈ before.resources ∧ Within old entry.2 := by
  obtain ⟨before, after, selected, hbefore, hafter, hselected, hgrants, hapis, hresources⟩ :=
    submit_stays_within (clockStore_consistent []) (rfl : submit _ _ "first" "acme.clock" (clock [])
      "update" 10 = .ok (_, _)) rfl
  exact ⟨_, _, before, after, selected, rfl, hbefore, hafter, hselected,
    fun row hrow => hgrants row hrow not_mem_nil, hapis, hresources⟩

end Deployments
