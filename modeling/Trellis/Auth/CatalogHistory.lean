/-
# Catalog histories and the authorities they allow

Along a run of reviews, acceptances and policy changes, a catalog snapshot keeps
what an earlier one had: an action or a membership that is not newer than the
earlier revision was there already, under the same capability identity.  So an
authority stamped at one revision never gains an action from a later one.
-/
import Mathlib.Data.Prod.Lex
import Trellis.Auth.Catalog

namespace Catalog

open List Checked

variable {Policy Edit : Type} {snapshot : CatalogSnapshot} {id : CapabilityId} {tables : Tables}

/-- One transaction on the store.  The policy tables may change in any way in between. -/
inductive Step (env : Environment Policy Edit) : Store Policy → Store Policy → Prop where
  | review {store store' : Store Policy} {review : ApiReview} (proposed : ApiDefinition)
      (api : ApiId) (now : Int) (h : reviewApi env store proposed api now = .ok (store', review)) :
      Step env store store'
  | accept {store store' : Store Policy} {snapshot : CatalogSnapshot}
      (acceptance : ApiAcceptance Edit) (now : Int)
      (h : acceptApi env store acceptance now = .ok (store', snapshot)) : Step env store store'
  | policy (store : Store Policy) (policy : Policy) : Step env store { store with policy }

def Store.initial (policy : Policy) : Store Policy where
  tables := .empty
  reviews := []
  policy := policy

/-- The stores the transactions reach from an empty catalog. -/
def Reachable (env : Environment Policy Edit) (store : Store Policy) : Prop :=
  ∃ policy, ReflTransGen (Step env) (Store.initial policy) store

/-! ## What the transactions do -/

/-- A review only records itself, and only ever names its own API's identities. -/
theorem reviewApi_ok (h : reviewApi env store proposed api now = .ok (store', review)) :
    store' = { store with reviews := store.reviews ++ [review] } ∧
      ∀ id ∈ review.removedCapabilities, id.api = review.apiId := by
  unfold reviewApi at h
  split at h
  · cases h
  cases h
  refine ⟨rfl, ?_⟩
  intro id hid
  unfold reviewOf at hid ⊢
  split at hid
  · cases hid
  · obtain ⟨name, -, rfl⟩ := mem_map.mp hid
    rfl

/-- The revision an API stands at, `(0, 0)` before its first acceptance. -/
def Tables.stamp (tables : Tables) (api : ApiId) : Nat × Nat :=
  ((tables.accepted api).map fun row => (row.generation, row.acceptedRevision)).getD (0, 0)

/-- What a review records of the moment it is made. -/
theorem reviewApi_recorded (h : reviewApi env store proposed api now = .ok (store', review)) :
    review.reviewId = store.reviews.length ∧ review.apiId = api ∧
      review.policyDigest = env.policySnapshot store.policy store.tables.identities api ∧
      (review.expectedGeneration, review.expectedRevision) = store.tables.stamp api := by
  unfold reviewApi at h
  split at h
  · cases h
  cases h
  unfold reviewOf Tables.stamp
  split
  next hnone =>
    rw [hnone]
    exact ⟨rfl, rfl, rfl, rfl⟩
  next existing hold =>
    rw [hold]
    exact ⟨rfl, rfl, rfl, rfl⟩

/-- A successful acceptance installs a review made at the revision the API still stands at. -/
theorem acceptApi_ok (h : acceptApi env store acceptance now = .ok (store', snapshot)) :
    ∃ review ∈ store.reviews, (review.reviewId = acceptance.reviewId ∧ review.policyDigest
          = env.policySnapshot store.policy store.tables.identities review.apiId) ∧
      store.tables.stamp review.apiId = (review.expectedGeneration, review.expectedRevision) ∧
      store'.tables = (installReview store.tables review acceptance.force).1 ∧
      snapshot = (installReview store.tables review acceptance.force).2 ∧
      store'.reviews = store.reviews.map fun row =>
        if row.reviewId = review.reviewId then { row with consumed := true } else row := by
  unfold acceptApi at h
  split at h
  next review hreview =>
    refine ⟨review, mem_of_find?_eq_some hreview, ?_⟩
    split at h
    · cases h
    split at h
    · cases h
    rename_i hdig
    split at h
    · cases h
    rename_i hstamp
    have hstamp' := not_not.mp hstamp
    have hid := of_find? hreview
    cases hpolicy : acceptance.policyEdits.foldlM env.applyPolicy store.policy with
    | error error => simp [hpolicy, bind, Except.bind] at h
    | ok policy =>
      simp only [hpolicy, bind, Except.bind, pure, Except.pure, Except.ok.injEq] at h
      obtain ⟨rfl, rfl⟩ := h
      exact ⟨⟨hid.1, not_not.mp hdig⟩, hstamp', rfl, rfl, rfl⟩
  · cases h

/-! ## Identity rows -/

/-- The rows of one identity. -/
def rowsOf (identities : List CapabilityIdentity) (id : CapabilityId) : List CapabilityIdentity :=
  identities.filter fun row => row.capabilityId = id

theorem activeIdentity_congr (h : rowsOf identities' id = rowsOf identities id) :
    activeIdentity identities' id = activeIdentity identities id := by
  have hfind : ∀ rows, activeIdentity rows id = (rowsOf rows id).find? (·.active) := by
    intro rows
    simp [activeIdentity, rowsOf]
  rw [hfind, hfind, h]

/-- Rewriting the rows of other identities. -/
theorem rowsOf_map (hid : ∀ row, (f row).capabilityId = row.capabilityId)
    (hkeep : ∀ row, row.capabilityId = id → f row = row) :
    rowsOf (identities.map f) id = rowsOf identities id := by
  unfold rowsOf
  rw [filter_map]
  simp only [Function.comp_def, hid]
  refine (map_congr_left fun row hrow => ?_).trans (map_id _)
  exact hkeep row (of_decide_eq_true (mem_filter.mp hrow).2)

/-- Deleting other identities leaves an identity as it was. -/
theorem rowsOf_deleteIdentities (h : id ∉ removed) :
    rowsOf (deleteIdentities removed identities) id = rowsOf identities id := by
  refine rowsOf_map (fun row => key_ite rfl) fun row hrow => if_neg ?_
  rintro ⟨hmem, -⟩
  exact h (hrow ▸ hmem)

/-- Updating one identity leaves the others as they were. -/
theorem rowsOf_upsertIdentity_of_ne (hne : other ≠ id) :
    rowsOf (upsertIdentity identities id kind regranted).1 other = rowsOf identities other := by
  unfold upsertIdentity
  split
  · refine rowsOf_map (fun row => key_ite rfl) fun row hrow => if_neg ?_
    rintro ⟨hid, -⟩
    exact hne (hrow.symm.trans hid)
  · simp [rowsOf, hne.symm]

/-- After an update the identity is active with the stamp the update returns. -/
theorem activeIdentity_upsertIdentity_self :
    ∃ row, activeIdentity (upsertIdentity identities id kind regranted).1 id = some row ∧
      row.identityGeneration = (upsertIdentity identities id kind regranted).2.1 ∧
      row.consentRevision = (upsertIdentity identities id kind regranted).2.2 := by
  unfold upsertIdentity
  split
  next current hcur =>
    have hid := (of_find? hcur).1
    refine ⟨{ current with consentRevision := current.consentRevision + regranted.toNat },
      ?_, rfl, rfl⟩
    unfold activeIdentity at hcur ⊢
    rw [find?_map_of_key, hcur, Option.map_some, if_pos ⟨hid, rfl⟩]
    intro row
    split <;> rfl
  next hnone =>
    refine ⟨⟨id, _, 1, true, kind⟩, ?_, rfl, rfl⟩
    have hnone' : List.find? (fun row => decide (row.capabilityId = id ∧ row.active = true))
        identities = none := hnone
    unfold activeIdentity
    rw [find?_append, hnone']
    simp

/-- The stamp of a catalog entry is the stamp of the active identity it names. -/
def Stamped (identities : List CapabilityIdentity) (capability : CatalogCapability) : Prop :=
  ∃ row, activeIdentity identities capability.capabilityId = some row ∧
    row.identityGeneration = capability.identityGeneration ∧
    row.consentRevision = capability.consentRevision

theorem Stamped.congr (h : Stamped identities capability)
    (heq : activeIdentity identities' capability.capabilityId
      = activeIdentity identities capability.capabilityId) : Stamped identities' capability := by
  obtain ⟨row, hrow, hstamp⟩ := h
  exact ⟨row, heq.trans hrow, hstamp⟩

/-- The capability loop touches only the identities it names. -/
theorem rowsOf_acceptCapabilities (review : ApiReview) (carried : Option CatalogSnapshot)
    (revision : Nat) (entries : List (String × CapabilityDefinition))
    (identities : List CapabilityIdentity)
    (hid : id.api = review.apiId → id.name ∉ entries.map Prod.fst) :
    rowsOf (acceptCapabilities review carried revision entries identities).1 id
      = rowsOf identities id := by
  induction entries generalizing identities with
  | nil => rfl
  | cons entry entries ih =>
    apply (ih _ fun hapi hmem => hid hapi (mem_cons_of_mem _ hmem)).trans
    apply rowsOf_upsertIdentity_of_ne
    rintro rfl
    exact hid rfl mem_cons_self

/-- Every added entry is stamped by the rows left behind and has its definition's memberships. -/
theorem mem_acceptCapabilities :
    ∀ identities : List CapabilityIdentity, (entries.map Prod.fst).Nodup →
      capability ∈ (acceptCapabilities review carried revision entries identities).2 →
      ∃ entry ∈ entries, capability.capabilityId = ⟨review.apiId, entry.1⟩ ∧
        Stamped (acceptCapabilities review carried revision entries identities).1 capability ∧
        capability.memberships = catalogMemberships entry.2.allows carried
          capability.capabilityId capability.identityGeneration revision := by
  induction entries with
  | nil =>
    intro identities _ hmem
    cases hmem
  | cons entry entries ih =>
    intro identities hnd hmem
    obtain ⟨name, definition⟩ := entry
    rw [map_cons, nodup_cons] at hnd
    rcases mem_cons.mp hmem with rfl | hmem
    · refine ⟨(name, definition), mem_cons_self, rfl, ?_, rfl⟩
      -- the later rounds name other capabilities
      obtain ⟨row, hrow, hstamp⟩ := activeIdentity_upsertIdentity_self
      refine ⟨row, ?_, hstamp⟩
      refine Eq.trans ?_ hrow
      exact activeIdentity_congr
        (rowsOf_acceptCapabilities review carried revision entries _ fun _ => hnd.1)
    · obtain ⟨entry, hentry, hid, hstamp, hmembs⟩ := ih _ hnd.2 hmem
      exact ⟨entry, mem_cons_of_mem _ hentry, hid, hstamp, hmembs⟩

/-- The group loop touches only the identities it names. -/
theorem rowsOf_acceptGroups (review : ApiReview)
    (entries : List (String × CapabilityGroupDefinition)) (identities : List CapabilityIdentity)
    (members : List GroupMember) (hid : id.api = review.apiId → id.name ∉ entries.map Prod.fst) :
    rowsOf (acceptGroups review entries identities members).1 id = rowsOf identities id := by
  induction entries generalizing identities members with
  | nil => rfl
  | cons entry entries ih =>
    apply (ih _ _ fun hapi hmem => hid hapi (mem_cons_of_mem _ hmem)).trans
    apply rowsOf_upsertIdentity_of_ne
    rintro rfl
    exact hid rfl mem_cons_self

/-! ## Identity generations -/

/-- The generation is one the capability or group has had. -/
def HasIdentity (identities : List CapabilityIdentity) (id : CapabilityId) (generation : Nat) :
    Prop :=
  ∃ row ∈ identities, row.capabilityId = id ∧ row.identityGeneration = generation

/-- Rewriting identity rows under their keys. -/
theorem hasIdentity_map (hf : ∀ row, (f row).capabilityId = row.capabilityId ∧
      (f row).identityGeneration = row.identityGeneration) :
    HasIdentity (identities.map f) id generation ↔ HasIdentity identities id generation := by
  constructor
  · rintro ⟨_, hmem, hid, hgen⟩
    obtain ⟨row, hrow, rfl⟩ := mem_map.mp hmem
    exact ⟨row, hrow, (hf row).1.symm.trans hid, (hf row).2.symm.trans hgen⟩
  · rintro ⟨row, hrow, hid, hgen⟩
    exact ⟨f row, mem_map_of_mem hrow, (hf row).1.trans hid, (hf row).2.trans hgen⟩

theorem hasIdentity_congr (h : rowsOf identities' id = rowsOf identities id) :
    HasIdentity identities' id generation ↔ HasIdentity identities id generation := by
  have hrows : ∀ rows, HasIdentity rows id generation ↔
      ∃ row ∈ rowsOf rows id, row.identityGeneration = generation := by
    intro rows
    simp [HasIdentity, rowsOf, and_assoc]
  rw [hrows, hrows, h]

/-- An acceptance adds no generation to a capability of another API. -/
theorem hasIdentity_installReview_of_ne (tables : Tables) (review : ApiReview) (force : Bool)
    (hne : id.api ≠ review.apiId) :
    HasIdentity (installReview tables review force).1.identities id generation ↔
      HasIdentity tables.identities id generation := by
  refine (hasIdentity_congr (rowsOf_acceptGroups review _ _ _ fun h => absurd h hne)).trans
    ((hasIdentity_congr (rowsOf_acceptCapabilities review _ _ _ _ fun h => absurd h hne)).trans
      (hasIdentity_map fun row => ?_))
  split <;> exact ⟨rfl, rfl⟩

/-! ## The snapshot an acceptance installs -/

theorem Tables.currentCatalog_eq_some (h : tables.currentCatalog api = some snapshot) :
    snapshot.apiId = api ∧ tables.stamp api = (snapshot.generation, snapshot.acceptedRevision) ∧
      tables.snapshotAt api snapshot.generation snapshot.acceptedRevision = some snapshot := by
  obtain ⟨row, hrow, hfind⟩ := Option.bind_eq_some_iff.mp h
  have hkey := find?_some hfind
  simp only [decide_eq_true_eq] at hkey
  obtain ⟨hapi, hgen, hrev⟩ := hkey
  refine ⟨hapi, ?_, ?_⟩
  · rw [Tables.stamp, hrow, hgen, hrev]
    rfl
  · rw [hgen, hrev]
    exact hfind

/-- The installed snapshot is the current one of its API. -/
theorem currentCatalog_installReview_self :
    (installReview tables review force).1.currentCatalog review.apiId
      = some (installReview tables review force).2 := by
  simp [installReview, Tables.currentCatalog, Tables.snapshotAt]

/-- Other APIs keep their current snapshot. -/
theorem currentCatalog_installReview_of_ne (hne : api ≠ review.apiId) :
    (installReview tables review force).1.currentCatalog api = tables.currentCatalog api := by
  simp [installReview, Tables.currentCatalog, Tables.snapshotAt, Function.update_of_ne hne,
    Ne.symm hne]

theorem stamp_installReview_of_ne (tables : Tables) (review : ApiReview) (force : Bool)
    (hne : api ≠ review.apiId) :
    (installReview tables review force).1.stamp api = tables.stamp api := by
  simp [installReview, Tables.stamp, Function.update_of_ne hne]

/-- An acceptance moves its API to a later revision. -/
theorem stamp_installReview_self (force : Bool)
    (hstamp : tables.stamp review.apiId = (review.expectedGeneration, review.expectedRevision)) :
    toLex (tables.stamp review.apiId)
      < toLex ((installReview tables review force).1.stamp review.apiId) := by
  rw [hstamp, Prod.Lex.toLex_lt_toLex]
  cases force with
  | true => simp [installReview, Tables.stamp]
  | false =>
    simp [installReview, Tables.stamp]
    omega

/-- The snapshot at the reviewed revision, unless the acceptance is forced. -/
def carriedSnapshot (tables : Tables) (review : ApiReview) (force : Bool) :
    Option CatalogSnapshot :=
  (tables.snapshotAt review.apiId review.expectedGeneration review.expectedRevision).filter
    fun _ => !force

/-- Every entry of the installed snapshot belongs to its API, is stamped by the rows left behind and
has its definition's memberships. -/
theorem mem_capabilities_installReview
    (hmem : capability ∈ (installReview tables review force).2.capabilities) :
    ∃ entry ∈ review.proposed.capabilities, capability.capabilityId = ⟨review.apiId, entry.1⟩ ∧
      Stamped (installReview tables review force).1.identities capability ∧
      capability.memberships = catalogMemberships entry.2.allows
        (carriedSnapshot tables review force) capability.capabilityId
        capability.identityGeneration (installReview tables review force).2.acceptedRevision := by
  have hnd := nodup_append.mp review.proposed.names_nodup
  obtain ⟨entry, hentry, hid, hstamp, hmembs⟩ := mem_acceptCapabilities _ hnd.1 hmem
  refine ⟨entry, hentry, hid, ?_, hmembs⟩
  -- no group of the definition shares the capability's name
  refine hstamp.congr (activeIdentity_congr
    (rowsOf_acceptGroups review review.proposed.groups _ _ ?_))
  intro _ hgroup
  rw [hid] at hgroup
  exact hnd.2.2 entry.1 (mem_map_of_mem hentry) entry.1 hgroup rfl

/-! ## The invariant of reachable stores -/

/-- Reviews name their own API's identities, and the entries of every current snapshot carry the
stamps of the active identities. -/
structure Consistent (store : Store Policy) : Prop where
  reviews_own : ∀ review ∈ store.reviews, ∀ id ∈ review.removedCapabilities, id.api = review.apiId
  current_stamped : ∀ api snapshot, store.tables.currentCatalog api = some snapshot →
    ∀ capability ∈ snapshot.capabilities,
      capability.capabilityId.api = api ∧ Stamped store.tables.identities capability

theorem consistent_initial : Consistent (Store.initial policy) where
  reviews_own := by
    intro review hreview
    cases hreview
  current_stamped := by
    intro api snapshot hcur
    cases hcur

theorem consistent_step
    (hstep : Step env store store') (h : Consistent store) : Consistent store' := by
  cases hstep with
  | review proposed api now hreview =>
    obtain ⟨rfl, hown⟩ := reviewApi_ok hreview
    refine ⟨?_, h.current_stamped⟩
    exact forall_mem_concat h.reviews_own hown
  | accept acceptance now hacc =>
    obtain ⟨review, hreview, -, -, htables, -, hreviews⟩ := acceptApi_ok hacc
    have hown := h.reviews_own review hreview
    refine ⟨?_, ?_⟩
    · intro row hrow
      rw [hreviews] at hrow
      obtain ⟨old, hold, rfl⟩ := mem_map.mp hrow
      split
      · exact h.reviews_own old hold
      · exact h.reviews_own old hold
    · intro api snapshot hcur capability hcap
      rw [htables] at hcur ⊢
      by_cases hapi : api = review.apiId
      · subst hapi
        rw [currentCatalog_installReview_self] at hcur
        cases hcur
        obtain ⟨entry, -, hid, hstamp, -⟩ := mem_capabilities_installReview hcap
        exact ⟨by rw [hid], hstamp⟩
      · rw [currentCatalog_installReview_of_ne hapi] at hcur
        obtain ⟨hid, hstamp⟩ := h.current_stamped api snapshot hcur capability hcap
        -- an acceptance touches no identity of another API
        have hne : capability.capabilityId.api ≠ review.apiId := hid ▸ hapi
        refine ⟨hid, hstamp.congr (activeIdentity_congr ?_)⟩
        unfold installReview
        rw [rowsOf_acceptGroups _ _ _ _ (fun h => absurd h hne),
          rowsOf_acceptCapabilities _ _ _ _ _ (fun h => absurd h hne),
          rowsOf_deleteIdentities fun h => hne (hown _ h)]
  | policy policy => exact ⟨h.reviews_own, h.current_stamped⟩

theorem consistent_of_reachable (h : Reachable env store) : Consistent store := by
  obtain ⟨policy, hrun⟩ := h
  exact Run.keeps (P := Consistent) (fun _ _ hstep => consistent_step hstep) hrun
    consistent_initial

/-! ## What a later snapshot keeps of an earlier one -/

/-- The revision a snapshot says an action was introduced at. -/
def CatalogSnapshot.introduction (snapshot : CatalogSnapshot) (action : CatalogActionIdentity) :
    Option Nat :=
  (snapshot.actions.find? fun entry => entry.identity = action).map
    CatalogAction.introducedRevision

/-- `later` has nothing at or below the revision of `earlier` that `earlier` lacks. -/
structure NothingOlder (earlier later : CatalogSnapshot) : Prop where
  revision_le : earlier.acceptedRevision ≤ later.acceptedRevision
  introductions : ∀ action revision, later.introduction action = some revision →
    revision ≤ earlier.acceptedRevision → earlier.introduction action = some revision
  memberships : ∀ capability ∈ later.capabilities, ∀ member ∈ capability.memberships,
    member.memberSinceRevision ≤ earlier.acceptedRevision →
    ∃ old ∈ earlier.capabilities, old.capabilityId = capability.capabilityId ∧
      old.identityGeneration = capability.identityGeneration ∧ member ∈ old.memberships

/-- A later snapshot: of a newer generation, or of the same one with nothing older. -/
def Succeeds (earlier later : CatalogSnapshot) : Prop :=
  earlier.generation < later.generation ∨
    earlier.generation = later.generation ∧ NothingOlder earlier later

theorem NothingOlder.refl (snapshot : CatalogSnapshot) : NothingOlder snapshot snapshot where
  revision_le := le_rfl
  introductions := fun _ _ h _ => h
  memberships := fun capability hcap _ hmemb _ => ⟨capability, hcap, rfl, rfl, hmemb⟩

theorem Succeeds.refl (snapshot : CatalogSnapshot) : Succeeds snapshot snapshot :=
  .inr ⟨rfl, NothingOlder.refl snapshot⟩

theorem NothingOlder.trans (hab : NothingOlder a b)
    (hbc : NothingOlder b c) : NothingOlder a c where
  revision_le := hab.revision_le.trans hbc.revision_le
  introductions := by
    intro action revision h hle
    exact hab.introductions action revision
      (hbc.introductions action revision h (hle.trans hab.revision_le)) hle
  memberships := by
    intro capability hcap member hmemb hle
    obtain ⟨mid, hmid, hid, hgen, hmemb'⟩ :=
      hbc.memberships capability hcap member hmemb (hle.trans hab.revision_le)
    obtain ⟨old, hold, hid', hgen', hmemb''⟩ := hab.memberships mid hmid member hmemb' hle
    exact ⟨old, hold, hid'.trans hid, hgen'.trans hgen, hmemb''⟩

theorem Succeeds.trans (hab : Succeeds a b) (hbc : Succeeds b c) : Succeeds a c := by
  rcases hab with hab | ⟨hab, hab'⟩ <;> rcases hbc with hbc | ⟨hbc, hbc'⟩
  · exact .inl (hab.trans hbc)
  · exact .inl (hbc ▸ hab)
  · exact .inl (hab ▸ hbc)
  · exact .inr ⟨hab.trans hbc, hab'.trans hbc'⟩

/-- An introduction older than the accepted revision comes from the carried snapshot. -/
theorem introducedRevision_of_mem_catalogActions
    (h : entry ∈ catalogActions definition carried revision) : entry.introducedRevision
      = (carried.bind fun old => old.introduction entry.identity).getD revision := by
  unfold catalogActions at h
  simp only [mem_flatMap, mem_map] at h
  obtain ⟨action, -, direction, -, identity, -, rfl⟩ := h
  cases carried <;> rfl

/-- A membership is new, or the carried snapshot has it under the same identity. -/
theorem memberSinceRevision_of_mem_catalogMemberships
    (h : member ∈ catalogMemberships allows carried id identityGeneration revision) :
    member.memberSinceRevision = revision ∨
      ∃ old, carried = some old ∧ ∃ capability ∈ old.capabilities, capability.capabilityId = id ∧
        capability.identityGeneration = identityGeneration ∧ member ∈ capability.memberships := by
  obtain ⟨action, -, rfl⟩ := mem_map.mp h
  cases carried with
  | none => exact .inl rfl
  | some old =>
    cases hcap : old.capabilities.find? fun capability =>
        capability.capabilityId = id ∧ capability.identityGeneration = identityGeneration with
    | none =>
      left
      simp only [Option.bind_some, hcap, Option.bind_none, Option.map_none, Option.getD_none]
    | some capability =>
      cases hmemb : capability.memberships.find? fun member => member.action = action with
      | none =>
        left
        simp only [Option.bind_some, hcap, hmemb, Option.map_none, Option.getD_none]
      | some found =>
        have hkey := find?_some hcap
        have haction := find?_some hmemb
        simp only [decide_eq_true_eq] at hkey haction
        refine .inr ⟨old, rfl, capability, mem_of_find?_eq_some hcap, hkey.1, hkey.2, ?_⟩
        have hfound := mem_of_find?_eq_some hmemb
        simp only [Option.bind_some, hcap, hmemb, Option.map_some]
        rw [← haction]
        exact hfound

/-- The snapshot an acceptance installs succeeds the one it was reviewed against. -/
theorem succeeds_installReview (hcur : tables.currentCatalog review.apiId = some snapshot)
    (hstamp : tables.stamp review.apiId = (review.expectedGeneration, review.expectedRevision)) :
    Succeeds snapshot (installReview tables review force).2 := by
  obtain ⟨-, hkey, hat⟩ := Tables.currentCatalog_eq_some hcur
  obtain ⟨hgeneration, hrev⟩ := Prod.mk.inj (hkey.symm.trans hstamp)
  cases force with
  | true =>
    left
    show snapshot.generation < review.expectedGeneration + 1
    omega
  | false =>
    have hcarried : carriedSnapshot tables review false = some snapshot := by
      rw [carriedSnapshot, ← hgeneration, ← hrev, hat]
      rfl
    have hnew : (installReview tables review false).2.acceptedRevision
        = snapshot.acceptedRevision + 1 := by
      rw [hrev]
      rfl
    have hgen : (installReview tables review false).2.generation = max snapshot.generation 1 := by
      rw [hgeneration]
      rfl
    rcases Nat.eq_zero_or_pos snapshot.generation with hzero | hpos
    · left
      omega
    right
    refine ⟨by rw [hgen]; omega, ⟨by omega, ?_, ?_⟩⟩
    · intro action revision hintro hle
      obtain ⟨entry, hfind, rfl⟩ := Option.map_eq_some_iff.mp hintro
      have hentry := mem_of_find?_eq_some hfind
      obtain rfl : entry.identity = action := by simpa using find?_some hfind
      have hvalue : entry.introducedRevision = ((carriedSnapshot tables review false).bind
          fun old => old.introduction entry.identity).getD _ :=
        introducedRevision_of_mem_catalogActions hentry
      rw [hcarried, Option.bind_some] at hvalue
      cases hold : snapshot.introduction entry.identity with
      | none =>
        -- a new action is introduced above the older revision
        rw [hold] at hvalue
        have : entry.introducedRevision = snapshot.acceptedRevision + 1 :=
          hvalue.trans (by rw [hrev]; rfl)
        omega
      | some old =>
        rw [hold, Option.getD_some] at hvalue
        rw [hvalue]
    · intro capability hcap member hmemb hle
      obtain ⟨entry, -, -, -, hmembs⟩ := mem_capabilities_installReview hcap
      rw [hmembs, hcarried] at hmemb
      obtain ⟨old, hold, found, hfound, hid, hgen', hmemb'⟩ :=
        (memberSinceRevision_of_mem_catalogMemberships hmemb).resolve_left (by omega)
      cases hold
      exact ⟨found, hfound, hid, hgen', hmemb'⟩

/-- Every current API stays current, at a snapshot that succeeds the earlier one. -/
def Extends (store store' : Store Policy) : Prop :=
  ∀ api snapshot, store.tables.currentCatalog api = some snapshot →
    ∃ later, store'.tables.currentCatalog api = some later ∧ Succeeds snapshot later

theorem extends_step (hstep : Step env store store') : Extends store store' := by
  intro api snapshot hcur
  cases hstep with
  | review proposed api' now hreview =>
    obtain ⟨rfl, -⟩ := reviewApi_ok hreview
    exact ⟨snapshot, hcur, Succeeds.refl snapshot⟩
  | accept acceptance now hacc =>
    obtain ⟨review, -, -, hstamp, htables, -, -⟩ := acceptApi_ok hacc
    rw [htables]
    by_cases hapi : api = review.apiId
    · subst hapi
      exact ⟨_, currentCatalog_installReview_self, succeeds_installReview hcur hstamp⟩
    · rw [currentCatalog_installReview_of_ne hapi]
      exact ⟨snapshot, hcur, Succeeds.refl snapshot⟩
  | policy policy => exact ⟨snapshot, hcur, Succeeds.refl snapshot⟩

theorem extends_run (hrun : ReflTransGen (Step env) store store') : Extends store store' := by
  induction hrun with
  | refl => exact fun api snapshot h => ⟨snapshot, h, Succeeds.refl snapshot⟩
  | tail _ hlast ih =>
    intro api snapshot hcur
    obtain ⟨mid, hmid, hsucceeds⟩ := ih api snapshot hcur
    obtain ⟨later, hlater, hsucceeds'⟩ := extends_step hlast api mid hmid
    exact ⟨later, hlater, hsucceeds.trans hsucceeds'⟩

/-! ## No authority gains from later acceptances -/

/-- What the catalog check asks for. -/
theorem authorizes_iff : snapshot.authorizes authority action = true ↔
      ∃ api, (authority.apis.find? fun api => api.apiId = snapshot.apiId) = some api ∧
        api.generation = snapshot.generation ∧
        api.acceptedRevision ≤ snapshot.acceptedRevision ∧
        (∃ revision, snapshot.introduction action = some revision ∧
          revision ≤ api.acceptedRevision) ∧
        ∃ capability ∈ snapshot.capabilities,
          (∃ grant ∈ authority.capabilities, grant.capabilityId = capability.capabilityId ∧
            grant.identityGeneration = capability.identityGeneration ∧
            grant.consentRevision = capability.consentRevision) ∧
          ∃ member ∈ capability.memberships, member.action = action ∧
            member.memberSinceRevision ≤ api.acceptedRevision := by
  unfold CatalogSnapshot.authorizes CatalogSnapshot.introduction
  cases authority.apis.find? fun api => api.apiId = snapshot.apiId with
  | none => simp
  | some api =>
    cases snapshot.actions.find? fun entry => entry.identity = action with
    | none => simp
    | some entry =>
      simp only [Option.some.injEq, Option.map_some, exists_eq_left']
      split
      next hstale =>
        constructor
        · intro h
          cases h
        · rintro ⟨hgen, hrev, -⟩
          rcases hstale with h | h
          · exact absurd hgen h
          · omega
      next hfresh =>
        push Not at hfresh
        simp only [Bool.and_eq_true, any_eq_true, decide_eq_true_eq]
        constructor
        · rintro ⟨hintro, hcap⟩
          exact ⟨hfresh.1, hfresh.2, hintro, hcap⟩
        · rintro ⟨-, -, hintro, hcap⟩
          exact ⟨hintro, hcap⟩

/-- **Authorities never gain.**  If a later snapshot of an API lets a captured authority take an
action, the snapshot it was captured under did already. -/
theorem authorizes_of_later_authorizes {env : Environment Policy Edit}
    {store store' : Store Policy} (hreachable : Reachable env store)
    (hrun : ReflTransGen (Step env) store store') (apis : List ApiId)
    (ids : List CapabilityId) {api : ApiId} {snapshot later : CatalogSnapshot}
    (hcurrent : store.tables.currentCatalog api = some snapshot)
    (hlater : store'.tables.currentCatalog api = some later) (action : CatalogActionIdentity)
    (h : later.authorizes (captureAuthority store.tables apis ids) action = true) :
    snapshot.authorizes (captureAuthority store.tables apis ids) action = true := by
  obtain ⟨hapi, hkey, -⟩ := Tables.currentCatalog_eq_some hcurrent
  obtain ⟨hapi', -, -⟩ := Tables.currentCatalog_eq_some hlater
  obtain ⟨reached, hreached, hsucceeds⟩ := extends_run hrun api snapshot hcurrent
  obtain rfl : reached = later := Option.some.inj (hreached.symm.trans hlater)
  rw [authorizes_iff] at h ⊢
  obtain ⟨stamp, hstamp, hgeneration, -, ⟨revision, hintro, hle⟩, capability, hcapability,
    ⟨grant, hgrant, hid, hidentity, hconsent⟩, member, hmember, haction, hsince⟩ := h
  -- an API stamp of a captured authority is the API's current stamp
  have hstamp' : (stamp.generation, stamp.acceptedRevision) = store.tables.stamp api := by
    obtain ⟨captured, -, hcapt⟩ := mem_filterMap.mp (mem_of_find?_eq_some hstamp)
    obtain ⟨row, hrow, rfl⟩ := Option.map_eq_some_iff.mp hcapt
    have hsame : captured = reached.apiId := by simpa using find?_some hstamp
    rw [Tables.stamp, ← hapi', ← hsame, hrow]
    rfl
  rw [hkey] at hstamp'
  obtain ⟨hstampGeneration, hstampRevision⟩ := Prod.mk.inj hstamp'
  -- the stamped generation is the one of the snapshot, so the later one has nothing older
  have hnothing : NothingOlder snapshot reached := by
    rcases hsucceeds with hnewer | ⟨-, hnothing⟩
    · omega
    · exact hnothing
  obtain ⟨old, hold, hidOld, hidentityOld, hmemberOld⟩ :=
    hnothing.memberships capability hcapability member hmember (by omega)
  refine ⟨stamp, ?_, by omega, by omega, ?_, old, hold, ?_, member, hmemberOld, haction, hsince⟩
  · rw [hapi, ← hapi']
    exact hstamp
  · exact ⟨revision, hnothing.introductions action revision hintro (by omega), hle⟩
  · -- the grant and the snapshot's entry were stamped by the same active identity
    obtain ⟨id, -, hcapt⟩ := mem_filterMap.mp hgrant
    obtain ⟨row, hrow, rfl⟩ := Option.map_eq_some_iff.mp hcapt
    obtain ⟨row', hrow', -, hrowConsent'⟩ :=
      ((consistent_of_reachable hreachable).current_stamped api snapshot hcurrent old hold).2
    rw [hidOld, ← hid, hrow] at hrow'
    cases hrow'
    exact ⟨_, hgrant, hid.trans hidOld.symm, hidentity.trans hidentityOld.symm, hrowConsent'⟩

/-- An environment that finds every definition compatible and has no policy. -/
def plainEnvironment : Environment Unit Unit where
  apiDigest := fun _ => "digest"
  compareImplementation := fun _ _ => true
  builtinApiDigest := fun _ => none
  policySnapshot := fun _ _ _ => ""
  applyPolicy := fun policy _ => .ok policy

/-- An API whose one capability allows calling the given RPCs. -/
def echoDefinition (names : List String) : ApiDefinition where
  actions := names.map (ActionId.mk .rpc)
  capabilities := [("echo.use", ⟨"use it", names.map fun name => ⟨⟨.rpc, name⟩, .call⟩⟩)]
  groups := []
  names_nodup := by simp
  allows_declared := by
    intro entry hentry selection hselection
    obtain rfl := mem_singleton.mp hentry
    obtain ⟨name, hname, rfl⟩ := mem_map.mp hselection
    exact ⟨mem_map_of_mem hname, mem_singleton.mpr rfl⟩

/-- Review and accept a definition of the API. -/
def acceptEcho (store : Store Unit) (names : List String) : Store Unit :=
  match reviewApi plainEnvironment store (echoDefinition names) "demo.echo@v1" 0 with
  | .error _ => store
  | .ok (reviewed, review) =>
    match acceptApi plainEnvironment reviewed
        ⟨review.reviewId, "digest", false, false, false, [], []⟩ 0 with
    | .error _ => store
    | .ok (accepted, _) => accepted

theorem acceptEcho_run (store : Store Unit) (names : List String) :
    ReflTransGen (Step plainEnvironment) store (acceptEcho store names) := by
  unfold acceptEcho
  split
  · exact .refl
  rename_i reviewed review hreview
  split
  · exact .refl
  next accepted snapshot hacc => exact .tail (.single (.review _ _ _ hreview)) (.accept _ _ hacc)

theorem authorizes_of_later_authorizes_echo :
    let store := acceptEcho (Store.initial ()) ["Echo.Ping"]
    let store' := acceptEcho store ["Echo.Ping", "Echo.Pong"]
    let authority := captureAuthority store.tables ["demo.echo@v1"] [⟨"demo.echo@v1", "echo.use"⟩]
    ∃ snapshot later, store.tables.currentCatalog "demo.echo@v1" = some snapshot ∧
      store'.tables.currentCatalog "demo.echo@v1" = some later ∧
      later.authorizes authority ⟨.rpc, "Echo.Ping", .call⟩ = true ∧
      snapshot.authorizes authority ⟨.rpc, "Echo.Ping", .call⟩ = true := by
  intro store store' authority
  refine ⟨_, _, rfl, rfl, by decide, ?_⟩
  exact authorizes_of_later_authorizes ⟨(), acceptEcho_run _ _⟩ (acceptEcho_run _ _) _ _
    (rfl : store.tables.currentCatalog "demo.echo@v1" = _)
    (rfl : store'.tables.currentCatalog "demo.echo@v1" = _) _ (by decide)

end Catalog
