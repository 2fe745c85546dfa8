/-
# Resources an update reattaches

A resource the candidate declares and the current revision does not is listed as reattached
if the deployment still owns an allocation of its kind and name, and as added if not.  For an
event consumer the two lookups spell the kind differently: `resource_kind` says
`eventConsumer`, the rows that `materialize_native_kv` writes say `consumer`.  One that was
dropped and is declared again is listed as added.
-/
import Trellis.Deployments.Coverage

open Catalog Auth

namespace Deployments

open List Checked

variable {Claims Evidence Edit : Type} {platform : Platform Claims Evidence Edit}
  {store : Store Claims Evidence} {candidate : Candidate Evidence} {definition : ResourceDefinition}

/-- The deployment owns an allocation of the kind and name that is not being destroyed. -/
def Owns (store : Store Claims Evidence) (deployment : String) (kind : ResourceKind)
    (name : String) : Prop :=
  ∃ row ∈ store.resources, (row.ownerId = deployment ∧ row.state ≠ .destroying) ∧
    row.kind = kind ∧ row.localName = name

instance (store : Store Claims Evidence) (deployment : String) (kind : ResourceKind)
    (name : String) : Decidable (Owns store deployment kind name) :=
  inferInstanceAs (Decidable (∃ row ∈ store.resources, _))

/-- The key a declared resource has in an update's changes. -/
def keyOf (name : String) (definition : ResourceDefinition) : ResourceKey :=
  (resourceKind definition.kind, name)

/-- The table has a kind under the name the changes give it, event consumers apart. -/
theorem column_eq_resourceKind : ∀ kind kind' : ResourceKind,
    kind.column = resourceKind kind' ↔ kind = kind' ∧ kind' ≠ .consumer := by
  intro kind kind'
  cases kind <;> cases kind' <;> decide

/-- A newly declared resource is listed as reattached exactly when it is owned, and as added
otherwise, if and only if it is no event consumer that the deployment owns. -/
theorem classified_iff (h : changes platform store deployment current candidate = .ok changed)
    (hdecl : (name, definition) ∈ candidate.participant.resources)
    (hnew : ∀ entry ∈ current.resources, entry.1 ≠ keyOf name definition) :
    ((keyOf name definition ∈ changed.reattachedResources ↔
          Owns store deployment definition.kind name) ∧
        (keyOf name definition ∈ changed.addedResources ↔
          ¬ Owns store deployment definition.kind name)) ↔
      ¬ (definition.kind = .consumer ∧ Owns store deployment .consumer name) := by
  obtain ⟨acceptedApis, -, h⟩ := bind_eq_ok.mp h
  cases h
  have hprev : (current.resources.find? fun entry => entry.1 = keyOf name definition) = none :=
    find?_eq_none.mpr fun entry hentry hkey => hnew entry hentry (of_decide_eq_true hkey)
  have hundeclared : keyOf name definition ∈ (candidate.participant.keyedResources.filter
      fun entry => ((current.resources.find? fun row => row.1 = entry.1).map
        Prod.snd).isNone).map Prod.fst := by
    refine mem_map.mpr ⟨(keyOf name definition, definition), mem_filter.mpr ⟨?_, ?_⟩, rfl⟩
    · exact mem_map.mpr ⟨(name, definition), hdecl, rfl⟩
    · rw [hprev]
      rfl
  have howned : keyOf name definition ∈ ((store.resources.filter fun row =>
        row.ownerId = deployment ∧ row.state ≠ .destroying).map fun row =>
          (row.kind.column, row.localName)) ↔
      definition.kind ≠ .consumer ∧ Owns store deployment definition.kind name := by
    simp only [mem_map, mem_filter, decide_eq_true_eq, keyOf, Prod.mk.injEq,
      column_eq_resourceKind, Owns]
    grind
  simp only [mem_filter, hundeclared, true_and, decide_eq_true_eq, howned]
  by_cases hcons : definition.kind = .consumer
  · simp [hcons]
  · simp [hcons]

/-! ## An archive with a feed -/

/-- Evidence tells whether the archive consumes its feed. -/
def feed (keeps : Bool) : Participant :=
  { archive keeps with
    resources := if keeps then [("feed", ⟨false, .consumer []⟩)] else []
    resources_nodup := by cases keeps <;> decide }

def feedPlatform : Platform Unit Bool Unit :=
  { archivePlatform with
    compileEvidence := fun keeps => .ok ⟨[feed keeps], fun _ => none⟩
    participantDigest := fun _ participant => .ok (if participant = feed true then "1" else "0") }

def feedPolicy : PolicyTables Unit :=
  { archivePolicy with
    catalog := { archivePolicy.catalog with
      identities := ⟨consumerRuntimeCapability, 1, 1, true, .capability⟩ ::
        archivePolicy.catalog.identities } }

/-- The first build, submitted when the next revision has dropped the feed. -/
def feedBuild : Candidate Bool := ⟨true, ⟨[feed true], fun _ => none⟩, feed true, "1"⟩

/-- Before anything is installed the feed is added, and nothing is reattached. -/
theorem feed_classified : ∃ changed,
    changes feedPlatform (Store.initial feedPolicy) "archive" .empty feedBuild = .ok changed ∧
      ("eventConsumer", "feed") ∉ changed.reattachedResources ∧
      ("eventConsumer", "feed") ∈ changed.addedResources := by
  have hdecl : ("feed", ⟨false, .consumer []⟩) ∈ feedBuild.participant.resources :=
    mem_singleton_self _
  have hnone : ¬ Owns (Store.initial feedPolicy : Store Unit Bool) "archive" .consumer "feed" := by
    decide
  have hlists := (classified_iff (rfl : changes feedPlatform _ "archive" .empty feedBuild = .ok _)
    hdecl (by nofun)).mpr fun h => hnone h.2
  exact ⟨_, rfl, mt hlists.1.mp hnone, hlists.2.mpr hnone⟩

/-- What that build changes, with the world and what is installed there. -/
def resubmitted : Except AuthError (World Unit Bool × Installed × Changes) := do
  let world ← [.install true none, .provision "one", .plan, .commit,
    .install false (some "archive")].foldlM (deedOn feedPlatform "archive")
    (World.initial feedPolicy)
  let current ← installed feedPlatform world.store "archive"
  let changed ← changes feedPlatform world.store "archive" current feedBuild
  return (world, current, changed)

/-- Declared again, a consumer that the deployment still owns is listed as added. -/
theorem redeclared_consumer_added : ∃ world current changed,
    ReflTransGen (NativeStep feedPlatform spelledNaming) (World.initial feedPolicy) world ∧
      installed feedPlatform world.store "archive" = .ok current ∧
      changes feedPlatform world.store "archive" current feedBuild = .ok changed ∧
      ∃ definition, ("feed", definition) ∈ feedBuild.participant.resources ∧
        (∀ entry ∈ current.resources, entry.1 ≠ keyOf "feed" definition) ∧
        Owns world.store "archive" definition.kind "feed" ∧
        keyOf "feed" definition ∉ changed.reattachedResources ∧
        keyOf "feed" definition ∈ changed.addedResources := by
  have hlisted : resubmitted.toOption.any (fun (world, current, changed) =>
      current.resources = [] ∧ Owns world.store "archive" .consumer "feed" ∧
        ("eventConsumer", "feed") ∉ changed.reattachedResources ∧
        ("eventConsumer", "feed") ∈ changed.addedResources) = true := by
    decide +kernel
  cases h : resubmitted with
  | error _ =>
    rw [h] at hlisted
    cases hlisted
  | ok result =>
    rw [h] at hlisted
    obtain ⟨hnone, howns, hlists⟩ := of_decide_eq_true hlisted
    obtain ⟨world, hdeeds, h⟩ := bind_eq_ok.mp h
    obtain ⟨current, hcurrent, h⟩ := bind_eq_ok.mp h
    obtain ⟨changed, hchanges, h⟩ := bind_eq_ok.mp h
    cases h
    refine ⟨world, current, changed, ?_, hcurrent, hchanges, _, mem_singleton_self _, ?_, howns,
      hlists⟩
    · exact Run.of_foldlM (f := deedOn feedPlatform "archive")
        (fun _ _ _ h => .tables (deed_table h)) hdeeds
    · rw [hnone]
      nofun

end Deployments
