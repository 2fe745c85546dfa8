/-
# How resources evolve

What `compare_resource_evolution` reports of a declared resource and its replacement, and that it
composes.  A report compares neighbours only, so that a chain of compatible replacements is judged
by what each of them keeps of the representations before it.
-/
import Trellis.Deployments.NativeTransport

namespace Deployments

open List

structure CompatibilityIssue where
  (path message : String)
  deriving DecidableEq, Repr

structure ResourceCompatibilityReport where
  (compatible migrationRequired : Bool)
  issues : List CompatibilityIssue
  deriving DecidableEq, Repr

/-- A report is compatible when nothing was found. -/
def ResourceCompatibilityReport.of (issues : List CompatibilityIssue) (migrationRequired : Bool) :
    ResourceCompatibilityReport :=
  ⟨issues.isEmpty, migrationRequired, issues⟩

def issue (found : Bool) (path message : String) : List CompatibilityIssue :=
  if found then [⟨path, message⟩] else []

local instance lawfulBEq_historic : LawfulBEq (Nat × String) := inferInstance

/-- What is found between two representations. -/
def representationIssues (old new : Representation) : List CompatibilityIssue :=
  issue (old.version = new.version && old.schema ≠ new.schema) "schema"
      "schema changed without a representation version change" ++
    issue (new.version < old.version) "version" "representation version moved backwards" ++
    (old.accepts.flatMap fun historic =>
      issue (historic ∉ new.accepts) ("accepts." ++ toString historic.1)
        "replacement drops a retained historical representation") ++
    issue (old.version ≠ new.version && (old.version, old.schema) ∉ new.accepts) "accepts"
      "replacement does not accept the previous representation"

/-- `compare_resource_evolution` with what it finds. -/
def resourceEvolutionReport (previous replacement : ResourceDefinition) :
    ResourceCompatibilityReport :=
  if previous.kind ≠ replacement.kind then .of [⟨"kind", "resource kind changed"⟩] false
  else
    let optional :=
      issue (previous.optional ≠ replacement.optional) "optional" "resource optionality changed"
    match previous.representation, replacement.representation with
    | none, none => .of optional false
    | some old, some new =>
      .of (optional ++ representationIssues old new) (old.version ≠ new.version)
    | _, _ => .of (optional ++ [⟨"kind", "resource kind changed"⟩]) false

@[simp]
theorem issue_eq_nil : issue found path message = [] ↔ found = false := by
  cases found <;> simp [issue]

/-- What the comparison wants of two representations. -/
theorem representationEvolves_iff : representationEvolves old new = true ↔
      old.version ≤ new.version ∧ old.accepts ⊆ new.accepts ∧
        (old.version = new.version → old.schema = new.schema) ∧
        (old.version ≠ new.version → (old.version, old.schema) ∈ new.accepts) := by
  simp only [representationEvolves, Bool.and_eq_true, Bool.not_eq_true', decide_eq_false_iff_not]
  grind

theorem representationIssues_eq_nil :
    representationIssues old new = [] ↔ representationEvolves old new = true := by
  rw [representationEvolves_iff]
  simp only [representationIssues, append_eq_nil_iff, flatMap_eq_nil_iff, issue_eq_nil,
    decide_eq_false_iff_not]
  grind

/-- The report is compatible where the comparison holds. -/
theorem resourceEvolutionReport_compatible :
    (resourceEvolutionReport previous replacement).compatible = true ↔
      compareResourceEvolution previous replacement = true := by
  unfold resourceEvolutionReport compareResourceEvolution
  by_cases hkind : previous.kind = replacement.kind
  · rw [if_neg (not_not.mpr hkind), decide_eq_true hkind]
    cases previous.representation <;> cases replacement.representation <;>
      simp [ResourceCompatibilityReport.of, representationIssues_eq_nil]
  · rw [if_pos hkind, decide_eq_false hkind]
    simp [ResourceCompatibilityReport.of]

/-- What is kept of a representation: it is current or accepted. -/
def Representation.Keeps (new : Representation) (version : Nat) (schema : String) : Prop :=
  (new.version = version ∧ new.schema = schema) ∨ (version, schema) ∈ new.accepts

theorem representationEvolves_trans
    (hab : representationEvolves a b = true) (hbc : representationEvolves b c = true) :
    representationEvolves a c = true := by
  rw [representationEvolves_iff] at hab hbc ⊢
  obtain ⟨hle, hacc, hsame, hold⟩ := hab
  obtain ⟨hle', hacc', hsame', hold'⟩ := hbc
  refine ⟨hle.trans hle', List.Subset.trans hacc hacc', fun heq => ?_, fun hne => ?_⟩
  · -- the version cannot have moved and come back
    exact (hsame (by omega)).trans (hsame' (by omega))
  · by_cases hfirst : a.version = b.version
    · rw [hfirst, hsame hfirst]
      exact hold' (hfirst ▸ hne)
    · exact hacc' (hold hfirst)

theorem compareResourceEvolution_trans
    (hab : compareResourceEvolution a b = true) (hbc : compareResourceEvolution b c = true) :
    compareResourceEvolution a c = true := by
  unfold compareResourceEvolution at hab hbc ⊢
  simp only [Bool.and_eq_true, decide_eq_true_eq] at hab hbc ⊢
  refine ⟨⟨hab.1.1.trans hbc.1.1, hab.1.2.trans hbc.1.2⟩, ?_⟩
  cases ha : a.representation <;> cases hb : b.representation <;>
    cases hc : c.representation <;> simp_all
  exact representationEvolves_trans hab.2 hbc.2

theorem compareResourceEvolution_refl (definition : ResourceDefinition) :
    compareResourceEvolution definition definition = true := by
  unfold compareResourceEvolution
  cases definition.representation <;> simp [representationEvolves_iff]

theorem keeps_of_compareResourceEvolution (h : compareResourceEvolution previous last = true)
    (hold : previous.representation = some old) :
    ∃ new, last.representation = some new ∧ new.Keeps old.version old.schema := by
  unfold compareResourceEvolution at h
  rw [hold] at h
  cases hnew : last.representation with
  | none => simp [hnew] at h
  | some new =>
    rw [hnew, Bool.and_eq_true] at h
    obtain ⟨-, -, hsame, hkept⟩ := representationEvolves_iff.mp h.2
    refine ⟨new, rfl, ?_⟩
    by_cases heq : old.version = new.version
    · exact .inl ⟨heq.symm, (hsame heq).symm⟩
    · exact .inr (hkept heq)

/-- **Evolution composes.**  Along a chain reported compatible step by step, the first is compatible
with the last, which keeps every representation that was current. -/
theorem resource_evolution_composes (first : ResourceDefinition) (rest : List ResourceDefinition)
    (h : (first :: rest).IsChain fun previous replacement =>
      (resourceEvolutionReport previous replacement).compatible = true) :
    let last := (first :: rest).getLast (cons_ne_nil _ _)
    (resourceEvolutionReport first last).compatible = true ∧
      ∀ definition ∈ first :: rest, ∀ old, definition.representation = some old →
        ∃ new, last.representation = some new ∧ new.Keeps old.version old.schema := by
  simp only [resourceEvolutionReport_compatible] at h ⊢
  induction rest generalizing first with
  | nil =>
    have hself := compareResourceEvolution_refl first
    refine ⟨hself, fun definition hmem old hold => ?_⟩
    obtain rfl := mem_singleton.mp hmem
    exact keeps_of_compareResourceEvolution hself hold
  | cons second rest ih =>
    obtain ⟨hstep, hrest⟩ := isChain_cons_cons.mp h
    obtain ⟨hlast, hkeeps⟩ := ih second hrest
    have hfirst := compareResourceEvolution_trans hstep hlast
    refine ⟨hfirst, fun definition hmem old hold => ?_⟩
    rcases mem_cons.mp hmem with rfl | hmem
    · exact keeps_of_compareResourceEvolution hfirst hold
    · exact hkeeps definition hmem old hold

/-- A State resource that changes its schema twice. -/
theorem resource_evolution_composes_state :
    let state (version : Nat) (accepts : List (Nat × String)) : ResourceDefinition :=
      ⟨false, .state ⟨"schema" ++ toString version, version, accepts⟩⟩
    (resourceEvolutionReport (state 1 []) (state 3 [(1, "schema1"), (2, "schema2")])).compatible
      = true :=
  (resource_evolution_composes _ [⟨false, .state ⟨"schema2", 2, [(1, "schema1")]⟩⟩,
    ⟨false, .state ⟨"schema3", 3, [(1, "schema1"), (2, "schema2")]⟩⟩]
    (.cons_cons (by decide) (.cons_cons (by decide) (.singleton _)))).1

end Deployments
