/-
# Package locks

A lock lists the exact closure of a package.  Its validation checks every locked package by
itself, the order of the list and each dependency edge, and then visits the packages from
the root.  A package that is met again on the way to it is a cycle; a package that is not
visited is outside the closure.
-/
import Mathlib.Data.List.Dedup
import Mathlib.Data.String.Basic
import Trellis.Lib.Graph

namespace Idl

open List Checked Relation Graph

structure LockedDependency (Version : Type) where
  name : String
  version : Version
  digest : String

inductive LockedSource where
  | path (path : String)
  | registry (registry ociDigest : String)

structure LockedPackage (Version : Type) where
  name : String
  version : Version
  digest : String
  distributionDigest : String
  dependencies : List (LockedDependency Version)
  source : LockedSource

structure PackageLock (Version : Type) where
  format : Nat
  root : String
  packages : List (LockedPackage Version)

/-- What the base64 decoder and the platform's paths say of a text. -/
structure Formats where
  /-- It is the base64url form of 32 bytes. -/
  isSha256 : String → Bool
  isAbsolute : String → Bool

/-! ## Checks -/

/-- What is checked, in order, and the errors; the first that fails is returned. -/
def validateAll (checks : List (Bool × String)) : Except String Unit :=
  match checks.find? fun check => !check.1 with
  | some check => .error check.2
  | none => .ok ()

theorem validateAll_eq_ok : validateAll checks = .ok unit ↔ ∀ check ∈ checks, check.1 = true := by
  unfold validateAll
  split
  · rename_i check hfound
    have hfails := find?_some hfound
    exact iff_of_false nofun fun h => by simp [h check (mem_of_find?_eq_some hfound)] at hfails
  · rename_i hnone
    simpa using hnone

def validatePackageName (value : String) : Bool × String :=
  (value.toList.head?.any Char.isLower &&
      value.toList.all fun c => c.isLower || c.isDigit || c = '-',
    s!"invalid package name '{value}'; expected [a-z][a-z0-9-]*")

def validateDistributionDigest (value : String) : Bool × String :=
  (("sha256:".toList.isPrefixOf? value.toList).any fun hex =>
      hex.length = 64 && hex.all fun c => c.isDigit || 'a' ≤ c && c ≤ 'f',
    "distribution digest must be a sha256 OCI digest")

variable {Version : Type} [DecidableEq Version] (formats : Formats) (lock : PackageLock Version)

def validateDigest (name value : String) : Bool × String :=
  (formats.isSha256 value, s!"{name} must be a base64url SHA-256 digest")

def LockedSource.checks (message : String) : LockedSource → List (Bool × String)
  | path text => [(text ≠ "" && !formats.isAbsolute text, message)]
  | registry name ociDigest => [(name ≠ "", message), validateDistributionDigest ociDigest]

def PackageLock.identities : List String :=
  (lock.packages.map LockedPackage.name).dedup

/-- The package of a name, the last if there are several. -/
def PackageLock.locked (name : String) : Option (LockedPackage Version) :=
  lock.packages.reverse.find? fun package => package.name = name

/-- The names a locked package depends on. -/
def PackageLock.edges (name : String) : List String :=
  ((lock.locked name).map fun package => package.dependencies.map LockedDependency.name).getD []

def PackageLock.dependencyChecks (package : LockedPackage Version)
    (dependency : LockedDependency Version) : List (Bool × String) :=
  validatePackageName dependency.name ::
    validateDigest formats "dependency digest" dependency.digest ::
    match lock.locked dependency.name with
    | none => [(false, s!"locked dependency '{dependency.name}' is missing from the closure")]
    | some locked => [(dependency.version = locked.version && dependency.digest = locked.digest,
        s!"locked edge '{package.name} -> {dependency.name}' disagrees with the target package")]

/-- The checks of the packages that come after a previous name. -/
def PackageLock.packageChecks :
    Option String → List (LockedPackage Version) → List (Bool × String)
  | _, [] => []
  | previous, package :: rest =>
    [validatePackageName package.name,
      (!previous.any (package.name ≤ ·), "locked packages must be uniquely sorted by identity"),
      validateDigest formats "package digest" package.digest,
      validateDistributionDigest package.distributionDigest] ++
    package.source.checks formats "locked package has an invalid acquisition source" ++
    [(decide ((package.dependencies.map LockedDependency.name).IsChain (· < ·)),
      s!"dependencies of '{package.name}' must be uniquely sorted")] ++
    package.dependencies.flatMap (lock.dependencyChecks formats package) ++
    package.source.checks formats
      s!"locked package '{package.name}' has an invalid acquisition source" ++
    packageChecks (some package.name) rest

def PackageLock.validate : Except String Unit := do
  validateAll ((decide (lock.format = 2), "lock format must equal 2") ::
    validatePackageName lock.root :: lock.packageChecks formats none lock.packages ++
    [(decide (lock.root ∈ lock.identities), s!"root package '{lock.root}' is absent from lock")])
  match visit lock.edges lock.identities [lock.root] [] [] with
  | .error name => .error s!"package dependency cycle includes '{name}'"
  | .ok complete => validateAll [(decide (complete.length = lock.identities.length),
      "lock contains packages outside the root dependency closure")]

/-! ## What is accepted -/

variable {lock}

/-- The names, digests and source of a package are well formed, each by itself. -/
def LockedPackage.WellFormed (package : LockedPackage Version) : Prop :=
  (validatePackageName package.name).1 = true ∧ formats.isSha256 package.digest = true ∧
    (validateDistributionDigest package.distributionDigest).1 = true ∧
    (∀ check ∈ package.source.checks formats "", check.1 = true) ∧
    ∀ d ∈ package.dependencies,
      (validatePackageName d.name).1 = true ∧ formats.isSha256 d.digest = true

/-- A dependency is the package that is locked. -/
def PackageLock.Agrees (lock : PackageLock Version) (d : LockedDependency Version) : Prop :=
  ∃ locked, lock.locked d.name = some locked ∧ d.version = locked.version ∧
    d.digest = locked.digest

/-- Both checks of a source ask the same. -/
theorem LockedSource.checks_eq (source : LockedSource) (message : String) :
    (∀ check ∈ source.checks formats message, check.1 = true) ↔
      ∀ check ∈ source.checks formats "", check.1 = true := by
  cases source with
  | path | registry => simp [checks]

variable {formats}

theorem dependencyChecks_iff : (∀ check ∈ lock.dependencyChecks formats package d, check.1 = true) ↔
    ((validatePackageName d.name).1 = true ∧ formats.isSha256 d.digest = true) ∧ lock.Agrees d := by
  unfold PackageLock.dependencyChecks PackageLock.Agrees
  cases lock.locked d.name with
  | none | some locked => simp [validateDigest, and_assoc]

theorem packageChecks_iff :
    (∀ check ∈ lock.packageChecks formats previous packages, check.1 = true) ↔
      (∀ package ∈ packages, package.WellFormed formats ∧
        (package.dependencies.map LockedDependency.name).IsChain (· < ·) ∧
          ∀ d ∈ package.dependencies, lock.Agrees d) ∧
      (previous.toList ++ packages.map LockedPackage.name).IsChain (· < ·) := by
  induction packages generalizing previous with
  | nil => cases previous <;> simp [PackageLock.packageChecks]
  | cons package rest ih =>
    have hchain : (previous.toList ++ package.name :: rest.map LockedPackage.name).IsChain (· < ·) ↔
        previous.any (package.name ≤ ·) = false ∧
          (package.name :: rest.map LockedPackage.name).IsChain (· < ·) := by
      cases previous <;> simp
    rw [forall_mem_cons, map_cons, hchain]
    simp only [PackageLock.packageChecks, forall_mem_append, forall_mem_cons, forall_mem_flatMap,
      dependencyChecks_iff, LockedSource.checks_eq, ih, LockedPackage.WellFormed, forall₂_and,
      Bool.not_eq_true', decide_eq_true_eq, not_mem_nil, validateDigest]
    tauto

omit [DecidableEq Version] in
theorem mem_of_locked (h : lock.locked name = some package) :
    package ∈ lock.packages ∧ package.name = name := by
  unfold PackageLock.locked at h
  exact ⟨mem_reverse.mp (mem_of_find?_eq_some h), by simpa using find?_some h⟩

omit [DecidableEq Version] in
theorem edges_subset (h : ∀ package ∈ lock.packages, ∀ d ∈ package.dependencies, lock.Agrees d)
    (name : String) : lock.edges name ⊆ lock.identities := by
  unfold PackageLock.edges
  cases hlocked : lock.locked name with
  | none => exact nil_subset _
  | some package =>
    intro target hmem
    obtain ⟨d, hd, rfl⟩ := mem_map.mp hmem
    obtain ⟨found, hfound, -⟩ := h package (mem_of_locked hlocked).1 d hd
    exact mem_dedup.mpr (mem_map.mpr ⟨found, mem_of_locked hfound⟩)

theorem validate_iff_visit : lock.validate formats = .ok () ↔
    (lock.format = 2 ∧ (validatePackageName lock.root).1 = true ∧
      (∀ check ∈ lock.packageChecks formats none lock.packages, check.1 = true) ∧
        lock.root ∈ lock.identities) ∧
    ∃ complete, visit lock.edges lock.identities [lock.root] [] [] = .ok complete ∧
      complete.length = lock.identities.length := by
  unfold PackageLock.validate
  simp only [bind_eq_ok, validateAll_eq_ok, exists_const, forall_mem_append,
    forall_mem_cons, cons_append]
  cases visit lock.edges lock.identities [lock.root] [] [] with
  | error name => simp
  | ok complete => simp [validateAll_eq_ok, and_assoc]

/-- **The locks that are accepted.** -/
theorem validate_eq_ok : lock.validate formats = .ok () ↔
    (lock.format = 2 ∧ (validatePackageName lock.root).1 = true ∧
      ∀ package ∈ lock.packages, package.WellFormed formats) ∧
    (lock.packages.map LockedPackage.name).Pairwise (· < ·) ∧
    (∀ package ∈ lock.packages,
      (package.dependencies.map LockedDependency.name).Pairwise (· < ·) ∧
        ∀ d ∈ package.dependencies, lock.Agrees d) ∧
    lock.root ∈ lock.identities ∧ (∀ name, ¬ TransGen (Edge lock.edges) name name) ∧
    ∀ name, name ∈ lock.identities ↔ ReflTransGen (Edge lock.edges) lock.root name := by
  rw [validate_iff_visit, packageChecks_iff]
  simp only [isChain_iff_pairwise, Option.toList_none, nil_append, forall₂_and]
  constructor
  · rintro ⟨⟨hformat, hname, ⟨⟨hwell, hsorted, hagree⟩, hnames⟩, hroot⟩, hvisit⟩
    exact ⟨⟨hformat, hname, hwell⟩, hnames, ⟨hsorted, hagree⟩, hroot,
      (visit_all_iff (edges_subset hagree) hroot (nodup_dedup _)).mp hvisit⟩
  · rintro ⟨⟨hformat, hname, hwell⟩, hnames, ⟨hsorted, hagree⟩, hroot, hgraph⟩
    exact ⟨⟨hformat, hname, ⟨⟨hwell, hsorted, hagree⟩, hnames⟩, hroot⟩,
      (visit_all_iff (edges_subset hagree) hroot (nodup_dedup _)).mpr hgraph⟩

end Idl
