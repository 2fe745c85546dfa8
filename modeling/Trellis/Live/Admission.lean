/-
# Admission of Live sessions

The manager counts provider sessions in total and by caller, and keeps a receipt and the caller's
guard of closed ones.  A permit is released when it is dropped.

Receipts and guards have a lock each: `insert_receipt` writes the receipt, and evicts the oldest
with its guard, before it takes the lock for its own guard.  An insertion in between can evict a
receipt whose guard is still to come, and the guard then stays (`orphaned_guard`).  Insertions
that do not overlap keep both maps on the same sessions but for the one under way
(`admission_accounted`).
-/
import Mathlib.Algebra.BigOperators.Group.List.Lemmas
import Trellis.Lib.Run

namespace Live.Admission

open List Relation Nat

def maxProviderSessions : Nat := 64
def maxProviderSessionsPerCaller : Nat := 16
def maxTombstones : Nat := 256

-- Callers and sessions are named by strings that are only compared.
variable {Caller Id : Type} [DecidableEq Caller] [DecidableEq Id]

/-! ## Counting -/

/-- `per_caller` has no entry where the count is zero. -/
structure ProviderAdmission (Caller : Type) where
  total : Nat
  perCaller : Caller → Nat

namespace ProviderAdmission

def new : ProviderAdmission Caller := ⟨0, fun _ => 0⟩

/-- `admit`: the counts after an admission, or nothing for `ResourceExhausted`. -/
def admitCaller (a : ProviderAdmission Caller) (caller : Caller) :
    Option (ProviderAdmission Caller) :=
  if a.total ≥ maxProviderSessions then none
  else if a.perCaller caller ≥ maxProviderSessionsPerCaller then none
  else some ⟨a.total + 1, Function.update a.perCaller caller (a.perCaller caller + 1)⟩

def release (a : ProviderAdmission Caller) (caller : Caller) : ProviderAdmission Caller :=
  ⟨a.total - 1, Function.update a.perCaller caller (a.perCaller caller - 1)⟩

/-- The counts are those of the permits, within their bounds. -/
structure Counts (a : ProviderAdmission Caller) (permits : List Caller) : Prop where
  total : a.total = permits.length
  perCaller : ∀ caller, a.perCaller caller = permits.count caller
  total_le : a.total ≤ maxProviderSessions
  perCaller_le : ∀ caller, a.perCaller caller ≤ maxProviderSessionsPerCaller

variable {a : ProviderAdmission Caller}

theorem Counts.admitCaller (h : Counts a permits) (hadm : a.admitCaller caller = some a') :
    Counts a' (caller :: permits) := by
  unfold ProviderAdmission.admitCaller at hadm
  split at hadm
  · cases hadm
  rename_i htotal
  split at hadm
  · cases hadm
  rename_i hcaller
  cases hadm
  refine ⟨by simp [h.total], fun other => ?_, lt_of_not_ge htotal, fun other => ?_⟩
  all_goals
    by_cases hother : other = caller
    · subst hother
      simp only [Function.update_self]
      first
      | rw [h.perCaller, count_cons_self]
      | exact lt_of_not_ge hcaller
    · simp only [Function.update_of_ne hother]
      first
      | rw [h.perCaller, count_cons_of_ne (Ne.symm hother)]
      | exact h.perCaller_le other

theorem Counts.release (h : Counts a permits) (hpermit : caller ∈ permits) :
    Counts (a.release caller) (permits.erase caller) := by
  refine ⟨?_, fun other => ?_, (sub_le _ _).trans h.total_le, fun other => ?_⟩
  · simp only [ProviderAdmission.release, h.total, length_erase_of_mem hpermit]
  all_goals
    simp only [ProviderAdmission.release]
    by_cases hother : other = caller
    · subst hother
      simp only [Function.update_self]
      first
      | rw [h.perCaller, count_erase_self]
      | exact (sub_le _ _).trans (h.perCaller_le other)
    · simp only [Function.update_of_ne hother]
      first
      | rw [h.perCaller, count_erase_of_ne hother]
      | exact h.perCaller_le other

/-- The callers that have an entry add up to the total. -/
theorem Counts.sum (h : Counts a permits) {callers : List Caller} (hnodup : callers.Nodup)
    (hentries : ∀ caller, caller ∈ callers ↔ a.perCaller caller ≠ 0) :
    a.total = (callers.map a.perCaller).sum := by
  have hperm : callers.Perm permits.dedup := by
    refine (perm_ext_iff_of_nodup hnodup (nodup_dedup _)).mpr fun caller => ?_
    rw [hentries, h.perCaller, mem_dedup, Nat.ne_zero_iff_zero_lt, count_pos_iff]
  have hcount : a.perCaller = fun caller => permits.count caller := funext h.perCaller
  rw [(hperm.map _).sum_eq, hcount, sum_map_count_dedup_eq_length, h.total]

end ProviderAdmission

/-! ## The manager -/

/-- The counts with the live permits; receipts oldest first, guards, and the insertions that have
written their receipt and not yet their guard. -/
structure Manager (Caller Id : Type) where
  admission : ProviderAdmission Caller
  permits : List Caller
  tombstones : List Id
  closedGuards : List Id
  inserting : List Id

/-- What a thread does under one lock. -/
inductive Act (Caller Id : Type) where
  | admitProvider (caller : Caller)
  | dropPermit (caller : Caller)
  | insertReceipt (session : Id)
  | insertGuard (session : Id)

namespace Manager

def new : Manager Caller Id := ⟨.new, [], [], [], []⟩

def step (m : Manager Caller Id) : Act Caller Id → Manager Caller Id
  | .admitProvider caller =>
    match m.admission.admitCaller caller with
    | none => m
    | some admission => { m with admission, permits := caller :: m.permits }
  | .dropPermit caller =>
    if caller ∈ m.permits then
      { m with admission := m.admission.release caller, permits := m.permits.erase caller }
    else m
  | .insertReceipt session =>
    let tombstones := m.tombstones.filter (· ≠ session) ++ [session]
    let inserting := session :: m.inserting
    if tombstones.length > maxTombstones then
      { m with
        tombstones := tombstones.tail
        closedGuards := m.closedGuards.filter fun guard => tombstones.head? ≠ some guard
        inserting }
    else { m with tombstones, inserting }
  | .insertGuard session =>
    if session ∈ m.inserting then
      { m with
        closedGuards := m.closedGuards.insert session
        inserting := m.inserting.erase session }
    else m

variable {m : Manager Caller Id}

theorem counts_step (h : m.admission.Counts m.permits) :
    (m.step act).admission.Counts (m.step act).permits := by
  cases act with
  | admitProvider caller =>
    simp only [step]
    split
    · exact h
    next hadm => exact h.admitCaller hadm
  | dropPermit caller =>
    simp only [step]
    split
    next hpermit => exact h.release hpermit
    · exact h
  | insertReceipt session | insertGuard session =>
    simp only [step]
    split <;> exact h

/-- An insertion that starts while none is under way. -/
def Alone (m : Manager Caller Id) : Act Caller Id → Prop
  | .insertReceipt _ => m.inserting = []
  | _ => True

/-- Receipts are bounded and guards have their sessions, but for the one being inserted. -/
structure Paired (m : Manager Caller Id) : Prop where
  nodup : m.tombstones.Nodup
  length_le : m.tombstones.length ≤ maxTombstones
  inserting : m.inserting.length ≤ 1 ∧ ∀ session ∈ m.inserting, session ∈ m.tombstones
  keys : ∀ session, session ∉ m.inserting → (session ∈ m.closedGuards ↔ session ∈ m.tombstones)

theorem Paired.insertReceipt (h : m.Paired) (halone : m.inserting = [])
    (session : Id) : (m.step (.insertReceipt session)).Paired := by
  have hkeys : ∀ other, other ∈ m.closedGuards ↔ other ∈ m.tombstones := fun other =>
    h.keys other (halone ▸ not_mem_nil)
  have hnodup : (m.tombstones.filter (· ≠ session) ++ [session]).Nodup :=
    (h.nodup.filter _).append (nodup_singleton session) (by simp)
  have hmem : ∀ other, other ∉ session :: m.inserting → other ≠ session ∧
      (other ∈ m.closedGuards ↔ other ∈ m.tombstones.filter (· ≠ session) ++ [session]) := by
    intro other hother
    have hne : other ≠ session := fun heq => hother (heq ▸ mem_cons_self)
    exact ⟨hne, by simp [hkeys, hne]⟩
  have hone : (session :: m.inserting).length ≤ 1 := by simp [halone]
  simp only [step]
  split
  next hfull =>
    have hlength := (length_filter_le (· ≠ session) m.tombstones).trans h.length_le
    cases hfilter : m.tombstones.filter (· ≠ session) with
    | nil =>
      rw [hfilter] at hfull
      exact absurd hfull (by simp [maxTombstones])
    | cons oldest rest =>
      -- the oldest goes from both; it is not the session, which comes last
      simp only [hfilter, cons_append, length_cons] at hnodup hmem hlength
      obtain ⟨holdest, hrest⟩ := nodup_cons.mp hnodup
      refine ⟨hrest, by simpa using hlength, ⟨hone, by simp [halone]⟩, fun other hother => ?_⟩
      obtain ⟨-, hiff⟩ := hmem other hother
      by_cases heq : oldest = other
      · subst heq
        simpa using holdest
      · simpa [heq, Ne.symm heq] using hiff
  next hfits =>
    exact ⟨hnodup, le_of_not_gt hfits, ⟨hone, by simp [halone]⟩,
      fun other hother => (hmem other hother).2⟩

theorem Paired.step (h : m.Paired) (halone : m.Alone act) : (m.step act).Paired := by
  cases act with
  | admitProvider caller | dropPermit caller =>
    simp only [Manager.step]
    split <;> exact ⟨h.nodup, h.length_le, h.inserting, h.keys⟩
  | insertReceipt session => exact h.insertReceipt halone session
  | insertGuard session =>
    simp only [Manager.step]
    split
    next hsession =>
      obtain ⟨hone, hpresent⟩ := h.inserting
      -- the session is the only one being inserted
      have honly : m.inserting = [session] := by
        obtain ⟨other, hother⟩ := length_eq_one_iff.mp
          (le_antisymm hone (length_pos_of_mem hsession))
        rw [hother, mem_singleton] at hsession
        rw [hother, hsession]
      refine ⟨h.nodup, h.length_le, ⟨by simp [honly], by simp [honly]⟩, fun other _ => ?_⟩
      by_cases hother : other = session
      · subst hother
        simp [hpresent other hsession]
      · rw [mem_insert_iff, or_iff_right hother]
        exact h.keys other (by simpa [honly] using hother)
    · exact h

/-- **Admission is accounted for**: the total is the number of permits and the sum over callers,
within both bounds.  Where insertions do not overlap, in every state every guard has a receipt,
every receipt but that of the insertion under way has a guard, and the receipts are bounded. -/
theorem admission_accounted :
    (∀ m : Manager Caller Id, ReflTransGen (fun m m' => ∃ act, m' = m.step act) new m →
      m.admission.total = m.permits.length ∧ m.admission.total ≤ maxProviderSessions ∧
      (∀ callers : List Caller, callers.Nodup →
        (∀ caller, caller ∈ callers ↔ m.admission.perCaller caller ≠ 0) →
        m.admission.total = (callers.map m.admission.perCaller).sum) ∧
      ∀ caller, m.admission.perCaller caller ≤ maxProviderSessionsPerCaller) ∧
    ∀ m : Manager Caller Id, ReflTransGen (fun m m' => ∃ act, m.Alone act ∧ m' = m.step act) new m →
      m.tombstones.length ≤ maxTombstones ∧ m.closedGuards ⊆ m.tombstones ∧
        m.inserting.length ≤ 1 ∧
        ∀ session ∈ m.tombstones, session ∈ m.closedGuards ∨ session ∈ m.inserting := by
  constructor
  · intro m hrun
    have hcounts : m.admission.Counts m.permits := by
      refine Run.keeps (P := fun m : Manager Caller Id => m.admission.Counts m.permits) ?_ hrun
        ⟨rfl, fun _ => rfl, zero_le _, fun _ => zero_le _⟩
      rintro m _ ⟨act, rfl⟩ h
      exact counts_step h
    exact ⟨hcounts.total, hcounts.total_le, fun callers => hcounts.sum, hcounts.perCaller_le⟩
  · intro m hrun
    have hpaired : m.Paired := by
      refine Run.keeps (P := Paired) ?_ hrun
        ⟨nodup_nil, zero_le _, ⟨zero_le _, fun _ h => nomatch h⟩, fun _ _ => Iff.rfl⟩
      rintro m _ ⟨act, halone, rfl⟩ h
      exact h.step halone
    obtain ⟨hone, hpresent⟩ := hpaired.inserting
    refine ⟨hpaired.length_le, fun session hguard => ?_, hone, fun session hreceipt => ?_⟩
    · by_cases hsession : session ∈ m.inserting
      · exact hpresent session hsession
      · exact (hpaired.keys session hsession).mp hguard
    · by_cases hsession : session ∈ m.inserting
      · exact .inr hsession
      · exact .inl ((hpaired.keys session hsession).mpr hreceipt)

/-- Two sessions of one caller close one after the other, and the first once more. -/
theorem admission_accounted_closed : ∃ m : Manager Nat Nat, m.admission.total = 1 ∧
    m.tombstones = [2, 1] ∧ m.closedGuards ⊆ m.tombstones ∧
    ∀ session ∈ m.tombstones, session ∈ m.closedGuards ∨ session ∈ m.inserting := by
  have hrun := Run.of_foldl Manager.step Alone (new : Manager Nat Nat)
    [.admitProvider 7, .admitProvider 7, .dropPermit 7, .insertReceipt 1, .insertGuard 1,
      .insertReceipt 2, .insertGuard 2, .insertReceipt 1]
    (by
      refine ⟨trivial, trivial, trivial, rfl, trivial, ?_, trivial, ?_, trivial⟩ <;>
        unfold Alone <;> decide +kernel)
  obtain ⟨-, hguards, -, hreceipts⟩ := admission_accounted.2 _ hrun
  exact ⟨_, by decide +kernel, by decide +kernel, hguards, hreceipts⟩

set_option maxRecDepth 100000 in
/-- While session 0's guard is to come, 256 others close and evict its receipt; the guard stays. -/
theorem orphaned_guard : let others : List (Act Nat Nat) := (range maxTombstones).flatMap fun n =>
      [.insertReceipt (n + 1), .insertGuard (n + 1)]
    let acts : List (Act Nat Nat) := [.insertReceipt 0] ++ others ++ [.insertGuard 0]
    let m := acts.foldl step new
    m.inserting = [] ∧ 0 ∈ m.closedGuards ∧ 0 ∉ m.tombstones := by
  decide +kernel

end Manager

end Live.Admission
