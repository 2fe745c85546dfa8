/-
# Runtime leases

Lease entries of one bucket, the guards that managers hold for them, and the writes under way.  A
write names the revision it replaces, so it takes effect only on the entry it was sent for,
however late; its answers may be lost, and an entry may expire at any time.

`Step` is one step of a manager, of the bucket or of the clock; `Inv` holds in every world
reached.  A guard is bound to its own acquisition as long as no acquisition is stored under the
owner id of a guard that is still held for the key.
-/
import Mathlib.Data.Nat.Basic
import Mathlib.Order.Basic
import Trellis.Lib.Run

namespace Leases

open List Checked

/-! ## The bucket -/

/-- The key of a lease entry. -/
structure LeaseKey where
  value : String
  deriving DecidableEq

/-- The owner id that was put, or a delete or purge marker. -/
inductive Operation where
  | put (owner : String)
  | delete
  deriving DecidableEq

/-- An entry.  `acquisition`, which the bucket does not keep, is the revision of its `create`. -/
structure Entry where
  key : LeaseKey
  operation : Operation
  (revision acquisition : Nat)
  deriving DecidableEq

/-- A `create` that was stored. -/
structure Acquisition where
  key : LeaseKey
  owner : String
  revision : Nat
  deriving DecidableEq

/-- The last revision given out, the current entries, every entry ever stored and every acquisition.
-/
structure Bucket where
  last : Nat
  entry : LeaseKey → Option Entry
  stored : List Entry
  acquisitions : List Acquisition

namespace Bucket

/-- A bucket without entries. -/
def empty : Bucket := ⟨0, fun _ => none, [], []⟩

variable (b : Bucket) (key : LeaseKey)

/-- Store an entry under the next revision. -/
def store (operation : Operation) (acquisition : Nat) : Bucket :=
  let entry : Entry := ⟨key, operation, b.last + 1, acquisition⟩
  { b with
    last := b.last + 1
    entry := fun k => if k = key then some entry else b.entry k
    stored := entry :: b.stored }

/-- The revision a conditional write to the key has to name. -/
def revision : Nat := ((b.entry key).map Entry.revision).getD 0

/-- No entry is put under the key: it is absent, expired or marked as deleted. -/
def isFree : Bool :=
  (b.entry key).all fun entry => entry.operation == .delete

/-- `create`: put a first entry under a free key. -/
def create (owner : String) : Bucket :=
  let acquired := b.store key (.put owner) (b.last + 1)
  { acquired with acquisitions := ⟨key, owner, b.last + 1⟩ :: b.acquisitions }

/-- The entry of a key outlives its maximal age. -/
def expire : Bucket :=
  { b with entry := fun k => if k = key then none else b.entry k }

end Bucket

/-! ## Guards and the calls of a manager -/

/-- `LeaseGuard`, with `fence` for the acquisition revision of its `LeaseFence`. -/
structure LeaseGuard where
  key : LeaseKey
  (fence currentRevision : Nat)
  deriving DecidableEq

/-- A conditional write that was sent, by a renewal or a release, with its guard's fence. -/
structure Request where
  key : LeaseKey
  operation : Operation
  (expected fence : Nat)
  deriving DecidableEq

/-- The bucket handles a write: the revision it names must be the one of the key. -/
def Bucket.handle (b : Bucket) (request : Request) : Option Bucket :=
  if b.revision request.key = request.expected then
    some (b.store request.key request.operation
      (((b.entry request.key).map Entry.acquisition).getD 0))
  else none

/-- `LeaseError`, for the errors of the calls on an open bucket. -/
inductive LeaseError where
  | held | notHeld | stale
  | backend (operation : String)
  deriving DecidableEq

/-- What `renew` makes of the entry it reads after an update that was left open. -/
def adopt (owner : String) (current : Nat) : Option Entry → Except LeaseError Nat
  | some entry =>
    if entry.operation = .put owner ∧ current < entry.revision then .ok entry.revision
    else if entry.operation = .put owner then .error (.backend "renew")
    else if entry.operation = .delete then .error .notHeld
    else .error .stale
  | none => .error .notHeld

theorem adopt_eq_ok (h : adopt owner current (some entry) = .ok revision) :
    entry.operation = .put owner ∧ current < entry.revision ∧ entry.revision = revision := by
  simp only [adopt] at h
  split at h
  next hput => exact ⟨hput.1, hput.2, Except.ok.inj h⟩
  · split at h
    · cases h
    · split at h <;> cases h

/-- A guard is idle, awaits an answer, or reads the entry after one that left the update open. -/
inductive Phase where
  | idle
  | updating
  | inspecting
  deriving DecidableEq

/-- A guard that has been neither released nor dropped, with the owner id of its manager. -/
structure Held where
  guard : LeaseGuard
  owner : String
  phase : Phase
  deriving DecidableEq

/-- The update a renewal sends. -/
def Held.update (held : Held) : Request :=
  ⟨held.guard.key, .put held.owner, held.guard.currentRevision, held.guard.fence⟩

/-- The delete a release sends. -/
def LeaseGuard.delete (guard : LeaseGuard) : Request :=
  ⟨guard.key, .delete, guard.currentRevision, guard.fence⟩

/-! ## Steps -/

/-- The bucket, the guards, the writes sent and their answers; the guards as renewals left them, and
the entries that releases deleted with the fence released. -/
structure World where
  bucket : Bucket
  guards : Nat → Option Held
  requests : List Request
  answers : List (Request × Nat)
  renewed : List LeaseGuard
  deleted : List (Entry × Nat)

namespace World

/-- Nothing has happened. -/
def initial : World := ⟨.empty, fun _ => none, [], [], [], []⟩

variable (w : World)

/-- Replace what is held under an id. -/
def setGuard (id : Nat) (held : Option Held) : World :=
  { w with guards := fun i => if i = id then held else w.guards i }

/-- A guard is held for the key under the owner id. -/
def HeldBy (key : LeaseKey) (owner : String) : Prop :=
  ∃ id held, w.guards id = some held ∧ held.guard.key = key ∧ held.owner = owner

/-- The guard that a stored `create` gives its caller. -/
def acquired (id : Nat) (key : LeaseKey) (owner : String) : World :=
  { w with bucket := w.bucket.create key owner }.setGuard id
    (some ⟨⟨key, w.bucket.last + 1, w.bucket.last + 1⟩, owner, .idle⟩)

/-- A renewal returns `Ok` with a revision. -/
def renew (id : Nat) (held : Held) (revision : Nat) : World :=
  let guard := { held.guard with currentRevision := revision }
  { w.setGuard id (some { held with guard, phase := .idle }) with renewed := guard :: w.renewed }

end World

/-- One step.  `allowed` says which acquisitions may be stored. -/
inductive Step (allowed : World → LeaseKey → String → Prop) : World → World → Prop
  /-- `acquire` is stored and answered. -/
  | acquire {w : World} (id key owner) (hfree : w.bucket.isFree key = true)
      (hnew : w.guards id = none) (hallowed : allowed w key owner) :
      Step allowed w (w.acquired id key owner)
  /-- `acquire` is stored and its answer is lost. -/
  | acquireLost {w : World} (key owner) (hfree : w.bucket.isFree key = true)
      (hallowed : allowed w key owner) :
      Step allowed w { w with bucket := w.bucket.create key owner }
  /-- A guard is cloned. -/
  | clone {w : World} (id new held) (hheld : w.guards id = some held) (hnew : w.guards new = none) :
      Step allowed w (w.setGuard new (some { held with phase := .idle }))
  /-- A guard is dropped, also in the middle of a renewal. -/
  | drop {w : World} (id) : Step allowed w (w.setGuard id none)
  /-- `renew` sends its update. -/
  | renew {w : World} (id held) (hheld : w.guards id = some held) (hidle : held.phase = .idle) :
      Step allowed w { w.setGuard id (some { held with phase := .updating }) with
        requests := held.update :: w.requests }
  /-- The update of a renewal is answered with a revision. -/
  | renewed {w : World} (id held revision) (hheld : w.guards id = some held)
      (hphase : held.phase = .updating) (hanswer : (held.update, revision) ∈ w.answers) :
      Step allowed w (w.renew id held revision)
  /-- The update of a renewal times out or conflicts with another one. -/
  | ambiguous {w : World} (id held) (hheld : w.guards id = some held)
      (hphase : held.phase = .updating) :
      Step allowed w (w.setGuard id (some { held with phase := .inspecting }))
  /-- A renewal fails with another error. -/
  | renewFailed {w : World} (id held) (hheld : w.guards id = some held) :
      Step allowed w (w.setGuard id (some { held with phase := .idle }))
  /-- A renewal adopts the entry it reads, which a replica may give from the past. -/
  | adopt {w : World} (id held entry revision) (hheld : w.guards id = some held)
      (hphase : held.phase = .inspecting) (hentry : entry ∈ w.bucket.stored)
      (hkey : entry.key = held.guard.key)
      (hadopt : adopt held.owner held.guard.currentRevision (some entry) = .ok revision) :
      Step allowed w (w.renew id held revision)
  /-- `release` takes the guard and sends its delete. -/
  | release {w : World} (id held) (hheld : w.guards id = some held) (hidle : held.phase = .idle) :
      Step allowed w { w.setGuard id none with requests := held.guard.delete :: w.requests }
  /-- The bucket handles a write that puts an entry. -/
  | handlePut {w : World} (request owner b) (hsent : request ∈ w.requests)
      (hput : request.operation = .put owner) (hhandle : w.bucket.handle request = some b) :
      Step allowed w { w with bucket := b, answers := (request, b.last) :: w.answers }
  /-- The bucket handles a write that deletes an entry. -/
  | handleDelete {w : World} (request entry b) (hsent : request ∈ w.requests)
      (hdelete : request.operation = .delete) (hentry : w.bucket.entry request.key = some entry)
      (hhandle : w.bucket.handle request = some b) :
      Step allowed w { w with bucket := b, deleted := (entry, request.fence) :: w.deleted }
  /-- An entry expires. -/
  | expire {w : World} (key) : Step allowed w { w with bucket := w.bucket.expire key }

/-- The worlds that runs reach. -/
def Reachable (allowed : World → LeaseKey → String → Prop) (w : World) : Prop :=
  ReflTransGen (Step allowed) World.initial w

/-- Every acquisition may be stored. -/
def anyOwner : World → LeaseKey → String → Prop := fun _ _ _ => True

/-- No guard of an earlier acquisition is held for the key under the same owner id. -/
def newOwner : World → LeaseKey → String → Prop := fun w key owner => ¬ w.HeldBy key owner

/-- Up to the revision a renewal returned with no acquisition followed the guard's own, and releases
deleted only entries of their guard's acquisition. -/
structure World.Bound (w : World) : Prop where
  renewed : ∀ guard ∈ w.renewed, ∀ a ∈ w.bucket.acquisitions, a.key = guard.key →
    a.revision ≤ guard.fence ∨ guard.currentRevision < a.revision
  deleted : ∀ d ∈ w.deleted, d.1.acquisition = d.2

/-! ## The bucket keeps acquisitions apart -/

/-- Only entries of a key's current acquisition are added, and acquisitions under free keys. -/
structure Bucket.Inv (b : Bucket) : Prop where
  revision_pos : ∀ e ∈ b.stored, 0 < e.revision
  revision_le : ∀ e ∈ b.stored, e.revision ≤ b.last
  unique : ∀ e ∈ b.stored, ∀ e' ∈ b.stored, e.revision = e'.revision → e = e'
  acquired : ∀ a ∈ b.acquisitions, a.revision ≤ b.last
  acquisition_le : ∀ e ∈ b.stored, e.acquisition ≤ e.revision
  owned : ∀ e ∈ b.stored, ∀ owner, e.operation = .put owner →
    ⟨e.key, owner, e.acquisition⟩ ∈ b.acquisitions
  -- an entry is older than every acquisition that followed the one it goes back to
  between : ∀ e ∈ b.stored, ∀ a ∈ b.acquisitions, a.key = e.key →
    a.revision ≤ e.acquisition ∨ e.revision < a.revision
  current : ∀ key e, b.entry key = some e →
    e ∈ b.stored ∧ e.key = key ∧ ∀ a ∈ b.acquisitions, a.key = key → a.revision ≤ e.acquisition

namespace Bucket

theorem inv_empty : Inv empty := by
  constructor <;> simp [empty]

theorem Inv.expire (h : Inv b) (key : LeaseKey) : Inv (b.expire key) where
  __ := h
  current := by
    intro k e he
    simp only [Bucket.expire] at he
    split at he
    · cases he
    · exact h.current k e he

/-- A new entry takes the next revision. -/
theorem Inv.numbered (h : Inv b) (key : LeaseKey) (operation : Operation) (acquisition : Nat) :
    let stored := (b.store key operation acquisition).stored
    (∀ e ∈ stored, 0 < e.revision) ∧ (∀ e ∈ stored, e.revision ≤ b.last + 1) ∧
      ∀ e ∈ stored, ∀ e' ∈ stored, e.revision = e'.revision → e = e' := by
  refine ⟨?_, ?_, ?_⟩
  · rintro e (_ | ⟨_, he⟩)
    exacts [Nat.succ_pos _, h.revision_pos e he]
  · rintro e (_ | ⟨_, he⟩)
    exacts [le_rfl, (h.revision_le e he).trans (Nat.le_succ _)]
  · rintro e (_ | ⟨_, he⟩) e' (_ | ⟨_, he'⟩) heq
    · rfl
    · have := h.revision_le e' he'
      simp only at heq
      omega
    · have := h.revision_le e he
      simp only at heq
      omega
    · exact h.unique e he e' he' heq

/-- An acquisition under the next revision. -/
theorem Inv.create (h : Inv b) (key : LeaseKey) (owner : String) : Inv (b.create key owner) where
  revision_pos := (h.numbered _ _ _).1
  revision_le := (h.numbered _ _ _).2.1
  unique := (h.numbered _ _ _).2.2
  acquired := by
    rintro a (_ | ⟨_, ha⟩)
    exacts [le_rfl, (h.acquired a ha).trans (Nat.le_succ _)]
  acquisition_le := by
    rintro e (_ | ⟨_, he⟩)
    exacts [le_rfl, h.acquisition_le e he]
  owned := by
    rintro e (_ | ⟨_, he⟩) o ho
    · cases ho
      exact mem_cons_self
    · exact mem_cons_of_mem _ (h.owned e he o ho)
  between := by
    rintro e (_ | ⟨_, he⟩) a (_ | ⟨_, ha⟩) hkey
    · exact .inl le_rfl
    · exact .inl ((h.acquired a ha).trans (Nat.le_succ _))
    · exact .inr (Nat.lt_succ_of_le (h.revision_le e he))
    · exact h.between e he a ha hkey
  current := by
    intro k e he
    simp only [Bucket.create, store] at he
    split at he
    next hk =>
      cases he
      refine ⟨mem_cons_self, hk.symm, ?_⟩
      rintro a (_ | ⟨_, ha⟩) _
      exacts [le_rfl, (h.acquired a ha).trans (Nat.le_succ _)]
    next hk =>
      obtain ⟨hmem, hkey, hall⟩ := h.current k e he
      refine ⟨mem_cons_of_mem _ hmem, hkey, ?_⟩
      rintro a (_ | ⟨_, ha⟩) hak
      exacts [absurd hak.symm hk, hall a ha hak]

/-- Another entry of the current acquisition of a key: a renewal or a delete marker. -/
theorem Inv.store (h : Inv b)
    (he : b.entry key = some e) (hop : operation = e.operation ∨ operation = .delete) :
    Inv (b.store key operation e.acquisition) := by
  obtain ⟨hmem, hkey, hlast⟩ := h.current key e he
  have hle := (h.acquisition_le e hmem).trans (h.revision_le e hmem)
  constructor
  case revision_pos => exact (h.numbered _ _ _).1
  case revision_le => exact (h.numbered _ _ _).2.1
  case unique => exact (h.numbered _ _ _).2.2
  case acquired => exact fun a ha => (h.acquired a ha).trans (Nat.le_succ _)
  case acquisition_le =>
    rintro e' (_ | ⟨_, he'⟩)
    exacts [hle.trans (Nat.le_succ _), h.acquisition_le e' he']
  case owned =>
    rintro e' (_ | ⟨_, he'⟩) o ho
    · rcases hop with hop | hop
      · have := h.owned e hmem o (hop ▸ ho)
        rwa [hkey] at this
      · rw [hop] at ho
        cases ho
    · exact h.owned e' he' o ho
  case between =>
    rintro e' (_ | ⟨_, he'⟩) a ha hak
    exacts [.inl (hlast a ha hak), h.between e' he' a ha hak]
  case current =>
    intro k e' he'
    simp only [Bucket.store] at he'
    split at he'
    next hk =>
      cases he'
      exact ⟨mem_cons_self, hk.symm, fun a ha hak => hlast a ha (hak.trans hk)⟩
    · obtain ⟨hmem', hkey', hall⟩ := h.current k e' he'
      exact ⟨mem_cons_of_mem _ hmem', hkey', hall⟩

/-- A conditional write that names a stored entry's revision takes effect on that entry only. -/
theorem Inv.handle (h : Inv b)
    (hhandle : b.handle request = some b') (he : e ∈ b.stored) (hkey : e.key = request.key)
    (hexp : e.revision = request.expected) :
    b.entry request.key = some e ∧ b' = b.store request.key request.operation e.acquisition := by
  unfold Bucket.handle revision at hhandle
  split at hhandle
  next hrev =>
    cases hcur : b.entry request.key with
    | none =>
      rw [hcur] at hrev
      have := h.revision_pos e he
      simp only [Option.map_none, Option.getD_none] at hrev
      omega
    | some e' =>
      rw [hcur] at hrev hhandle
      have hsame : e' = e := h.unique e' (h.current _ e' hcur).1 e he (hrev.trans hexp.symm)
      subst hsame
      exact ⟨rfl, (Option.some.inj hhandle).symm⟩
  · cases hhandle

end Bucket

/-! ## Guards stay bound -/

/-- The entry a guard stands for. -/
def Held.entry (held : Held) : Entry :=
  ⟨held.guard.key, .put held.owner, held.guard.currentRevision, held.guard.fence⟩

/-- No acquisition of the key under the owner id of the guard followed the guard's own. -/
def Held.Latest (held : Held) (b : Bucket) : Prop :=
  ∀ a ∈ b.acquisitions, a.key = held.guard.key → a.owner = held.owner →
    a.revision ≤ held.guard.fence

/-- What every step keeps when acquisitions are stored only under new owner ids. -/
structure Inv (w : World) : Prop where
  bucket : w.bucket.Inv
  guards : ∀ id held, w.guards id = some held → held.entry ∈ w.bucket.stored
  latest : ∀ id held, w.guards id = some held → held.Latest w.bucket
  requests : ∀ r ∈ w.requests, ∃ owner, (r.operation = .put owner ∨ r.operation = .delete) ∧
    (⟨r.key, .put owner, r.expected, r.fence⟩ : Entry) ∈ w.bucket.stored
  answers : ∀ r revision, (r, revision) ∈ w.answers →
    (⟨r.key, r.operation, revision, r.fence⟩ : Entry) ∈ w.bucket.stored
  renewed : ∀ guard ∈ w.renewed, ∃ owner,
    (⟨guard.key, .put owner, guard.currentRevision, guard.fence⟩ : Entry) ∈ w.bucket.stored
  deleted : ∀ d ∈ w.deleted, d.1.acquisition = d.2

namespace Inv

theorem initial : Inv World.initial where
  bucket := Bucket.inv_empty
  guards := by simp [World.initial]
  latest := by simp [World.initial]
  requests := by simp [World.initial]
  answers := by simp [World.initial]
  renewed := by simp [World.initial]
  deleted := by simp [World.initial]

theorem bound (h : Inv w) : w.Bound where
  renewed := by
    intro guard hguard a ha hkey
    obtain ⟨owner, hmem⟩ := h.renewed guard hguard
    exact h.bucket.between _ hmem a ha hkey
  deleted := h.deleted

theorem setGuard (h : Inv w) (id : Nat)
    (ho : ∀ held, o = some held → held.entry ∈ w.bucket.stored ∧ held.Latest w.bucket) :
    Inv (w.setGuard id o) := by
  have hguards : ∀ i held, (w.setGuard id o).guards i = some held →
      held.entry ∈ w.bucket.stored ∧ held.Latest w.bucket := by
    intro i held hi
    simp only [World.setGuard] at hi
    split at hi
    · exact ho held hi
    · exact ⟨h.guards i held hi, h.latest i held hi⟩
  exact { h with
    guards := fun i held hi => (hguards i held hi).1
    latest := fun i held hi => (hguards i held hi).2 }

/-- A new phase of a guard that is held. -/
theorem setPhase (h : Inv w) (id new : Nat) (hheld : w.guards id = some held)
    (phase : Phase) : Inv (w.setGuard new (some { held with phase })) := by
  apply h.setGuard new
  rintro _ ⟨⟩
  exact ⟨h.guards id held hheld, h.latest id held hheld⟩

/-- A renewal returns with the revision of an entry of its own acquisition. -/
theorem renew (h : Inv w) (id : Nat) (hheld : w.guards id = some held)
    (hmem : (⟨held.guard.key, .put held.owner, revision, held.guard.fence⟩ : Entry)
      ∈ w.bucket.stored) : Inv (w.renew id held revision) := by
  have hset : Inv (w.setGuard id
      (some { held with
        guard := { held.guard with currentRevision := revision }, phase := .idle })) := by
    refine h.setGuard id ?_
    rintro _ ⟨⟩
    exact ⟨hmem, h.latest id held hheld⟩
  refine { hset with renewed := ?_ }
  rintro guard (_ | ⟨_, hguard⟩)
  exacts [⟨held.owner, hmem⟩, h.renewed guard hguard]

/-- A write that keeps the bucket's invariant and adds no acquisition under a guard's owner id. -/
theorem setBucket (h : Inv w) (hb : b.Inv) (hsto : w.bucket.stored ⊆ b.stored)
    (hlatest : ∀ id held, w.guards id = some held → held.Latest b) :
    Inv { w with bucket := b } where
  bucket := hb
  guards := fun id held hid => hsto (h.guards id held hid)
  latest := hlatest
  requests := by
    intro r hr
    obtain ⟨owner, hop, hmem⟩ := h.requests r hr
    exact ⟨owner, hop, hsto hmem⟩
  answers := fun r revision hr => hsto (h.answers r revision hr)
  renewed := by
    intro guard hguard
    obtain ⟨owner, hmem⟩ := h.renewed guard hguard
    exact ⟨owner, hsto hmem⟩
  deleted := h.deleted

theorem create (h : Inv w) (hnew : newOwner w key owner) :
    Inv { w with bucket := w.bucket.create key owner } := by
  refine h.setBucket (h.bucket.create key owner) (subset_cons_self _ _) ?_
  rintro id held hid a (_ | ⟨_, ha⟩) hkey howner
  · exact absurd ⟨id, held, hid, hkey.symm, howner.symm⟩ hnew
  · exact h.latest id held hid a ha hkey howner

theorem acquired (h : Inv w) (id : Nat)
    (hnew : newOwner w key owner) : Inv (w.acquired id key owner) := by
  refine (h.create hnew).setGuard id ?_
  rintro _ ⟨⟩
  refine ⟨mem_cons_self, ?_⟩
  rintro a (_ | ⟨_, ha⟩) _ _
  exacts [le_rfl, (h.bucket.acquired a ha).trans (Nat.le_succ _)]

theorem step (h : Inv w) (hstep : Step newOwner w w') : Inv w' := by
  cases hstep with
  | acquire id key owner _ _ hall => exact h.acquired id hall
  | acquireLost key owner _ hall => exact h.create hall
  | clone id new held hheld _ => exact h.setPhase id new hheld .idle
  | drop id => exact h.setGuard id (by simp)
  | renew id held hheld _ =>
    refine { h.setPhase id id hheld .updating with requests := ?_ }
    rintro r (_ | ⟨_, hr⟩)
    exacts [⟨held.owner, .inl rfl, h.guards id held hheld⟩, h.requests r hr]
  | renewed id held revision hheld _ hanswer =>
    exact h.renew id hheld (h.answers _ revision hanswer)
  | ambiguous id held hheld _ => exact h.setPhase id id hheld .inspecting
  | renewFailed id held hheld => exact h.setPhase id id hheld .idle
  | adopt id held e revision hheld _ he hkey hadopt =>
    refine h.renew id hheld ?_
    -- the entry was put under the guard's owner id, so by an acquisition not after the guard's,
    -- and it is newer than that
    obtain ⟨hput, hlt, rfl⟩ := adopt_eq_ok hadopt
    have hguard := h.guards id held hheld
    have hle : e.acquisition ≤ held.guard.fence :=
      h.latest id held hheld _ (h.bucket.owned e he held.owner hput) hkey rfl
    have hge : held.guard.fence ≤ e.acquisition := by
      have hfence : held.guard.fence ≤ held.guard.currentRevision :=
        h.bucket.acquisition_le _ hguard
      have hnext : held.guard.fence ≤ e.acquisition ∨ e.revision < held.guard.fence :=
        h.bucket.between e he _ (h.bucket.owned _ hguard held.owner rfl) hkey.symm
      omega
    rw [← hkey, ← hput, ← Nat.le_antisymm hle hge]
    exact he
  | release id held hheld _ =>
    refine { h.setGuard id (o := none) (by simp) with requests := ?_ }
    rintro r (_ | ⟨_, hr⟩)
    exacts [⟨held.owner, .inr rfl, h.guards id held hheld⟩, h.requests r hr]
  | handlePut r owner b hsent hput hhandle =>
    obtain ⟨o, hop, hmem⟩ := h.requests r hsent
    obtain ⟨hcur, rfl⟩ := h.bucket.handle hhandle hmem rfl rfl
    have ho : r.operation = .put o := hop.resolve_right (by simp [hput])
    have hbucket := h.setBucket (h.bucket.store hcur (.inl ho)) (subset_cons_self _ _) h.latest
    refine { hbucket with answers := ?_ }
    rintro r' revision (_ | ⟨_, hr'⟩)
    exacts [mem_cons_self, mem_cons_of_mem _ (h.answers r' revision hr')]
  | handleDelete r e b hsent hdelete hentry hhandle =>
    obtain ⟨o, hop, hmem⟩ := h.requests r hsent
    obtain ⟨hcur, rfl⟩ := h.bucket.handle hhandle hmem rfl rfl
    have hbucket := h.setBucket (h.bucket.store hcur (.inr hdelete)) (subset_cons_self _ _) h.latest
    refine { hbucket with deleted := ?_ }
    rintro d (_ | ⟨_, hd⟩)
    · rw [hentry] at hcur
      cases hcur
      rfl
    · exact h.deleted d hd
  | expire key => exact h.setBucket (h.bucket.expire key) (List.Subset.refl _) h.latest

theorem of_reachable (hrun : Reachable newOwner w) : Inv w := by
  refine Run.keeps ?_ hrun initial
  intro _ _ hstep h
  exact h.step hstep

end Inv

/-! ## Guards of an earlier acquisition -/

/-- Revisions that guards and answers carry were given out by the bucket. -/
structure Seen (w : World) : Prop where
  stored : ∀ e ∈ w.bucket.stored, e.revision ≤ w.bucket.last
  answers : ∀ r revision, (r, revision) ∈ w.answers → revision ≤ w.bucket.last
  guards : ∀ id held, w.guards id = some held →
    held.guard.fence ≤ w.bucket.last ∧ held.guard.currentRevision ≤ w.bucket.last

namespace Seen

theorem initial : Seen World.initial where
  stored := by simp [World.initial, Bucket.empty]
  answers := by simp [World.initial]
  guards := by simp [World.initial]

theorem setGuard (h : Seen w) (id : Nat) (ho : ∀ held, o = some held →
      held.guard.fence ≤ w.bucket.last ∧ held.guard.currentRevision ≤ w.bucket.last) :
    Seen (w.setGuard id o) := by
  refine { h with guards := ?_ }
  intro i held hi
  simp only [World.setGuard] at hi
  split at hi
  · exact ho held hi
  · exact h.guards i held hi

theorem setPhase (h : Seen w) (id new : Nat) (hheld : w.guards id = some held)
    (phase : Phase) : Seen (w.setGuard new (some { held with phase })) := by
  apply h.setGuard new
  rintro _ ⟨⟩
  exact h.guards id held hheld

theorem renew (h : Seen w) (id : Nat) (hheld : w.guards id = some held)
    (hle : revision ≤ w.bucket.last) : Seen (w.renew id held revision) := by
  have hset : Seen (w.setGuard id
      (some { held with
        guard := { held.guard with currentRevision := revision }, phase := .idle })) := by
    apply h.setGuard id
    rintro _ ⟨⟩
    exact ⟨(h.guards id held hheld).1, hle⟩
  exact ⟨hset.stored, hset.answers, hset.guards⟩

/-- The bucket moves on to a later revision. -/
theorem setBucket (h : Seen w) (hlast : w.bucket.last ≤ b.last)
    (hsto : ∀ e ∈ b.stored, e.revision ≤ b.last) : Seen { w with bucket := b } where
  stored := hsto
  answers := fun r revision hr => (h.answers r revision hr).trans hlast
  guards := fun id held hid =>
    ⟨(h.guards id held hid).1.trans hlast, (h.guards id held hid).2.trans hlast⟩

theorem store (h : Seen w) (key : LeaseKey) (operation : Operation) (acquisition : Nat) :
    ∀ e ∈ (w.bucket.store key operation acquisition).stored, e.revision ≤ w.bucket.last + 1 := by
  rintro e (_ | ⟨_, he⟩)
  exacts [le_rfl, (h.stored e he).trans (Nat.le_succ _)]

theorem create (h : Seen w) (key : LeaseKey) (owner : String) :
    Seen { w with bucket := w.bucket.create key owner } :=
  h.setBucket (Nat.le_succ _) (h.store key _ _)

theorem handle (h : Seen w)
    (hhandle : w.bucket.handle request = some b) : Seen { w with bucket := b } := by
  unfold Bucket.handle at hhandle
  split at hhandle
  · cases hhandle
    exact h.setBucket (Nat.le_succ _) (h.store _ _ _)
  · cases hhandle

theorem step (h : Seen w) (hstep : Step allowed w w') : Seen w' := by
  cases hstep with
  | acquire id key owner =>
    apply (h.create key owner).setGuard id
    rintro _ ⟨⟩
    exact ⟨le_rfl, le_rfl⟩
  | acquireLost key owner => exact h.create key owner
  | clone id new held hheld _ => exact h.setPhase id new hheld .idle
  | drop id => exact h.setGuard id (by simp)
  | renew id held hheld _ => exact { h.setPhase id id hheld .updating with }
  | renewed id held revision hheld _ hanswer =>
    exact h.renew id hheld (h.answers _ revision hanswer)
  | ambiguous id held hheld _ => exact h.setPhase id id hheld .inspecting
  | renewFailed id held hheld => exact h.setPhase id id hheld .idle
  | adopt id held e revision hheld _ he _ hadopt =>
    obtain ⟨-, -, rfl⟩ := adopt_eq_ok hadopt
    exact h.renew id hheld (h.stored e he)
  | release id held hheld _ => exact { h.setGuard id (o := none) (by simp) with }
  | handlePut r owner b _ _ hhandle =>
    refine { h.handle hhandle with answers := ?_ }
    rintro r' revision (_ | ⟨_, hr'⟩)
    exacts [le_rfl, (h.handle hhandle).answers r' revision hr']
  | handleDelete r e b _ _ _ hhandle => exact { h.handle hhandle with }
  | expire key => exact h.setBucket le_rfl h.stored

theorem of_reachable (hrun : Reachable allowed w) : Seen w := by
  refine Run.keeps ?_ hrun initial
  intro _ _ hstep h
  exact h.step hstep

end Seen

/-- A renewal in progress, whatever it is waiting for, can come to read the entry. -/
theorem inspecting_of_held {id : Nat} (hheld : w.guards id = some held) :
    ∃ w', ReflTransGen (Step anyOwner) w w' ∧ w'.bucket = w.bucket ∧
      w'.guards id = some { held with phase := .inspecting } := by
  have hlast : ∀ v : World, v.guards id = some { held with phase := .updating } →
      v.bucket = w.bucket → ∃ w', Step anyOwner v w' ∧ w'.bucket = w.bucket ∧
        w'.guards id = some { held with phase := .inspecting } := by
    intro v hv hbucket
    exact ⟨_, .ambiguous id _ hv rfl, hbucket, by simp [World.setGuard]⟩
  cases hphase : held.phase with
  | inspecting =>
    refine ⟨w, .refl, rfl, ?_⟩
    rw [hheld, ← hphase]
  | updating =>
    obtain ⟨w', hstep, hbucket, hguard⟩ := hlast w (by rw [hheld, ← hphase]) rfl
    exact ⟨w', .single hstep, hbucket, hguard⟩
  | idle =>
    obtain ⟨w', hstep, hbucket, hguard⟩ := hlast
      { w.setGuard id (some { held with phase := .updating }) with
        requests := held.update :: w.requests } (by simp [World.setGuard]) rfl
    exact ⟨w', .tail (.single (.renew id held hheld hphase)) hstep, hbucket, hguard⟩

/-- An acquisition under the owner id of a held guard can be taken over by it. -/
theorem unbound_of_heldBy
    (hseen : Seen w) (hheld : w.HeldBy key owner) (hbucket : w'.bucket = w.bucket.create key owner)
    (hguards : ∀ id held, w.guards id = some held → w'.guards id = some held) :
    ∃ v, ReflTransGen (Step anyOwner) w' v ∧ ¬ v.Bound := by
  obtain ⟨id, held, hid, rfl, rfl⟩ := hheld
  obtain ⟨hfence, hcur⟩ := hseen.guards id held hid
  obtain ⟨u, hrun, hu, hguard⟩ := inspecting_of_held (hguards id held hid)
  have hsto : (⟨held.guard.key, .put held.owner, w.bucket.last + 1, w.bucket.last + 1⟩ : Entry)
      ∈ u.bucket.stored := by
    rw [hu, hbucket]
    exact mem_cons_self
  have hadopt : adopt held.owner held.guard.currentRevision
      (some ⟨held.guard.key, .put held.owner, w.bucket.last + 1, w.bucket.last + 1⟩)
        = .ok (w.bucket.last + 1) := by
    simp [adopt, Nat.lt_succ_of_le hcur]
  refine ⟨_, .tail hrun (.adopt id _ _ _ hguard rfl hsto rfl hadopt), ?_⟩
  intro hbound
  have hacquired : (⟨held.guard.key, held.owner, w.bucket.last + 1⟩ : Acquisition)
      ∈ u.bucket.acquisitions := by
    rw [hu, hbucket]
    exact mem_cons_self
  have hbetween := hbound.renewed _ mem_cons_self _ hacquired rfl
  simp only at hbetween
  omega

/-- **Guards stay bound to their acquisitions** in every run in which none is stored under the owner
id of a guard still held for the key; and from every step that stores one a run leads to a guard
that is not bound. -/
theorem guards_bound_of_newOwner (w : World) : (Reachable newOwner w → w.Bound) ∧
    ∀ w', Reachable anyOwner w → Step anyOwner w w' → ¬ Step newOwner w w' →
      ∃ v, ReflTransGen (Step anyOwner) w' v ∧ ¬ v.Bound := by
  refine ⟨fun hrun => (Inv.of_reachable hrun).bound, ?_⟩
  intro w' hrun hstep hnot
  have hseen := Seen.of_reachable hrun
  -- the two relations differ in the acquisitions alone
  cases hstep with
  | acquire id key owner hfree hnew _ =>
    have hheld : w.HeldBy key owner := by
      by_contra hno
      exact hnot (.acquire id key owner hfree hnew hno)
    apply unbound_of_heldBy hseen hheld rfl
    intro i held hi
    have hne : i ≠ id := by
      rintro rfl
      rw [hnew] at hi
      cases hi
    simpa [World.acquired, World.setGuard, hne] using hi
  | acquireLost key owner hfree _ =>
    have hheld : w.HeldBy key owner := by
      by_contra hno
      exact hnot (.acquireLost key owner hfree hno)
    exact unbound_of_heldBy hseen hheld rfl (fun _ _ hi => hi)
  | clone | drop | renew | renewed | ambiguous | release | handlePut | expire =>
    exact absurd (by constructor <;> assumption) hnot
  | renewFailed id held hheld => exact absurd (.renewFailed id held hheld) hnot
  | adopt id held e revision hheld hphase he hkey hadopt =>
    exact absurd (.adopt id held e revision hheld hphase he hkey hadopt) hnot
  | handleDelete r e b hsent hdelete hentry hhandle =>
    exact absurd (.handleDelete r e b hsent hdelete hentry hhandle) hnot

/-- A renewal whose answer is lost adopts the entry it has put itself. -/
theorem own_entry_adopted :
    ∃ w, Reachable newOwner w ∧ w.renewed = [⟨⟨"trellis"⟩, 1, 2⟩] ∧ w.Bound := by
  let key : LeaseKey := ⟨"trellis"⟩
  have hnew : newOwner .initial key "runtime" := by
    rintro ⟨id, held, hid, -⟩
    cases hid
  have h₁ : Reachable newOwner _ := .single (.acquire (w := .initial) 0 key "runtime" rfl rfl hnew)
  have h₂ := h₁.tail (.renew 0 ⟨⟨key, 1, 1⟩, "runtime", .idle⟩ rfl rfl)
  have h₃ := h₂.tail (.handlePut ⟨key, .put "runtime", 1, 1⟩ "runtime" _ mem_cons_self rfl rfl)
  have h₄ := h₃.tail (.ambiguous 0 ⟨⟨key, 1, 1⟩, "runtime", .updating⟩ rfl rfl)
  have h₅ := h₄.tail (.adopt 0 ⟨⟨key, 1, 1⟩, "runtime", .inspecting⟩
    ⟨key, .put "runtime", 2, 1⟩ 2 rfl rfl
      mem_cons_self rfl rfl)
  exact ⟨_, h₅, rfl, (guards_bound_of_newOwner _).1 h₅⟩

/-- The entry of one clone expires and another acquires; the first renews, adopts and releases it.
-/
theorem second_acquisition_released : ∃ w, Reachable anyOwner w ∧ ¬ w.Bound ∧
      w.renewed = [⟨⟨"trellis"⟩, 1, 2⟩] ∧
      w.deleted = [(⟨⟨"trellis"⟩, .put "runtime", 2, 2⟩, 1)] := by
  let key : LeaseKey := ⟨"trellis"⟩
  have h₁ : Reachable anyOwner _ :=
    .single (.acquire (w := .initial) 0 key "runtime" rfl rfl trivial)
  have h₂ := h₁.tail (.expire key)
  have h₃ := h₂.tail (.acquire 1 key "runtime" rfl rfl trivial)
  have h₄ := h₃.tail (.renew 0 ⟨⟨key, 1, 1⟩, "runtime", .idle⟩ rfl rfl)
  have h₅ := h₄.tail (.ambiguous 0 ⟨⟨key, 1, 1⟩, "runtime", .updating⟩ rfl rfl)
  have h₆ := h₅.tail (.adopt 0 ⟨⟨key, 1, 1⟩, "runtime", .inspecting⟩
    ⟨key, .put "runtime", 2, 2⟩ 2 rfl rfl
      mem_cons_self rfl rfl)
  have h₇ := h₆.tail (.release 0 ⟨⟨key, 1, 2⟩, "runtime", .idle⟩ rfl rfl)
  have h₈ := h₇.tail (.handleDelete ⟨key, .delete, 2, 1⟩ ⟨key, .put "runtime", 2, 2⟩ _
      mem_cons_self rfl rfl rfl)
  refine ⟨_, h₈, ?_, rfl, rfl⟩
  intro hbound
  have hdeleted := hbound.deleted _ mem_cons_self
  exact absurd hdeleted (by decide)

end Leases
