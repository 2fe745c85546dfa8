/-
# Reaping a transport generation

Leases on a physical connection are counted under the lease lock together with the fences
`disposing`, `forced` and `closed`.  `reap` closes a draining generation that has neither leases
nor intake: under the manager's lock it reads the state, the count and the intake one after the
other, and then fences admission.  Provider intake and the dispatchers of Live owner controls
lease without that lock, so one of them may be admitted between the count and the fence
(`lease_before_fence`).
-/
import Trellis.Lib.Run

namespace TransportGenerations

inductive GenerationState where
  | current | draining | closed
  deriving DecidableEq

structure LeaseState where
  live : Nat := 0
  (disposing forced closed : Bool := false)

def LeaseState.fenced (lease : LeaseState) : Bool :=
  lease.disposing || lease.forced || lease.closed

structure TransportGeneration where
  state : GenerationState
  leaseState : LeaseState := {}
  (intakeInstalled intakeDisposing : Nat := 0)

namespace TransportGeneration

variable (g : TransportGeneration)

def setState (state : GenerationState) : TransportGeneration :=
  if g.state = .closed then g else { g with state }

/-- A fresh lease, if one is admitted; `connected` is what the connection reports. -/
def lease (connected : Bool) : Option TransportGeneration :=
  if g.leaseState.fenced || g.state = .closed || !connected then none
  else some { g with leaseState.live := g.leaseState.live + 1 }

def promoteToCurrent : TransportGeneration :=
  if g.leaseState.fenced then g else g.setState .current

def closeLeases : TransportGeneration := { g with leaseState.closed := true }

def forceLeases : TransportGeneration := { g with leaseState.forced := true }

/-- One round of `wait_lease_idle`. -/
def waitLeaseIdle : TransportGeneration :=
  if g.leaseState.forced || g.leaseState.disposing then g
  else if g.state = .draining ∧ g.leaseState.live = 0 then { g with leaseState.disposing := true }
  else g

def intakeIdle : Bool := g.intakeInstalled = 0 ∧ g.intakeDisposing = 0

/-- What else happens to a generation.  Only the holder of a lease can clone or drop it; `intake`
stands for handles that come, are retired or are disposed. -/
inductive Event where
  | clone | drop
  | setState (state : GenerationState)
  | promoteToCurrent | closeLeases | forceLeases | waitLeaseIdle
  | intake (installed disposing : Nat)

def on : Event → TransportGeneration
  | .clone =>
    if g.leaseState.live = 0 then g else { g with leaseState.live := g.leaseState.live + 1 }
  | .drop => { g with leaseState.live := g.leaseState.live - 1 }
  | .setState state => g.setState state
  | .promoteToCurrent => g.promoteToCurrent
  | .closeLeases => g.closeLeases
  | .forceLeases => g.forceLeases
  | .waitLeaseIdle => g.waitLeaseIdle
  | .intake installed disposing =>
    { g with intakeInstalled := installed, intakeDisposing := disposing }

variable {g}

theorem on_live (h : g.leaseState.live = 0) (e : Event) : (g.on e).leaseState.live = 0 := by
  cases e <;> grind [on, setState, promoteToCurrent, closeLeases, forceLeases, waitLeaseIdle]

theorem on_closed (h : g.leaseState.closed = true) (e : Event) :
    (g.on e).leaseState.closed = true := by
  cases e <;> grind [on, setState, promoteToCurrent, closeLeases, forceLeases, waitLeaseIdle]

theorem lease_of_closed (h : g.leaseState.closed = true) : g.lease connected = none := by
  simp [lease, LeaseState.fenced, h]

end TransportGeneration

/-- How far `reap` is: what it has found, and in the end the leases that were out when it fenced
admission and how many were admitted since. -/
inductive Reap where
  | idle | draining | unleased | decided
  | closing (outstanding admitted : Nat)
  deriving DecidableEq

def Reap.admit : Reap → Reap
  | .closing outstanding admitted => .closing outstanding (admitted + 1)
  | reap => reap

/-- Who leases a generation. -/
inductive LeaseSource where
  | manager | providerIntake | ownerControl
  deriving DecidableEq

inductive Act where
  | lease (source : LeaseSource) (connected : Bool)
  | other (event : TransportGeneration.Event)
  | reap

structure World where
  generation : TransportGeneration
  reap : Reap := .idle

namespace World

/-- One step; an actor that waits for the manager's lock or is refused a lease takes none. -/
def step (w : World) : Act → Option World
  | .lease source connected =>
    if source = .manager ∧ w.reap ∈ [.draining, .unleased, .decided] then none
    else (w.generation.lease connected).map fun generation => ⟨generation, w.reap.admit⟩
  | .other event => some { w with generation := w.generation.on event }
  | .reap =>
    match w.reap with
    | .idle => some { w with reap := if w.generation.state = .draining then .draining else .idle }
    | .draining =>
      some { w with reap := if w.generation.leaseState.live = 0 then .unleased else .idle }
    | .unleased => some { w with reap := if w.generation.intakeIdle then .decided else .idle }
    | .decided => some ⟨w.generation.closeLeases, .closing w.generation.leaseState.live 0⟩
    | .closing _ _ => none

/-- Nothing is leased between the count that `reap` reads and its fence. -/
def Quiet (w : World) : Act → Prop
  | .lease _ _ => w.reap ≠ .unleased ∧ w.reap ≠ .decided
  | _ => True

/-- What `reap` has found still holds. -/
def Inv (w : World) : Prop :=
  match w.reap with
  | .idle | .draining => True
  | .unleased | .decided => w.generation.leaseState.live = 0
  | .closing outstanding admitted =>
    w.generation.leaseState.closed = true ∧ outstanding = 0 ∧ admitted = 0

variable {w : World}

theorem Inv.step (h : w.Inv) (hstep : w.step act = some w') (hquiet : w.Quiet act) : w'.Inv := by
  obtain ⟨g, reap⟩ := w
  cases act with
  | lease source connected =>
    simp only [World.step, Option.ite_none_left_eq_some, Option.map_eq_some_iff] at hstep
    obtain ⟨-, leased, hlease, rfl⟩ := hstep
    cases reap with
    | idle | draining => trivial
    | unleased => exact absurd rfl hquiet.1
    | decided => exact absurd rfl hquiet.2
    | closing outstanding admitted =>
      rw [TransportGeneration.lease_of_closed h.1] at hlease
      cases hlease
  | other event =>
    cases hstep
    cases reap with
    | idle | draining => trivial
    | unleased | decided => exact TransportGeneration.on_live h event
    | closing outstanding admitted => exact ⟨TransportGeneration.on_closed h.1 event, h.2⟩
  | reap =>
    cases reap with
    | idle | draining | unleased =>
      cases hstep
      simp only [Inv] at h ⊢
      grind
    | decided =>
      cases hstep
      exact ⟨rfl, h, rfl⟩
    | closing outstanding admitted => cases hstep

/-- **A generation that is reaped has no lease when admission is fenced and none after**, in the
runs where nothing is leased between the count and the fence. -/
theorem reaped_without_leases {g : TransportGeneration}
    (hrun : ReflTransGen (fun w w' => ∃ act, w.step act = some w' ∧ w.Quiet act) ⟨g, .idle⟩ w)
    (hreap : w.reap = .closing outstanding admitted) : outstanding = 0 ∧ admitted = 0 := by
  have hinv : w.Inv := Run.keeps (fun _ _ ⟨_, hstep, hquiet⟩ h => h.step hstep hquiet) hrun trivial
  unfold Inv at hinv
  rw [hreap] at hinv
  exact hinv.2

/-- An owner control leases the draining generation and drops its lease before `reap` counts. -/
theorem reaped_without_leases_dropped : ∃ (w : World) (outstanding admitted : Nat),
    [.reap, .lease .ownerControl true, .other .drop, .reap, .reap, .reap].foldlM World.step
        ⟨{ state := .draining }, .idle⟩ = some w ∧
      w.reap = .closing outstanding admitted ∧ outstanding = 0 ∧ admitted = 0 := by
  let g : TransportGeneration := { state := .draining }
  let w : World := ⟨g.closeLeases, .closing 0 0⟩
  refine ⟨w, 0, 0, rfl, rfl, reaped_without_leases (g := g) (w := w) ?_ rfl⟩
  exact .head ⟨.reap, rfl, trivial⟩ (.head ⟨.lease .ownerControl true, rfl, nofun, nofun⟩
    (.head ⟨.other .drop, rfl, trivial⟩ (.head ⟨.reap, rfl, trivial⟩
      (.head ⟨.reap, rfl, trivial⟩ (.single ⟨.reap, rfl, trivial⟩)))))

/-- A control that arrives once `reap` has counted the leases is admitted and then cut off. -/
theorem lease_before_fence :
    ∃ w, [.reap, .reap, .lease .ownerControl true, .reap, .reap].foldlM World.step
        ⟨{ state := .draining }, .idle⟩ = some w ∧
      w.reap = .closing 1 0 ∧ w.generation.leaseState.live = 1 :=
  ⟨_, rfl, rfl, rfl⟩

end World

end TransportGenerations
