/-
# Writes under a retired owner fence

`OwnerFence::read` retires the fence when authoritative state cannot be read, and "no later write
may use this fence".  The tasks of one execution share the fence and a mutation gate.  They write
under the gate, each after a look at the fence, but for the renewal of the resume loop.  A few
reads are made without the gate, and one of them can retire the fence between the holder's look
and its write.

No write is issued under a retired fence in the runs that avoid both (`no_write_once_retired`).
-/
import Trellis.Lib.Run

namespace Operation.Retirement

open Relation

/-- What a task does while it has the gate.  `read` is `OwnerFence::read`, `fetch` leaves the fence
alone, and `check` looks at it. -/
inductive Action where
  | read | fetch | check | write

/-- The tasks that take the gate. -/
inductive Task where
  | admission | renewal | snapshotUpdate | emitUpdate | signals | acknowledgeSignal
  | cancel | finalizeCancellation | uploadHeartbeat | uploadProgress | persistUpload
  | settleUpload | releaseUpload

/-- What a task does, in the order of the source. -/
def Task.actions : Task → List Action
  | .renewal => [.write]
  | .uploadHeartbeat => [.check, .write]
  | .persistUpload | .releaseUpload => [.fetch, .check, .write]
  | .snapshotUpdate | .acknowledgeSignal | .cancel | .finalizeCancellation | .uploadProgress =>
    [.read, .check, .write]
  | .settleUpload => [.read, .check, .read, .check, .write, .read, .check]
  | .admission | .emitUpdate | .signals => [.read, .check]

/-- The fence, what the gate's holder has still to do, and whether it was retired at each write. -/
structure Execution where
  retired : Bool
  holder : Option (List Action)
  written : List Bool

/-- A task gets the gate, its holder goes on or stops, or a read without the gate fails. -/
inductive Event where
  | lock (task : Task)
  | proceed
  | stop
  | ungatedReadFails

namespace Execution

def claimed : Execution := ⟨false, none, []⟩

variable (x : Execution)

/-- A holder stops where a read fails, a check finds a change, or for reasons of its own; only a
failed `read` retires the fence. -/
def step : Event → Execution
  | .lock task =>
    match x.holder with
    | none => { x with holder := some task.actions }
    | some _ => x
  | .proceed =>
    match x.holder with
    | some (.write :: rest) => { x with holder := some rest, written := x.retired :: x.written }
    | some (.check :: rest) => { x with holder := if x.retired then none else some rest }
    | some (.read :: rest) | some (.fetch :: rest) => { x with holder := some rest }
    | some [] | none => { x with holder := none }
  | .stop =>
    match x.holder with
    | some (.read :: _) => { x with retired := true, holder := none }
    | _ => { x with holder := none }
  | .ungatedReadFails => { x with retired := true }

/-- A check comes before the next write. -/
def Guarded : List Action → Prop
  | [] | .check :: _ => True
  | .write :: _ => False
  | .read :: rest | .fetch :: rest => Guarded rest

/-- The renewal looks at the fence when it has the gate, and no read without the gate fails between
the holder's check and its write. -/
def Heeded : Event → Prop
  | .lock task => task = .renewal → x.retired = false
  | .ungatedReadFails => ∀ actions ∈ x.holder, Guarded actions
  | .proceed | .stop => True

/-- Nothing was written under the retired fence, and nothing will be without a check. -/
structure Kept (x : Execution) : Prop where
  written : ∀ retired ∈ x.written, retired = false
  guarded : x.retired = true → ∀ actions ∈ x.holder, Guarded actions

variable {x}

theorem guarded_actions {task : Task} (h : task ≠ .renewal) : Guarded task.actions := by
  cases task with
  | renewal => exact absurd rfl h
  | _ => trivial

theorem Kept.proceed (h : x.Kept) : (x.step .proceed).Kept := by
  obtain ⟨retired, holder, written⟩ := x
  cases holder with
  | none => exact ⟨h.written, nofun⟩
  | some actions =>
    cases actions with
    | nil => exact ⟨h.written, nofun⟩
    | cons action rest =>
      have hguarded := fun hretired => h.guarded hretired _ rfl
      cases action with
      | read | fetch =>
        refine ⟨h.written, fun hretired actions hmem => ?_⟩
        cases hmem
        exact hguarded hretired
      | check =>
        -- a check goes on only while the fence is not retired
        cases retired <;> exact ⟨h.written, nofun⟩
      | write =>
        have hlive : retired = false := by
          cases retired with
          | true => exact (hguarded rfl).elim
          | false => rfl
        subst hlive
        exact ⟨List.forall_mem_cons.mpr ⟨rfl, h.written⟩, nofun⟩

theorem Kept.step (h : x.Kept) (heeded : x.Heeded e) : (x.step e).Kept := by
  cases e with
  | lock task =>
    simp only [Execution.step]
    split
    · refine ⟨h.written, fun hretired actions hmem => ?_⟩
      cases hmem
      refine guarded_actions fun hrenewal => ?_
      rw [heeded hrenewal] at hretired
      cases hretired
    · exact h
  | proceed => exact h.proceed
  | stop =>
    simp only [Execution.step]
    split <;> exact ⟨h.written, nofun⟩
  | ungatedReadFails => exact ⟨h.written, fun _ => heeded⟩

/-- **No write is issued once the fence is retired**, in every run whose events heed the fence. -/
theorem no_write_once_retired {x : Execution}
    (hrun : ReflTransGen (fun x x' => ∃ e, x.Heeded e ∧ x' = x.step e) claimed x) :
    ∀ retired ∈ x.written, retired = false := by
  have hkept : x.Kept := by
    refine Run.keeps (P := Kept) ?_ hrun ⟨nofun, nofun⟩
    rintro x _ ⟨e, heeded, rfl⟩ h
    exact h.step heeded
  exact hkept.written

/-- A renewal, then an acknowledgement whose read fails. -/
theorem renewed_before_retired : ∃ x : Execution, x.retired = true ∧ x.written.length = 1 ∧
      ∀ retired ∈ x.written, retired = false := by
  have hrun : ReflTransGen (fun x x' => ∃ e, Heeded x e ∧ x' = step x e) claimed
      ⟨true, none, [false]⟩ :=
    (((((ReflTransGen.single ⟨.lock .renewal, fun _ => rfl, rfl⟩).tail
      ⟨.proceed, trivial, rfl⟩).tail ⟨.proceed, trivial, rfl⟩).tail ⟨.stop, trivial, rfl⟩).tail
      ⟨.lock .acknowledgeSignal, nofun, rfl⟩).tail ⟨.stop, trivial, rfl⟩
  exact ⟨_, rfl, rfl, no_write_once_retired hrun⟩

/-- The read of an acknowledgement fails and the lease is renewed all the same; and a read without
the gate fails between check and write. -/
theorem written_once_retired :
    ([.lock .acknowledgeSignal, .stop, .lock .renewal, .proceed].foldl step claimed).written
        = [true] ∧
      ([.lock .snapshotUpdate, .proceed, .proceed, .ungatedReadFails, .proceed].foldl step
        claimed).written = [true] :=
  ⟨rfl, rfl⟩

end Execution

end Operation.Retirement
