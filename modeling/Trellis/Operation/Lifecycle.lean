/-
# The life of one durable operation

Any number of executors and callers act on the record of one invocation.  Each reads it, decides
what to write, has the repository check that against a second read, and asks the bucket for an
update at the version it read; in between the others may do anything.

`Step` is one such step, `Follows` is what consecutive records of a history are to each other.
`history_follows` shows it of every reachable history, and the results about revisions, epochs,
cancellation, terminal states and fences are read off from it.
-/
import Trellis.Lib.Cas
import Trellis.Lib.Run
import Trellis.Operation.Provider

namespace Operation

open List Checked

variable {Value : Type}

/-! ## What an update does to the record it was derived from -/

structure Derives (older newer : DurableOperationRecord Value) : Prop where
  revision : newer.revision = older.revision + 1
  epoch : older.ownerEpoch ≤ newer.ownerEpoch
  owner : newer.ownerEpoch = older.ownerEpoch → newer.ownerExecutorId = older.ownerExecutorId ∧
      newer.ownerConnectionId = older.ownerConnectionId
  cancellation : older.cancellationRequested = true → newer.cancellationRequested = true
  cancelled : older.cancellationRequested = true →
    newer.snapshot.state = older.snapshot.state ∨ newer.snapshot.state = .cancelled

theorem Derives.stampSnapshot (h : Derives older newer) : Derives older newer.stampSnapshot :=
  ⟨h.revision, h.epoch, h.owner, h.cancellation, h.cancelled⟩

section calls

variable {record : DurableOperationRecord Value}

theorem durableSnapshotUpdate_derives
    (h : durableSnapshotUpdate fence update now timestamp current = .ok (some record)) :
    Derives current record := by
  unfold durableSnapshotUpdate at h
  simp only [error_bind, guard_eq_ok, pure_eq_ok, not_or, Option.some.injEq] at h
  obtain ⟨⟨-, hcancel⟩, -, rfl⟩ := h
  -- the update is refused once cancellation is requested, so the flag is free to change
  exact ⟨rfl, le_rfl, fun _ => ⟨rfl, rfl⟩, fun h => absurd h hcancel, fun h => absurd h hcancel⟩

theorem finalizeCancellation_derives
    (h : finalizeCancellation fence now timestamp current = .ok (some record)) :
    Derives current record := by
  unfold finalizeCancellation at h
  simp only [error_bind, guard_eq_ok, skip_eq_some, pure_eq_ok, Option.some.injEq] at h
  obtain ⟨-, -, -, rfl⟩ := h
  exact ⟨rfl, le_rfl, fun _ => ⟨rfl, rfl⟩, id, fun _ => .inr rfl⟩

theorem controlCancel_derives (h : controlCancel fence now timestamp current = .ok (some record)) :
    Derives current record := by
  unfold controlCancel at h
  simp only [error_bind, guard_eq_ok, skip_eq_some, pure_eq_ok, Option.some.injEq] at h
  obtain ⟨-, -, -, rfl⟩ := h
  exact ⟨rfl, le_rfl, fun _ => ⟨rfl, rfl⟩, fun _ => rfl, fun _ => .inl rfl⟩

theorem acknowledgeSignal_derives {sequence : Nat}
    (h : acknowledgeSignal fence sequence now current = .ok (some record)) :
    Derives current record := by
  unfold acknowledgeSignal at h
  simp only [error_bind, guard_eq_ok] at h
  obtain ⟨-, -, h⟩ := h
  split at h
  · cases h
  · simp only [skip_eq_some, pure_eq_ok, Option.some.injEq] at h
    obtain ⟨-, rfl⟩ := h
    exact ⟨rfl, le_rfl, fun _ => ⟨rfl, rfl⟩, id, fun _ => .inl rfl⟩

theorem settleOperationUpload_derives
    (h : settleOperationUpload fence stagingKey now current = .ok (some record)) :
    Derives current record := by
  unfold settleOperationUpload at h
  split at h
  · simp only [skip_eq_some, pure_eq_ok, Option.some.injEq] at h
    obtain ⟨-, -, rfl⟩ := h
    exact ⟨rfl, le_rfl, fun _ => ⟨rfl, rfl⟩, id, fun _ => .inl rfl⟩
  · cases h

theorem coalesceOperationUploadProgress_derives
    (h : coalesceOperationUploadProgress fence progress now timestamp current = .ok (some record)) :
    Derives current record := by
  unfold coalesceOperationUploadProgress at h
  simp only [error_bind, guard_eq_ok, skip_eq_some, pure_eq_ok, Option.some.injEq] at h
  obtain ⟨-, -, rfl⟩ := h
  exact ⟨rfl, le_rfl, fun _ => ⟨rfl, rfl⟩, id, fun _ => .inl rfl⟩

theorem persistOperationUpload_derives
    (h : persistOperationUpload fence info progress now timestamp current = .ok (some record)) :
    Derives current record := by
  unfold persistOperationUpload at h
  simp only [error_bind, guard_eq_ok, not_or] at h
  obtain ⟨⟨-, -, hcancel⟩, h⟩ := h
  split at h
  · simp only [guard_eq_ok, pure_eq_ok, Option.some.injEq] at h
    obtain ⟨-, rfl⟩ := h
    exact ⟨rfl, le_rfl, fun _ => ⟨rfl, rfl⟩, id, fun h => absurd h hcancel⟩
  · cases h

theorem stageOperationUpload_derives
    (h : stageOperationUpload grant stagingKey timestamp current = .ok (some record)) :
    Derives current record := by
  unfold stageOperationUpload at h
  simp only [skip_eq_some] at h
  obtain ⟨-, h⟩ := h
  split at h
  · simp only [skip_eq_some, pure_eq_ok, Option.some.injEq] at h
    obtain ⟨-, rfl⟩ := h
    exact ⟨rfl, le_rfl, fun _ => ⟨rfl, rfl⟩, id, fun _ => .inl rfl⟩
  · cases h

theorem cancel_derives (h : cancel timestamp current = .ok (some record)) :
    current.snapshot.state.isTerminal = false ∧ Derives current record := by
  unfold cancel at h
  split at h
  · split at h <;> cases h
  rename_i hopen
  split at h
  · cases h
  · cases h
    exact ⟨by simpa using hopen, rfl, le_rfl, fun _ => ⟨rfl, rfl⟩, fun _ => rfl, fun _ => .inl rfl⟩

theorem signal_derives [DecidableEq Value]
    (h : signal requestId name payload timestamp current = .ok (some record)) :
    current.snapshot.state.isTerminal = false ∧ Derives current record := by
  unfold signal at h
  simp only [error_bind, guard_eq_ok] at h
  obtain ⟨hopen, h⟩ := h
  split at h
  · simp only [guard_eq_ok, pure_eq_ok, reduceCtorEq, and_false] at h
  · simp only [pure_eq_ok, Option.some.injEq] at h
    obtain rfl := h
    exact ⟨by simpa using hopen, rfl, le_rfl, fun _ => ⟨rfl, rfl⟩, id, fun _ => .inl rfl⟩

theorem createReplay_derives (h : createReplay replayed current = .ok (some record)) :
    current.snapshot.state.isTerminal = false ∧ Derives current record := by
  unfold createReplay at h
  simp only [error_bind, guard_eq_ok, skip_eq_some, pure_eq_ok, not_or, Option.some.injEq] at h
  obtain ⟨-, ⟨-, -, hopen⟩, rfl⟩ := h
  exact ⟨by simpa using hopen, rfl, le_rfl, fun _ => ⟨rfl, rfl⟩, fun _ => rfl, fun _ => .inl rfl⟩

end calls

/-! ## The system -/

/-- The updates that read the record, build the next one and hand it to an exchange. -/
inductive Call (Value : Type) where
  | durableSnapshotUpdate (fence : OwnerFence) (update : SnapshotUpdate Value)
  | finalizeCancellation (fence : OwnerFence)
  | controlCancel (fence : OwnerFence)
  | acknowledgeSignal (fence : OwnerFence) (sequence : Nat)
  | settleOperationUpload (fence : OwnerFence) (stagingKey : String)
  | coalesceOperationUploadProgress (fence : OwnerFence) (progress : OperationTransferProgress)
  | persistOperationUpload (fence : OwnerFence) (info : TransferFileInfo)
      (progress : Option OperationTransferProgress)
  | stageOperationUpload (fence : OwnerFence) (grant : Value) (stagingKey : String)
  | cancel
  | signal (requestId name : String) (payload : Value)
  | createReplay (record : DurableOperationRecord Value)

/-- The fence of `compare_exchange`; without one it is `compare_record_exchange`. -/
def Call.fence : Call Value → Option OwnerFence
  | .durableSnapshotUpdate fence _ | .finalizeCancellation fence | .controlCancel fence
  | .acknowledgeSignal fence _ | .settleOperationUpload fence _
  | .coalesceOperationUploadProgress fence _ | .persistOperationUpload fence _ _
  | .stageOperationUpload fence _ _ => some fence
  | .cancel | .signal _ _ _ | .createReplay _ => none

/-- The record a call asks to write over the one it read. -/
def Call.issue [DecidableEq Value] (now : Int) (timestamp : String)
    (current : DurableOperationRecord Value) :
    Call Value → Except ServerError (Option (DurableOperationRecord Value))
  | .durableSnapshotUpdate fence update =>
    Operation.durableSnapshotUpdate fence update now timestamp current
  | .finalizeCancellation fence => Operation.finalizeCancellation fence now timestamp current
  | .controlCancel fence => Operation.controlCancel fence now timestamp current
  | .acknowledgeSignal fence sequence => Operation.acknowledgeSignal fence sequence now current
  | .settleOperationUpload fence stagingKey =>
    Operation.settleOperationUpload fence stagingKey now current
  | .coalesceOperationUploadProgress fence progress =>
    Operation.coalesceOperationUploadProgress fence progress now timestamp current
  | .persistOperationUpload fence info progress =>
    Operation.persistOperationUpload fence info progress now timestamp current
  | .stageOperationUpload _ grant stagingKey =>
    Operation.stageOperationUpload grant stagingKey timestamp current
  | .cancel => Operation.cancel timestamp current
  | .signal requestId name payload => Operation.signal requestId name payload timestamp current
  | .createReplay record => Operation.createReplay record current

/-- Which repository operation wrote a record, and under which ownership. -/
inductive Write where
  | create
  | claim (executor connection : String) (now : Int)
  | renew (executor : String) (epoch : Nat)
  | fencedExchange (executor : String) (epoch : Nat)
  | recordExchange
  deriving DecidableEq, Repr

structure Entry (Value : Type) where
  record : DurableOperationRecord Value
  write : Write

/-- A caller between two of its steps. -/
inductive Task (Value : Type) where
  /-- A record is built and goes to the exchange. -/
  | exchanging (fence : Option OwnerFence) (expected : Nat) (record : DurableOperationRecord Value)
  /-- The repository has checked the record; the update of the bucket is next. -/
  | updating (expected : Nat) (entry : Entry Value)

structure System (Value : Type) where
  cell : Cas.Cell (Entry Value)
  tasks : List (Task Value)

def System.initial : System Value :=
  ⟨Cas.Cell.empty, []⟩

variable [DecidableEq Value] {format : RecordFormat Value} {call : Call Value} {entry : Entry Value}

/-- The checks of the exchange a record goes to. -/
def exchange (format : RecordFormat Value) (now : Int) (expected version : Nat)
    (current record : DurableOperationRecord Value) :
    Option OwnerFence → Except ServerError (Entry Value)
  | some fence => do
      let written ← compareExchange format fence.executorId fence.ownerEpoch now expected version
        current record
      return ⟨written, .fencedExchange fence.executorId fence.ownerEpoch⟩
  | none => do
      let written ← compareRecordExchange format expected version current record
      return ⟨written, .recordExchange⟩

/-- One step of a party, each with a clock of its own.  A read sees some value the key has had.  A
used task stays: a later use asks for a version that is gone. -/
inductive Step (format : RecordFormat Value) : System Value → System Value → Prop
  | create (s : System Value) (invocation : Invocation Value)
      (cancellationRequested timestamp cell')
      (hvalid : (invocation.record cancellationRequested timestamp).validate format = .ok ())
      (hcell : s.cell.create ⟨invocation.record cancellationRequested timestamp, .create⟩ =
        some cell') :
      Step format s { s with cell := cell' }
  | claim (s : System Value) (version entry executor connection now lease record)
      (hread : (version, entry) ∈ s.cell.log)
      (hclaim : claimForConnection format executor connection now lease entry.record = .ok record) :
      Step format s { s with
        tasks := .updating version ⟨record, .claim executor connection now⟩ :: s.tasks }
  | renew (s : System Value) (version entry executor epoch now lease record)
      (hread : (version, entry) ∈ s.cell.log)
      (hrenew : renew format executor epoch now lease entry.record = .ok record) :
      Step format s { s with
        tasks := .updating version ⟨record, .renew executor epoch⟩ :: s.tasks }
  | issue (s : System Value) (call : Call Value) (version entry now timestamp record)
      (hread : (version, entry) ∈ s.cell.log)
      (hissue : call.issue now timestamp entry.record = .ok (some record)) :
      Step format s { s with tasks := .exchanging call.fence version record :: s.tasks }
  | check (s : System Value) (fence expected record version entry now written)
      (htask : Task.exchanging fence expected record ∈ s.tasks)
      (hread : (version, entry) ∈ s.cell.log)
      (hcheck : exchange format now expected version entry.record record fence = .ok written) :
      Step format s { s with tasks := .updating expected written :: s.tasks }
  | commit (s : System Value) (expected entry cell')
      (htask : Task.updating expected entry ∈ s.tasks)
      (hcell : s.cell.update expected entry = some cell') :
      Step format s { s with cell := cell' }
  | elapse (s : System Value) (n) : Step format s { s with cell := s.cell.elapse n }

/-- The states any interleaving reaches. -/
def Reachable (format : RecordFormat Value) (s : System Value) : Prop :=
  ReflTransGen (Step format) System.initial s

/-- A record handed to an exchange is derived from the one it replaces. -/
theorem issue_derives
    (h : call.issue now timestamp current = .ok (some record)) : Derives current record := by
  cases call with
  | durableSnapshotUpdate fence update => exact durableSnapshotUpdate_derives h
  | finalizeCancellation fence => exact finalizeCancellation_derives h
  | controlCancel fence => exact controlCancel_derives h
  | acknowledgeSignal fence sequence => exact acknowledgeSignal_derives h
  | settleOperationUpload fence stagingKey => exact settleOperationUpload_derives h
  | coalesceOperationUploadProgress fence progress =>
    exact coalesceOperationUploadProgress_derives h
  | persistOperationUpload fence info progress => exact persistOperationUpload_derives h
  | stageOperationUpload fence grant stagingKey => exact stageOperationUpload_derives h
  | cancel => exact (cancel_derives h).2
  | signal requestId name payload => exact (signal_derives h).2
  | createReplay replayed => exact (createReplay_derives h).2

/-- `compare_record_exchange` does not look at the state: its callers have. -/
theorem unfinished_of_issue (hfence : call.fence = none)
    (h : call.issue now timestamp current = .ok (some record)) :
    current.snapshot.state.isTerminal = false := by
  cases call with
  | cancel => exact (cancel_derives h).1
  | signal requestId name payload => exact (signal_derives h).1
  | createReplay replayed => exact (createReplay_derives h).1
  | durableSnapshotUpdate | finalizeCancellation | controlCancel | acknowledgeSignal
  | settleOperationUpload | coalesceOperationUploadProgress | persistOperationUpload
  | stageOperationUpload => cases hfence

/-! ## Consecutive records -/

/-- The ownership a write was made under, against the records around it. -/
def Write.OwnedBy (older newer : DurableOperationRecord Value) : Write → Prop
  | .create => False
  | .claim executor connection now =>
    older.leaseFree now = true ∧ newer.ownerEpoch = older.ownerEpoch + 1 ∧
      newer.ownerExecutorId = some executor ∧ newer.ownerConnectionId = some connection
  | .renew executor epoch | .fencedExchange executor epoch =>
    older.ownerExecutorId = some executor ∧ older.ownerEpoch = epoch ∧ newer.ownerEpoch = epoch
  | .recordExchange => newer.ownerEpoch = older.ownerEpoch

/-- What a stored record is to the one before it. -/
structure Follows (older newer : Entry Value) : Prop where
  unfinished : older.record.snapshot.state.isTerminal = false
  derives : Derives older.record newer.record
  owned : newer.write.OwnedBy older.record newer.record

omit [DecidableEq Value] in
theorem follows_claim
    (h : claimForConnection format executor connection now lease entry.record = .ok record) :
    Follows entry ⟨record, .claim executor connection now⟩ := by
  unfold claimForConnection at h
  simp only [error_bind, guard_eq_ok, bind_eq_ok, pure_eq_ok, Bool.not_eq_true,
    Bool.not_eq_false'] at h
  obtain ⟨-, hopen, hfree, _, -, rfl⟩ := h
  refine ⟨hopen, ⟨rfl, Nat.le_succ _, ?_, id, fun _ => .inl rfl⟩, hfree, rfl, rfl, rfl⟩
  intro hepoch
  exact absurd hepoch (Nat.succ_ne_self _)

omit [DecidableEq Value] in
theorem follows_renew (h : renew format executor epoch now lease entry.record = .ok record) :
    Follows entry ⟨record, .renew executor epoch⟩ := by
  unfold renew at h
  simp only [error_bind, guard_eq_ok, bind_eq_ok, pure_eq_ok, not_or, not_not,
    Bool.not_eq_true] at h
  obtain ⟨-, ⟨hexec, hepoch, -, hopen⟩, _, -, rfl⟩ := h
  exact ⟨hopen, ⟨rfl, le_rfl, fun _ => ⟨rfl, rfl⟩, id, fun _ => .inl rfl⟩, hexec, hepoch, hepoch⟩

variable {task : Task Value}

/-- An exchange that passes its checks against the record at the expected version. -/
theorem follows_exchange (hopen : fence = none → entry.record.snapshot.state.isTerminal = false)
    (hderives : Derives entry.record record)
    (h : exchange format now expected version entry.record record fence = .ok written) :
    Follows entry written := by
  cases fence with
  | none =>
    obtain ⟨stored, hsto, h⟩ := bind_eq_ok.mp h
    cases h
    obtain ⟨-, hepoch, -, rfl⟩ := compareRecordExchange_ok hsto
    exact ⟨hopen rfl, hderives.stampSnapshot, hepoch⟩
  | some fence =>
    obtain ⟨stored, hsto, h⟩ := bind_eq_ok.mp h
    cases h
    obtain ⟨-, hepoch, hexec, hcur, -, -, hunfinished, rfl⟩ := compareExchange_ok hsto
    exact ⟨hunfinished, hderives.stampSnapshot, hexec, hcur, hepoch⟩

theorem exchange_version
    (h : exchange format now expected version entry.record record fence = .ok written) :
    version = expected := by
  cases fence with
  | none =>
    obtain ⟨stored, hsto, -⟩ := bind_eq_ok.mp h
    exact (compareRecordExchange_ok hsto).1
  | some fence =>
    obtain ⟨stored, hsto, -⟩ := bind_eq_ok.mp h
    exact (compareExchange_ok hsto).1

/-! ## Every run -/

/-- A task's record is derived from the one at the version it will replace. -/
def Task.Sound (log : List (Nat × Entry Value)) : Task Value → Prop
  | .exchanging fence expected record =>
    ∃ entry, (expected, entry) ∈ log ∧
      (fence = none → entry.record.snapshot.state.isTerminal = false) ∧
      Derives entry.record record
  | .updating expected entry => ∃ older, (expected, older) ∈ log ∧ Follows older entry

structure Inv (s : System Value) : Prop where
  follows : s.cell.history.IsChain Follows
  tasks : ∀ task ∈ s.tasks, task.Sound s.cell.log

omit [DecidableEq Value] in
/-- The log only grows, so what a task knows stays true. -/
theorem Task.Sound.mono (h : task.Sound log) (hlog : log ⊆ log') : task.Sound log' := by
  cases task with
  | exchanging fence expected record =>
    obtain ⟨entry, hentry, hrest⟩ := h
    exact ⟨entry, hlog hentry, hrest⟩
  | updating expected entry =>
    obtain ⟨older, holder, hfollows⟩ := h
    exact ⟨older, hlog holder, hfollows⟩

omit [DecidableEq Value] in
theorem Inv.addTask (hinv : Inv s)
    (htask : task.Sound s.cell.log) : Inv { s with tasks := task :: s.tasks } := by
  refine ⟨hinv.follows, ?_⟩
  intro other hother
  rcases mem_cons.mp hother with rfl | hother
  · exact htask
  · exact hinv.tasks other hother

theorem inv_step (hstep : Step format s s') (hinv : Inv s) : Inv s' := by
  cases hstep with
  | create invocation cancellationRequested timestamp cell' hvalid hcell =>
    refine ⟨Cas.Cell.isChain_history_create hcell, ?_⟩
    obtain ⟨-, rfl⟩ := Cas.Cell.create_eq_some hcell
    exact fun task htask => (hinv.tasks task htask).mono (subset_cons_self _ _)
  | claim version entry executor connection now lease record hread hclaim =>
    exact hinv.addTask ⟨entry, hread, follows_claim hclaim⟩
  | renew version entry executor epoch now lease record hread hrenew =>
    exact hinv.addTask ⟨entry, hread, follows_renew hrenew⟩
  | issue call version entry now timestamp record hread hissue =>
    exact hinv.addTask
      ⟨entry, hread, fun hfence => unfinished_of_issue hfence hissue, issue_derives hissue⟩
  | check fence expected record version entry now written htask hread hcheck =>
    obtain ⟨older, holder, hopen, hderives⟩ := hinv.tasks _ htask
    -- both reads saw the same version, hence the same record
    obtain rfl := exchange_version hcheck
    obtain rfl := Cas.Cell.eq_of_mem_log holder hread
    exact hinv.addTask ⟨older, hread, follows_exchange hopen hderives hcheck⟩
  | commit expected entry cell' htask hcell =>
    obtain ⟨older, holder, hfollows⟩ := hinv.tasks _ htask
    refine ⟨Cas.Cell.isChain_history_update hinv.follows holder hfollows hcell, ?_⟩
    obtain ⟨-, rfl⟩ := Cas.Cell.update_eq_some hcell
    exact fun task htask => (hinv.tasks task htask).mono (subset_cons_self _ _)
  | elapse n => exact ⟨hinv.follows, hinv.tasks⟩

theorem history_follows (h : Reachable format s) : s.cell.history.IsChain Follows := by
  refine (Run.keeps (P := Inv) (fun _ _ => inv_step) h ⟨isChain_nil, ?_⟩).follows
  intro task htask
  cases htask

/-! ## Any two records -/

/-- What a stored record is to any later one. -/
structure Precedes (older newer : Entry Value) : Prop where
  unfinished : older.record.snapshot.state.isTerminal = false
  epoch : older.record.ownerEpoch ≤ newer.record.ownerEpoch
  owner : older.record.ownerEpoch = newer.record.ownerEpoch →
    older.record.ownerExecutorId = newer.record.ownerExecutorId ∧
      older.record.ownerConnectionId = newer.record.ownerConnectionId
  cancellation : older.record.cancellationRequested = true →
    newer.record.cancellationRequested = true ∧
      (newer.record.snapshot.state.isTerminal = false ∨ newer.record.snapshot.state = .cancelled)
  /-- The later record was written over one that this one does not exceed. -/
  owned : ∃ last : Entry Value, older.record.ownerEpoch ≤ last.record.ownerEpoch ∧
    newer.write.OwnedBy last.record newer.record

omit [DecidableEq Value] in
theorem Follows.precedes (h : Follows older newer) : Precedes older newer where
  unfinished := h.unfinished
  epoch := h.derives.epoch
  owner := by
    intro hepoch
    obtain ⟨hexec, hconn⟩ := h.derives.owner hepoch.symm
    exact ⟨hexec.symm, hconn.symm⟩
  cancellation := by
    intro hcancel
    refine ⟨h.derives.cancellation hcancel, ?_⟩
    rcases h.derives.cancelled hcancel with hstate | hstate
    · exact .inl (hstate ▸ h.unfinished)
    · exact .inr hstate
  owned := ⟨older, le_rfl, h.owned⟩

omit [DecidableEq Value] in
theorem Precedes.trans (hab : Precedes a b) (hbc : Precedes b c) : Precedes a c where
  unfinished := hab.unfinished
  epoch := hab.epoch.trans hbc.epoch
  owner := by
    intro hac
    -- the epoch does not come back, so it was the same all along
    have hepochs : a.record.ownerEpoch = b.record.ownerEpoch :=
      le_antisymm hab.epoch (hac ▸ hbc.epoch)
    obtain ⟨hexec, hconn⟩ := hab.owner hepochs
    obtain ⟨hexec', hconn'⟩ := hbc.owner (hepochs.symm.trans hac)
    exact ⟨hexec.trans hexec', hconn.trans hconn'⟩
  cancellation := fun hcancel => hbc.cancellation (hab.cancellation hcancel).1
  owned := by
    obtain ⟨last, hlast, howned⟩ := hbc.owned
    exact ⟨last, hab.epoch.trans hlast, howned⟩

theorem history_precedes (h : Reachable format s) : s.cell.history.Pairwise Precedes := by
  have : IsTrans _ (@Precedes Value) := ⟨fun _ _ _ => Precedes.trans⟩
  exact ((history_follows h).imp fun _ _ => Follows.precedes).pairwise

/-! ## An operation that changes hands -/

def plainFormat : RecordFormat String where
  isTimestamp timestamp := !timestamp.isEmpty
  isUlid id := !id.isEmpty
  invocationDigest _ operation _ _ input := operation ++ input
  byteSize value := value.length
  errorSize error := error.message.length
  isGrant _ := true

def exportInvocation : Invocation String where
  invocationId := "invocation"
  invocationDigest := "exportinput"
  apiId := "api"
  operation := "export"
  service := "service"
  deploymentId := "deployment"
  creatorPrincipalId := "principal"
  creatorBinding := "binding"
  callerSessionKey := "session"
  caller := "caller"
  input := "input"
  transfer := none

def created : DurableOperationRecord String :=
  exportInvocation.record false "created"

/-- The first executor claims at time 0 and its lease ends at time 10. -/
def claimed : DurableOperationRecord String :=
  { created with
    ownerExecutorId := some "first"
    ownerConnectionId := some "first connection"
    ownerEpoch := 1
    leaseExpiresAtMs := some 10
    revision := 2 }.stampSnapshot

/-- The second executor claims at time 20. -/
def reclaimed : DurableOperationRecord String :=
  { claimed with
    ownerExecutorId := some "second"
    ownerConnectionId := some "second connection"
    ownerEpoch := 2
    leaseExpiresAtMs := some 50
    revision := 3 }.stampSnapshot

def secondFence : OwnerFence := ⟨"second", "second connection", 2, false⟩

def completion : SnapshotUpdate String := ⟨.completed, none, some "output", none, false⟩

def completed : DurableOperationRecord String :=
  { reclaimed.nextRevision with snapshot := completion.apply reclaimed.snapshot "completed" }

def changedHands : System String where
  cell := (((Cas.Cell.empty.put ⟨created, .create⟩).put
    ⟨claimed, .claim "first" "first connection" 0⟩).put
    ⟨reclaimed, .claim "second" "second connection" 20⟩).put
    ⟨completed, .fencedExchange "second" 2⟩
  tasks := [.updating 2 ⟨completed, .fencedExchange "second" 2⟩,
    .exchanging (some secondFence) 2 completed,
    .updating 1 ⟨reclaimed, .claim "second" "second connection" 20⟩,
    .updating 0 ⟨claimed, .claim "first" "first connection" 0⟩]

theorem changedHands_reachable : Reachable plainFormat changedHands := by
  have hcreate : Reachable plainFormat _ :=
    .tail .refl (.create _ exportInvocation false "created" _ rfl rfl)
  have hclaim := hcreate.tail (.claim _ 0 ⟨created, .create⟩ "first" "first connection" 0 10 claimed
      mem_cons_self rfl)
  have hclaimed := hclaim.tail (.commit _ 0 _ _ mem_cons_self rfl)
  have hreclaim := hclaimed.tail (.claim _ 1 ⟨claimed, .claim "first" "first connection" 0⟩ "second"
      "second connection" 20 50 reclaimed mem_cons_self rfl)
  have hreclaimed := hreclaim.tail (.commit _ 1 _ _ mem_cons_self rfl)
  have hissue := hreclaimed.tail (.issue _ (.durableSnapshotUpdate secondFence completion) 2
      ⟨reclaimed, .claim "second" "second connection" 20⟩ 30 "completed" completed
      mem_cons_self rfl)
  have hcheck := hissue.tail (.check _ (some secondFence) 2 completed 2
      ⟨reclaimed, .claim "second" "second connection" 20⟩ 31
      ⟨completed, .fencedExchange "second" 2⟩ mem_cons_self mem_cons_self rfl)
  exact hcheck.tail (.commit _ 2 _ _ mem_cons_self rfl)

/-! ## Results -/

/-- **The stored history of an operation**: each write counts the revision up by one; epochs never
decrease and a cancellation is never taken back; a terminal state stays with its output and error;
and what was cancelled before it ended ends cancelled. -/
theorem lifecycle_of_reachable {s : System Value} (h : Reachable format s) :
    s.cell.history.IsChain (fun a b => b.record.revision = a.record.revision + 1) ∧
      s.cell.history.Pairwise (fun a b => a.record.ownerEpoch ≤ b.record.ownerEpoch ∧
        (a.record.cancellationRequested = true → b.record.cancellationRequested = true) ∧
        (a.record.snapshot.state.isTerminal = true →
          b.record.snapshot.state = a.record.snapshot.state ∧
          b.record.snapshot.output = a.record.snapshot.output ∧
          b.record.snapshot.error = a.record.snapshot.error) ∧
        (a.record.cancellationRequested = true → a.record.snapshot.state.isTerminal = false →
          b.record.snapshot.state.isTerminal = true → b.record.snapshot.state = .cancelled)) := by
  refine ⟨(history_follows h).imp fun _ _ hfollows => hfollows.derives.revision, ?_⟩
  apply (history_precedes h).imp
  intro a b hab
  refine ⟨hab.epoch, fun hcancel => (hab.cancellation hcancel).1, ?_, ?_⟩
  · -- nothing is written after a terminal record
    intro hterminal
    rw [hab.unfinished] at hterminal
    cases hterminal
  · intro hcancel _ hterminal
    rcases (hab.cancellation hcancel).2 with hopen | hcancelled
    · rw [hopen] at hterminal
      cases hterminal
    · exact hcancelled

theorem lifecycle_of_reachable_changedHands : Reachable plainFormat changedHands ∧
      changedHands.cell.history.map (fun entry => entry.record.revision) = [1, 2, 3, 4] ∧
      changedHands.cell.history.IsChain (fun a b => b.record.revision = a.record.revision + 1) :=
  ⟨changedHands_reachable, rfl, (lifecycle_of_reachable changedHands_reachable).1⟩

/-- **Owner fencing**: after epoch `e + 1` is stored nothing issued under an epoch up to `e` is
applied, an epoch has one owner and is claimed once, over a lease that is absent or over. -/
theorem fencing_of_reachable {s : System Value} (h : Reachable format s) :
    s.cell.history.Pairwise (fun a b =>
        (∀ executor connection now e, a.write = .claim executor connection now →
          a.record.ownerEpoch = e + 1 → ∀ executor' epoch, epoch ≤ e →
            b.write ≠ .renew executor' epoch ∧ b.write ≠ .fencedExchange executor' epoch) ∧
        (a.record.ownerEpoch = b.record.ownerEpoch →
          a.record.ownerExecutorId = b.record.ownerExecutorId ∧
          a.record.ownerConnectionId = b.record.ownerConnectionId) ∧
        (∀ executor connection now, b.write = .claim executor connection now →
          a.record.ownerEpoch < b.record.ownerEpoch)) ∧
      s.cell.history.IsChain (fun a b =>
        ∀ executor connection now, b.write = .claim executor connection now →
          a.record.leaseExpiresAtMs = none ∨
            ∃ expiry, a.record.leaseExpiresAtMs = some expiry ∧ expiry ≤ now) := by
  constructor
  · apply (history_precedes h).imp
    intro a b hab
    obtain ⟨last, hlast, howned⟩ := hab.owned
    refine ⟨?_, hab.owner, ?_⟩
    · intro executor connection now e _ hepoch executor' epoch hle
      constructor <;> intro hwrite <;> rw [hwrite] at howned
      -- the write is made at the epoch it was issued under
      · have : last.record.ownerEpoch = epoch := howned.2.1
        omega
      · have : last.record.ownerEpoch = epoch := howned.2.1
        omega
    · intro executor connection now hwrite
      rw [hwrite] at howned
      have : b.record.ownerEpoch = last.record.ownerEpoch + 1 := howned.2.1
      omega
  · apply (history_follows h).imp
    intro a b hfollows executor connection now hwrite
    have howned := hfollows.owned
    rw [hwrite] at howned
    have hfree : a.record.leaseExpiresAtMs.all (fun expiry => expiry ≤ now) = true := howned.1
    cases hlease : a.record.leaseExpiresAtMs with
    | none => exact .inl rfl
    | some expiry =>
      rw [hlease] at hfree
      exact .inr ⟨expiry, rfl, of_decide_eq_true hfree⟩

theorem fencing_of_reachable_changedHands : Reachable plainFormat changedHands ∧
      changedHands.cell.history.map (fun entry => entry.record.ownerEpoch) = [0, 1, 2, 2] ∧
      changedHands.cell.history.IsChain (fun a b =>
        ∀ executor connection now, b.write = .claim executor connection now →
          a.record.leaseExpiresAtMs = none ∨
            ∃ expiry, a.record.leaseExpiresAtMs = some expiry ∧ expiry ≤ now) :=
  ⟨changedHands_reachable, rfl, (fencing_of_reachable changedHands_reachable).2⟩

end Operation
