/-
# Lifecycle laws

What holds of every list of job events, in whatever order they stand.

A job that is completed, cancelled, skipped, stale or dismissed stays as it is.  It leaves Failed
by a retry of the whole job or by dying, Dead by a retry or a dismissal, Expired by dying.  A run
is opened by the creation of the job or by an accepted retry; a delivery is processed for the open
run, and one of an older run is retired.

The decision on a delivery leaves observations out of its fold.  Where every event is ignored or
of the state its type stands for, that makes no difference to the state, nor to the tries while it
is pending.
-/
import Mathlib.Data.List.Sort
import Trellis.Jobs.History

namespace Jobs

open List

variable {Value : Type}

/-! ## Final states -/

/-- The states no event leads out of. -/
def isAbsorbing : JobState → Bool
  | .completed | .cancelled | .skipped | .stale | .dismissed => true
  | .pending | .active | .retry | .failed | .expired | .dead => false

theorem foldl_of_isAbsorbing (h : isAbsorbing job.state = true)
    (events : List (JobEvent Value)) : events.foldl reduceJobEvent (some job) = some job := by
  induction events with
  | nil => rfl
  | cons event events ih =>
    rw [foldl_cons, reduceJobEvent_of_illegal]
    · exact ih
    · unfold isLegalTransition
      cases hstate : job.state <;> rw [hstate] at h <;>
        first
        | exact absurd h (by decide)
        | (split <;> simp)

/-- An event that changes a job is legal for it. -/
theorem legal_of_changed
    (h : reduceJobEvent (some job) event ≠ some job) : isLegalTransition job event = true := by
  by_contra hillegal
  rw [Bool.not_eq_true] at hillegal
  exact h (reduceJobEvent_of_illegal hillegal)

theorem leaves_failed (hstate : job.state = .failed) (h : isLegalTransition job event = true) :
    event.eventType = .retried ∨ event.eventType = .dead := by
  unfold isLegalTransition at h
  cases htype : event.eventType <;> rw [htype, hstate] at h <;> simp_all

theorem leaves_dead (hstate : job.state = .dead) (h : isLegalTransition job event = true) :
    event.eventType = .retried ∨ event.eventType = .dismissed := by
  unfold isLegalTransition at h
  cases htype : event.eventType <;> rw [htype, hstate] at h <;> simp_all

theorem leaves_expired (hstate : job.state = .expired)
    (h : isLegalTransition job event = true) : event.eventType = .dead := by
  unfold isLegalTransition at h
  cases htype : event.eventType <;> rw [htype, hstate] at h <;> simp_all

/-! ## Creation -/

theorem applyEventType_id {next : Job Value} : (applyEventType next event).id = next.id := by
  unfold applyEventType
  split <;> first | rfl | (split <;> rfl)

/-- A reduced job was there, or is created by the event. -/
theorem reduceJobEvent_eq_some (h : reduceJobEvent current event = some job) :
    (∃ before, current = some before ∧ job.id = before.id) ∨
      (current = none ∧ event.eventType = .created ∧ event.jobId = job.id) := by
  cases current with
  | none =>
    rw [reduceJobEvent_none] at h
    split at h
    next hnew =>
      obtain ⟨payload, -, rfl⟩ := Option.map_eq_some_iff.mp h
      exact .inr ⟨rfl, hnew, rfl⟩
    · cases h
  | some before =>
    refine .inl ⟨before, rfl, ?_⟩
    cases hlegal : isLegalTransition before event
    · rw [reduceJobEvent_of_illegal hlegal] at h
      rw [Option.some.inj h]
    · rw [reduceJobEvent_of_legal hlegal] at h
      rw [← Option.some.inj h, applyEventType_id]
      rfl

/-- There is no job that was not created. -/
theorem exists_created_of_foldJob (h : foldJob events = some job) :
    ∃ event ∈ events, event.eventType = .created ∧ event.jobId = job.id := by
  induction events using List.reverseRecOn generalizing job with
  | nil => cases h
  | append_singleton events event ih =>
    rw [foldJob_concat] at h
    rcases reduceJobEvent_eq_some h with ⟨before, hbefore, hid⟩ | ⟨-, hnew, hid⟩
    · obtain ⟨creation, hmem, hnew, hsame⟩ := ih hbefore
      exact ⟨creation, mem_append_left _ hmem, hnew, hsame.trans hid.symm⟩
    · exact ⟨event, mem_append_right _ (mem_singleton.mpr rfl), hnew, hid⟩

/-- **Terminal lifecycle laws**, for every list of events in any order. -/
theorem terminal_laws {events : List (JobEvent Value)} {job : Job Value}
    (h : foldJob events = some job) :
    (job.state ∈ [.completed, .cancelled, .skipped, .stale, .dismissed] →
      ∀ later, foldJob (events ++ later) = some job) ∧
    (∀ event, foldJob (events ++ [event]) ≠ some job →
      (job.state = .failed → event.eventType = .retried ∨ event.eventType = .dead) ∧
      (job.state = .dead → event.eventType = .retried ∨ event.eventType = .dismissed) ∧
      (job.state = .expired → event.eventType = .dead)) ∧
    ∃ event ∈ events, event.eventType = .created ∧ event.jobId = job.id := by
  refine ⟨?_, ?_, exists_created_of_foldJob h⟩
  · intro hstate later
    have hfinal : isAbsorbing job.state = true := by
      simp only [mem_cons, not_mem_nil, or_false] at hstate
      rcases hstate with hstate | hstate | hstate | hstate | hstate <;> rw [hstate] <;> rfl
    rw [foldJob, foldl_append]
    show later.foldl reduceJobEvent (foldJob events) = some job
    rw [h]
    exact foldl_of_isAbsorbing hfinal later
  · intro event hchanged
    rw [foldJob_concat, h] at hchanged
    have hlegal := legal_of_changed hchanged
    exact ⟨fun hstate => leaves_failed hstate hlegal, fun hstate => leaves_dead hstate hlegal,
      fun hstate => leaves_expired hstate hlegal⟩

/-- A report that is created, started and completed. -/
theorem terminal_laws_report :
    let info : EventMeta String := ⟨"documents", "report", "job", "context", "now"⟩
    let events := [Event.createdWithPolicy info "payload" 3 none none none,
      Event.started info 1 .pending none, Event.completed info 1 "done"]
    ∃ job, foldJob events = some job ∧ ∀ later, foldJob (events ++ later) = some job := by
  refine ⟨_, rfl, ?_⟩
  exact (terminal_laws rfl).1 (by decide)

/-! ## Runs of a history -/

/-- The history holds the entry after the entries before it, and the entry opens a run. -/
structure OpensAt (history before : List (Nat × JobEvent Value)) (entry : Nat × JobEvent Value) :
    Prop where
  stored : before ++ [entry] <+: history
  opens : Opens before entry

variable (history : List (Nat × JobEvent Value))

/-- The history contains a run. -/
def HasRun : Prop :=
  ∃ before entry, OpensAt history before entry

/-- The last run of the history was opened at the sequence, by an event of the type. -/
def CurrentRun (sequence : Nat) (eventType : JobEventType) : Prop :=
  ∃ before entry, OpensAt history before entry ∧ entry.1 = sequence ∧
    entry.2.eventType = eventType ∧
    ∀ before' entry', OpensAt history before' entry' → before'.length ≤ before.length

/-- A run that is not the last one was opened at the sequence. -/
def OlderRun (sequence : Nat) : Prop :=
  ∃ before entry, OpensAt history before entry ∧ entry.1 = sequence ∧
    ∃ before' entry', OpensAt history before' entry' ∧ before.length < before'.length

variable {history : List (Nat × JobEvent Value)} {entry : Nat × JobEvent Value}

/-! ## Prefixes of a history that grows -/

variable {before : List (Nat × JobEvent Value)}

theorem opensAt_concat : OpensAt (history ++ [last]) before entry ↔
      OpensAt history before entry ∨ (before = history ∧ entry = last ∧ Opens history last) := by
  constructor
  · rintro ⟨hsto, hopens⟩
    rcases prefix_concat_iff.mp hsto with hall | hsto
    · obtain ⟨rfl, hlast⟩ := append_inj' hall rfl
      obtain rfl := singleton_injective hlast
      exact .inr ⟨rfl, rfl, hopens⟩
    · exact .inl ⟨hsto, hopens⟩
  · rintro (⟨hsto, hopens⟩ | ⟨rfl, rfl, hopens⟩)
    · exact ⟨hsto.trans (prefix_append _ _), hopens⟩
    · exact ⟨prefix_refl _, hopens⟩

variable (h : OpensAt history before entry)

include h

theorem OpensAt.length_lt : before.length < history.length := by
  have hlen := h.stored.length_le
  rw [length_append, length_singleton] at hlen
  omega

theorem OpensAt.mem : entry ∈ history :=
  h.stored.subset (mem_append_right _ (mem_singleton.mpr rfl))

omit h

/-- The tracker of the fold holds the current run. -/
theorem runSequence_spec (h : Lawful history) :
    ((runFold history).runSequence = none → ¬ HasRun history) ∧
      ∀ sequence, (runFold history).runSequence = some sequence →
        CurrentRun history sequence (runFold history).runType := by
  induction history using List.reverseRecOn with
  | nil =>
    refine ⟨?_, nofun⟩
    rintro - ⟨before, entry, hopens⟩
    exact absurd hopens.length_lt (Nat.not_lt_zero _)
  | append_singleton history last ih =>
    obtain ⟨hhist, -⟩ := h.of_concat
    obtain ⟨hnone, hsome⟩ := ih hhist
    by_cases hopens : Opens history last
    · obtain ⟨hseq, htype⟩ := runFold_of_opens hhist hopens
      rw [hseq, htype]
      refine ⟨nofun, ?_⟩
      rintro _ ⟨⟩
      refine ⟨history, last, opensAt_concat.mpr (.inr ⟨rfl, rfl, hopens⟩), rfl, rfl, ?_⟩
      intro before' entry' hother
      have hlen := hother.length_lt
      rw [length_append, length_singleton] at hlen
      omega
    · obtain ⟨hseq, htype⟩ := runFold_of_not_opens hhist hopens
      rw [hseq, htype]
      have hback : ∀ {before entry}, OpensAt (history ++ [last]) before entry →
          OpensAt history before entry := by
        intro before entry hopensAt
        rcases opensAt_concat.mp hopensAt with hbefore | ⟨-, -, hlast⟩
        · exact hbefore
        · exact absurd hlast hopens
      constructor
      · rintro hrun ⟨before, entry, hopensAt⟩
        exact hnone hrun ⟨before, entry, hback hopensAt⟩
      · intro sequence hrun
        obtain ⟨before, entry, hopensAt, hentry, htype', hlast⟩ := hsome sequence hrun
        exact ⟨before, entry, opensAt_concat.mpr (.inl hopensAt), hentry, htype',
          fun before' entry' hother => hlast before' entry' (hback hother)⟩

include h

theorem historyJob_isSome_of_opensAt : (historyJob history).isSome = true := by
  induction history using List.reverseRecOn with
  | nil => exact absurd h.length_lt (Nat.not_lt_zero _)
  | append_singleton history last ih =>
    rw [historyJob_concat]
    rcases opensAt_concat.mp h with hbefore | ⟨-, -, hopens⟩
    · obtain ⟨job, hjob⟩ := Option.isSome_iff_exists.mp (ih hbefore)
      rw [hjob]
      exact isSome_reduceJobEvent job last.2
    · unfold Opens at hopens
      split at hopens
      next hnone =>
        rw [hnone]
        exact hopens.2
      next job hjob =>
        rw [hjob]
        exact isSome_reduceJobEvent job last.2

/-- A run after another one is a retry. -/
theorem retried_of_opens (hopens : Opens history last) : last.2.eventType = .retried := by
  obtain ⟨job, hjob⟩ := Option.isSome_iff_exists.mp (historyJob_isSome_of_opensAt h)
  unfold Opens at hopens
  rw [hjob] at hopens
  exact hopens.1

omit h

/-- While a run is older, the tracker holds a retry at another sequence. -/
theorem runFold_of_olderRun {sequence : Nat} (h : Lawful history)
    (hsequences : (history.map Prod.fst).Nodup)
    (holder : OlderRun history sequence) :
    (runFold history).runSequence.isSome = true ∧ (runFold history).runType = .retried ∧
      (runFold history).runSequence ≠ some sequence := by
  induction history using List.reverseRecOn with
  | nil =>
    obtain ⟨before, entry, hopens, -⟩ := holder
    exact absurd hopens.length_lt (Nat.not_lt_zero _)
  | append_singleton history last ih =>
    obtain ⟨hhist, -⟩ := h.of_concat
    rw [map_append, nodup_append] at hsequences
    obtain ⟨hnd, -, hnew⟩ := hsequences
    obtain ⟨before, entry, hopensAt, rfl, before', entry', hlater, hlt⟩ := holder
    -- the older run was opened before the last entry
    have hbefore : OpensAt history before entry := by
      rcases opensAt_concat.mp hopensAt with hbefore | ⟨rfl, -, -⟩
      · exact hbefore
      · have hlen := hlater.length_lt
        rw [length_append, length_singleton] at hlen
        omega
    by_cases hopens : Opens history last
    · obtain ⟨hrun, htype⟩ := runFold_of_opens hhist hopens
      rw [hrun, htype]
      refine ⟨rfl, retried_of_opens hbefore hopens, ?_⟩
      intro hsame
      exact hnew _ (mem_map_of_mem hbefore.mem) _ (mem_singleton.mpr rfl)
        (Option.some.inj hsame).symm
    · obtain ⟨hrun, htype⟩ := runFold_of_not_opens hhist hopens
      rw [hrun, htype]
      refine ih hhist hnd ⟨before, entry, hbefore, rfl, before', entry', ?_, hlt⟩
      rcases opensAt_concat.mp hlater with hlater | ⟨-, -, hlast⟩
      · exact hlater
      · exact absurd hlast hopens

/-! ## The history a worker reads -/

/-- The events of the job among those read, in broker order. -/
def lifecycleHistory (work : Job Value) (read : List (Nat × JobEvent Value)) :
    List (Nat × JobEvent Value) :=
  (read.filter fun entry => entry.2.service = work.service ∧ entry.2.jobType = work.jobType ∧
    entry.2.jobId = work.id).insertionSort fun a b => a.1 ≤ b.1

/-- **The decision is run-exact.**  A delivery is processed only for the open run, or where there is
none; one of an older run is retired and neither processes nor skips the newer one. -/
theorem streamWorkDecision_runExact {work : Job Value} {read : List (Nat × JobEvent Value)}
    (hread : (read.map Prod.fst).Nodup) (h : Lawful (lifecycleHistory work read))
    (workSequence : Nat) (workEventType : JobEventType) : let history := lifecycleHistory work read
    let decision := streamWorkDecision history work workSequence workEventType
    (decision.1 = .process → (CurrentRun history workSequence workEventType ∧
        ∃ job, historyJob history = some job ∧ isTerminal job.state = false) ∨
      ¬ HasRun history) ∧
    (OlderRun history workSequence → decision = (.oldRunAck, work)) := by
  intro history decision
  have hnodup : (history.map Prod.fst).Nodup := by
    have hperm : history.Perm (read.filter fun entry => entry.2.service = work.service ∧
        entry.2.jobType = work.jobType ∧ entry.2.jobId = work.id) := perm_insertionSort _ _
    exact (hperm.map Prod.fst).nodup_iff.mpr (hread.sublist (filter_sublist.map _))
  constructor
  · intro hprocess
    obtain ⟨hnone, hsome⟩ := runSequence_spec h
    cases hrun : (runFold history).runSequence with
    | none => exact .inr (hnone hrun)
    | some sequence =>
      refine .inl ?_
      have hcurrent := hsome sequence hrun
      obtain ⟨before, entry, hopensAt, -⟩ := hcurrent
      obtain ⟨job, hjob⟩ := Option.isSome_iff_exists.mp (historyJob_isSome_of_opensAt hopensAt)
      have hstage := runFold_sameStage h
      rw [hjob] at hstage
      obtain ⟨folded, hfolded, hsame⟩ := Option.map_eq_some_iff.mp hstage.1
      obtain ⟨hsequence, htype, hopen, -⟩ := run_of_process hfolded (hrun ▸ rfl) hprocess
      refine ⟨?_, job, hjob, ?_⟩
      · rw [← htype]
        exact hsome workSequence hsequence
      · rw [← hopen]
        exact congrArg isTerminal hsame.symm
  · intro holder
    obtain ⟨hrun, htype, hother⟩ := runFold_of_olderRun h hnodup holder
    show streamWorkDecision history work workSequence workEventType = _
    unfold streamWorkDecision
    rw [if_pos ⟨hrun, .inr ⟨hother, .inl htype⟩⟩]

/-- The events of a report that failed and was retried, as two scans return them. -/
def reportRead : List (Nat × JobEvent String) :=
  let info : EventMeta String := ⟨"documents", "report", "job", "context", "now"⟩
  [(2, Event.started info 1 .pending none), (3, Event.failed info 1 .active "no space"),
    (1, Event.createdWithPolicy info "payload" 3 none none none),
    (4, Event.retriedByAdmin info .failed none none none none)]

def reportWork : Job String where
  id := "job"
  context := "context"
  service := "documents"
  jobType := "report"
  state := .pending
  payload := "payload"
  result := none
  createdAt := "now"
  updatedAt := "now"
  startedAt := none
  completedAt := none
  tries := 0
  maxTries := 3
  lastError := none
  deadline := none
  progress := none
  logs := none
  concurrency := none
  queuePolicy := none
  trigger := none
  lineage := none
  waitingOn := none

theorem reportRead_lawful : Lawful (lifecycleHistory reportWork reportRead) := by
  have hstates : ∀ entry ∈ lifecycleHistory reportWork reportRead,
      entry.2.state = entry.2.eventType.target := by decide
  intro before entry hsto
  exact .inr (hstates entry (hsto.subset (mem_append_right _ (mem_singleton.mpr rfl))))

/-- The retry's delivery is processed as the current run's, the first one is retired. -/
theorem streamWorkDecision_runExact_report :
    CurrentRun (lifecycleHistory reportWork reportRead) 4 .retried ∧
      streamWorkDecision (lifecycleHistory reportWork reportRead) reportWork 1 .created
        = (.oldRunAck, reportWork) := by
  have hcreated : OpensAt (lifecycleHistory reportWork reportRead) []
      (1, Event.createdWithPolicy ⟨"documents", "report", "job", "context", "now"⟩ "payload" 3 none
        none none) := ⟨by decide, by decide, by decide⟩
  have hretried : OpensAt (lifecycleHistory reportWork reportRead)
      ((lifecycleHistory reportWork reportRead).take 3)
      (4, Event.retriedByAdmin ⟨"documents", "report", "job", "context", "now"⟩ .failed none none
        none none) := ⟨by decide, by decide, by decide⟩
  have hcurrent := (streamWorkDecision_runExact (by decide) reportRead_lawful 4 .retried).1
    (by decide)
  constructor
  · rcases hcurrent with ⟨hrun, -⟩ | hnone
    · exact hrun
    · exact absurd ⟨_, _, hcreated⟩ hnone
  · exact (streamWorkDecision_runExact (by decide) reportRead_lawful 1 .created).2
      ⟨_, _, hcreated, rfl, _, _, hretried, by decide⟩

end Jobs
