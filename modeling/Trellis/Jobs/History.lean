/-
# Folds of a job history

Two folds read a job's history: the reducer over all stored events, and the one behind
the delivery decision, which leaves observations out and keeps track of the run.  On
histories of events as the constructors build them (`Regular`) they agree on the job's
state, and an appended event has one of two effects: it is ignored, or it takes the job
from the state it names to the state of its type.
-/
import Mathlib.Data.List.Induction
import Trellis.Jobs.Worker

namespace Jobs

open List

variable {Value : Type} {current : Job Value} {history : List (Nat × JobEvent Value)}
  {sequence : Nat}

/-! ## One event -/

/-- The state an event of a type leads to. -/
def JobEventType.target : JobEventType → JobState
  | .created | .retried => .pending
  | .started | .progress | .logged | .waiting | .resumed | .heartbeat
  | .staleCompletionIgnored => .active
  | .retry => .retry
  | .completed => .completed
  | .failed => .failed
  | .cancelled => .cancelled
  | .expired => .expired
  | .skipped => .skipped
  | .stale => .stale
  | .dead => .dead
  | .dismissed => .dismissed

/-- What all constructors of events respect. -/
structure Regular (event : JobEvent Value) : Prop where
  state : event.state = event.eventType.target
  created : event.eventType = .created → event.payload.isSome = true ∧ event.tries = 0
  tried : event.eventType = .started ∨ event.eventType = .retry → 0 < event.tries

/-- A pending job has not been tried in its run. -/
def Job.Fresh (job : Job Value) : Prop :=
  job.state = .pending → job.tries = 0

theorem isTerminal_eq_false (h : isTerminal state = false) :
    state = .pending ∨ state = .active ∨ state = .retry := by
  cases state with
  | pending => exact .inl rfl
  | active => exact .inr (.inl rfl)
  | retry => exact .inr (.inr rfl)
  | completed | failed | cancelled | expired | skipped | stale | dead | dismissed => cases h

/-- An event applies only in the state it names. -/
theorem previousState_of_legal (h : isLegalTransition current event = true) :
    event.previousState = some current.state := by
  unfold isLegalTransition at h
  cases htype : event.eventType with
  | created =>
    rw [htype] at h
    cases h
  | started | cancelled | expired | skipped | stale | retried | dead =>
    rw [htype] at h
    exact (of_decide_eq_true h).2
  | retry | progress | logged | completed | waiting | resumed | failed | heartbeat
  | staleCompletionIgnored | dismissed =>
    rw [htype] at h
    obtain ⟨hstate, hprev⟩ := of_decide_eq_true h
    rw [hstate, hprev]

/-- Observations are for active jobs only, and keep them active. -/
theorem active_of_observation (hobs : isObservation event.eventType = true)
    (h : isLegalTransition current event = true) :
    current.state = .active ∧ event.eventType.target = .active := by
  unfold isLegalTransition at h
  cases htype : event.eventType with
  | progress | logged | heartbeat | staleCompletionIgnored | waiting | resumed =>
    rw [htype] at h
    exact ⟨(of_decide_eq_true h).1, rfl⟩
  | created | started | retry | completed | failed | cancelled | expired | skipped | stale
  | retried | dead | dismissed =>
    rw [htype] at hobs
    cases hobs

@[simp] theorem applyEventType_state (next : Job Value) (event : JobEvent Value) :
    (applyEventType next event).state = next.state := by
  unfold applyEventType
  split <;> first | rfl | (split <;> rfl)

theorem reduceJobEvent_none : reduceJobEvent none event =
      if event.eventType = .created then seedJobFromEvent event else none := by
  by_cases hnew : event.eventType = .created <;> simp [reduceJobEvent, hnew]

theorem reduceJobEvent_of_legal (h : isLegalTransition current event = true) :
    reduceJobEvent (some current) event = some (applyEventType (nextJob current event) event) := by
  simp [reduceJobEvent, h]

theorem reduceJobEvent_of_illegal (h : isLegalTransition current event = false) :
    reduceJobEvent (some current) event = some current := by
  simp [reduceJobEvent, h]

theorem isSome_reduceJobEvent (current : Job Value) (event : JobEvent Value) :
    (reduceJobEvent (some current) event).isSome = true := by
  unfold reduceJobEvent
  dsimp only
  split <;> rfl

/-- The job a legal event makes of another. -/
theorem state_of_legal (hevent : Regular event) :
    (applyEventType (nextJob current event) event).state = event.eventType.target := by
  rw [applyEventType_state, ← hevent.state]
  rfl

/-- Only a retry of the whole job makes it pending again, and it resets the tries. -/
theorem fresh_of_legal (hevent : Regular event) (h : isLegalTransition current event = true) :
    (applyEventType (nextJob current event) event).Fresh := by
  intro hpend
  rw [state_of_legal hevent] at hpend
  cases htype : event.eventType with
  | retried =>
    unfold applyEventType
    rw [htype]
  | created =>
    unfold isLegalTransition at h
    rw [htype] at h
    cases h
  | started | progress | logged | waiting | resumed | heartbeat | staleCompletionIgnored | retry
  | completed | failed | cancelled | expired | skipped | stale | dead | dismissed =>
    rw [htype] at hpend
    cases hpend

/-- A reduced job stays fresh. -/
theorem fresh_reduceJobEvent {current : Option (Job Value)}
    (hevent : Regular event) (hcur : ∀ job, current = some job → job.Fresh)
    (h : reduceJobEvent current event = some job) : job.Fresh := by
  cases current with
  | none =>
    rw [reduceJobEvent_none] at h
    split at h
    next hnew =>
      obtain ⟨payload, -, rfl⟩ := Option.map_eq_some_iff.mp h
      exact fun _ => (hevent.created hnew).2
    · cases h
  | some current =>
    cases hlegal : isLegalTransition current event
    · rw [reduceJobEvent_of_illegal hlegal] at h
      exact hcur job h
    · rw [reduceJobEvent_of_legal hlegal] at h
      cases h
      exact fresh_of_legal hevent hlegal

/-! ## Histories -/

/-- All events of a history are regular. -/
def RegularHistory (history : List (Nat × JobEvent Value)) : Prop :=
  ∀ entry ∈ history, Regular entry.2

theorem RegularHistory.of_concat (h : RegularHistory (history ++ [entry])) :
    RegularHistory history ∧ Regular entry.2 := by
  refine ⟨fun other hother => h other (mem_append_left _ hother), ?_⟩
  exact h entry (mem_append_right _ mem_cons_self)

/-- The job the reducer makes of a history. -/
def historyJob (history : List (Nat × JobEvent Value)) : Option (Job Value) :=
  foldJob (history.map Prod.snd)

@[simp] theorem historyJob_concat (history : List (Nat × JobEvent Value))
    (entry : Nat × JobEvent Value) :
    historyJob (history ++ [entry]) = reduceJobEvent (historyJob history) entry.2 := by
  rw [historyJob, map_append, map_singleton, foldJob_concat]
  rfl

@[simp] theorem runFold_concat : runFold (history ++ [entry]) = (runFold history).step entry := by
  rw [runFold, foldl_append]
  rfl

/-- The entry creates the job, or is a retry that the reducer accepts. -/
def Opens (before : List (Nat × JobEvent Value)) (entry : Nat × JobEvent Value) : Prop :=
  match historyJob before with
  | none => entry.2.eventType = .created ∧ (reduceJobEvent none entry.2).isSome = true
  | some job => entry.2.eventType = .retried ∧ isLegalTransition job entry.2 = true

/-- Every event is ignored where it stands, or has the state its type stands for. -/
def Lawful (history : List (Nat × JobEvent Value)) : Prop :=
  ∀ before entry, before ++ [entry] <+: history →
    reduceJobEvent (historyJob before) entry.2 = historyJob before ∨
      entry.2.state = entry.2.eventType.target

theorem Lawful.of_concat (h : Lawful (history ++ [entry])) : Lawful history ∧
      (reduceJobEvent (historyJob history) entry.2 = historyJob history ∨
        entry.2.state = entry.2.eventType.target) := by
  refine ⟨fun before other hsto => h before other ?_, h history entry (prefix_refl _)⟩
  exact hsto.trans (prefix_append _ _)

/-- What the two folds agree on: the state, and the tries of a pending job. -/
def SameStage (a b : Option (Job Value)) : Prop :=
  a.map Job.state = b.map Job.state ∧
    ∀ job job', a = some job → b = some job' → job.state = .pending → job.tries = job'.tries

theorem isLegalTransition_of_sameStage (h : SameStage (some a) (some b))
    (event : JobEvent Value) : isLegalTransition a event = isLegalTransition b event := by
  have hstate : a.state = b.state := Option.some.inj h.1
  have htries : b.state = .pending ∧ a.tries = 0 ∧ event.tries = 0 ↔
      b.state = .pending ∧ b.tries = 0 ∧ event.tries = 0 := by
    refine and_congr_right fun hpend => ?_
    rw [h.2 a b rfl rfl (hstate.trans hpend)]
  unfold isLegalTransition
  simp only [hstate, htries]

/-- A transition takes both jobs to the same stage. -/
theorem SameStage.reduce (h : SameStage a b) (event : JobEvent Value) :
    SameStage (reduceJobEvent a event) (reduceJobEvent b event) := by
  cases a with
  | none =>
    cases b with
    | none =>
      refine ⟨rfl, ?_⟩
      intro job job' hjob hjob' _
      rw [Option.some.inj (hjob.symm.trans hjob')]
    | some b => cases h.1
  | some a =>
    cases b with
    | none => cases h.1
    | some b =>
      have hlegal := isLegalTransition_of_sameStage h event
      by_cases hb : isLegalTransition b event = true
      · rw [reduceJobEvent_of_legal hb, reduceJobEvent_of_legal (hlegal.trans hb)]
        constructor
        · rw [Option.map_some, Option.map_some, applyEventType_state, applyEventType_state]
          rfl
        · rintro _ _ ⟨⟩ ⟨⟩ -
          unfold applyEventType
          split <;> first | rfl | (split <;> rfl)
      · rw [Bool.not_eq_true] at hb
        rw [reduceJobEvent_of_illegal hb, reduceJobEvent_of_illegal (hlegal.trans hb)]
        exact h

/-- An observation changes neither. -/
theorem SameStage.observation (h : SameStage a b) (hobs : isObservation event.eventType = true)
    (hlawful : reduceJobEvent b event = b ∨ event.state = event.eventType.target) :
    SameStage a (reduceJobEvent b event) := by
  rcases hlawful with hignored | hstate
  · rw [hignored]
    exact h
  cases b with
  | none =>
    rw [reduceJobEvent_none, if_neg]
    · exact h
    · intro hnew
      rw [hnew] at hobs
      cases hobs
  | some b =>
    cases hlegal : isLegalTransition b event
    · rwa [reduceJobEvent_of_illegal hlegal]
    · obtain ⟨hact, htarget⟩ := active_of_observation hobs hlegal
      have hafter : (applyEventType (nextJob b event) event).state = .active := by
        rw [applyEventType_state, ← htarget, ← hstate]
        rfl
      rw [reduceJobEvent_of_legal hlegal]
      refine ⟨?_, ?_⟩
      · rw [h.1, Option.map_some, Option.map_some, hafter, hact]
      · rintro job _ rfl ⟨⟩ hpend
        have hsame : job.state = b.state := Option.some.inj h.1
        rw [hsame, hact] at hpend
        cases hpend

/-- The fold of the decision is at the reducer's stage. -/
theorem runFold_sameStage (h : Lawful history) :
    SameStage (runFold history).current (historyJob history) := by
  induction history using List.reverseRecOn with
  | nil =>
    refine ⟨rfl, ?_⟩
    intro job job' hjob
    cases hjob
  | append_singleton history entry ih =>
    obtain ⟨hhist, hentry⟩ := h.of_concat
    rw [runFold_concat, historyJob_concat, RunFold.step]
    split
    next hobs => exact (ih hhist).observation hobs hentry
    · dsimp only
      split
      · exact (ih hhist).reduce entry.2
      · exact (ih hhist).reduce entry.2

/-- The fold opens a run where the history does. -/
theorem opensRun_iff (h : Lawful history) : (opensRun (runFold history).current entry.2 = true ∧
      (reduceJobEvent (runFold history).current entry.2).isSome = true) ↔
      Opens history entry := by
  have hstage := runFold_sameStage h
  unfold Opens
  cases hcur : (runFold history).current with
  | none =>
    rw [hcur] at hstage
    rw [Option.map_eq_none_iff.mp hstage.1.symm]
    exact and_congr_left fun _ => decide_eq_true_iff
  | some folded =>
    rw [hcur] at hstage
    obtain ⟨job, hjob, hsame⟩ := Option.map_eq_some_iff.mp hstage.1.symm
    rw [hjob]
    rw [isSome_reduceJobEvent, and_iff_left rfl]
    unfold opensRun
    rw [decide_eq_true_eq, ← hsame]
    refine and_congr_right fun htype => ?_
    unfold isLegalTransition
    rw [htype, decide_eq_true_eq]

theorem runFold_of_opens (h : Lawful history) (hopens : Opens history entry) :
    (runFold (history ++ [entry])).runSequence = some entry.1 ∧
      (runFold (history ++ [entry])).runType = entry.2.eventType := by
  have hobs : isObservation entry.2.eventType = false := by
    unfold Opens at hopens
    split at hopens <;> rw [hopens.1] <;> rfl
  rw [runFold_concat, RunFold.step, if_neg (by rw [hobs]; exact Bool.false_ne_true)]
  rw [if_pos ((opensRun_iff h).mpr hopens)]
  exact ⟨rfl, rfl⟩

theorem runFold_of_not_opens (h : Lawful history) (hopens : ¬ Opens history entry) :
    (runFold (history ++ [entry])).runSequence = (runFold history).runSequence ∧
      (runFold (history ++ [entry])).runType = (runFold history).runType := by
  rw [runFold_concat, RunFold.step]
  split
  · exact ⟨rfl, rfl⟩
  · rw [if_neg (mt (opensRun_iff h).mp hopens)]
    exact ⟨rfl, rfl⟩

variable (h : RegularHistory history)

include h in
theorem RegularHistory.lawful : Lawful history := by
  intro before entry hstored
  exact .inr (h entry (hstored.subset (mem_append_right _ mem_cons_self))).state

variable (hcur : historyJob history = some current)

include h hcur in
/-- The accepted-state fold of the delivery decision has the reducer's state. -/
theorem exists_runFold :
    ∃ folded, (runFold history).current = some folded ∧ folded.state = current.state := by
  obtain ⟨hstate, -⟩ := runFold_sameStage h.lawful
  rw [hcur] at hstate
  exact Option.map_eq_some_iff.mp hstate

include h

theorem fresh_of_historyJob (hjob : historyJob history = some job) : job.Fresh := by
  induction history using List.reverseRecOn generalizing job with
  | nil => cases hjob
  | append_singleton history entry ih =>
    obtain ⟨hhist, hentry⟩ := h.of_concat
    rw [historyJob_concat] at hjob
    exact fresh_reduceJobEvent hentry (fun _ => ih hhist) hjob

/-- In the accepted-state fold a job that is not pending has been tried. -/
theorem tried_of_runFold (hjob : (runFold history).current = some job)
    (hstate : job.state = .active ∨ job.state = .retry) : 0 < job.tries := by
  induction history using List.reverseRecOn generalizing job with
  | nil => cases hjob
  | append_singleton history entry ih =>
    obtain ⟨hhist, hentry⟩ := h.of_concat
    rw [runFold_concat, RunFold.step] at hjob
    split at hjob
    · exact ih hhist hjob hstate
    rename_i hobs
    have hred : reduceJobEvent (runFold history).current entry.2 = some job := by
      dsimp only at hjob
      split at hjob <;> exact hjob
    cases hcur : (runFold history).current with
    | none =>
      rw [hcur, reduceJobEvent_none] at hred
      split at hred
      · -- a created job is pending
        rename_i hnew
        obtain ⟨payload, -, rfl⟩ := Option.map_eq_some_iff.mp hred
        have hpend : entry.2.state = .pending := by
          rw [hentry.state, hnew]
          rfl
        rw [hpend] at hstate
        rcases hstate with hstate | hstate <;> cases hstate
      · cases hred
    | some current =>
      rw [hcur] at hred
      cases hlegal : isLegalTransition current entry.2
      · rw [reduceJobEvent_of_illegal hlegal] at hred
        exact ih hhist (hcur.trans hred) hstate
      · rw [reduceJobEvent_of_legal hlegal] at hred
        cases hred
        rw [state_of_legal hentry] at hstate
        have htype : entry.2.eventType = .started ∨ entry.2.eventType = .retry := by
          cases htype : entry.2.eventType <;> rw [htype] at hstate hobs <;>
            first
            | exact .inl rfl
            | exact .inr rfl
            | exact absurd rfl hobs
            | (rcases hstate with hstate | hstate <;> cases hstate)
        have htries := hentry.tried htype
        unfold applyEventType
        rcases htype with htype | htype <;> rw [htype] <;> exact htries

/-! ## Runs -/

include hcur in
/-- Storing an event for a job that exists opens a run if it retries the job. -/
theorem runSequence_concat : (runFold (history ++ [entry])).runSequence =
      if entry.2.eventType = .retried ∧ isLegalTransition current entry.2 = true then some entry.1
      else (runFold history).runSequence := by
  have hopens : Opens history entry ↔
      entry.2.eventType = .retried ∧ isLegalTransition current entry.2 = true := by
    unfold Opens
    rw [hcur]
  split
  next hretried => exact (runFold_of_opens h.lawful (hopens.mpr hretried)).1
  next hother => exact (runFold_of_not_opens h.lawful (mt hopens.mp hother)).1

/-- The first run is opened by the creation of the job. -/
theorem runSequence_concat_none (hentry : Regular entry.2) (hcur : historyJob history = none) :
    (runFold (history ++ [entry])).runSequence = if entry.2.eventType = .created then some entry.1
      else (runFold history).runSequence := by
  have hopens : Opens history entry ↔ entry.2.eventType = .created := by
    unfold Opens
    rw [hcur]
    refine and_iff_left_of_imp fun hnew => ?_
    rw [reduceJobEvent_none, if_pos hnew, seedJobFromEvent, Option.isSome_map]
    exact (hentry.created hnew).1
  split
  next hnew => exact (runFold_of_opens h.lawful (hopens.mpr hnew)).1
  next hother => exact (runFold_of_not_opens h.lawful (mt hopens.mp hother)).1

/-- There is a run as soon as there is a job. -/
theorem runSequence_isSome :
    (runFold history).runSequence.isSome = (historyJob history).isSome := by
  induction history using List.reverseRecOn with
  | nil => rfl
  | append_singleton history entry ih =>
    obtain ⟨hhist, hentry⟩ := h.of_concat
    rw [historyJob_concat]
    cases hcur : historyJob history with
    | none =>
      rw [runSequence_concat_none hhist hentry hcur, reduceJobEvent_none]
      split
      next hnew =>
        rw [seedJobFromEvent, Option.isSome_map, (hentry.created hnew).1]
        rfl
      · rw [ih hhist, hcur]
    | some current =>
      rw [runSequence_concat hhist hcur, isSome_reduceJobEvent]
      split
      · rfl
      · rw [ih hhist, hcur]
        rfl

omit h

/-- The run is opened by a stored event of its type. -/
theorem mem_of_runSequence (hrun : (runFold history).runSequence = some sequence) :
    ∃ event, (sequence, event) ∈ history ∧ event.eventType = (runFold history).runType := by
  induction history using List.reverseRecOn with
  | nil => cases hrun
  | append_singleton history entry ih =>
    rw [runFold_concat, RunFold.step] at hrun ⊢
    split at hrun
    next hobs =>
      rw [if_pos hobs]
      obtain ⟨event, hmem, htype⟩ := ih hrun
      exact ⟨event, mem_append_left _ hmem, htype⟩
    next hobs =>
      rw [if_neg hobs]
      dsimp only at hrun
      split at hrun
      next hopens =>
        rw [if_pos hopens]
        cases hrun
        exact ⟨entry.2, mem_append_right _ mem_cons_self, rfl⟩
      next hopens =>
        rw [if_neg hopens]
        obtain ⟨event, hmem, htype⟩ := ih hrun
        exact ⟨event, mem_append_left _ hmem, htype⟩

/-! ## The delivery decision -/

/-- Where there is a run, a delivery is processed only for it, and only until it ends. -/
theorem run_of_process (hfolded : (runFold history).current = some folded)
    (hrun : (runFold history).runSequence.isSome = true)
    (hdec : (streamWorkDecision history work sequence workEventType).1 = .process) :
    (runFold history).runSequence = some sequence ∧ (runFold history).runType = workEventType ∧
      isTerminal folded.state = false ∧
      (streamWorkDecision history work sequence workEventType).2 = folded := by
  unfold streamWorkDecision at hdec ⊢
  dsimp only at hdec ⊢
  rw [hfolded, hrun, Option.getD_some, Option.any_some] at hdec ⊢
  split at hdec
  · cases hdec
  rename_i hnotOld
  have hopen : isTerminal folded.state = false := by
    by_contra hterm
    rw [Bool.not_eq_false] at hterm
    rw [if_pos hterm] at hdec
    cases hdec
  refine ⟨?_, ?_, hopen, by rw [if_neg hnotOld]⟩
  · by_contra hother
    exact hnotOld ⟨rfl, .inr ⟨hother, .inr (by rw [hopen]; rfl)⟩⟩
  · by_contra hother
    exact hnotOld ⟨rfl, .inl hother⟩

include h hcur

/-- A delivery is processed for the current run, whose job has not ended. -/
theorem streamWorkDecision_process
    (hdec : streamWorkDecision history work sequence workEventType = (.process, job)) :
    (runFold history).runSequence = some sequence ∧ job.state = current.state ∧
      isTerminal job.state = false ∧ (job.tries = 0 → job.state = .pending) := by
  obtain ⟨folded, hfolded, hsame⟩ := exists_runFold h hcur
  have hrun : (runFold history).runSequence.isSome = true := by
    rw [runSequence_isSome h, hcur]
    rfl
  obtain ⟨hseq, -, hopen, hjob⟩ := run_of_process hfolded hrun (congrArg Prod.fst hdec)
  obtain rfl : folded = job := hjob.symm.trans (congrArg Prod.snd hdec)
  refine ⟨hseq, hsame, hopen, ?_⟩
  intro htries
  rcases isTerminal_eq_false hopen with hpend | htried
  · exact hpend
  · have := tried_of_runFold h hfolded htried
    omega

theorem streamWorkDecision_skipAck
    (hdec : streamWorkDecision history work sequence workEventType = (.skipAck, job)) :
    isTerminal current.state = true := by
  obtain ⟨folded, hfolded, hsame⟩ := exists_runFold h hcur
  unfold streamWorkDecision at hdec
  dsimp only at hdec
  rw [hfolded, Option.getD_some] at hdec
  split at hdec
  · cases hdec
  obtain ⟨hskip, -⟩ := Prod.mk.inj hdec
  rw [← hsame]
  by_contra hopen
  rw [if_neg hopen] at hskip
  cases hskip

omit hcur

/-- What is handed out has not ended and is pending until tried: the job of the current run or, as
long as none is stored, of the message. -/
theorem open_of_process (hevent : Regular event) (hwork : jobFromWorkEvent event = some work)
    (hdec : streamWorkDecision history work sequence event.eventType = (.process, job)) :
    isTerminal job.state = false ∧ (job.tries = 0 → job.state = .pending) := by
  cases hcur : historyJob history with
  | some current => exact (streamWorkDecision_process h hcur hdec).2.2
  | none =>
    have hnone : (runFold history).current = none := by
      obtain ⟨hstate, -⟩ := runFold_sameStage h.lawful
      rw [hcur] at hstate
      exact Option.map_eq_none_iff.mp hstate
    have hpend : work.state = .pending := by
      unfold jobFromWorkEvent at hwork
      split at hwork
      case h_3 => cases hwork
      all_goals
        rename_i htype
        obtain ⟨payload, -, rfl⟩ := Option.map_eq_some_iff.mp hwork
        exact hevent.state.trans (htype ▸ rfl)
    unfold streamWorkDecision at hdec
    dsimp only at hdec
    rw [hnone, Option.getD_none] at hdec
    split at hdec
    · cases hdec
    obtain ⟨-, rfl⟩ := Prod.mk.inj hdec
    rw [hpend]
    exact ⟨rfl, fun _ => rfl⟩

omit h

/-- A delivery is retired as old for a run of another type or sequence. -/
theorem streamWorkDecision_oldRunAck
    (hdec : streamWorkDecision history work sequence workEventType = (.oldRunAck, job)) :
    (runFold history).runType ≠ workEventType ∨ (runFold history).runSequence ≠ some sequence := by
  unfold streamWorkDecision at hdec
  dsimp only at hdec
  split at hdec
  next hold =>
    rcases hold.2 with htype | ⟨hseq, -⟩
    · exact .inl htype
    · exact .inr hseq
  · obtain ⟨hdecided, -⟩ := Prod.mk.inj hdec
    split at hdecided <;> cases hdecided

end Jobs
