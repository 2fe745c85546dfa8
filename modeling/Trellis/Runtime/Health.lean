/-
# The health projection

Heartbeats as `runtime/src/health/store.rs` projects them: the latest row of
each instance and the intervals of its status.  A heartbeat whose verification
fails for the moment is delivered again, after later ones may have been
projected; and any may come after the deadline it would have met.
-/
import Trellis.Lib.Run

namespace Health

open List

inductive HealthStatus
  | healthy | degraded | unhealthy | offline
  deriving DecidableEq

structure InstanceKey where
  (participantKind contractId instanceId : String)
  deriving DecidableEq

/-- A heartbeat that passes `validate_sample`, with its place in the stream. -/
structure Sample where
  key : InstanceKey
  reportedStatus : HealthStatus
  checksJson : String
  (publishIntervalMs observedAtNs : Int)
  streamSequence : Nat
  reported : reportedStatus ≠ .offline
  interval : 1000 ≤ publishIntervalMs ∧ publishIntervalMs ≤ 600000

/-- A row of `health_latest`. -/
structure Latest where
  (reportedStatus effectiveStatus : HealthStatus)
  (observedAtNs heartbeatDeadlineNs : Int)

/-- A row of `health_status_intervals`. -/
structure Interval where
  startedAtNs : Int
  endedAtNs : Option Int
  (reportedStatus effectiveStatus : HealthStatus)
  (checksJson reason : String)

structure HealthStore where
  lastStreamSequence : Int
  latest : InstanceKey → Option Latest
  /-- The newest first. -/
  intervals : InstanceKey → List Interval

inductive HealthStoreError
  | sqlite | deadlineOverflow

def i64Max : Int := 2 ^ 63 - 1

def closeInterval (rows : List Interval) (endedAtNs : Int) : List Interval :=
  rows.map fun row => if row.endedAtNs = none then { row with endedAtNs := some endedAtNs } else row

/-- The checks of the open interval, which `load_current` reads. -/
def openChecks (rows : List Interval) : Option String :=
  (rows.find? (·.endedAtNs = none)).map Interval.checksJson

/-- The intervals of an instance after its deadline. -/
def Latest.expire (current : Latest) (rows : List Interval) (checksJson : String) : List Interval :=
  ⟨current.heartbeatDeadlineNs, none, current.reportedStatus, .offline, checksJson,
    "deadline-expired"⟩ :: closeInterval rows current.heartbeatDeadlineNs

namespace Sample

variable (sample : Sample)

/-- The sequence as the store has it. -/
def sequence : Int :=
  min sample.streamSequence i64Max

def deadlineNs : Int :=
  sample.observedAtNs + sample.publishIntervalMs * 2 * 1000000

def opens (reason : String) : Interval :=
  ⟨sample.observedAtNs, none, sample.reportedStatus, sample.reportedStatus, sample.checksJson,
    reason⟩

def latest : Latest :=
  ⟨sample.reportedStatus, sample.reportedStatus, sample.observedAtNs, sample.deadlineNs⟩

/-- The intervals of an instance after a newer heartbeat. -/
def follow (rows : List Interval) (current : Latest) (checksJson : String) : List Interval :=
  if current.effectiveStatus ≠ .offline ∧ current.heartbeatDeadlineNs < sample.observedAtNs then
    sample.opens "heartbeat-resumed" :: closeInterval (current.expire rows checksJson)
      sample.observedAtNs
  else if current.effectiveStatus = .offline then
    sample.opens "heartbeat-resumed" :: closeInterval rows sample.observedAtNs
  else if current.effectiveStatus ≠ sample.reportedStatus ∨ checksJson ≠ sample.checksJson then
    sample.opens "heartbeat-change" :: closeInterval rows sample.observedAtNs
  else rows

end Sample

namespace HealthStore

def new : HealthStore :=
  ⟨0, fun _ => none, fun _ => []⟩

variable (store : HealthStore)

def put (sample : Sample) (rows : List Interval) : HealthStore where
  lastStreamSequence := sample.sequence
  latest := Function.update store.latest sample.key (some sample.latest)
  intervals := Function.update store.intervals sample.key rows

def projectSample (sample : Sample) : Except HealthStoreError HealthStore :=
  if sample.sequence ≤ store.lastStreamSequence then .ok store
  else if i64Max < sample.deadlineNs then .error .deadlineOverflow
  else match store.latest sample.key, openChecks (store.intervals sample.key) with
    | none, _ => .ok (store.put sample (sample.opens "first-sample" :: store.intervals sample.key))
    | some _, none => .error .sqlite
    | some current, some checks =>
      if sample.observedAtNs ≤ current.observedAtNs then
        .ok { store with lastStreamSequence := sample.sequence }
      else .ok (store.put sample (sample.follow (store.intervals sample.key) current checks))

def expireDue (nowNs : Int) : HealthStore :=
  let due (row : Latest) : Bool := row.effectiveStatus ≠ .offline ∧ row.heartbeatDeadlineNs ≤ nowNs
  { store with
    latest := fun key => (store.latest key).map fun row =>
      if due row then { row with effectiveStatus := .offline } else row
    intervals := fun key => match store.latest key with
      | some row => if due row then row.expire (store.intervals key) "[]" else store.intervals key
      | none => store.intervals key }

def cleanup (cutoffNs : Int) : HealthStore :=
  let stale (row : Latest) : Bool := row.effectiveStatus = .offline ∧ row.observedAtNs < cutoffNs
  { store with
    latest := fun key => (store.latest key).filter (¬ stale ·)
    intervals := fun key => if (store.latest key).any stale then []
      else (store.intervals key).filter (¬ ·.endedAtNs.any (· < cutoffNs)) }

end HealthStore

/-! ## Redelivery -/

/-- The heartbeats whose sequence is past all sequences before them. -/
def fresh (last : Int) : List Sample → List Sample
  | [] => []
  | sample :: rest =>
    if sample.sequence ≤ last then fresh last rest else sample :: fresh sample.sequence rest

/-- The latest row of the instance has the greatest publication time of its heartbeats. -/
def Greatest (samples : List Sample) (key : InstanceKey) (latest : Option Latest) : Prop :=
  (∀ sample ∈ samples, sample.key = key →
    ∃ row, latest = some row ∧ sample.observedAtNs ≤ row.observedAtNs) ∧
  ∀ row, latest = some row →
    ∃ sample ∈ samples, sample.key = key ∧ sample.observedAtNs = row.observedAtNs

variable {store : HealthStore}

theorem fresh_subset : fresh last samples ⊆ samples := by
  induction samples generalizing last with
  | nil => exact Subset.refl _
  | cons sample rest ih => grind [fresh]

theorem HealthStore.latest_put : (store.put sample rows).latest key = if key = sample.key then
    some sample.latest else store.latest key :=
  Function.update_apply ..

/-- A heartbeat past the last sequence replaces an older row of its instance. -/
theorem Greatest.project (h : Greatest earlier key (store.latest key))
    (hproject : store.projectSample sample = .ok store') :
    if sample.sequence ≤ store.lastStreamSequence then store' = store
    else store'.lastStreamSequence = sample.sequence ∧
      Greatest (earlier ++ [sample]) key (store'.latest key) := by
  unfold HealthStore.projectSample at hproject
  split at hproject
  next hseq =>
    cases hproject
    rw [if_pos hseq]
  rename_i hseq
  rw [if_neg hseq]
  split at hproject
  · cases hproject
  split at hproject
  · cases hproject
    refine ⟨rfl, ?_⟩
    grind [Greatest, HealthStore.latest_put, Sample.latest]
  · cases hproject
  split at hproject <;> cases hproject <;> refine ⟨rfl, ?_⟩ <;>
    grind [Greatest, HealthStore.latest_put, Sample.latest]

theorem Greatest.projectAll (h : Greatest earlier key (store.latest key))
    (hproject : samples.foldlM HealthStore.projectSample store = .ok store') :
    Greatest (earlier ++ fresh store.lastStreamSequence samples) key (store'.latest key) := by
  induction samples generalizing store earlier with
  | nil =>
    cases hproject
    rwa [fresh, append_nil]
  | cons sample rest ih =>
    obtain ⟨middle, hone, hrest⟩ := Checked.bind_eq_ok.mp hproject
    have hmiddle := h.project hone
    unfold fresh
    split at hmiddle
    next hseq =>
      rw [if_pos hseq, ← hmiddle]
      exact ih (hmiddle ▸ h) hrest
    next hseq =>
      rw [if_neg hseq, append_cons, ← hmiddle.1]
      exact ih hmiddle.2 hrest

/-- **Redelivery loses no heartbeat exactly when each is followed up**: none is later than all of
its instance that were acknowledged before any of a later sequence. -/
theorem latest_greatest_iff (h : samples.foldlM HealthStore.projectSample .new = .ok store) :
    (∀ key, Greatest samples key (store.latest key)) ↔ ∀ sample ∈ samples,
      ∃ kept ∈ fresh 0 samples, kept.key = sample.key ∧
        sample.observedAtNs ≤ kept.observedAtNs := by
  have hnew (key) : Greatest [] key (HealthStore.new.latest key) := ⟨nofun, nofun⟩
  have hfresh (key) := (hnew key).projectAll h
  constructor
  · intro hall sample hsample
    obtain ⟨row, hrow, hle⟩ := (hall sample.key).1 sample hsample rfl
    obtain ⟨kept, hkept, hkey, heq⟩ := (hfresh sample.key).2 row hrow
    exact ⟨kept, hkept, hkey, heq ▸ hle⟩
  · intro hall key
    refine ⟨?_, fun row hrow => ?_⟩
    · rintro sample hsample rfl
      obtain ⟨kept, hkept, hkey, hle⟩ := hall sample hsample
      obtain ⟨row, hrow, hrowLe⟩ := (hfresh sample.key).1 kept hkept hkey
      exact ⟨row, hrow, Int.le_trans hle hrowLe⟩
    · obtain ⟨kept, hkept, hkey⟩ := (hfresh key).2 row hrow
      exact ⟨kept, fresh_subset hkept, hkey⟩

def heartbeat (name : String) (sequence : Nat) : Sample :=
  ⟨⟨"service", "clock", name⟩, .healthy, "[]", 30000, sequence, sequence, nofun, by decide⟩

theorem latest_greatest_in_order : ∃ store,
    [heartbeat "one" 1, heartbeat "two" 2].foldlM HealthStore.projectSample .new = .ok store ∧
      ∀ key, Greatest [heartbeat "one" 1, heartbeat "two" 2] key (store.latest key) := by
  refine ⟨_, rfl, (latest_greatest_iff rfl).mpr ?_⟩
  decide

/-- The heartbeat of one instance is redelivered after that of another. -/
theorem redelivered_heartbeat_lost : ∃ store,
    [heartbeat "two" 2, heartbeat "one" 1].foldlM HealthStore.projectSample .new = .ok store ∧
      store.latest (heartbeat "one" 1).key = none :=
  ⟨_, rfl, rfl⟩

/-! ## Intervals -/

/-- Intervals, the newest first: the newest ends at `ended`, others where the next starts, none
before its start. -/
def Tiled (ended : Option Int) : List Interval → Prop
  | [] => True
  | row :: past => row.endedAtNs = ended ∧ (∀ time, ended = some time → row.startedAtNs ≤ time) ∧
      Tiled (some row.startedAtNs) past

/-- The intervals meet, and the newest is open; an instance without a latest row has none. -/
def WellFormed (latest : Option Latest) (rows : List Interval) : Prop :=
  Tiled none rows ∧ rows.head?.map Interval.effectiveStatus = latest.map Latest.effectiveStatus

/-- The time from which a latest row has its status, at the latest. -/
def Latest.since (row : Latest) : Int :=
  if row.effectiveStatus = .offline then row.heartbeatDeadlineNs else row.observedAtNs

/-- A newer heartbeat was not published before the instance went offline. -/
def HealthStore.OnTime (store : HealthStore) (sample : Sample) : Prop :=
  ∀ row, store.latest sample.key = some row → store.lastStreamSequence < sample.sequence →
    row.observedAtNs < sample.observedAtNs → row.since ≤ sample.observedAtNs

/-- One transaction. -/
inductive Step : HealthStore → HealthStore → Prop
  | projectSample (hontime : s.OnTime sample) (h : s.projectSample sample = .ok s') : Step s s'
  | expireDue (nowNs : Int) : Step s (s.expireDue nowNs)
  | cleanup (cutoffNs : Int) : Step s (s.cleanup cutoffNs)

/-- What a latest row says of the open interval. -/
def Tracked (rows : List Interval) : Option Latest → Prop
  | none => rows = []
  | some row => row.observedAtNs ≤ row.heartbeatDeadlineNs ∧ Tiled none rows ∧
      ∃ current past, rows = current :: past ∧ current.effectiveStatus = row.effectiveStatus ∧
        current.startedAtNs ≤ row.since

variable {sample : Sample}

theorem Tiled.closeInterval (h : Tiled (some time) rows) (ended : Int) :
    closeInterval rows ended = rows := by
  induction rows generalizing time with
  | nil => rfl
  | cons row past ih => grind [Tiled, Health.closeInterval]

/-- The open interval ends where the next one starts. -/
theorem Tiled.next {next : Interval} (h : Tiled none (current :: past))
    (hopen : next.endedAtNs = none) (hle : current.startedAtNs ≤ next.startedAtNs) :
    Tiled none (next :: Health.closeInterval (current :: past) next.startedAtNs) := by
  have hpast := h.2.2.closeInterval next.startedAtNs
  unfold Health.closeInterval at hpast ⊢
  rw [map_cons, hpast, if_pos h.1]
  exact ⟨hopen, nofun, rfl, by grind, h.2.2⟩

/-- What ended before the cutoff is a part at the old end. -/
theorem Tiled.cleanup (h : Tiled ended rows) :
    Tiled ended (rows.filter (¬ ·.endedAtNs.any (· < cutoff))) ∧
      (ended.any (· < cutoff) → rows.filter (¬ ·.endedAtNs.any (· < cutoff)) = []) := by
  induction rows generalizing ended with
  | nil => exact ⟨h, fun _ => rfl⟩
  | cons row past ih => cases ended <;> grind [Tiled]

theorem Tracked.expire (h : Tracked rows (some row)) (honline : row.effectiveStatus ≠ .offline) :
    Tracked (row.expire rows checksJson) (some { row with effectiveStatus := .offline }) := by
  obtain ⟨hdeadline, htiled, current, past, rfl, -, hstart⟩ := h
  rw [Latest.since, if_neg honline] at hstart
  exact ⟨hdeadline, htiled.next rfl (Int.le_trans hstart hdeadline), _, _, rfl, rfl, Int.le_refl _⟩

/-- A heartbeat after the start of the open interval is tracked by it or by the next one. -/
theorem Tracked.latest (htiled : Tiled none (current :: past))
    (hstatus : current.effectiveStatus = sample.reportedStatus)
    (hstart : current.startedAtNs ≤ sample.observedAtNs) :
    Tracked (current :: past) (some sample.latest) := by
  have hinterval := sample.interval
  refine ⟨?_, htiled, current, past, rfl, hstatus, ?_⟩
  · unfold Sample.latest Sample.deadlineNs
    dsimp only
    omega
  · change current.startedAtNs ≤ if sample.reportedStatus = .offline then _ else _
    rwa [if_neg sample.reported]

theorem Tracked.follow (h : Tracked rows (some row)) (hontime : row.since ≤ sample.observedAtNs) :
    Tracked (sample.follow rows row checks) (some sample.latest) := by
  have hresume {rows : List Interval} {row : Latest} (reason : String)
      (h : Tracked rows (some row)) (hsince : row.since ≤ sample.observedAtNs) :
      Tracked (sample.opens reason :: closeInterval rows sample.observedAtNs)
        (some sample.latest) := by
    obtain ⟨-, htiled, current, past, rfl, -, hstart⟩ := h
    exact .latest (htiled.next rfl (Int.le_trans hstart hsince)) rfl (Int.le_refl _)
  unfold Sample.follow
  split
  next hdue => exact hresume _ (h.expire hdue.1) (Int.le_of_lt hdue.2)
  split
  · exact hresume _ h hontime
  split
  · exact hresume _ h hontime
  next hsame =>
    obtain ⟨-, htiled, current, past, rfl, hstatus, hstart⟩ := h
    exact .latest htiled (by grind) (Int.le_trans hstart hontime)

/-- The intervals of every instance are in line with its latest row. -/
def HealthStore.Tracks (store : HealthStore) : Prop :=
  ∀ key, Tracked (store.intervals key) (store.latest key)

theorem HealthStore.Tracks.step (hstep : Step store store') (h : store.Tracks) : store'.Tracks := by
  intro key
  cases hstep with
  | projectSample hontime hproject =>
    rename_i sample
    have hput (rows : List Interval) (hrows : Tracked rows (some sample.latest)) :
        Tracked ((store.put sample rows).intervals key) ((store.put sample rows).latest key) := by
      by_cases hkey : key = sample.key
      · subst hkey
        simpa only [HealthStore.put, Function.update_self] using hrows
      · simpa only [HealthStore.put, Function.update_of_ne hkey] using h key
    have hsample := h sample.key
    unfold HealthStore.projectSample at hproject
    split at hproject
    · cases hproject
      exact h key
    rename_i hseq
    split at hproject
    · cases hproject
    split at hproject
    next hnone =>
      cases hproject
      rw [hnone] at hsample
      refine hput _ (.latest ?_ rfl (Int.le_refl _))
      rw [hsample]
      exact ⟨rfl, nofun, trivial⟩
    · cases hproject
    rename_i row checks hrow _
    rw [hrow] at hsample
    split at hproject <;> cases hproject
    · exact h key
    next hnewer =>
      exact hput _ (hsample.follow (hontime row hrow (Int.not_le.mp hseq) (Int.not_le.mp hnewer)))
  | expireDue now =>
    have hkey := h key
    simp only [HealthStore.expireDue]
    cases hrow : store.latest key with
    | none => rwa [hrow] at hkey
    | some row =>
      rw [hrow] at hkey
      dsimp only [Option.map_some]
      split
      next hdue => exact hkey.expire (of_decide_eq_true hdue).1
      · exact hkey
  | cleanup cutoff =>
    have hkey := h key
    simp only [HealthStore.cleanup]
    cases hrow : store.latest key with
    | none =>
      rw [hrow] at hkey
      rw [hkey]
      rfl
    | some row =>
      rw [hrow] at hkey
      rw [Option.any_some, Option.filter_some]
      split
      next hstale =>
        rw [if_neg (by simp [hstale])]
        rfl
      rename_i hstale
      rw [if_pos (by simp [hstale])]
      obtain ⟨hdeadline, htiled, current, past, hrows, hcurrent⟩ := hkey
      rw [hrows] at htiled ⊢
      refine ⟨hdeadline, htiled.cleanup.1, ?_⟩
      rw [filter_cons_of_pos (by rw [htiled.1]; rfl)]
      exact ⟨current, _, rfl, hcurrent⟩

/-- **The intervals are well formed** after every run in which no heartbeat newer than the latest
row was published before the instance went offline. -/
theorem wellFormed_of_onTime (hrun : ReflTransGen Step .new store) (key : InstanceKey) :
    WellFormed (store.latest key) (store.intervals key) := by
  have htracks : store.Tracks := Run.keeps (fun _ _ => .step) hrun fun _ => rfl
  have htracked := htracks key
  cases hlatest : store.latest key with
  | none =>
    rw [hlatest] at htracked
    rw [htracked]
    exact ⟨trivial, rfl⟩
  | some row =>
    rw [hlatest] at htracked
    obtain ⟨-, htiled, current, past, hrows, hstatus, -⟩ := htracked
    refine ⟨htiled, ?_⟩
    rw [hrows, head?_cons, Option.map_some, hstatus, Option.map_some]

/-- A heartbeat is published at the deadline at which the instance expired. -/
def resumed : Sample :=
  { heartbeat "one" 2 with observedAtNs := 60000000001 }

theorem wellFormed_resumed : ∃ first second,
    HealthStore.new.projectSample (heartbeat "one" 1) = .ok first ∧
      (first.expireDue 60000000001).projectSample resumed = .ok second ∧
      ((second.intervals resumed.key).map fun row => (row.startedAtNs, row.endedAtNs)) =
        [(60000000001, none), (60000000001, some 60000000001), (1, some 60000000001)] ∧
      ∀ key, WellFormed (second.latest key) (second.intervals key) := by
  have hfirst : ReflTransGen Step .new _ :=
    .single (@Step.projectSample _ _ (heartbeat "one" 1) nofun rfl)
  have hresumed := (hfirst.tail (.expireDue 60000000001)).tail
    (@Step.projectSample _ _ resumed (by rintro row ⟨⟩ - -; decide) rfl)
  exact ⟨_, _, rfl, rfl, rfl, wellFormed_of_onTime hresumed⟩

/-- The heartbeat that would have met the deadline is projected after the instance expired. -/
theorem late_heartbeat_inverts : ∃ first second,
    HealthStore.new.projectSample (heartbeat "one" 1) = .ok first ∧
      (first.expireDue 60000000001).projectSample (heartbeat "one" 2) = .ok second ∧
      ∃ row ∈ second.intervals (heartbeat "one" 1).key, ∃ ended, row.endedAtNs = some ended ∧
        ended < row.startedAtNs :=
  ⟨_, _, rfl, rfl, _, mem_cons_of_mem _ mem_cons_self, 2, rfl, by decide⟩

end Health
