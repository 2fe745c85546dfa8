/-
# The metrics of jobs

The administration counts the events of jobs over a window, cut into buckets of one size and
grouped by a column of the job.  The database computes the bucket of an event from its timestamp;
the query walks the window from bucket to bucket and takes the groups stored under each start.
The two agree: the buckets tile the window, and each counts the events between its ends.

An event is counted through the row of its job.  Of the latencies only the groups they open are
kept, and that their queries fail where a wait is no integer of the database.
-/
import Mathlib.Data.List.Dedup
import Trellis.Jobs.Projection

namespace Jobs

open List

/-! ## Intervals that follow each other -/

/-- The intervals are not empty and lead from one point to the other without a gap. -/
def Tiles : List (Int × Int) → Int → Int → Prop
  | [], a, c => a = c
  | interval :: rest, a, c => interval.1 = a ∧ a < interval.2 ∧ Tiles rest interval.2 c

theorem Tiles.le (h : Tiles intervals a c) : a ≤ c := by
  induction intervals generalizing a with
  | nil => exact Int.le_of_eq h
  | cons interval rest ih =>
    have := ih h.2.2
    have := h.2.1
    omega

theorem Tiles.mem_iff (h : Tiles intervals a c) (t : Int) :
    (∃ interval ∈ intervals, interval.1 ≤ t ∧ t < interval.2) ↔ a ≤ t ∧ t < c := by
  induction intervals generalizing a with
  | nil =>
    have : a = c := h
    simp only [not_mem_nil, false_and, exists_false, false_iff]
    omega
  | cons interval rest ih =>
    obtain ⟨rfl, hlt, hrest⟩ := h
    have := hrest.le
    rw [exists_mem_cons_iff, ih hrest]
    omega

theorem Tiles.pairwise (h : Tiles intervals a c) :
    intervals.Pairwise fun v w => ∀ t, ¬ ((v.1 ≤ t ∧ t < v.2) ∧ w.1 ≤ t ∧ t < w.2) := by
  induction intervals generalizing a with
  | nil => exact .nil
  | cons interval rest ih =>
    obtain ⟨-, -, hrest⟩ := h
    refine .cons (fun w hw t ht => ?_) (ih hrest)
    have := ((hrest.mem_iff t).mp ⟨w, hw, ht.2⟩).1
    omega

/-- Cells that exclude each other together count what lies in one of them. -/
theorem sum_countP_of_pairwise {cells : List ι} (cell : ι → α → Bool)
    (h : cells.Pairwise fun i j => ∀ x, ¬ (cell i x ∧ cell j x)) (xs : List α) :
    (cells.map fun i => xs.countP (cell i)).sum =
      xs.countP fun x => cells.any fun i => cell i x := by
  induction h with
  | nil => simp
  | @cons i rest hi _ ih =>
    rw [map_cons, sum_cons, ih]
    clear ih
    induction xs with
    | nil => rfl
    | cons x xs ihx =>
      have hx : cell i x = true → (rest.any fun j => cell j x) = false := fun hcell =>
        any_eq_false.mpr fun j hj hother => hi j hj x ⟨hcell, hother⟩
      simp only [countP_cons, any_cons] at ihx ⊢
      cases hcell : cell i x
      · rw [Bool.false_or, if_neg Bool.false_ne_true]
        omega
      · rw [hx hcell, Bool.true_or, if_neg Bool.false_ne_true]
        omega

/-! ## The query -/

/-- The counters of a group. -/
inductive JobsMetricsCounter where
  | submitted | started | completed | failed | retried | dead | cancelled | dismissed
  deriving DecidableEq

def counterOf : JobEventType → Option JobsMetricsCounter
  | .created => some .submitted
  | .started => some .started
  | .completed => some .completed
  | .failed => some .failed
  | .retried | .retry => some .retried
  | .dead => some .dead
  | .cancelled | .expired | .skipped | .stale => some .cancelled
  | .dismissed => some .dismissed
  | _ => none

structure JobsMetricsFilter (Value : Type) where
  (sinceNanos untilNanos stepNanos : Int)
  /-- The clauses on the service, type, state, queue key and trigger of a job. -/
  selects : Job Value → Bool
  /-- The column of the job that is grouped by. -/
  groupBy : Job Value → String

structure JobsMetricsBucketGroup where
  (key label : String)
  counts : JobsMetricsCounter → Nat

structure JobsMetricsBucket where
  (start stop : Int)
  groups : List JobsMetricsBucketGroup

def JobsMetricsBucket.count (bucket : JobsMetricsBucket) (counter : JobsMetricsCounter) : Nat :=
  (bucket.groups.map fun group => group.counts counter).sum

variable {Value : Type} (store : JobsStore Value) (filter : JobsMetricsFilter Value)

/-- The events in the window, each with the group of its job. -/
def metricsRows : List (JobEventRow Value × String) :=
  store.events.filterMap fun event =>
    if filter.sinceNanos ≤ event.timestampNanos ∧ event.timestampNanos < filter.untilNanos then
      ((getJob store event.ref).filter filter.selects).map fun job => (event, filter.groupBy job)
    else none

/-- Division in the database truncates. -/
def bucketSql (nanos : Int) : Int :=
  (nanos - filter.sinceNanos).tdiv filter.stepNanos * filter.stepNanos + filter.sinceNanos

/-- The groups of one bucket, by key.  The label is the same column. -/
def bucketGroups (rows : List (JobEventRow Value × String)) (latencies : List String) :
    List JobsMetricsBucketGroup :=
  ((rows.map Prod.snd ++ latencies).dedup.insertionSort (· ≤ ·)).map fun key =>
    { key
      label := key
      counts := fun counter =>
        rows.countP fun row => row.2 = key ∧ counterOf row.1.eventType = some counter }

/-- The ends of the buckets from `start` on. -/
def bucketEnds : Nat → Int → List (Int × Int)
  | 0, _ => []
  | fuel + 1, start =>
    if start < filter.untilNanos then
      let stop := min (start + filter.stepNanos) filter.untilNanos
      (start, stop) :: bucketEnds fuel stop
    else []

def metricsBucket (latencies : Int → List String) (ends : Int × Int) : JobsMetricsBucket where
  start := ends.1
  stop := ends.2
  groups := bucketGroups
    ((metricsRows store filter).filter fun row => bucketSql filter row.1.timestampNanos = ends.1)
    (latencies ends.1)

/-- The buckets of the window, with the groups that the latency queries open in each. -/
def queryMetricsBuckets (latencies : Except SqliteJobsStoreError (Int → List String)) :
    Except SqliteJobsStoreError (List JobsMetricsBucket) :=
  -- a difference that is no integer of the database has a real number as its bucket
  if (metricsRows store filter).any fun row =>
      maxInteger < row.1.timestampNanos - filter.sinceNanos then .error .sqlite
  else latencies.map fun opened =>
    (bucketEnds filter (filter.untilNanos - filter.sinceNanos).toNat filter.sinceNanos).map
      (metricsBucket store filter opened)

/-! ## What the buckets count -/

variable {store filter} {fuel : Nat} (hstep : 0 < filter.stepNanos)

include hstep in
theorem tiles_bucketEnds (hfuel : filter.untilNanos - start ≤ fuel) :
    Tiles (bucketEnds filter fuel start) start (max start filter.untilNanos) := by
  induction fuel generalizing start with
  | zero =>
    show start = max start filter.untilNanos
    omega
  | succ fuel ih =>
    unfold bucketEnds
    split
    · refine ⟨rfl, by omega, ?_⟩
      have := @ih (min (start + filter.stepNanos) filter.untilNanos) (by omega)
      rwa [max_eq_right (by omega)] at this ⊢
    · show start = max start filter.untilNanos
      omega

/-- A bucket starts whole steps after the window and is one long, or ends with the window. -/
theorem aligned_of_mem_bucketEnds (hmem : ends ∈ bucketEnds filter fuel start)
    (hstart : ∃ k : Nat, start = k * filter.stepNanos + filter.sinceNanos) :
    (∃ k : Nat, ends.1 = k * filter.stepNanos + filter.sinceNanos) ∧
      ends.2 = min (ends.1 + filter.stepNanos) filter.untilNanos := by
  induction fuel generalizing start with
  | zero => cases hmem
  | succ fuel ih =>
    unfold bucketEnds at hmem
    split at hmem
    · rcases mem_cons.mp hmem with rfl | hmem
      · exact ⟨hstart, rfl⟩
      rcases Int.le_total filter.untilNanos (start + filter.stepNanos) with hlast | hmore
      -- nothing follows the bucket that ends with the window
      · rw [min_eq_right hlast] at hmem
        cases fuel with
        | zero => cases hmem
        | succ fuel =>
          rw [bucketEnds, if_neg (Int.lt_irrefl _)] at hmem
          cases hmem
      · obtain ⟨k, rfl⟩ := hstart
        exact ih hmem ⟨k + 1, by rw [Int.natCast_succ, Int.add_mul]; omega⟩
    · exact absurd hmem not_mem_nil

include hstep in
/-- The database and the walk agree on the bucket of an event in the window. -/
theorem bucketSql_eq_iff (hsince : filter.sinceNanos ≤ nanos) :
    bucketSql filter nanos = k * filter.stepNanos + filter.sinceNanos ↔
      k * filter.stepNanos + filter.sinceNanos ≤ nanos ∧
        nanos < k * filter.stepNanos + filter.sinceNanos + filter.stepNanos := by
  unfold bucketSql
  rw [Int.tdiv_eq_ediv_of_nonneg (by omega), Int.add_left_inj,
    Int.mul_eq_mul_right_iff (Int.ne_of_gt hstep), Int.ediv_eq_iff_of_pos hstep]
  omega

theorem count_bucketGroups (rows : List (JobEventRow Value × String)) (latencies : List String)
    (counter : JobsMetricsCounter) :
    ((bucketGroups rows latencies).map fun group => group.counts counter).sum =
      rows.countP fun row => counterOf row.1.eventType = some counter := by
  unfold bucketGroups
  rw [map_map]
  refine (sum_countP_of_pairwise (fun key (row : JobEventRow Value × String) =>
    row.2 = key ∧ counterOf row.1.eventType = some counter) ?_ rows).trans ?_
  · refine ((perm_insertionSort _ _).nodup_iff.mpr (nodup_dedup _)).imp fun hne row h => hne ?_
    exact (of_decide_eq_true h.1).1.symm.trans (of_decide_eq_true h.2).1
  · refine countP_congr fun row hrow => ?_
    have hkey : row.2 ∈ (rows.map Prod.snd ++ latencies).dedup.insertionSort (· ≤ ·) := by
      rw [mem_insertionSort, mem_dedup]
      exact mem_append_left _ (mem_map_of_mem hrow)
    simp only [any_eq_true, decide_eq_true_eq]
    exact ⟨fun ⟨_, _, h⟩ => h.2, fun h => ⟨row.2, hkey, rfl, h⟩⟩

/-- The events of selected jobs between two points that a counter counts. -/
def eventsBetween (store : JobsStore Value) (filter : JobsMetricsFilter Value)
    (counter : JobsMetricsCounter) (a c : Int) : Nat :=
  store.events.countP fun event => (getJob store event.ref).any filter.selects ∧
    (a ≤ event.timestampNanos ∧ event.timestampNanos < c) ∧ counterOf event.eventType = some counter

include hstep in
/-- What is stored under the start of a bucket lies between its ends. -/
theorem count_metricsBucket (latencies : Int → List String) (counter : JobsMetricsCounter)
    (hends : ends ∈ bucketEnds filter fuel filter.sinceNanos) :
    (metricsBucket store filter latencies ends).count counter =
      eventsBetween store filter counter ends.1 ends.2 := by
  obtain ⟨⟨k, hk⟩, hstop⟩ := aligned_of_mem_bucketEnds hends ⟨0, by simp⟩
  have hsince : 0 ≤ k * filter.stepNanos := Int.mul_nonneg (Int.natCast_nonneg k) hstep.le
  apply (count_bucketGroups _ _ counter).trans
  unfold metricsRows
  rw [countP_filter, countP_filterMap]
  refine countP_congr fun event _ => ?_
  split
  next hwindow =>
    have hbucket := bucketSql_eq_iff hstep (k := k) hwindow.1
    cases getJob store event.ref with
    | none => simp
    | some job => cases hselects : filter.selects job <;> grind
  · grind

theorem sum_eventsBetween (h : Tiles intervals a c) :
    (intervals.map fun interval => eventsBetween store filter counter interval.1 interval.2).sum =
      eventsBetween store filter counter a c := by
  unfold eventsBetween
  rw [sum_countP_of_pairwise _ (h.pairwise.imp fun hapart event hboth => ?_)]
  · refine countP_congr fun event _ => ?_
    have := h.mem_iff event.timestampNanos
    grind
  · exact hapart event.timestampNanos (by grind)

section

open Redelivered

/-- Every job, under its service, around the time of its events. -/
def everyJob : JobsMetricsFilter Unit :=
  ⟨-5, 5, 4, fun _ => true, fun job => job.service⟩

end

end Jobs
