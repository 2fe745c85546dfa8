/-
# Depth-first search

A search of a finite graph that is given by the successors of its vertices.  It completes a
vertex after all it leads to, stops at a cycle, and goes on only from a vertex it has not met.
-/
import Mathlib.Data.List.Perm.Subperm
import Trellis.Lib.Run

namespace Graph

open List Relation

variable {α : Type} {edges : α → List α} {vertices : List α}

/-- An edge of the graph. -/
def Edge (edges : α → List α) (v w : α) : Prop :=
  w ∈ edges v

theorem mem_of_path (h : ∀ v ∈ vs, edges v ⊆ vs) (hpath : ReflTransGen (Edge edges) v w)
    (hv : v ∈ vs) : w ∈ vs :=
  Run.keeps (P := (· ∈ vs)) (fun _ _ hedge hv => h _ hv hedge) hpath hv

/-! ## What the search returns -/

/-- What is complete is closed and without cycles. -/
def Settled (edges : α → List α) (complete : List α) : Prop :=
  complete.Nodup ∧ ∀ v ∈ complete, edges v ⊆ complete ∧ ¬ TransGen (Edge edges) v v

theorem Settled.cons (h : Settled edges complete) (hnew : current ∉ complete)
    (hedges : edges current ⊆ complete) : Settled edges (current :: complete) := by
  refine ⟨nodup_cons.mpr ⟨hnew, h.1⟩, forall_mem_cons.mpr
    ⟨⟨subset_cons_of_subset _ hedges, ?_⟩, ?_⟩⟩
  · intro hcycle
    obtain ⟨w, hedge, hback⟩ := TransGen.head'_iff.mp hcycle
    exact hnew (mem_of_path (fun v hv => (h.2 v hv).1) hback (hedges hedge))
  · intro v hv
    exact ⟨subset_cons_of_subset _ (h.2 v hv).1, (h.2 v hv).2⟩

def Visits (edges : α → List α) (starts visiting complete : List α) : Except α (List α) → Prop
  | .ok complete' => Settled edges complete' ∧ starts ⊆ complete' ∧ complete ⊆ complete' ∧
      ∀ v ∈ complete', v ∈ complete ∨
        v ∉ visiting ∧ ∃ start ∈ starts, ReflTransGen (Edge edges) start v
  | .error v => TransGen (Edge edges) v v

theorem Visits.cons (hmem : current ∈ complete') (hmore : complete ⊆ complete')
    (hnew : ∀ v ∈ complete', v ∈ complete ∨ v ∉ visiting ∧ ReflTransGen (Edge edges) current v)
    (h : Visits edges starts visiting complete' result) :
    Visits edges (current :: starts) visiting complete result := by
  cases result with
  | error v => exact h
  | ok last =>
    obtain ⟨hset, hsub, hmore', hnew'⟩ := h
    refine ⟨hset, cons_subset.mpr ⟨hmore' hmem, hsub⟩, Subset.trans hmore hmore', ?_⟩
    intro v hv
    rcases hnew' v hv with hv | ⟨hout, start, hstart, hpath⟩
    · exact (hnew v hv).imp_right fun ⟨hout, hpath⟩ => ⟨hout, current, mem_cons_self, hpath⟩
    · exact .inr ⟨hout, start, mem_cons_of_mem _ hstart, hpath⟩

/-! ## The search -/

/-- How many vertices have not been met. -/
def unmet [DecidableEq α] (vertices met : List α) : Nat :=
  (vertices.filter (· ∉ met)).length

theorem unmet_cons_lt [DecidableEq α] (hmem : v ∈ vertices) (hnew : v ∉ met) :
    unmet vertices (v :: met) < unmet vertices met := by
  have hstep : vertices.filter (· ∉ v :: met) = (vertices.filter (· ∉ met)).filter (· ≠ v) := by
    rw [filter_filter]
    simp [not_or]
  unfold unmet
  rw [hstep, length_filter_lt_length_iff_exists]
  exact ⟨v, mem_filter.mpr ⟨hmem, decide_eq_true hnew⟩, by simp⟩

variable [DecidableEq α]

variable (edges vertices) in
/-- Completes each vertex after all it leads to.  One on the way that is met again is a cycle. -/
def visit : List α → List α → List α → Except α (List α)
  | [], _, complete => .ok complete
  | current :: rest, visiting, complete =>
    if current ∈ complete then visit rest visiting complete
    else if current ∉ visiting ∧ current ∈ vertices then do
      let complete ← visit (edges current) (current :: visiting) complete
      visit rest visiting (current :: complete)
    else .error current
termination_by names visiting => (unmet vertices visiting, names.length)
decreasing_by
  · exact .right _ (Nat.lt_succ_self _)
  next h => exact .left _ _ (unmet_cons_lt h.2 h.1)
  · exact .right _ (Nat.lt_succ_self _)

theorem visit_visits (hedges : ∀ v, edges v ⊆ vertices) (hstarts : starts ⊆ vertices)
    (hset : Settled edges complete)
    (hway : ∀ start ∈ starts, ∀ v ∈ visiting, TransGen (Edge edges) v start) :
    Visits edges starts visiting complete (visit edges vertices starts visiting complete) := by
  fun_induction visit edges vertices starts visiting complete with
  | case1 => exact ⟨hset, nil_subset _, Subset.refl _, fun _ => .inl⟩
  | case2 current rest visiting complete hmem ih =>
    exact .cons hmem (Subset.refl _) (fun _ => .inl)
      (ih (cons_subset.mp hstarts).2 hset (forall_mem_cons.mp hway).2)
  | case3 current rest visiting complete hopen hnew ih ihrest =>
    have hdeeper := ih (hedges current) hset fun next hnext => forall_mem_cons.mpr
      ⟨.single hnext, fun v hv => (hway current mem_cons_self v hv).tail hnext⟩
    cases heq : visit edges vertices (edges current) (current :: visiting) complete with
    | error v =>
      rw [heq] at hdeeper
      exact hdeeper
    | ok complete' =>
      rw [heq] at hdeeper
      obtain ⟨hset', hsub, hmore, hadded⟩ := hdeeper
      have hout : current ∉ complete' := by
        intro hmem
        rcases hadded current hmem with hmem | ⟨hout, -⟩
        · exact hopen hmem
        · exact hout mem_cons_self
      refine .cons mem_cons_self (Subset.trans hmore (subset_cons_self _ _)) ?_
        (ihrest complete' (cons_subset.mp hstarts).2 (hset'.cons hout hsub)
          (forall_mem_cons.mp hway).2)
      refine forall_mem_cons.mpr ⟨.inr ⟨hnew.1, .refl⟩, fun v hv => ?_⟩
      refine (hadded v hv).imp_right fun ⟨hout, next, hnext, hpath⟩ => ?_
      exact ⟨fun hv => hout (mem_cons_of_mem _ hv), .head hnext hpath⟩
  | case4 current rest visiting complete hopen hmet =>
    have hmem : current ∈ visiting := by
      by_contra hnew
      exact hmet ⟨hnew, hstarts mem_cons_self⟩
    exact hway current mem_cons_self current hmem

/-- **All vertices are completed** if and only if there is no cycle and the root leads to each. -/
theorem visit_all_iff (hedges : ∀ v, edges v ⊆ vertices) (hroot : root ∈ vertices)
    (hnd : vertices.Nodup) :
    (∃ complete, visit edges vertices [root] [] [] = .ok complete ∧
      complete.length = vertices.length) ↔
    (∀ v, ¬ TransGen (Edge edges) v v) ∧ ∀ v, v ∈ vertices ↔ ReflTransGen (Edge edges) root v := by
  have hvisits := @visit_visits _ edges vertices _ [root] [] [] hedges
    (cons_subset.mpr ⟨hroot, nil_subset _⟩) ⟨.nil, nofun⟩ fun _ _ _ hv => nomatch hv
  cases heq : visit edges vertices [root] [] [] with
  | error v =>
    rw [heq] at hvisits
    exact iff_of_false nofun fun h => h.1 v hvisits
  | ok complete =>
    rw [heq] at hvisits
    obtain ⟨⟨hdistinct, hset⟩, hmem, -, hadded⟩ := hvisits
    have hreach v : v ∈ complete ↔ ReflTransGen (Edge edges) root v := by
      constructor
      · intro hv
        obtain ⟨-, start, hstart, hpath⟩ := (hadded v hv).resolve_left not_mem_nil
        exact mem_singleton.mp hstart ▸ hpath
      · intro hpath
        exact mem_of_path (fun v hv => (hset v hv).1) hpath (hmem mem_cons_self)
    constructor
    · rintro ⟨_, ⟨⟩, hlen⟩
      have hsub : complete ⊆ vertices := fun v hv =>
        mem_of_path (fun v _ => hedges v) ((hreach v).mp hv) hroot
      have hperm := (subperm_of_subset hdistinct hsub).perm_of_length_le (Nat.le_of_eq hlen.symm)
      refine ⟨fun v hcycle => ?_, fun v => hperm.mem_iff.symm.trans (hreach v)⟩
      obtain ⟨w, -, hedge⟩ := TransGen.tail'_iff.mp hcycle
      exact (hset v (hperm.mem_iff.mpr (hedges w hedge))).2 hcycle
    · rintro ⟨-, hall⟩
      have hperm := (perm_ext_iff_of_nodup hdistinct hnd).mpr fun v =>
        (hreach v).trans (hall v).symm
      exact ⟨complete, rfl, hperm.length_eq⟩

end Graph
