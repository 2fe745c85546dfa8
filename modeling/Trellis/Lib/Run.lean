/-
# Runs of a transition relation

A run is the reflexive transitive closure of a step relation.  What a step keeps
a run keeps; the rules below are the two forms in which the developments above
use that: for a predicate of the state reached, and for a relation between the
state a run starts from and the one it has reached.
-/
import Mathlib.Logic.Relation
import Trellis.Lib.Checked

export Relation (ReflTransGen)

namespace Run

variable {σ : Type*}

/-- A predicate that every step keeps holds along every run from where it holds. -/
theorem keeps {P : σ → Prop} (hstep : ∀ s s', step s s' → P s → P s')
    (hrun : ReflTransGen step s s') (h : P s) : P s' := by
  induction hrun with
  | refl => exact h
  | tail _ hlast ih => exact hstep _ _ hlast ih

/-- Every action of the list is allowed in the state it is taken in. -/
def Allowed (step : σ → α → σ) (allowed : σ → α → Prop) : σ → List α → Prop
  | _, [] => True
  | s, act :: acts => allowed s act ∧ Allowed step allowed (step s act) acts

/-- A list of allowed actions is a run. -/
theorem of_foldl (step : σ → α → σ) (allowed : σ → α → Prop) (s : σ) (acts : List α)
    (h : Allowed step allowed s acts) :
    ReflTransGen (fun s s' => ∃ act, allowed s act ∧ s' = step s act) s (acts.foldl step s) := by
  induction acts generalizing s with
  | nil => exact .refl
  | cons act acts ih => exact .head ⟨act, h.1, rfl⟩ (ih _ h.2)

/-- A fold whose rounds are steps is a run. -/
theorem of_foldlM {ε α τ : Type} {f : τ → α → Except ε τ} {step : τ → τ → Prop}
    (hstep : ∀ s a s', f s a = .ok s' → step s s') {as : List α} {s s' : τ}
    (h : as.foldlM f s = .ok s') : ReflTransGen step s s' := by
  induction as generalizing s with
  | nil =>
    cases h
    exact .refl
  | cons a as ih =>
    obtain ⟨middle, hfirst, hrest⟩ := Checked.bind_eq_ok.mp h
    exact .head (hstep s a middle hfirst) (ih hrest)

end Run
