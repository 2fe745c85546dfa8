/-
# Checked computations

What a computation in `Except` that ended well went through.
-/
import Mathlib.Algebra.Order.Ring.Nat
import Mathlib.Data.List.Nodup

namespace Checked

open List

variable {ε α β : Type} {f : α → Except ε β} {xs : List α} {ι κ : Type*} {rows : List ι}
  {key : ι → κ}

/-- A sequence ends well when each of its parts does. -/
theorem bind_eq_ok {x : Except ε α} : x >>= f = .ok b ↔ ∃ a, x = .ok a ∧ f a = .ok b := by
  constructor
  · intro h
    cases x with
    | error e => cases h
    | ok a => exact ⟨a, rfl, h⟩
  · rintro ⟨a, rfl, h⟩
    exact h

theorem error_bind : (Except.error e >>= f) = .error e :=
  rfl

theorem ok_bind : (Except.ok a >>= f) = f a :=
  rfl

theorem pure_eq_ok {a b : α} : (pure a : Except ε α) = .ok b ↔ a = b :=
  Except.ok.injEq a b ▸ Iff.rfl

/-- A guard that raises an error was not met. -/
theorem guard_eq_ok [Decidable c] {x : Except ε β} :
    (if c then .error e else x) = .ok b ↔ ¬ c ∧ x = .ok b := by
  by_cases hc : c <;> simp [hc]

/-- An early return without a result was not taken. -/
theorem skip_eq_some [Decidable c] {x : Except ε (Option β)} :
    (if c then pure none else x) = .ok (some b) ↔ ¬ c ∧ x = .ok (some b) := by
  by_cases hc : c
  · simp [hc, pure_eq_ok]
  · simp [hc]

/-- A traversal ends well when it does for each item. -/
theorem mapM_eq_ok_iff : xs.mapM f = .ok ys ↔ Forall₂ (fun x y => f x = .ok y) xs ys := by
  induction xs generalizing ys with
  | nil =>
    rw [mapM_nil, pure_eq_ok, forall₂_nil_left_iff]
    exact eq_comm
  | cons x xs ih =>
    rw [mapM_cons, bind_eq_ok]
    constructor
    · rintro ⟨y, hy, h⟩
      obtain ⟨rest, hrest, h⟩ := bind_eq_ok.mp h
      obtain rfl : y :: rest = ys := Except.ok.inj h
      exact .cons hy (ih.mp hrest)
    · intro h
      cases h with
      | @cons _ y _ rest hy hrest => exact ⟨y, hy, bind_eq_ok.mpr ⟨rest, ih.mpr hrest, rfl⟩⟩

/-- Lists that are related item by item: every item has its partner. -/
theorem exists_right_of_mem (h : Forall₂ R xs ys) {x : α} (hx : x ∈ xs) : ∃ y ∈ ys, R x y := by
  induction h with
  | nil => cases hx
  | cons hhead _ ih =>
    rcases mem_cons.mp hx with rfl | hx
    · exact ⟨_, mem_cons_self, hhead⟩
    · obtain ⟨y, hy, hrelated⟩ := ih hx
      exact ⟨y, mem_cons_of_mem _ hy, hrelated⟩

theorem exists_left_of_mem (h : Forall₂ R xs ys) {y : β} (hy : y ∈ ys) : ∃ x ∈ xs, R x y :=
  exists_right_of_mem (R := flip R) h.flip hy

/-- What partners agree on, the lists agree on. -/
theorem map_eq_of_forall₂ {f : α → γ} {g : β → γ}
    (h : Forall₂ R xs ys) (hfg : ∀ x y, R x y → f x = g y) : xs.map f = ys.map g := by
  induction h with
  | nil => rfl
  | cons hhead _ ih => rw [map_cons, map_cons, hfg _ _ hhead, ih]

/-- What holds of all, and of one more. -/
theorem forall_mem_concat {P : ι → Prop}
    (h : ∀ y ∈ rows, P y) (hx : P x) : ∀ y ∈ rows ++ [x], P y :=
  forall_mem_append.mpr ⟨h, forall_mem_singleton.mpr hx⟩

/-- A list of rows with a key of its own for each, and one more. -/
theorem nodup_map_concat (h : (rows.map key).Nodup) (hnew : ∀ y ∈ rows, key y ≠ key x) :
    ((rows ++ [x]).map key).Nodup := by
  rw [map_append]
  refine nodup_append.mpr ⟨h, pairwise_singleton _ _, ?_⟩
  rintro _ hk _ hx rfl
  obtain ⟨y, hy, rfl⟩ := mem_map.mp hk
  exact hnew y hy (mem_singleton.mp hx)

/-- Rewriting rows in place keeps their keys. -/
theorem map_key_map {f : ι → ι}
    (h : ∀ x, key (f x) = key x) : (rows.map f).map key = rows.map key := by
  rw [map_map]
  exact map_congr_left fun x _ => h x

theorem nodup_key_map {f : ι → ι} (h : ∀ x, key (f x) = key x) (hrows : (rows.map key).Nodup) :
    ((rows.map f).map key).Nodup := by
  rwa [map_key_map h]

/-- Rows with the same keys: every row has its partner. -/
theorem exists_of_map_eq {rows rows' : List ι} (h : rows.map key = rows'.map key) (hx : x ∈ rows) :
    ∃ y ∈ rows', key y = key x :=
  mem_map.mp (h ▸ mem_map_of_mem hx)

/-- Replacing the rows of one kind is not seen by a reader of others. -/
theorem filter_replaced [DecidablePred p]
    [DecidablePred q] (hadded : ∀ x ∈ added, q x) (hother : ∀ x, p x → ¬ q x) :
    ((rows.filter fun x => ¬ q x) ++ added).filter p = rows.filter p := by
  rw [filter_append, filter_filter, (filter_eq_nil_iff (l := added)).mpr, append_nil]
  · refine filter_congr fun x _ => ?_
    by_cases hp : p x
    · rw [decide_eq_true hp, decide_eq_true (hother x hp)]
      rfl
    · rw [decide_eq_false hp]
      rfl
  · intro x hx hp
    exact hother x (of_decide_eq_true hp) (hadded x hx)

/-- A row that is rewritten only under a condition. -/
theorem key_ite [Decidable c] (h : key y = key x) : key (if c then y else x) = key x := by
  split
  · exact h
  · rfl

/-- What was found is what was looked for. -/
theorem of_find? [DecidablePred p] (h : rows.find? (fun x => decide (p x)) = some x) : p x :=
  of_decide_eq_true (find?_some h :)

/-- The row found under a key is the only one. -/
theorem eq_of_find? [DecidableEq κ] (hrows : (rows.map key).Nodup)
    (h : rows.find? (fun x => decide (key x = k)) = some x) (hy : y ∈ rows) (hk : key y = k) :
    y = x :=
  inj_on_of_nodup_map hrows hy (mem_of_find?_eq_some h) (hk.trans (of_find? h).symm)

/-- A lookup sees rewritten rows through the row it finds. -/
theorem find?_map_of_key {f : ι → ι} (hkey : ∀ x, p (f x) = p x) :
    (rows.map f).find? p = (rows.find? p).map f := by
  rw [find?_map]
  congr 2
  funext x
  exact hkey x

/-- And not at all when it skips them. -/
theorem find?_map_of_skipped {f : ι → ι} (hkey : ∀ x, p (f x) = p x)
    (hkeep : ∀ x, p x = true → f x = x) : (rows.map f).find? p = rows.find? p := by
  rw [find?_map_of_key hkey]
  cases hfound : rows.find? p with
  | none => rfl
  | some x => rw [Option.map_some, hkeep x (find?_some hfound)]

/-- Every result of a traversal is the result of one of the items. -/
theorem exists_of_mem_mapM (h : xs.mapM f = .ok ys) (hy : y ∈ ys) : ∃ x ∈ xs, f x = .ok y :=
  exists_left_of_mem (mapM_eq_ok_iff.mp h) hy

end Checked
