/-
# Numbered queues

A list whose entries carry consecutive numbers after a start, as a window of frames that
were sent and not yet released does.  Since the numbers are consecutive, the entries up
to a number are the first ones.
-/
import Mathlib.Algebra.Order.Ring.Nat
import Mathlib.Data.List.Basic

namespace Window

open List

variable {α : Type}

/-- The entries with the numbers after `start`. -/
def numbered (start : Nat) : List α → List (Nat × α)
  | [] => []
  | a :: rest => (start + 1, a) :: numbered (start + 1) rest

variable (start : Nat)

@[simp] theorem numbered_nil : numbered start ([] : List α) = [] :=
  rfl

theorem numbered_cons (a : α) (rest : List α) :
    numbered start (a :: rest) = (start + 1, a) :: numbered (start + 1) rest :=
  rfl

variable (xs : List α)

theorem numbered_concat (a : α) :
    numbered start (xs ++ [a]) = numbered start xs ++ [(start + xs.length + 1, a)] := by
  induction xs generalizing start with
  | nil => rfl
  | cons x xs ih =>
    rw [cons_append, numbered_cons, numbered_cons, ih, cons_append, length_cons,
      Nat.add_right_comm start 1, ← Nat.add_assoc]

@[simp] theorem length_numbered : (numbered start xs).length = xs.length := by
  induction xs generalizing start with
  | nil => rfl
  | cons x xs ih => rw [numbered_cons, length_cons, length_cons, ih]

@[simp] theorem map_snd_numbered : (numbered start xs).map Prod.snd = xs := by
  induction xs generalizing start with
  | nil => rfl
  | cons x xs ih => rw [numbered_cons, map_cons, ih]

@[simp] theorem map_fst_numbered :
    (numbered start xs).map Prod.fst = List.range' (start + 1) xs.length := by
  induction xs generalizing start with
  | nil => rfl
  | cons x xs ih => rw [numbered_cons, map_cons, ih, length_cons, List.range'_succ]

/-- The entries up to a number are the first ones. -/
theorem takeWhile_numbered {start upTo : Nat} {xs : List α} (h : start ≤ upTo) :
    (numbered start xs).takeWhile (fun entry => entry.1 ≤ upTo)
      = numbered start (xs.take (upTo - start)) := by
  induction xs generalizing start with
  | nil => rw [take_nil]; rfl
  | cons x xs ih =>
    rw [numbered_cons, takeWhile_cons]
    by_cases hle : start + 1 ≤ upTo
    · have hsub : upTo - start = upTo - (start + 1) + 1 := by omega
      rw [if_pos (decide_eq_true hle), ih hle, hsub, take_succ_cons, numbered_cons]
    · have hsub : upTo - start = 0 := by omega
      rw [if_neg (by simpa using hle), hsub, take_zero, numbered_nil]

theorem sum_take_add_drop (xs : List Nat) (n : Nat) :
    (xs.take n).sum + (xs.drop n).sum = xs.sum := by
  rw [← sum_append, take_append_drop]

/-- A sum of bounded numbers. -/
theorem sum_le_length_mul {xs : List Nat} (h : ∀ x ∈ xs, x ≤ bound) :
    xs.sum ≤ xs.length * bound := by
  induction xs with
  | nil => simp
  | cons x xs ih =>
    have hx := h x mem_cons_self
    have hxs := ih fun y hy => h y (mem_cons_of_mem _ hy)
    rw [sum_cons, length_cons, Nat.succ_mul]
    omega

end Window
