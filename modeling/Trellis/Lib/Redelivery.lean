/-
# At-least-once delivery

A consumer applies messages to a state, and some it rejects.  It tells by its state which ones it
has applied and leaves those alone when they come again; of the rejected ones it keeps no record.
If a rejection is final (`Lawful.stable`), deliveries of any multiplicity have the effect of the
first ones alone.
-/
import Mathlib.Data.List.Nodup

namespace Redelivery

open List

variable {σ α κ : Type*}

/-- What a consumer does with a message: `none` where it rejects it. -/
structure Consumer (σ α κ : Type*) where
  key : α → κ
  seen : σ → α → Bool
  apply : σ → α → Option σ

namespace Consumer

variable (c : Consumer σ α κ)

/-- The effect of a message that comes for the first time. -/
def once (s : σ) (a : α) : σ :=
  (c.apply s a).getD s

def deliver (s : σ) (a : α) : σ :=
  if c.seen s a then s else c.once s a

/-- The deliveries whose key has not come before. -/
def firsts [DecidableEq κ] : List κ → List α → List α
  | _, [] => []
  | before, a :: rest =>
    if c.key a ∈ before then firsts before rest
    else a :: firsts (c.key a :: before) rest

structure Lawful (inv : σ → Prop) : Prop where
  kept : ∀ {s a s'}, inv s → c.apply s a = some s' → inv s'
  seen_iff : ∀ {s a s'}, inv s → c.apply s a = some s' →
    ∀ b, c.seen s' b = true ↔ c.seen s b = true ∨ c.key b = c.key a
  stable : ∀ {s a s' b}, inv s → c.apply s a = some s' → c.apply s b = none → c.apply s' b = none

/-- What has come is applied or rejected for good, and nothing else is applied. -/
structure Settled (inv : σ → Prop) (before : List α) (s : σ) : Prop where
  inv : inv s
  came : ∀ a, c.seen s a = true → c.key a ∈ before.map c.key
  settled : ∀ a ∈ before, c.seen s a = true ∨ c.apply s a = none

variable {c} {inv : σ → Prop}

theorem Settled.deliver_eq (h : c.Settled inv before s) (ha : a ∈ before) : c.deliver s a = s := by
  unfold deliver
  rcases h.settled a ha with hseen | hrej
  · rw [if_pos hseen]
  · split
    · rfl
    · rw [once, hrej, Option.getD_none]

theorem Settled.once (hc : c.Lawful inv)
    (h : c.Settled inv before s) : c.Settled inv (a :: before) (c.once s a) := by
  unfold Consumer.once
  cases happly : c.apply s a with
  | none =>
    refine ⟨h.inv, fun b hb => mem_cons_of_mem _ (h.came b hb), fun b hb => ?_⟩
    rcases mem_cons.mp hb with rfl | hb
    · exact .inr happly
    · exact h.settled b hb
  | some s' =>
    refine ⟨hc.kept h.inv happly, fun b hb => ?_, fun b hb => ?_⟩
    · rcases (hc.seen_iff h.inv happly b).mp hb with hb | hb
      · exact mem_cons_of_mem _ (h.came b hb)
      · exact hb ▸ mem_cons_self
    · rcases mem_cons.mp hb with rfl | hb
      · exact .inl ((hc.seen_iff h.inv happly b).mpr (.inr rfl))
      · exact (h.settled b hb).imp (fun hb => (hc.seen_iff h.inv happly b).mpr (.inl hb))
          fun hb => hc.stable h.inv happly hb

variable [DecidableEq κ]

/-- The induction is on the deliveries still to come. -/
theorem foldl_deliver (hc : c.Lawful inv) (before : List α)
    (hsame : ∀ a ∈ before ++ deliveries, ∀ b ∈ before ++ deliveries, c.key a = c.key b → a = b)
    (h : c.Settled inv before s) :
    deliveries.foldl c.deliver s = (c.firsts (before.map c.key) deliveries).foldl c.once s := by
  induction deliveries generalizing before s with
  | nil => rfl
  | cons a deliveries ih =>
    rw [foldl_cons, firsts]
    split
    next hkey =>
      obtain ⟨b, hb, hsameKey⟩ := mem_map.mp hkey
      obtain rfl := hsame b (mem_append_left _ hb) a (mem_append_right _ mem_cons_self) hsameKey
      rw [h.deliver_eq hb]
      refine ih before (fun a ha b hb => hsame a ?_ b ?_) h
      · exact mem_append.mpr ((mem_append.mp ha).imp_right (mem_cons_of_mem _))
      · exact mem_append.mpr ((mem_append.mp hb).imp_right (mem_cons_of_mem _))
    next hkey =>
      have hunseen : ¬ c.seen s a = true := fun hseen => hkey (h.came a hseen)
      rw [deliver, if_neg hunseen]
      refine ih (a :: before) (fun a ha b hb => hsame a ?_ b ?_) (h.once hc)
      · exact perm_middle.symm.mem_iff.mp ha
      · exact perm_middle.symm.mem_iff.mp hb

/-- **Deliveries have the effect of the first ones**, from a state in which nothing is applied. -/
theorem foldl_deliver_eq_firsts (hc : c.Lawful inv) (hinv : inv s)
    (hempty : ∀ a, c.seen s a = false)
    (hsame : ∀ a ∈ deliveries, ∀ b ∈ deliveries, c.key a = c.key b → a = b) :
    deliveries.foldl c.deliver s = (c.firsts [] deliveries).foldl c.once s := by
  refine foldl_deliver hc [] hsame ⟨hinv, fun a ha => ?_, fun a ha => nomatch ha⟩
  rw [hempty a] at ha
  cases ha

theorem mem_firsts {before : List κ} (h : a ∈ c.firsts before deliveries) : a ∈ deliveries := by
  fun_induction firsts c before deliveries with
  | case1 => exact h
  | case2 before b rest hkey ih => exact mem_cons_of_mem _ (ih h)
  | case3 before b rest hkey ih =>
    rcases mem_cons.mp h with rfl | h
    · exact mem_cons_self
    · exact mem_cons_of_mem _ (ih h)

/-- Every key that is delivered is among the first deliveries, or came before. -/
theorem exists_mem_firsts (before : List κ) (h : a ∈ deliveries) :
    c.key a ∈ before ∨ ∃ b ∈ c.firsts before deliveries, c.key b = c.key a := by
  fun_induction firsts c before deliveries with
  | case1 => cases h
  | case2 before b rest hkey ih =>
    rcases mem_cons.mp h with rfl | h
    · exact .inl hkey
    · exact ih h
  | case3 before b rest hkey ih =>
    rcases mem_cons.mp h with rfl | h
    · exact .inr ⟨a, mem_cons_self, rfl⟩
    rcases ih h with h | ⟨x, hx, hsame⟩
    · rcases mem_cons.mp h with h | h
      · exact .inr ⟨b, mem_cons_self, h.symm⟩
      · exact .inl h
    · exact .inr ⟨x, mem_cons_of_mem _ hx, hsame⟩

end Consumer

end Redelivery
