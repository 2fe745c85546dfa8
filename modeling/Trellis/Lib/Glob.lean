/-
# Token wildcards and inclusion of their languages

Patterns over an arbitrary token alphabet with literal tokens, a one-token
wildcard and a tail wildcard that stands for one or more tokens.  The language
of a pattern is infinite, and so is the alphabet in general; inclusion of one
pattern in a finite union of patterns is nevertheless decided by finitely many
words: the literal tokens of the pattern, with one token that no other pattern
mentions in every wildcard position, at each length up to one past the longest
pattern.
-/
import Mathlib.Data.List.Forall2
import Mathlib.Data.List.Infix

namespace Glob

open List

/-- One position of a pattern. -/
inductive Token (α : Type*) where
  | literal (value : α)
  | star
  | greater
  deriving DecidableEq, Repr

variable {α : Type*}

/-- The words a pattern stands for.  A tail wildcard takes what is left, which must be something. -/
def Matches : List (Token α) → List α → Prop
  | [], w => w = []
  | .greater :: _, w => w ≠ []
  | .literal a :: p, x :: w => x = a ∧ Matches p w
  | .star :: p, _ :: w => Matches p w
  | .literal _ :: _, [] => False
  | .star :: _, [] => False

/-- `Matches` decides by the pattern's own recursion. -/
def decideMatches [DecidableEq α] : (p : List (Token α)) → (w : List α) → Decidable (Matches p w)
  | [], w => inferInstanceAs (Decidable (w = []))
  | .greater :: _, w => inferInstanceAs (Decidable (w ≠ []))
  | .literal a :: p, x :: w =>
    have := decideMatches p w
    inferInstanceAs (Decidable (x = a ∧ Matches p w))
  | .star :: p, _ :: w => decideMatches p w
  | .literal _ :: _, [] => isFalse id
  | .star :: _, [] => isFalse id

instance [DecidableEq α] (p : List (Token α)) (w : List α) : Decidable (Matches p w) :=
  decideMatches p w

@[simp] theorem matches_nil : Matches [] w ↔ w = [] := Iff.rfl

@[simp] theorem matches_greater : Matches (.greater :: p) w ↔ w ≠ [] := by
  cases w <;> simp [Matches]

@[simp] theorem matches_literal_cons :
    Matches (.literal a :: p) (x :: w) ↔ x = a ∧ Matches p w := Iff.rfl

@[simp] theorem matches_star_cons : Matches (.star :: p) (x :: w) ↔ Matches p w := Iff.rfl

@[simp] theorem not_matches_literal_nil : ¬ Matches (.literal a :: p) [] := id

@[simp] theorem not_matches_star_nil : ¬ Matches (.star :: p) ([] : List α) := id

/-- A word of a pattern that begins with literals does so too, and goes on as the pattern does. -/
theorem Matches.of_literals {p : List α}
    (h : Matches (p.map Token.literal ++ q) w) : ∃ r, w = p ++ r ∧ Matches q r := by
  induction p generalizing w with
  | nil => exact ⟨w, rfl, h⟩
  | cons a p ih =>
    cases w with
    | nil => exact absurd h not_matches_literal_nil
    | cons x w =>
      obtain ⟨rfl, h⟩ := h
      obtain ⟨r, rfl, hr⟩ := ih h
      exact ⟨r, rfl, hr⟩

/-! ## Words that agree up to a fresh token -/

variable (f : α)

/-- `c` is `w` with some of its tokens replaced by `f`. -/
def AgreesUpTo (c w : List α) : Prop :=
  List.Forall₂ (fun x y => x = f ∨ x = y) c w

/-- **Freshness.**  A pattern that never names `f` matches every word that agrees with a matched one
up to `f`. -/
theorem Matches.of_agreesUpTo {f : α} (hf : .literal f ∉ q) :
    ∀ {c w : List α}, AgreesUpTo f c w → Matches q c → Matches q w := by
  induction q with
  | nil =>
    intro c w hcw hc
    cases hcw with
    | nil => rfl
    | cons _ _ => exact absurd hc (cons_ne_nil _ _)
  | cons t q ih =>
    intro c w hcw hc
    have hq : .literal f ∉ q := fun h => hf (mem_cons_of_mem t h)
    cases hcw with
    | nil => exact hc
    | cons hxy hrest =>
      cases t with
      | greater => simp
      | star => exact ih hq hrest hc
      | literal a =>
        obtain ⟨rfl, hc⟩ := hc
        -- the literal is not `f`, so the two words carry the same token here
        rcases hxy with rfl | rfl
        · exact absurd (mem_cons_self) hf
        · exact ⟨rfl, ih hq hrest hc⟩

/-- A longer word was matched by the tail wildcard, which takes any continuation. -/
theorem Matches.append_of_length_lt (r : List α) :
    ∀ {c : List α}, q.length < c.length → Matches q c → Matches q (c ++ r) := by
  induction q with
  | nil =>
    intro c hlt hc
    rw [matches_nil] at hc
    simp [hc] at hlt
  | cons t q ih =>
    intro c hlt hc
    cases c with
    | nil => simp at hlt
    | cons x c =>
      have hlt' : q.length < c.length := by simpa using hlt
      cases t with
      | greater => simp
      | star => exact ih hlt' hc
      | literal a => exact ⟨hc.1, ih hlt' hc.2⟩

/-! ## The witness word of a pattern -/

/-- The token a pattern position contributes to its witness word. -/
def Token.witness : Option (Token α) → α
  | some (.literal a) => a
  | _ => f

/-- The word of a length with the pattern's literals in place and `f` everywhere else. -/
def witnessFor (p : List (Token α)) (f : α) (length : Nat) : List α :=
  (List.range length).map fun index => Token.witness f p[index]?

@[simp] theorem length_witnessFor (p : List (Token α)) (f : α) (n : Nat) :
    (witnessFor p f n).length = n := by
  simp [witnessFor]

theorem witnessFor_cons_succ :
    witnessFor (t :: p) f (n + 1) = Token.witness f (some t) :: witnessFor p f n := by
  simp [witnessFor, range_succ_eq_map]

theorem witnessFor_nil : witnessFor ([] : List (Token α)) f n = List.replicate n f := by
  simp [witnessFor, Token.witness]

/-- Every token of a witness word is a literal of the pattern or the fresh token. -/
theorem mem_witnessFor {f : α} (h : x ∈ witnessFor p f n) : .literal x ∈ p ∨ x = f := by
  obtain ⟨index, -, rfl⟩ := mem_map.mp h
  cases ht : p[index]? with
  | none => exact .inr rfl
  | some t =>
    cases t with
    | literal a => exact .inl (mem_of_getElem? ht)
    | star | greater => exact .inr rfl

/-- Past the pattern a longer witness word only repeats the fresh token. -/
theorem witnessFor_add (p : List (Token α)) (f : α) : ∀ {n : Nat} (k : Nat), p.length ≤ n →
      witnessFor p f (n + k) = witnessFor p f n ++ List.replicate k f := by
  induction p with
  | nil =>
    intro n k _
    rw [witnessFor_nil, witnessFor_nil, replicate_add]
  | cons t p ih =>
    intro n k hn
    obtain ⟨n, rfl⟩ : ∃ m, n = m + 1 := ⟨n - 1, by simp at hn; omega⟩
    have hn' : p.length ≤ n := by simpa using hn
    rw [Nat.add_right_comm, witnessFor_cons_succ, ih k hn', witnessFor_cons_succ, cons_append]

/-- The tail wildcard stands last, if it stands anywhere. -/
def TailLast : List (Token α) → Prop
  | [] => True
  | .greater :: p => p = []
  | _ :: p => TailLast p

theorem TailLast.of_cons (h : TailLast (t :: p)) : TailLast p := by
  cases t with
  | greater =>
    obtain rfl : p = [] := h
    trivial
  | star | literal a => exact h

theorem agreesUpTo_replicate (w : List α) : AgreesUpTo f (List.replicate w.length f) w := by
  induction w with
  | nil => exact List.Forall₂.nil
  | cons x w ih => exact List.Forall₂.cons (.inl rfl) ih

/-- The witness of the right length agrees with every word of the language, up to `f`. -/
theorem witnessFor_agreesUpTo (hp : TailLast p) :
    ∀ {w : List α}, Matches p w → AgreesUpTo f (witnessFor p f w.length) w := by
  induction p with
  | nil =>
    intro w _
    rw [witnessFor_nil]
    exact agreesUpTo_replicate f w
  | cons t p ih =>
    intro w hw
    cases w with
    | nil => exact List.Forall₂.nil
    | cons x w =>
      rw [length_cons, witnessFor_cons_succ]
      cases t with
      | greater =>
        obtain rfl : p = [] := hp
        rw [witnessFor_nil]
        exact List.Forall₂.cons (.inl rfl) (agreesUpTo_replicate f w)
      | star => exact List.Forall₂.cons (.inl rfl) (ih hp.of_cons hw)
      | literal a =>
        obtain ⟨rfl, hw⟩ := hw
        exact List.Forall₂.cons (.inr rfl) (ih hp.of_cons hw)

/-- The lengths of a pattern's words: its own, or from there on with a tail wildcard. -/
def HasLength (p : List (Token α)) (n : Nat) : Prop :=
  n = p.length ∨ p.getLast? = some .greater ∧ p.length ≤ n

theorem Matches.hasLength (hp : TailLast p) :
    ∀ {w : List α}, Matches p w → HasLength p w.length := by
  induction p with
  | nil =>
    intro w hw
    rw [matches_nil] at hw
    exact .inl (by simp [hw])
  | cons t p ih =>
    intro w hw
    cases w with
    | nil => cases t <;> simp at hw
    | cons x w =>
      have hrec : Matches p w → HasLength (t :: p) (x :: w).length := by
        intro hpw
        rcases ih hp.of_cons hpw with heq | ⟨hlast, hle⟩
        · exact .inl (by simp [heq])
        · refine .inr ⟨?_, by simpa using hle⟩
          rw [getLast?_cons, hlast, Option.getD_some]
      cases t with
      | greater =>
        obtain rfl : p = [] := hp
        exact .inr ⟨rfl, by simp⟩
      | star => exact hrec hw
      | literal a => exact hrec hw.2

/-- A pattern matches its own witness words. -/
theorem matches_witnessFor (hp : TailLast p) :
    ∀ {n : Nat}, HasLength p n → Matches p (witnessFor p f n) := by
  induction p with
  | nil =>
    intro n hn
    obtain rfl : n = 0 := by simpa [HasLength] using hn
    rfl
  | cons t p ih =>
    intro n hn
    obtain ⟨n, rfl⟩ : ∃ m, n = m + 1 := by
      refine ⟨n - 1, ?_⟩
      rcases hn with h | ⟨-, h⟩ <;> simp only [length_cons] at h <;> omega
    rw [witnessFor_cons_succ]
    have hrec : t ≠ .greater → Matches p (witnessFor p f n) := by
      intro ht
      apply ih hp.of_cons
      rcases hn with h | ⟨hlast, hle⟩
      · exact .inl (by simpa using h)
      refine .inr ⟨?_, by simpa using hle⟩
      cases p with
      | nil => exact absurd (by simpa using hlast) ht
      | cons t' p => simpa using hlast
    cases t with
    | greater => simp
    | star => exact hrec (by simp)
    | literal a => exact ⟨rfl, hrec (by simp)⟩

/-! ## Inclusion in a finite union -/

/-- **Inclusion by witnesses.**  Let no pattern of the union name `f` or be longer than `bound`.
Then a pattern's language lies in the union exactly when its witness words up to length `bound + 1`
do.  Only words satisfying `P` need to be considered, as long as witness words do. -/
theorem included_iff_witnesses {P : List α → Prop}
    {union : List (List (Token α))} {f : α} (hp : TailLast p) (hne : p ≠ [])
    (hpb : p.length ≤ bound) (hfresh : ∀ q ∈ union, .literal f ∉ q)
    (hbound : ∀ q ∈ union, q.length ≤ bound) (hgood : ∀ n, n ≠ 0 → P (witnessFor p f n)) :
    (∀ w, P w → Matches p w → ∃ q ∈ union, Matches q w) ↔
      ∀ n ≤ bound + 1, HasLength p n → ∃ q ∈ union, Matches q (witnessFor p f n) := by
  have hpos : 0 < p.length := length_pos_iff.mpr hne
  constructor
  · intro h n _ hn
    refine h _ (hgood n ?_) (matches_witnessFor f hp hn)
    rcases hn with h | ⟨-, h⟩ <;> omega
  · intro h w _ hw
    have hagree := witnessFor_agreesUpTo f hp hw
    suffices hq : ∃ q ∈ union, Matches q (witnessFor p f w.length) by
      obtain ⟨q, hq, hm⟩ := hq
      exact ⟨q, hq, hm.of_agreesUpTo (hfresh q hq) hagree⟩
    have hlen := hw.hasLength hp
    by_cases hshort : w.length ≤ bound + 1
    · exact h _ hshort hlen
    -- a longer word: the pattern that took the longest tested one has a tail wildcard
    obtain ⟨hlast, -⟩ := hlen.resolve_left (by omega)
    obtain ⟨q, hq, hm⟩ := h (bound + 1) le_rfl (.inr ⟨hlast, by omega⟩)
    refine ⟨q, hq, ?_⟩
    obtain ⟨k, hk⟩ : ∃ k, w.length = bound + 1 + k := ⟨w.length - (bound + 1), by omega⟩
    rw [hk, witnessFor_add p f k (by omega)]
    refine hm.append_of_length_lt _ ?_
    have := hbound q hq
    rw [length_witnessFor]
    omega

end Glob
