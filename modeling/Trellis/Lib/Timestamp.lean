/-
# Timestamps as text

UTC instants in the Gregorian calendar, their number of nanoseconds, and the RFC 3339 text a
formatter gives them that writes a fraction only where there is one and without its trailing
zeros.

Up to the seconds the text has a fixed width, so that its order is the order of time
(`written_lt_iff`).  Within one second it is not: the text that ends first has its `Z` against a
digit or the point of the other, and `Z` is the larger character (`rfc3339_le_iff`).
-/
import Mathlib.Algebra.Order.Ring.Nat
import Mathlib.Data.List.DropRight
import Mathlib.Data.String.Basic

namespace Timestamp

open List Nat

/-! ## Mixed radix -/

section MixedRadix

variable {f g : Nat → Nat}

theorem add_le_of_lt (hf : ∀ k, f (k + 1) = f k + g k) (h : k < k') : f k + g k ≤ f k' := by
  rw [← hf]
  have hmono : Monotone f := monotone_nat_of_le_succ fun k => by rw [hf]; omega
  exact hmono h

/-- A remainder below the width of its unit decides only between equal units. -/
theorem add_lt_add_iff (hf : ∀ k, f (k + 1) = f k + g k) (hr : r < g k)
    (hr' : r' < g k') : f k + r < f k' + r' ↔ k < k' ∨ k = k' ∧ r < r' := by
  rcases lt_trichotomy k k' with h | rfl | h
  · have hle := add_le_of_lt hf h
    omega
  · omega
  · have hle := add_le_of_lt hf h
    omega

end MixedRadix

/-! ## Instants -/

def isLeapYear (year : Nat) : Bool :=
  year % 4 = 0 ∧ (year % 100 ≠ 0 ∨ year % 400 = 0)

def daysInMonth (year : Nat) : Nat → Nat
  | 2 => if isLeapYear year then 29 else 28
  | 4 | 6 | 9 | 11 => 30
  | _ => 31

theorem daysInMonth_le : daysInMonth year month ≤ 31 := by
  unfold daysInMonth
  split
  · split <;> omega
  all_goals omega

/-- The days of a year in its first months. -/
def daysInMonths (year : Nat) : Nat → Nat
  | 0 => 0
  | months + 1 => daysInMonths year months + daysInMonth year (months + 1)

/-- The days before a year. -/
def daysBeforeYear : Nat → Nat
  | 0 => 0
  | year + 1 => daysBeforeYear year + daysInMonths year 12

/-- A UTC instant of the years the format has four digits for. -/
structure Instant where
  (year month day hour minute second nanosecond : Nat)
  year_lt : year < 10000 := by decide
  month_pos : 0 < month := by decide
  month_le : month ≤ 12 := by decide
  day_pos : 0 < day := by decide
  day_le : day ≤ daysInMonth year month := by decide
  hour_lt : hour < 24 := by decide
  minute_lt : minute < 60 := by decide
  second_lt : second < 60 := by decide
  nanosecond_lt : nanosecond < 1000000000 := by decide
  deriving DecidableEq, Repr

namespace Instant

variable (i : Instant)

/-- The day, counted within its year. -/
def dayOfYear : Nat :=
  daysInMonths i.year (i.month - 1) + (i.day - 1)

def days : Nat :=
  daysBeforeYear i.year + i.dayOfYear

def seconds : Nat :=
  ((i.days * 24 + i.hour) * 60 + i.minute) * 60 + i.second

/-- The nanoseconds from the beginning of year 0. -/
def nanoseconds : Nat :=
  i.seconds * 1000000000 + i.nanosecond

theorem day_lt : i.day - 1 < daysInMonth i.year (i.month - 1 + 1) := by
  have hpos := i.day_pos
  have hle := i.day_le
  rw [Nat.sub_add_cancel i.month_pos]
  omega

theorem dayOfYear_lt : i.dayOfYear < daysInMonths i.year 12 := by
  have hmonth : i.month - 1 < 12 := by
    have hle := i.month_le
    omega
  have hday := i.day_lt
  have hle := add_le_of_lt (f := daysInMonths i.year)
    (g := fun k => daysInMonth i.year (k + 1)) (fun _ => rfl) hmonth
  unfold dayOfYear
  omega

variable (j : Instant)

theorem days_lt_iff : i.days < j.days ↔ i.year < j.year ∨ i.year = j.year ∧
      (i.month < j.month ∨ i.month = j.month ∧ i.day < j.day) := by
  unfold days
  rw [add_lt_add_iff (g := fun year => daysInMonths year 12) (fun _ => rfl) i.dayOfYear_lt
    j.dayOfYear_lt]
  refine or_congr_right (and_congr_right fun hyear => ?_)
  have hi := i.day_lt
  have hj := j.day_lt
  unfold dayOfYear
  rw [← hyear] at hj ⊢
  rw [add_lt_add_iff (f := daysInMonths i.year) (g := fun k => daysInMonth i.year (k + 1))
    (fun _ => rfl) hi hj]
  have hmonth := i.month_pos
  have hmonth' := j.month_pos
  have hday := i.day_pos
  omega

theorem seconds_lt_iff : i.seconds < j.seconds ↔ i.days < j.days ∨ i.days = j.days ∧
      (i.hour < j.hour ∨ i.hour = j.hour ∧
        (i.minute < j.minute ∨ i.minute = j.minute ∧ i.second < j.second)) := by
  have hi := i.hour_lt
  have hi' := i.minute_lt
  have hi'' := i.second_lt
  have hj := j.hour_lt
  have hj' := j.minute_lt
  have hj'' := j.second_lt
  unfold seconds
  omega

theorem nanoseconds_lt_iff : i.nanoseconds < j.nanoseconds ↔
      i.seconds < j.seconds ∨ i.seconds = j.seconds ∧ i.nanosecond < j.nanosecond := by
  have hi := i.nanosecond_lt
  have hj := j.nanosecond_lt
  unfold nanoseconds
  omega

theorem days_eq_iff : i.days = j.days ↔ i.year = j.year ∧ i.month = j.month ∧ i.day = j.day := by
  have hlt := days_lt_iff i j
  have hgt := days_lt_iff j i
  omega

end Instant

/-! ## Digits -/

def digit (d : Nat) : Char :=
  Char.ofNat (48 + d)

/-- The decimal digits of a number, in a fixed width. -/
def padded : Nat → Nat → List Char
  | 0, _ => []
  | width + 1, n => digit (n / 10 ^ width % 10) :: padded width (n % 10 ^ width)

theorem digit_lt_iff (hd : d < 10) (he : e < 10) : digit d < digit e ↔ d < e := by
  have h : ∀ d < 10, ∀ e < 10, (digit d < digit e ↔ d < e) := by decide
  exact h d hd e he

theorem digit_inj (hd : d < 10) (he : e < 10) : digit d = digit e ↔ d = e := by
  have h : ∀ d < 10, ∀ e < 10, (digit d = digit e ↔ d = e) := by decide
  exact h d hd e he

theorem length_padded (width n : Nat) : (padded width n).length = width := by
  induction width generalizing n with
  | zero => rfl
  | succ width ih => rw [padded, length_cons, ih]

theorem exists_digit_of_mem_padded (h : c ∈ padded width n) : ∃ d < 10, c = digit d := by
  induction width generalizing n with
  | zero => cases h
  | succ width ih =>
    rcases mem_cons.mp h with rfl | h
    · exact ⟨_, mod_lt _ (by decide), rfl⟩
    · exact ih h

/-- Numbers of one width are compared before what follows them. -/
theorem padded_append_lt_iff (hn : n < 10 ^ width) (hm : m < 10 ^ width) :
    padded width n ++ s < padded width m ++ t ↔ n < m ∨ n = m ∧ s < t := by
  induction width generalizing n m with
  | zero =>
    obtain rfl : n = 0 := by omega
    obtain rfl : m = 0 := by omega
    simp [padded]
  | succ width ih =>
    have hpos : 0 < 10 ^ width := Nat.pow_pos (by decide)
    have hn' : n / 10 ^ width < 10 := Nat.div_lt_of_lt_mul hn
    have hm' : m / 10 ^ width < 10 := Nat.div_lt_of_lt_mul hm
    rw [padded, padded, cons_append, cons_append, cons_lt_cons_iff,
      Nat.mod_eq_of_lt hn', Nat.mod_eq_of_lt hm', digit_lt_iff hn' hm', digit_inj hn' hm',
      ih (mod_lt _ hpos) (mod_lt _ hpos)]
    -- the leading digit and the rest make up the number
    have hdiv := div_add_mod n (10 ^ width)
    have hdiv' := div_add_mod m (10 ^ width)
    have hrest := mod_lt n hpos
    have hrest' := mod_lt m hpos
    generalize n / 10 ^ width = q at *
    generalize m / 10 ^ width = q' at *
    generalize n % 10 ^ width = r at *
    generalize m % 10 ^ width = r' at *
    have hunits : 10 ^ width * q + r < 10 ^ width * q' + r' ↔ q < q' ∨ q = q' ∧ r < r' :=
      add_lt_add_iff (f := fun k => 10 ^ width * k) (g := fun _ => 10 ^ width)
        (fun _ => mul_succ _ _) hrest hrest'
    have hunits' : 10 ^ width * q' + r' < 10 ^ width * q + r ↔ q' < q ∨ q' = q ∧ r' < r :=
      add_lt_add_iff (f := fun k => 10 ^ width * k) (g := fun _ => 10 ^ width)
        (fun _ => mul_succ _ _) hrest' hrest
    by_cases hst : s < t
    · simp only [hst, and_true]
      omega
    · simp only [hst, and_false, or_false]
      omega

theorem padded_lt_iff {width n m : Nat} (hn : n < 10 ^ width) (hm : m < 10 ^ width) :
    padded width n < padded width m ↔ n < m := by
  have h := padded_append_lt_iff hn hm (s := []) (t := [])
  simpa using h

/-! ## The text of an instant -/

variable (i : Instant)

/-- The date and the time up to the seconds, before the rest of a text. -/
def Instant.written (rest : List Char) : List Char :=
  padded 4 i.year ++ '-' :: (padded 2 i.month ++ '-' :: (padded 2 i.day ++ 'T' ::
    (padded 2 i.hour ++ ':' :: (padded 2 i.minute ++ ':' :: (padded 2 i.second ++ rest)))))

/-- The digits of the fraction, without trailing zeros. -/
def Instant.fraction : List Char :=
  (padded 9 i.nanosecond).rdropWhile (· = '0')

/-- A fraction is written after a point, and not at all where it is empty. -/
def closed : List Char → List Char
  | [] => ['Z']
  | digits => '.' :: digits ++ ['Z']

def rfc3339 : String :=
  String.ofList (i.written (closed i.fraction))

variable (j : Instant)

/-- Up to the seconds the order of the texts is the order of time. -/
theorem written_lt_iff :
    i.written s < j.written t ↔ i.seconds < j.seconds ∨ i.seconds = j.seconds ∧ s < t := by
  have hmonth := i.month_le
  have hmonth' := j.month_le
  have hday := i.day_le.trans daysInMonth_le
  have hday' := j.day_le.trans daysInMonth_le
  have hhour := i.hour_lt
  have hhour' := j.hour_lt
  have hminute := i.minute_lt
  have hminute' := j.minute_lt
  have hsecond := i.second_lt
  have hsecond' := j.second_lt
  unfold Instant.written
  rw [padded_append_lt_iff i.year_lt j.year_lt]
  iterate 5 rw [cons_lt_cons_self, padded_append_lt_iff (by omega) (by omega)]
  have hlt := Instant.seconds_lt_iff i j
  have hgt := Instant.seconds_lt_iff j i
  rw [Instant.days_lt_iff, Instant.days_eq_iff] at hlt hgt
  by_cases hst : s < t
  · simp only [hst, and_true]
    omega
  · simp only [hst, and_false, or_false]
    omega

theorem rfc3339_lt_iff : rfc3339 i < rfc3339 j ↔
      i.seconds < j.seconds ∨ i.seconds = j.seconds ∧ closed i.fraction < closed j.fraction := by
  rw [String.lt_iff_toList_lt, rfc3339, rfc3339, String.toList_ofList, String.toList_ofList,
    written_lt_iff]

/-! ## Within one second -/

theorem digits_of_mem_fraction {i : Instant} (h : c ∈ padded 9 i.nanosecond) :
    '0' ≤ c ∧ c < 'Z' := by
  obtain ⟨d, hd, rfl⟩ := exists_digit_of_mem_padded h
  have h : ∀ d < 10, '0' ≤ digit d ∧ digit d < 'Z' := by decide
  exact h d hd

theorem padded_eq_fraction_append :
    ∃ zeros, padded 9 i.nanosecond = i.fraction ++ zeros ∧ ∀ c ∈ zeros, c = '0' := by
  refine ⟨((padded 9 i.nanosecond).reverse.takeWhile (· = '0')).reverse, ?_, ?_⟩
  · unfold Instant.fraction List.rdropWhile
    rw [← reverse_append, takeWhile_append_dropWhile, reverse_reverse]
  · intro c hc
    have hzero := mem_takeWhile_imp (mem_reverse.mp hc)
    exact of_decide_eq_true hzero

/-- Two lists agree up to the end of one of them, or up to where they differ. -/
theorem prefix_or_apart (a b : List α) :
    a <+: b ∨ b <+: a ∨ ∃ p x y a' b', x ≠ y ∧ a = p ++ x :: a' ∧ b = p ++ y :: b' := by
  induction a generalizing b with
  | nil => exact .inl nil_prefix
  | cons x a ih =>
    cases b with
    | nil => exact .inr (.inl nil_prefix)
    | cons y b =>
      by_cases hxy : x = y
      · subst hxy
        rcases ih b with h | h | ⟨p, x', y', a', b', hne, rfl, rfl⟩
        · exact .inl (cons_prefix_cons.mpr ⟨rfl, h⟩)
        · exact .inr (.inl (cons_prefix_cons.mpr ⟨rfl, h⟩))
        · exact .inr (.inr ⟨x :: p, x', y', a', b', hne, rfl, rfl⟩)
      · exact .inr (.inr ⟨[], x, y, a, b, hxy, rfl, rfl⟩)

theorem zeros_lt {zeros l : List Char} (hzeros : ∀ c ∈ zeros, c = '0')
    (hl : ∀ c ∈ l, '0' ≤ c) (hne : ∃ c ∈ l, c ≠ '0') (hlen : zeros.length ≤ l.length) :
    zeros < l := by
  induction l generalizing zeros with
  | nil => simp at hne
  | cons c l ih =>
    cases zeros with
    | nil => exact nil_lt_cons c l
    | cons z zeros =>
      obtain rfl := hzeros z mem_cons_self
      rw [cons_lt_cons_iff]
      by_cases hc : c = '0'
      · subst hc
        refine .inr ⟨rfl, ih (fun c hc => hzeros c (mem_cons_of_mem _ hc))
          (fun c hc => hl c (mem_cons_of_mem _ hc)) ?_ (le_of_succ_le_succ hlen)⟩
        obtain ⟨c, hmem, hc⟩ := hne
        rcases mem_cons.mp hmem with rfl | hmem
        · exact absurd rfl hc
        · exact ⟨c, hmem, hc⟩
      · exact .inl (lt_of_le_of_ne (hl c mem_cons_self) (Ne.symm hc))

/-- Where two fractions differ in a digit, the text and the time go by that digit. -/
theorem lt_of_apart {i j : Instant} (hlt : x < y)
    (hi : i.fraction = p ++ x :: a) (hj : j.fraction = p ++ y :: b) :
    closed i.fraction < closed j.fraction ∧ i.nanosecond < j.nanosecond := by
  have hdigits : ∀ s t, p ++ x :: a ++ s < p ++ y :: b ++ t := by
    intro s t
    rw [append_assoc, append_assoc]
    exact append_left_lt (cons_lt_cons_iff.mpr (.inl hlt))
  constructor
  · rw [hi, hj]
    have hclosed : ∀ c l, closed (p ++ c :: l) = '.' :: (p ++ c :: l ++ ['Z']) := by
      intro c l
      cases p <;> rfl
    rw [hclosed, hclosed, cons_lt_cons_self]
    exact hdigits _ _
  · obtain ⟨zeros, hzeros, -⟩ := padded_eq_fraction_append i
    obtain ⟨zeros', hzeros', -⟩ := padded_eq_fraction_append j
    rw [← @padded_lt_iff 9 _ _ i.nanosecond_lt j.nanosecond_lt, hzeros, hzeros', hi, hj]
    exact hdigits _ _

/-- The text of an instant, but for its `Z`, is the beginning of another's within the second. -/
def EndsWithin : Prop :=
  i.seconds = j.seconds ∧ i.fraction <+: j.fraction ∧ i.fraction ≠ j.fraction

/-- Such a text comes after the other, though its instant comes before. -/
theorem EndsWithin.misordered (h : EndsWithin i j) :
    closed j.fraction < closed i.fraction ∧ i.nanosecond < j.nanosecond := by
  obtain ⟨-, ⟨rest, hrest⟩, hne⟩ := h
  cases rest with
  | nil => exact absurd ((append_nil _).symm.trans hrest) hne
  | cons d rest =>
    obtain ⟨zeros, hzeros, hzero⟩ := padded_eq_fraction_append i
    obtain ⟨zeros', hzeros', -⟩ := padded_eq_fraction_append j
    have hmem : ∀ c ∈ d :: rest ++ zeros', c ∈ padded 9 j.nanosecond := by
      intro c hc
      rw [hzeros', ← hrest, append_assoc]
      exact mem_append_right _ hc
    constructor
    · have hd : d < 'Z' := (digits_of_mem_fraction (hmem d mem_cons_self)).2
      rw [← hrest]
      cases hi : i.fraction with
      | nil => exact cons_lt_cons_iff.mpr (.inl (by decide))
      | cons c digits =>
        show '.' :: (c :: digits ++ d :: rest ++ ['Z']) < '.' :: (c :: digits ++ ['Z'])
        rw [cons_lt_cons_self, append_assoc]
        exact append_left_lt (cons_lt_cons_iff.mpr (.inl hd))
    · rw [← @padded_lt_iff 9 _ _ i.nanosecond_lt j.nanosecond_lt, hzeros, hzeros', ← hrest,
        append_assoc]
      refine append_left_lt (zeros_lt hzero ?_ ?_ ?_)
      · exact fun c hc => (digits_of_mem_fraction (hmem c hc)).1
      · -- the last digit of a fraction is not a zero
        have hlast : ∀ hne, (i.fraction ++ d :: rest).getLast hne ≠ '0' := by
          rw [hrest]
          exact fun hne hzero => rdropWhile_last_not _ _ hne (decide_eq_true hzero)
        refine ⟨(d :: rest).getLast (cons_ne_nil _ _), mem_append_left _ (getLast_mem _), ?_⟩
        rw [← getLast_append_of_ne_nil (l := i.fraction)]
        exact hlast (by simp)
      · have hlen := length_padded 9 i.nanosecond
        have hlen' := length_padded 9 j.nanosecond
        rw [hzeros, length_append] at hlen
        rw [hzeros', ← hrest, append_assoc, length_append] at hlen'
        omega

theorem nanosecond_eq_of_fraction_eq {i j : Instant} (h : i.fraction = j.fraction) :
    i.nanosecond = j.nanosecond := by
  obtain ⟨zeros, hzeros, hzero⟩ := padded_eq_fraction_append i
  obtain ⟨zeros', hzeros', hzero'⟩ := padded_eq_fraction_append j
  have hlen := length_padded 9 i.nanosecond
  have hlen' := length_padded 9 j.nanosecond
  rw [hzeros, length_append] at hlen
  rw [hzeros', length_append, ← h] at hlen'
  have hsame : padded 9 i.nanosecond = padded 9 j.nanosecond := by
    rw [hzeros, hzeros', h, eq_replicate_of_mem hzero, eq_replicate_of_mem hzero',
      show zeros.length = zeros'.length by omega]
  have hlt := @padded_lt_iff 9 _ _ i.nanosecond_lt j.nanosecond_lt
  have hgt := @padded_lt_iff 9 _ _ j.nanosecond_lt i.nanosecond_lt
  rw [hsame] at hlt hgt
  have hnot := mt hlt.mpr (lt_irrefl _)
  have hnot' := mt hgt.mpr (lt_irrefl _)
  omega

/-- **The order of the texts** is that of time, except where one ends within the other. -/
theorem rfc3339_le_iff : (rfc3339 i ≤ rfc3339 j ↔ i.nanoseconds ≤ j.nanoseconds) ↔
      ¬ EndsWithin i j ∧ ¬ EndsWithin j i := by
  rw [← not_lt, ← not_lt (a := j.nanoseconds), not_iff_not, rfc3339_lt_iff,
    Instant.nanoseconds_lt_iff]
  by_cases hsecs : j.seconds = i.seconds
  · have hends : EndsWithin i j ↔ i.fraction <+: j.fraction ∧ i.fraction ≠ j.fraction :=
      and_iff_right hsecs.symm
    have hends' : EndsWithin j i ↔ j.fraction <+: i.fraction ∧ j.fraction ≠ i.fraction :=
      and_iff_right hsecs
    have hreduce : (j.seconds < i.seconds ∨ j.seconds = i.seconds ∧
        closed j.fraction < closed i.fraction ↔
        j.seconds < i.seconds ∨ j.seconds = i.seconds ∧ j.nanosecond < i.nanosecond) ↔
        (closed j.fraction < closed i.fraction ↔ j.nanosecond < i.nanosecond) := by
      simp [hsecs]
    rw [hreduce]
    by_cases hfrac : i.fraction = j.fraction
    · have hnano := nanosecond_eq_of_fraction_eq hfrac
      simp [hends, hends', hfrac, hnano]
    rcases prefix_or_apart i.fraction j.fraction with h | h | ⟨p, x, y, a, b, hne, hi, hj⟩
    · have hwithin : EndsWithin i j := hends.mpr ⟨h, hfrac⟩
      obtain ⟨htext, htime⟩ := hwithin.misordered
      exact iff_of_false (fun h => lt_asymm htime (h.mp htext)) fun h => h.1 hwithin
    · have hwithin : EndsWithin j i := hends'.mpr ⟨h, Ne.symm hfrac⟩
      obtain ⟨htext, htime⟩ := hwithin.misordered
      exact iff_of_false (fun h => lt_asymm htext (h.mpr htime)) fun h => h.2 hwithin
    · have hnot : ¬ EndsWithin i j ∧ ¬ EndsWithin j i := by
        rw [hends, hends', hi, hj]
        simp [hne, Ne.symm hne]
      rcases lt_or_gt_of_ne hne with hlt | hlt
      · obtain ⟨htext, htime⟩ := lt_of_apart hlt hi hj
        exact iff_of_true (iff_of_false (lt_asymm htext) (lt_asymm htime)) hnot
      · obtain ⟨htext, htime⟩ := lt_of_apart hlt hj hi
        exact iff_of_true (iff_of_true htext htime) hnot
  · have hends : ¬ EndsWithin i j := fun h => hsecs h.1.symm
    have hends' : ¬ EndsWithin j i := fun h => hsecs h.1
    simp [hsecs, hends, hends']

/-- Equal texts are those of equal times. -/
theorem rfc3339_eq_iff : rfc3339 i = rfc3339 j ↔ i.nanoseconds = j.nanoseconds := by
  have hends {i j : Instant} (h : EndsWithin i j) :
      rfc3339 j < rfc3339 i ∧ i.nanoseconds < j.nanoseconds := by
    obtain ⟨htext, htime⟩ := h.misordered
    exact ⟨(rfc3339_lt_iff j i).mpr (.inr ⟨h.1.symm, htext⟩),
      (i.nanoseconds_lt_iff j).mpr (.inr ⟨h.1, htime⟩)⟩
  by_cases h : EndsWithin i j
  · exact iff_of_false (hends h).1.ne' (hends h).2.ne
  by_cases h' : EndsWithin j i
  · exact iff_of_false (hends h').1.ne (hends h').2.ne'
  · rw [le_antisymm_iff, le_antisymm_iff (a := i.nanoseconds), (rfc3339_le_iff i j).mpr ⟨h, h'⟩,
      (rfc3339_le_iff j i).mpr ⟨h', h⟩]

end Timestamp
