/-
# Splitting text at a separator

Text is a `String`; what a program does to it character by character is stated
on its list of characters.  `split` is the separator split that keeps empty
pieces, and the character classes are those of Unicode's `White_Space` property
and of the ASCII control range.
-/
import Mathlib.Data.List.DropRight

namespace Text

open List

/-- The pieces of `s` between the occurrences of `sep`, empty pieces included. -/
def split (sep : Char) (s : String) : List String :=
  (s.toList.splitOn sep).map String.ofList

theorem split_ne_nil (sep : Char) (s : String) : split sep s ≠ [] := by
  simp [split]

variable {α : Type*} {sep : α}

theorem notMem_of_mem_splitOn [DecidableEq α] {xs l : List α}
    (h : l ∈ xs.splitOn sep) : sep ∉ l := by
  induction xs generalizing l with
  | nil =>
    obtain rfl : l = [] := by simpa using h
    exact not_mem_nil
  | cons x xs ih =>
    rw [splitOn_cons_eq_if_modifyHead] at h
    split at h
    · rcases mem_cons.mp h with rfl | h
      · exact not_mem_nil
      · exact ih h
    next hx =>
      cases hxs : xs.splitOn sep with
      | nil => exact absurd hxs (splitOn_ne_nil sep xs)
      | cons head tail =>
        rw [hxs] at h ih
        rcases mem_cons.mp h with rfl | h
        · intro hmem
          rcases mem_cons.mp hmem with rfl | hmem
          · exact hx (by simp)
          · exact ih mem_cons_self hmem
        · exact ih (mem_cons_of_mem head h)

/-- No piece of a split contains the separator. -/
theorem sep_notMem_of_mem_split {sep : Char} (h : t ∈ split sep s) : sep ∉ t.toList := by
  obtain ⟨l, hl, rfl⟩ := mem_map.mp h
  rw [String.toList_ofList]
  exact notMem_of_mem_splitOn hl

theorem splitOn_intercalate_flatMap [DecidableEq α]
    (hx : xs ≠ []) : ([sep].intercalate xs).splitOn sep = xs.flatMap (List.splitOn sep) := by
  induction xs with
  | nil => exact absurd rfl hx
  | cons a xs ih =>
    cases xs with
    | nil => simp
    | cons b xs =>
      rw [intercalate_cons_cons, append_assoc, flatMap_cons, ← ih (cons_ne_nil _ _)]
      exact splitOnP_append_cons a _ (by simp)

/-- The pieces of joined texts are the pieces of each. -/
theorem split_intercalate (h : texts ≠ []) :
    split '.' (".".intercalate texts) = texts.flatMap (split '.') := by
  have hmap : texts.map String.toList ≠ [] := by simpa using h
  have hdot : ".".toList = ['.'] := rfl
  unfold split
  rw [String.toList_intercalate, hdot, splitOn_intercalate_flatMap hmap, flatMap_map, map_flatMap]

theorem split_of_notMem {sep : Char} (h : sep ∉ s.toList) : split sep s = [s] := by
  have hone : ([sep].intercalate [s.toList]).splitOn sep = [s.toList] :=
    splitOn_intercalate sep (by simpa using h) (by simp)
  rw [intercalate_singleton] at hone
  unfold split
  rw [hone, map_singleton, String.ofList_toList]

/-- Two texts cut at their first separator agree piece by piece. -/
theorem append_sep_inj (ha : sep ∉ a) (hb : sep ∉ b)
    (h : a ++ sep :: x = b ++ sep :: y) : a = b ∧ x = y := by
  induction a generalizing b with
  | nil =>
    cases b with
    | nil => exact ⟨rfl, (List.cons.inj h).2⟩
    | cons c b => exact absurd ((List.cons.inj h).1 ▸ mem_cons_self) hb
  | cons c a ih =>
    cases b with
    | nil => exact absurd ((List.cons.inj h).1 ▸ mem_cons_self) ha
    | cons d b =>
      obtain ⟨rfl, htail⟩ := List.cons.inj h
      obtain ⟨rfl, rfl⟩ := ih (fun hmem => ha (mem_cons_of_mem _ hmem))
        (fun hmem => hb (mem_cons_of_mem _ hmem)) htail
      exact ⟨rfl, rfl⟩

/-- Two texts cut at their last separator agree piece by piece. -/
theorem append_sep_inj_right (hx : sep ∉ x) (hy : sep ∉ y)
    (h : a ++ sep :: x = b ++ sep :: y) : a = b ∧ x = y := by
  have hreverse : x.reverse ++ sep :: a.reverse = y.reverse ++ sep :: b.reverse := by
    simpa using congrArg List.reverse h
  obtain ⟨hright, hleft⟩ := append_sep_inj (fun hmem => hx (mem_reverse.mp hmem))
    (fun hmem => hy (mem_reverse.mp hmem)) hreverse
  exact ⟨reverse_injective hleft, reverse_injective hright⟩

/-- The decimal text of a number determines it. -/
theorem toString_nat_inj {m n : Nat} (h : toString m = toString n) : m = n := by
  have hdigits : Nat.toDigits 10 m = Nat.toDigits 10 n := String.ofList_injective h
  rw [← Nat.ofDigitChars_ten_toDigits (n := m), hdigits, Nat.ofDigitChars_ten_toDigits]

theorem notMem_toString_nat (hc : c.isDigit = false) (n : Nat) : c ∉ (toString n).toList := by
  rw [Nat.toString_eq_ofList_toDigits, String.toList_ofList]
  intro hmem
  rw [Nat.isDigit_of_mem_toDigits (by decide) (by decide) hmem] at hc
  cases hc

/-- A text that ends in a number after a separator determines both parts. -/
theorem append_nat_inj {m n : Nat}
    (h : s ++ ":" ++ toString m = t ++ ":" ++ toString n) : s = t ∧ m = n := by
  have hlist : s.toList ++ ':' :: (toString m).toList = t.toList ++ ':' :: (toString n).toList := by
    simpa [String.toList_append] using congrArg String.toList h
  obtain ⟨hleft, hright⟩ := append_sep_inj_right (notMem_toString_nat (by decide) m)
    (notMem_toString_nat (by decide) n) hlist
  exact ⟨String.toList_injective hleft, toString_nat_inj (String.toList_injective hright)⟩

/-- The characters with Unicode's `White_Space` property. -/
def isWhitespace (c : Char) : Bool :=
  let n := c.toNat
  (9 ≤ n && n ≤ 13) || n == 0x20 || n == 0x85 || n == 0xA0 || n == 0x1680
    || (0x2000 ≤ n && n ≤ 0x200A) || n == 0x2028 || n == 0x2029 || n == 0x202F
    || n == 0x205F || n == 0x3000

/-- The ASCII control characters. -/
def isAsciiControl (c : Char) : Bool :=
  c.toNat < 0x20 || c.toNat == 0x7F

/-- Text without the blanks at its ends. -/
def trim (s : String) : String :=
  String.ofList ((s.toList.dropWhile isWhitespace).rdropWhile isWhitespace)

/-- The UTF-16 code units of a character. -/
def utf16Units (c : Char) : List Nat :=
  if c.toNat < 0x10000 then [c.toNat]
  else [0xD800 + (c.toNat - 0x10000) / 0x400, 0xDC00 + (c.toNat - 0x10000) % 0x400]

def encodeUtf16 (s : String) : List Nat := s.toList.flatMap utf16Units

end Text
