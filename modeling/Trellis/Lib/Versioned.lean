/-
# Tables of rows with revision counters

A table is a list of rows; each row has a key and a revision.  A write advances the table
when every row it leaves is one that was there, a later revision of one that was there, or
a row under a free key.  As long as no key of an earlier table is given up and taken again,
a row that still stands at the revision the earlier table had for its key is that very row,
so a reader who compares keys and revisions compares the rows.
-/
import Trellis.Lib.Checked

namespace Versioned

variable {α κ : Type*}

/-- Every row was there, replaces one at an earlier revision, or is under a free key. -/
def Advances (key : α → κ) (revision : α → Nat) (rows rows' : List α) : Prop :=
  ∀ x' ∈ rows', x' ∈ rows ∨ (∃ x ∈ rows, key x = key x' ∧ revision x < revision x') ∨
    ∀ x ∈ rows, key x ≠ key x'

/-- No key of the earlier table that was given up is taken again. -/
def NoReturn (key : α → κ) (old rows rows' : List α) : Prop :=
  ∀ x' ∈ rows', (∃ x ∈ old, key x = key x') → ∃ x ∈ rows, key x = key x'

/-- Under earlier keys rows stand at their revisions or later, and are the same at the same. -/
def Since (key : α → κ) (revision : α → Nat) (old rows : List α) : Prop :=
  ∀ x₀ ∈ old, ∀ x ∈ rows, key x = key x₀ →
    revision x₀ ≤ revision x ∧ (revision x = revision x₀ → x = x₀)

theorem Advances.of_subset (h : rows' ⊆ rows) : Advances key revision rows rows' :=
  fun _ hx => .inl (h hx)

/-- Adding rows under keys that are free. -/
theorem Advances.of_free (h : ∀ x' ∈ rows', x' ∈ rows ∨ ∀ x ∈ rows, key x ≠ key x') :
    Advances key revision rows rows' :=
  fun x' hx' => (h x' hx').imp_right .inr

theorem NoReturn.of_subset (h : rows' ⊆ rows) : NoReturn key old rows rows' :=
  fun x' hx' _ => ⟨x', h hx', rfl⟩

/-- Rows are added, each under a free key. -/
structure Inserts (key : α → κ) (rows rows' : List α) : Prop where
  nodup : (rows'.map key).Nodup
  subset : rows ⊆ rows'
  free : ∀ x' ∈ rows', x' ∈ rows ∨ ∀ x ∈ rows, key x ≠ key x'

theorem Inserts.refl (h : (rows.map key).Nodup) : Inserts key rows rows :=
  ⟨h, List.Subset.refl _, fun _ hx => .inl hx⟩

theorem Inserts.append (h : (rows.map key).Nodup) (hfree : ∀ y ∈ rows, key y ≠ key x) :
    Inserts key rows (rows ++ [x]) := by
  refine ⟨?_, List.subset_append_left _ _, fun y hy => ?_⟩
  · exact Checked.nodup_map_concat h hfree
  · rcases List.mem_append.mp hy with hy | hy
    · exact .inl hy
    · exact .inr (List.mem_singleton.mp hy ▸ hfree)

theorem Inserts.trans (h : Inserts key rows rows') (h' : Inserts key rows' rows'') :
    Inserts key rows rows'' := by
  refine ⟨h'.nodup, List.Subset.trans h.subset h'.subset, fun x hx => ?_⟩
  rcases h'.free x hx with hx' | hfree
  · exact h.free x hx'
  · exact .inr fun y hy => hfree y (h.subset hy)

theorem Inserts.advances (h : Inserts key rows rows') : Advances key revision rows rows' :=
  .of_free h.free

theorem Since.of_subset (hrows : (rows.map key).Nodup) (h : old ⊆ rows) :
    Since key revision old rows := by
  intro x₀ hx₀ x hx hkey
  rw [List.inj_on_of_nodup_map hrows hx (h hx₀) hkey]
  exact ⟨Nat.le_refl _, fun _ => rfl⟩

theorem Since.step (h : Since key revision old rows) (hadv : Advances key revision rows rows')
    (hreturn : NoReturn key old rows rows') : Since key revision old rows' := by
  intro x₀ hx₀ x' hx' hkey
  rcases hadv x' hx' with hold | ⟨x, hx, hsame, hlater⟩ | hfree
  · exact h x₀ hx₀ x' hold hkey
  · have hle := (h x₀ hx₀ x hx (hsame.trans hkey)).1
    exact ⟨by omega, fun heq => by omega⟩
  · obtain ⟨x, hx, hsame⟩ := hreturn x' hx' ⟨x₀, hx₀, hkey.symm⟩
    exact absurd hsame (hfree x hx)

/-- Selections that read alike, as texts of keys and revisions, select the same rows. -/
theorem Since.mem_iff (h : Since key revision old rows) {p q : α → Prop} {line : α → σ}
    (hline : ∀ x ∈ rows, q x → ∀ x₀ ∈ old, p x₀ → line x = line x₀ →
      key x = key x₀ ∧ revision x = revision x₀)
    (hlines : ∀ l, (∃ x ∈ rows, q x ∧ line x = l) ↔ ∃ x ∈ old, p x ∧ line x = l) (x : α) :
    (x ∈ rows ∧ q x) ↔ (x ∈ old ∧ p x) := by
  constructor
  · rintro ⟨hx, hq⟩
    obtain ⟨x₀, hx₀, hp, hread⟩ := (hlines _).mp ⟨x, hx, hq, rfl⟩
    obtain ⟨hkey, hrev⟩ := hline x hx hq x₀ hx₀ hp hread.symm
    rw [(h x₀ hx₀ x hx hkey).2 hrev]
    exact ⟨hx₀, hp⟩
  · rintro ⟨hx, hp⟩
    obtain ⟨x', hx', hq, hread⟩ := (hlines _).mpr ⟨x, hx, hp, rfl⟩
    obtain ⟨hkey, hrev⟩ := hline x' hx' hq x hx hp hread
    rw [← (h x hx x' hx' hkey).2 hrev]
    exact ⟨hx', hq⟩

end Versioned
