/-
# A versioned cell written by compare-and-swap

One key of a versioned store: every write gets a version no write had before, and an
update takes effect only while the version it names is the current one.  Readers may
see any value the cell has had.

If every writer derives what it writes from a value it has read, under a relation
between the two, consecutive values of the cell are related, whatever happens between
a writer's read and its update.
-/
import Mathlib.Data.List.Chain
import Mathlib.Data.List.Nodup

namespace Cas

open List

variable {α : Type*}

/-- The values written so far with their versions, newest first. -/
structure Cell (α : Type*) where
  log : List (Nat × α)
  /-- No version from here on is in use. -/
  next : Nat
  version_lt : ∀ entry ∈ log, entry.1 < next
  versions_nodup : (log.map Prod.fst).Nodup

namespace Cell

def empty : Cell α where
  log := []
  next := 0
  version_lt := by simp
  versions_nodup := nodup_nil

variable (cell : Cell α) (value : α)

def put : Cell α where
  log := (cell.next, value) :: cell.log
  next := cell.next + 1
  version_lt := by
    intro entry hentry
    rcases mem_cons.mp hentry with rfl | hentry
    · exact Nat.lt_succ_self _
    · exact Nat.lt_succ_of_lt (cell.version_lt entry hentry)
  versions_nodup := by
    refine nodup_cons.mpr ⟨?_, cell.versions_nodup⟩
    intro hmem
    obtain ⟨entry, hentry, heq⟩ := mem_map.mp hmem
    have hlt := cell.version_lt entry hentry
    omega

/-- Write the first value. -/
def create : Option (Cell α) :=
  if cell.log.isEmpty then some (cell.put value) else none

/-- Write a value in place of the one with the expected version. -/
def update (expected : Nat) (value : α) : Option (Cell α) :=
  match cell.log with
  | [] => none
  | (version, _) :: _ => if version = expected then some (cell.put value) else none

/-- Versions used up by the other keys of the store. -/
def elapse (n : Nat) : Cell α where
  log := cell.log
  next := cell.next + n
  version_lt := fun entry hentry => Nat.lt_add_right n (cell.version_lt entry hentry)
  versions_nodup := cell.versions_nodup

/-- The values in the order they were written. -/
def history : List α :=
  (cell.log.map Prod.snd).reverse

@[simp] theorem history_put : (cell.put value).history = cell.history ++ [value] := by
  simp [history, put]

variable {cell : Cell α} {value : α}

theorem create_eq_some (h : cell.create value = some cell') :
    cell.log = [] ∧ cell' = cell.put value := by
  unfold create at h
  split at h
  next hempty => exact ⟨isEmpty_iff.mp hempty, (Option.some.inj h).symm⟩
  · cases h

theorem update_eq_some (h : cell.update expected value = some cell') :
    (∃ old rest, cell.log = (expected, old) :: rest) ∧ cell' = cell.put value := by
  unfold update at h
  split at h
  · cases h
  rename_i version old rest hlog
  split at h
  next hversion => exact ⟨⟨old, rest, hversion ▸ hlog⟩, (Option.some.inj h).symm⟩
  · cases h

/-- A version names one value. -/
theorem eq_of_mem_log (ha : (version, a) ∈ cell.log) (hb : (version, b) ∈ cell.log) : a = b := by
  have hinj := inj_on_of_nodup_map cell.versions_nodup ha hb rfl
  exact (Prod.mk.inj hinj).2

/-- An update derived from a value that was read extends the history by a related one. -/
theorem isChain_history_update (hchain : cell.history.IsChain R)
    (hread : (expected, old) ∈ cell.log)
    (hR : R old value) (h : cell.update expected value = some cell') : cell'.history.IsChain R := by
  obtain ⟨⟨last, rest, hlog⟩, rfl⟩ := update_eq_some h
  -- the version that was read is still the current one, so it names the last value
  have hcur : (expected, last) ∈ cell.log := by
    rw [hlog]
    exact mem_cons_self
  have hlast : last = old := eq_of_mem_log hcur hread
  rw [history_put, isChain_append]
  refine ⟨hchain, isChain_singleton _, ?_⟩
  intro a ha b hb
  have hhist : cell.history = (rest.map Prod.snd).reverse ++ [last] := by
    rw [history, hlog, map_cons, reverse_cons]
  rw [hhist, getLast?_concat, Option.mem_some_iff] at ha
  rw [head?_cons, Option.mem_some_iff] at hb
  rw [← ha, ← hb, hlast]
  exact hR

theorem isChain_history_create (h : cell.create value = some cell') : cell'.history.IsChain R := by
  obtain ⟨hlog, rfl⟩ := create_eq_some h
  rw [history_put, history, hlog]
  exact isChain_singleton _

end Cell

end Cas
