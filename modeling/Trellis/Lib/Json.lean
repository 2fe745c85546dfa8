/-
# JSON documents

A document has the members of its objects in the order of the text, where a key may come
more than once.  A *value* is a document whose objects are maps: the keys of an object
come in increasing order.  Reading a document as a value keeps the last member of a key.

The floats are any type `F`.  Folds over documents carry all definitions, and one
induction over documents carries all proofs.
-/
import Mathlib.Algebra.Order.Ring.Nat
import Mathlib.Data.String.Basic

/-- The integers that a number can hold exactly. -/
abbrev JsonInteger := {n : Int // -2 ^ 63 ≤ n ∧ n < 2 ^ 64}

inductive Scalar (F : Type) where
  | null
  | bool (b : Bool)
  | integer (n : JsonInteger)
  | float (x : F)
  | string (s : String)
  deriving DecidableEq

inductive Json (F : Type) where
  | scalar (s : Scalar F)
  | array (items : List (Json F))
  | object (members : List (String × Json F))

namespace Json

open List

variable {F β : Type}

@[match_pattern] abbrev null : Json F := .scalar .null
@[match_pattern] abbrev string (s : String) : Json F := .scalar (.string s)
@[match_pattern] abbrev bool (b : Bool) : Json F := .scalar (.bool b)
@[match_pattern] abbrev integer (n : JsonInteger) : Json F := .scalar (.integer n)

/-! ## Folds and induction -/

mutual

/-- Replaces scalars, arrays and objects from the leaves up. -/
def fold (f : Scalar F → β) (g : List β → β) (h : List (String × β) → β) : Json F → β
  | .scalar s => f s
  | .array items => g (foldItems f g h items)
  | .object members => h (foldMembers f g h members)

def foldItems (f : Scalar F → β) (g : List β → β) (h : List (String × β) → β) :
    List (Json F) → List β
  | [] => []
  | d :: rest => fold f g h d :: foldItems f g h rest

def foldMembers (f : Scalar F → β) (g : List β → β) (h : List (String × β) → β) :
    List (String × Json F) → List (String × β)
  | [] => []
  | (k, d) :: rest => (k, fold f g h d) :: foldMembers f g h rest

end

variable {map entries : List (String × β)} {d : Json F}

theorem foldItems_eq_map : foldItems f g h items = items.map (fold f g h) := by
  induction items with
  | nil => rfl
  | cons d rest ih => rw [foldItems, ih, map_cons]

theorem foldMembers_eq_map :
    foldMembers f g h members = members.map (Prod.map id (fold f g h)) := by
  induction members with
  | nil => rfl
  | cons m rest ih => rw [foldMembers, ih, map_cons]; rfl

theorem fold_array : fold f g h (.array items) = g (items.map (fold f g h)) := by
  rw [fold, foldItems_eq_map]

theorem fold_object :
    fold f g h (.object members) = h (members.map (Prod.map id (fold f g h))) := by
  rw [fold, foldMembers_eq_map]

/-- What passes from the parts of a document to the document holds of every document. -/
theorem induct {P : Json F → Prop} (hscalar : ∀ s, P (.scalar s))
    (harray : ∀ items : List (Json F), (∀ d ∈ items, P d) → P (.array items))
    (hobject : ∀ members : List (String × Json F), (∀ m ∈ members, P m.2) → P (.object members))
    (d : Json F) : P d := by
  refine @Json.rec F P (fun items => ∀ d ∈ items, P d) (fun members => ∀ m ∈ members, P m.2)
    (fun m => P m.2) hscalar harray hobject ?_ ?_ ?_ ?_ (fun _ _ hvalue => hvalue) d
  · simp
  · intro d rest hd hrest
    simpa using ⟨hd, hrest⟩
  · simp
  · intro m rest hm hrest x hx
    rcases mem_cons.mp hx with rfl | hx
    · exact hm
    · exact hrest x hx

/-! ## Depth -/

/-- How many arrays and objects lie around the innermost part. -/
def depth : Json F → Nat :=
  fold (fun _ => 0) (fun ds => ds.foldr max 0 + 1) (fun ms => (ms.map Prod.snd).foldr max 0 + 1)

theorem foldr_max_le {ns : List Nat} : ns.foldr max 0 ≤ n ↔ ∀ m ∈ ns, m ≤ n := by
  induction ns with
  | nil => simp
  | cons m ns ih => simp [ih]

theorem depth_array_le : depth (.array items) ≤ n + 1 ↔ ∀ d ∈ items, d.depth ≤ n := by
  rw [depth, fold_array, Nat.add_le_add_iff_right, foldr_max_le]
  simp

theorem depth_object_le : depth (.object members) ≤ n + 1 ↔ ∀ m ∈ members, m.2.depth ≤ n := by
  rw [depth, fold_object, Nat.add_le_add_iff_right, foldr_max_le, map_map, forall_mem_map]
  rfl

theorem depth_array_pos (items : List (Json F)) : ∃ n, depth (.array items) = n + 1 :=
  ⟨_, fold_array⟩

theorem depth_object_pos (members : List (String × Json F)) :
    ∃ n, depth (.object members) = n + 1 :=
  ⟨_, fold_object⟩

/-! ## Other floats -/

def Scalar.mapFloat (ρ : F → F) : Scalar F → Scalar F
  | .float x => .float (ρ x)
  | s => s

/-- The document with each float replaced. -/
def mapFloat (ρ : F → F) : Json F → Json F :=
  fold (fun s => .scalar (Scalar.mapFloat ρ s)) .array .object

@[simp]
theorem mapFloat_array : mapFloat ρ (.array items) = .array (items.map (mapFloat ρ)) :=
  fold_array

@[simp]
theorem mapFloat_object :
    mapFloat ρ (.object members) = .object (members.map (Prod.map id (mapFloat ρ))) :=
  fold_object

@[simp]
theorem mapFloat_scalar : mapFloat ρ (.scalar s) = .scalar (Scalar.mapFloat ρ s) :=
  rfl

theorem mapFloat_id (d : Json F) : d.mapFloat id = d := by
  induction d using induct with
  | hscalar s => cases s <;> rfl
  | harray items ih => rw [mapFloat_array, map_congr_left ih, map_id']
  | hobject members ih =>
    rw [mapFloat_object]
    refine congrArg object ((map_congr_left fun m hm => ?_).trans (map_id members))
    exact Prod.ext rfl (ih m hm)

/-! ## Values -/

/-- The keys of every object come in increasing order. -/
def canonical : Json F → Bool :=
  fold (fun _ => true) (fun bs => bs.all id)
    (fun ms => decide ((ms.map Prod.fst).Pairwise (· < ·)) && ms.all Prod.snd)

abbrev Value (F : Type) := {d : Json F // d.canonical = true}

/-- Stores an entry of a map under its key. -/
def put (k : String) (v : β) : List (String × β) → List (String × β)
  | [] => [(k, v)]
  | (k', v') :: rest =>
    if k < k' then (k, v) :: (k', v') :: rest
    else if k = k' then (k, v) :: rest
    else (k', v') :: put k v rest

def putAll (entries : List (String × β)) : List (String × β) :=
  entries.foldl (fun map entry => put entry.1 entry.2 map) []

/-- The value that a document is read as. -/
def toValue : Json F → Json F :=
  fold .scalar .array fun members => .object (putAll members)

@[simp]
theorem canonical_array : canonical (.array items) = true ↔ ∀ d ∈ items, d.canonical = true := by
  rw [canonical, fold_array]
  simp

@[simp]
theorem canonical_object : canonical (.object members) = true ↔
      (members.map Prod.fst).Pairwise (· < ·) ∧ ∀ m ∈ members, m.2.canonical = true := by
  rw [canonical, fold_object]
  simp [Function.comp_def, pairwise_map]

theorem mem_put (hx : x ∈ put k v map) : x = (k, v) ∨ x ∈ map := by
  induction map with
  | nil => exact .inl (mem_singleton.mp hx)
  | cons entry rest ih =>
    rw [put] at hx
    split at hx
    · exact mem_cons.mp hx
    split at hx
    · exact (mem_cons.mp hx).imp_right (mem_cons_of_mem _)
    · rcases mem_cons.mp hx with rfl | hx
      · exact .inr mem_cons_self
      · exact (ih hx).imp_right (mem_cons_of_mem _)

theorem mem_putAll (hx : x ∈ putAll entries) : x ∈ entries := by
  have hmem : ∀ map : List (String × β),
      x ∈ entries.foldl (fun map entry => put entry.1 entry.2 map) map → x ∈ map ∨ x ∈ entries := by
    clear hx
    induction entries with
    | nil => exact fun map hx => .inl hx
    | cons entry rest ih =>
      intro map hx
      rcases ih _ hx with hx | hx
      · rcases mem_put hx with rfl | hx
        · exact .inr mem_cons_self
        · exact .inl hx
      · exact .inr (mem_cons_of_mem _ hx)
  exact (hmem [] hx).resolve_left not_mem_nil

theorem sorted_put (hsorted : map.Pairwise fun x y => x.1 < y.1) :
    (put k v map).Pairwise fun x y => x.1 < y.1 := by
  induction map with
  | nil => exact pairwise_singleton _ _
  | cons entry rest ih =>
    obtain ⟨hhead, hrest⟩ := pairwise_cons.mp hsorted
    rw [put]
    split
    next hlt =>
      refine pairwise_cons.mpr ⟨?_, hsorted⟩
      intro x hx
      rcases mem_cons.mp hx with rfl | hx
      · exact hlt
      · exact hlt.trans (hhead x hx)
    next hge =>
      split
      next heq =>
        subst heq
        exact pairwise_cons.mpr ⟨hhead, hrest⟩
      next hne =>
        refine pairwise_cons.mpr ⟨?_, ih hrest⟩
        intro x hx
        rcases mem_put hx with rfl | hx
        · exact lt_of_le_of_ne (not_lt.mp hge) (Ne.symm hne)
        · exact hhead x hx

theorem sorted_putAll : (putAll entries).Pairwise fun x y => x.1 < y.1 := by
  have hkeeps : ∀ map : List (String × β), (map.Pairwise fun x y => x.1 < y.1) →
      (entries.foldl (fun map entry => put entry.1 entry.2 map) map).Pairwise
        fun x y => x.1 < y.1 := by
    induction entries with
    | nil => exact fun map hmap => hmap
    | cons entry rest ih => exact fun map hmap => ih _ (sorted_put hmap)
  exact hkeeps [] .nil

theorem put_last (hlast : ∀ x ∈ map, x.1 < k) : put k v map = map ++ [(k, v)] := by
  induction map with
  | nil => rfl
  | cons entry rest ih =>
    obtain ⟨k', v'⟩ := entry
    have hlt : k' < k := hlast _ mem_cons_self
    rw [put, if_neg hlt.asymm, if_neg hlt.ne', ih fun x hx => hlast x (mem_cons_of_mem _ hx)]
    rfl

/-- Entries that come in the order of their keys are the map they make. -/
theorem putAll_of_sorted
    (hsorted : entries.Pairwise fun x y => x.1 < y.1) : putAll entries = entries := by
  have hkeeps : ∀ map : List (String × β), (∀ x ∈ map, ∀ y ∈ entries, x.1 < y.1) →
      entries.foldl (fun map entry => put entry.1 entry.2 map) map = map ++ entries := by
    induction entries with
    | nil => simp
    | cons entry rest ih =>
      intro map hmap
      obtain ⟨hhead, hrest⟩ := pairwise_cons.mp hsorted
      rw [foldl_cons, put_last fun x hx => hmap x hx entry mem_cons_self, ih hrest, append_assoc]
      · rfl
      · intro x hx y hy
        rcases mem_append.mp hx with hx | hx
        · exact hmap x hx y (mem_cons_of_mem _ hy)
        · rw [mem_singleton.mp hx]
          exact hhead y hy
  exact hkeeps [] (by simp)

theorem toValue_array : toValue (.array items) = .array (items.map toValue) :=
  fold_array

theorem toValue_object :
    toValue (.object members) = .object (putAll (members.map (Prod.map id toValue))) :=
  fold_object

theorem toValue_eq_null (h : d.toValue = .null) : d = .null := by
  cases d with
  | scalar s => exact h
  | array items => cases h
  | object members => cases h

theorem canonical_toValue (d : Json F) : d.toValue.canonical = true := by
  induction d using induct with
  | hscalar s => rfl
  | harray items ih =>
    rw [toValue_array, canonical_array]
    intro d hd
    obtain ⟨item, hitem, rfl⟩ := mem_map.mp hd
    exact ih item hitem
  | hobject members ih =>
    rw [toValue_object, canonical_object]
    refine ⟨pairwise_map.mpr sorted_putAll, ?_⟩
    intro m hm
    obtain ⟨member, hmemb, rfl⟩ := mem_map.mp (mem_putAll hm)
    exact ih member hmemb

/-- A value is read as itself. -/
theorem toValue_of_canonical (hd : d.canonical = true) : d.toValue = d := by
  induction d using induct with
  | hscalar s => rfl
  | harray items ih =>
    rw [canonical_array] at hd
    rw [toValue_array, map_congr_left fun d hmem => ih d hmem (hd d hmem), map_id']
  | hobject members ih =>
    rw [canonical_object] at hd
    have hmembers : members.map (Prod.map id toValue) = members := by
      refine (map_congr_left fun m hm => ?_).trans (map_id members)
      exact Prod.ext rfl (ih m hm (hd.2 m hm))
    rw [toValue_object, hmembers, putAll_of_sorted (pairwise_map.mp hd.1)]

theorem canonical_mapFloat : (d.mapFloat ρ).canonical = d.canonical := by
  induction d using induct with
  | hscalar s => rfl
  | harray items ih =>
    rw [Bool.eq_iff_iff]
    simpa using forall₂_congr fun d hd => by rw [ih d hd]
  | hobject members ih =>
    rw [Bool.eq_iff_iff, mapFloat_object, canonical_object, canonical_object]
    apply and_congr (by simp [Function.comp_def])
    rw [forall_mem_map]
    exact forall₂_congr fun m hm => by rw [Prod.map_snd, ih m hm]

/-- Reading a document as a value makes it no deeper. -/
theorem depth_toValue_le (d : Json F) : d.toValue.depth ≤ d.depth := by
  induction d using induct with
  | hscalar s => exact le_rfl
  | harray items ih =>
    obtain ⟨n, hn⟩ := depth_array_pos items
    rw [hn, toValue_array, depth_array_le]
    have hitems := depth_array_le.mp hn.le
    intro d hd
    obtain ⟨item, hitem, rfl⟩ := mem_map.mp hd
    exact (ih item hitem).trans (hitems item hitem)
  | hobject members ih =>
    obtain ⟨n, hn⟩ := depth_object_pos members
    rw [hn, toValue_object, depth_object_le]
    have hmembers := depth_object_le.mp hn.le
    intro m hm
    obtain ⟨member, hmemb, rfl⟩ := mem_map.mp (mem_putAll hm)
    exact (ih member hmemb).trans (hmembers member hmemb)

/-! ## Size of the text -/

/-- Bytes of a character in a string literal. -/
def escapeSize (c : Char) : Nat :=
  if c = '"' ∨ c = '\\' ∨ c = '\n' ∨ c = '\r' ∨ c = '\t' ∨ c = '\x08' ∨ c = '\x0c' then 2
  else if c.toNat < 32 then 6
  else c.utf8Size

def stringSize (s : String) : Nat :=
  2 + (s.toList.map escapeSize).sum

/-- Bytes of the text without white space. -/
def size (floatSize : F → Nat) : Json F → Nat :=
  fold
    (fun
      | .null => 4
      | .bool b => if b then 4 else 5
      | .integer n => (toString n.val).length
      | .float x => floatSize x
      | .string s => stringSize s)
    (fun sizes => 2 + sizes.sum + (sizes.length - 1))
    (fun members => 2 + (members.map fun m => stringSize m.1 + 1 + m.2).sum + (members.length - 1))

end Json
