/-
# Derived encodings of records

How a data type is written as a JSON document and read back, as the derived serializers
do it: a record is an object with a member for each field, read in any order and each at
most once, or an array of the fields in their order; a unit variant is its name.

A codec carries what its reader keeps: what a reader returns is *good*, a good value is
read back, nothing gets deeper by being read and written again, and a document whose
floats were replaced is read as the value it was written for only if it has not changed.
-/
import Trellis.Lib.Checked
import Trellis.Lib.Json

/-- A way to write values of a type and to read them. -/
structure Codec (F α : Type) where
  enc : α → Json F
  dec : Json F → Option α
  Good : α → Prop
  dec_enc : ∀ {a}, Good a → dec (enc a) = some a
  good_of_dec : ∀ {d a}, dec d = some a → Good a
  depth_le : ∀ {d a}, dec d = some a → (enc a).depth ≤ d.depth
  null_of_dec : ∀ {d a}, dec d = some a → enc a = .null → d = .null
  mapFloat_eq : ∀ {ρ a}, dec ((enc a).mapFloat ρ) = some a → (enc a).mapFloat ρ = enc a

/-- The members with a key. -/
def lookups {F : Type} (key : String) (members : List (String × Json F)) : List (Json F) :=
  (members.filter fun m => m.1 = key).map Prod.snd

/-- A group of fields, written as members of an object and read from there or from array items. -/
structure Fields (F α : Type) where
  names : List String
  write : α → List (String × Json F)
  read : List (String × Json F) → Option α
  readSeq : List (Json F) → Option (α × List (Json F))
  Good : α → Prop
  keys_write : ∀ {a m}, m ∈ write a → m.1 ∈ names
  read_congr : ∀ {ms ms'}, (∀ k ∈ names, lookups k ms = lookups k ms') → read ms = read ms'
  read_write : ∀ {a}, Good a → read (write a) = some a
  good_of_read : ∀ {ms a}, read ms = some a → Good a
  depth_le : ∀ {ms a n}, read ms = some a → (∀ m ∈ ms, m.2.depth ≤ n) → ∀ m ∈ write a, m.2.depth ≤ n
  mapFloat_eq : ∀ {ρ a}, read ((write a).map (Prod.map id (Json.mapFloat ρ))) = some a →
    (write a).map (Prod.map id (Json.mapFloat ρ)) = write a
  readSeq_spec : ∀ {ds a rest}, readSeq ds = some (a, rest) → Good a ∧
    ∀ n, (∀ d ∈ ds, d.depth ≤ n) → (∀ m ∈ write a, m.2.depth ≤ n) ∧ ∀ d ∈ rest, d.depth ≤ n

/-- Unsigned 64-bit integers. -/
abbrev U64 := {n : Nat // n < 2 ^ 64}

/-- Signed 64-bit integers. -/
abbrev I64 := {n : Int // -2 ^ 63 ≤ n ∧ n < 2 ^ 63}

variable {F α β : Type}

variable {ms : List (String × Json F)}

theorem lookups_cons :
    lookups key (m :: ms) = if m.1 = key then m.2 :: lookups key ms else lookups key ms := by
  by_cases h : m.1 = key <;> simp [lookups, h]

theorem lookups_append : lookups key (ms ++ ms') = lookups key ms ++ lookups key ms' := by
  simp [lookups]

/-- A key that no member has. -/
theorem lookups_eq_nil (h : ∀ m ∈ ms, m.1 ≠ key) : lookups key ms = [] := by
  simpa [lookups] using h

theorem mem_of_mem_lookups (h : d ∈ lookups key ms) : (key, d) ∈ ms := by
  obtain ⟨m, hm, rfl⟩ := List.mem_map.mp h
  obtain ⟨hmem, hkey⟩ := List.mem_filter.mp hm
  rw [← of_decide_eq_true hkey]
  exact hmem

namespace Codec

open List

/-! ## Scalars and values -/

/-- Values that one scalar, never a float, stands for. -/
def ofScalar (enc : α → Scalar F) (dec : Scalar F → Option α)
    (hdec : ∀ a, dec (enc a) = some a) (hfloat : ∀ a x, enc a ≠ .float x)
    (hnull : ∀ a, enc a ≠ .null) : Codec F α where
  enc a := .scalar (enc a)
  dec
    | .scalar s => dec s
    | _ => none
  Good _ := True
  dec_enc _ := hdec _
  good_of_dec _ := trivial
  depth_le _ := Nat.zero_le _
  null_of_dec {_ a} _ h := absurd (Json.scalar.inj h) (hnull a)
  mapFloat_eq {ρ a} _ := by
    rw [Json.mapFloat_scalar]
    cases h : enc a with
    | float x => exact absurd h (hfloat a x)
    | _ => rfl

def string : Codec F String :=
  ofScalar .string (fun | .string s => some s | _ => none) (fun _ => rfl) (by simp) (by simp)

def bool : Codec F Bool :=
  ofScalar .bool (fun | .bool b => some b | _ => none) (fun _ => rfl) (by simp) (by simp)

/-- Integers that are not negative. -/
def u64 : Codec F U64 :=
  ofScalar (fun n => .integer ⟨n.val, by omega, by omega⟩)
    (fun
      | .integer n => if h : 0 ≤ n.val then some ⟨n.val.toNat, by omega⟩ else none
      | _ => none)
    (by simp) (by simp) (by simp)

/-- Integers that fit the signed type. -/
def i64 : Codec F I64 :=
  ofScalar (fun n => .integer ⟨n.val, by omega, by omega⟩)
    (fun
      | .integer n => if h : n.val < 2 ^ 63 then some ⟨n.val, n.property.1, h⟩ else none
      | _ => none)
    (fun n => dif_pos n.property.2) (by simp) (by simp)

/-- The number of a canonical decimal text. -/
def parseDecimal (text : String) : Option U64 :=
  let n := Nat.ofDigitChars 10 text.toList 0
  if h : n < 2 ^ 64 ∧ toString n = text then some ⟨n, h.1⟩ else none

/-- A written number is read back. -/
theorem parseDecimal_toString (n : U64) : parseDecimal (toString n.val) = some n := by
  have hparse : Nat.ofDigitChars 10 (toString n.val).toList 0 = n.val := by
    rw [Nat.toString_eq_ofList_toDigits, String.toList_ofList, Nat.ofDigitChars_ten_toDigits]
  simp only [parseDecimal, hparse]
  rw [dif_pos ⟨n.property, trivial⟩]

/-- Unsigned integers as canonical decimal texts. -/
def decimal : Codec F U64 :=
  ofScalar (fun n => .string (toString n.val))
    (fun | .string s => parseDecimal s | _ => none) parseDecimal_toString (by simp) (by simp)

/-- Variants without data, by their names. -/
def enum (label : α → String) (variants : List α)
    (hlabel : ∀ a, variants.find? (fun b => label b = label a) = some a :=
      by rintro ⟨⟩ <;> decide +kernel) : Codec F α where
  enc a := .string (label a)
  dec
    | .string s => variants.find? fun a => label a = s
    | .object [(s, .null)] => variants.find? fun a => label a = s
    | _ => none
  Good _ := True
  dec_enc _ := hlabel _
  good_of_dec _ := trivial
  depth_le _ := Nat.zero_le _
  null_of_dec _ h := nomatch h
  mapFloat_eq _ := rfl

/-- Any JSON value, as it is. -/
def value : Codec F (Json.Value F) where
  enc v := v.val
  dec d := some ⟨d.toValue, d.canonical_toValue⟩
  Good _ := True
  dec_enc {v} _ := congrArg some (Subtype.ext (Json.toValue_of_canonical v.property))
  good_of_dec _ := trivial
  depth_le {d v} h := by
    cases h
    exact d.depth_toValue_le
  null_of_dec {d v} h hnull := by
    cases h
    exact Json.toValue_eq_null hnull
  mapFloat_eq {ρ v} h := by
    have hvalue : (Json.mapFloat ρ v.val).toValue = v.val :=
      congrArg Subtype.val (Option.some.inj h)
    rwa [Json.toValue_of_canonical (Json.canonical_mapFloat.trans v.property)] at hvalue

/-! ## Options and lists -/

variable (c : Codec F α)

/-- An optional value, where null stands for none. -/
def option : Codec F (Option α) where
  enc
    | none => .null
    | some a => c.enc a
  dec
    | .null => some none
    | d => (c.dec d).map some
  Good
    | none => True
    | some a => c.Good a ∧ c.enc a ≠ .null
  dec_enc {a} hgood := by
    cases a with
    | none => rfl
    | some a =>
      dsimp only
      split
      next h => exact absurd h hgood.2
      next => rw [c.dec_enc hgood.1, Option.map_some]
  good_of_dec {d a} h := by
    split at h
    · cases h
      trivial
    next hnull =>
      obtain ⟨a, ha, rfl⟩ := Option.map_eq_some_iff.mp h
      exact ⟨c.good_of_dec ha, fun heq => hnull (c.null_of_dec ha heq)⟩
  depth_le {d a} h := by
    split at h
    · cases h
      exact le_rfl
    · obtain ⟨a, ha, rfl⟩ := Option.map_eq_some_iff.mp h
      exact c.depth_le ha
  null_of_dec {d a} h hnull := by
    split at h
    · rfl
    · obtain ⟨a, ha, rfl⟩ := Option.map_eq_some_iff.mp h
      exact c.null_of_dec ha hnull
  mapFloat_eq {ρ a} h := by
    cases a with
    | none => rfl
    | some a =>
      dsimp only at h ⊢
      split at h
      · cases h
      · obtain ⟨a', ha', heq⟩ := Option.map_eq_some_iff.mp h
        cases heq
        exact c.mapFloat_eq ha'

/-- An optional value that is only written when there is one; null is a value. -/
def present : Codec F (Option α) where
  enc
    | none => .null
    | some a => c.enc a
  dec d := (c.dec d).map some
  Good
    | none => False
    | some a => c.Good a
  dec_enc {a} hgood := by
    cases a with
    | none => exact hgood.elim
    | some a => exact congrArg (Option.map some) (c.dec_enc hgood)
  good_of_dec h := by
    obtain ⟨a, ha, rfl⟩ := Option.map_eq_some_iff.mp h
    exact c.good_of_dec ha
  depth_le h := by
    obtain ⟨a, ha, rfl⟩ := Option.map_eq_some_iff.mp h
    exact c.depth_le ha
  null_of_dec h hnull := by
    obtain ⟨a, ha, rfl⟩ := Option.map_eq_some_iff.mp h
    exact c.null_of_dec ha hnull
  mapFloat_eq {ρ a} h := by
    cases a with
    | none => rfl
    | some a =>
      obtain ⟨a', ha', heq⟩ := Option.map_eq_some_iff.mp h
      cases heq
      exact c.mapFloat_eq ha'

/-- A list is read item by item. -/
theorem mapM_dec_eq_some {c : Codec F α} {ds : List (Json F)} {as : List α} :
    ds.mapM c.dec = some as ↔ List.Forall₂ (fun d a => c.dec d = some a) ds as := by
  induction ds generalizing as with
  | nil => cases as <;> simp
  | cons d ds ih =>
    simp only [mapM_cons, Option.bind_eq_bind, Option.pure_def, Option.bind_eq_some_iff,
      Option.some.injEq, forall₂_cons_left_iff, ih]
    constructor
    · rintro ⟨a, ha, as, has, rfl⟩
      exact ⟨a, as, ha, has, rfl⟩
    · rintro ⟨a, as, ha, has, rfl⟩
      exact ⟨a, ha, as, has, rfl⟩

/-- An array of the items. -/
def list : Codec F (List α) where
  enc as := .array (as.map c.enc)
  dec
    | .array items => items.mapM c.dec
    | _ => none
  Good as := ∀ a ∈ as, c.Good a
  dec_enc {as} hgood := by
    refine mapM_dec_eq_some.mpr ?_
    rw [forall₂_map_left_iff, forall₂_same]
    exact fun a ha => c.dec_enc (hgood a ha)
  good_of_dec {d as} h := by
    split at h
    · intro a ha
      obtain ⟨d, -, hd⟩ := Checked.exists_left_of_mem (mapM_dec_eq_some.mp h) ha
      exact c.good_of_dec hd
    · cases h
  depth_le {d as} h := by
    split at h
    next items =>
      obtain ⟨n, hn⟩ := Json.depth_array_pos items
      rw [hn, Json.depth_array_le, forall_mem_map]
      intro a ha
      obtain ⟨d, hd, hdec⟩ := Checked.exists_left_of_mem (mapM_dec_eq_some.mp h) ha
      exact (c.depth_le hdec).trans (Json.depth_array_le.mp hn.le d hd)
    · cases h
  null_of_dec _ h := nomatch h
  mapFloat_eq {ρ as} h := by
    rw [Json.mapFloat_array] at h ⊢
    refine congrArg Json.array ?_
    rw [map_map]
    refine map_congr_left fun a ha => ?_
    have hall := mapM_dec_eq_some.mp h
    rw [map_map, forall₂_map_left_iff, forall₂_same] at hall
    exact c.mapFloat_eq (hall a ha)

/-- The same values in another form. -/
def iso (make : α → β) (parts : β → α) (hmake : ∀ b, make (parts b) = b := by exact fun _ => rfl)
    (hparts : ∀ a, parts (make a) = a := by exact fun _ => rfl) : Codec F β where
  enc b := c.enc (parts b)
  dec d := (c.dec d).map make
  Good b := c.Good (parts b)
  dec_enc {b} hgood := by rw [c.dec_enc hgood, Option.map_some, hmake]
  good_of_dec h := by
    obtain ⟨a, ha, rfl⟩ := Option.map_eq_some_iff.mp h
    rw [hparts]
    exact c.good_of_dec ha
  depth_le h := by
    obtain ⟨a, ha, rfl⟩ := Option.map_eq_some_iff.mp h
    rw [hparts]
    exact c.depth_le ha
  null_of_dec h hnull := by
    obtain ⟨a, ha, rfl⟩ := Option.map_eq_some_iff.mp h
    rw [hparts] at hnull
    exact c.null_of_dec ha hnull
  mapFloat_eq h := by
    obtain ⟨a, ha, rfl⟩ := Option.map_eq_some_iff.mp h
    rw [hparts] at ha ⊢
    exact c.mapFloat_eq ha

end Codec

namespace Fields

open List

/-! ## Fields of a record -/

variable (name : String)

/-- One field.  Some values are skipped in writing; `absent` is what a record without the member
has, in an array only if `inSeq`. -/
def field (c : Codec F α) (skip : α → Bool) (absent : Option α) (inSeq : Bool)
    (hskip : ∀ a, skip a = true → absent = some a)
    (habsent : ∀ a, absent = some a → skip a = true ∨ c.Good a ∧ (c.enc a).depth = 0) :
    Fields F α where
  names := [name]
  write a := if skip a then [] else [(name, c.enc a)]
  read ms :=
    match lookups name ms with
    | [] => absent
    | [d] => c.dec d
    | _ => none
  readSeq
    | [] => if inSeq then absent.map (·, []) else none
    | d :: rest => (c.dec d).map (·, rest)
  Good a := skip a = true ∨ c.Good a
  keys_write {a m} hm := by
    split at hm
    · cases hm
    · rw [mem_singleton.mp hm]
      exact mem_singleton_self _
  read_congr h := by rw [h name (mem_singleton_self _)]
  read_write {a} hgood := by
    by_cases ha : skip a = true
    · rw [if_pos ha]
      exact hskip a ha
    · rw [if_neg ha]
      simpa [lookups] using c.dec_enc (hgood.resolve_left ha)
  good_of_read {ms a} h := by
    split at h
    · exact (habsent a h).imp_right And.left
    · exact .inr (c.good_of_dec h)
    · cases h
  depth_le {ms a n} h hms m hm := by
    split at hm
    · cases hm
    next hwritten =>
      obtain rfl := mem_singleton.mp hm
      split at h
      · exact ((habsent a h).resolve_left hwritten).2.le.trans (Nat.zero_le n)
      next d hd =>
        exact (c.depth_le h).trans (hms _ (mem_of_mem_lookups (hd ▸ mem_singleton_self d)))
      · cases h
  mapFloat_eq {ρ a} h := by
    by_cases ha : skip a = true
    · rw [if_pos ha]
      rfl
    · rw [if_neg ha] at h ⊢
      have hdec : c.dec ((c.enc a).mapFloat ρ) = some a := by simpa [lookups] using h
      rw [map_singleton, Prod.map_apply, id_eq, c.mapFloat_eq hdec]
  readSeq_spec {ds a rest} h := by
    split at h
    · split at h
      · obtain ⟨a', ha', heq⟩ := Option.map_eq_some_iff.mp h
        cases heq
        refine ⟨(habsent _ ha').imp_right And.left, fun n hn => ⟨fun m hm => ?_, hn⟩⟩
        split at hm
        · cases hm
        next hwritten =>
          obtain rfl := mem_singleton.mp hm
          exact ((habsent _ ha').resolve_left hwritten).2.le.trans (Nat.zero_le n)
      · cases h
    · obtain ⟨a', ha', heq⟩ := Option.map_eq_some_iff.mp h
      cases heq
      refine ⟨.inr (c.good_of_dec ha'), fun n hn => ⟨fun m hm => ?_, ?_⟩⟩
      · split at hm
        · cases hm
        · obtain rfl := mem_singleton.mp hm
          exact (c.depth_le ha').trans (hn _ mem_cons_self)
      · exact fun d hd => hn d (mem_cons_of_mem _ hd)

/-- A field that a record must have. -/
def required (c : Codec F α) : Fields F α :=
  field name c (fun _ => false) none false (by simp) (by simp)

/-- An optional field that is written as null when there is none. -/
def nullable (c : Codec F α) : Fields F (Option α) :=
  field name c.option (fun _ => false) (some none) false (by simp)
    (by rintro _ ⟨⟩; exact .inr ⟨trivial, rfl⟩)

/-- An optional field that is left out when there is none. -/
def optional (c : Codec F α) (inSeq : Bool) : Fields F (Option α) :=
  field name c.option Option.isNone (some none) inSeq (by simp) (by rintro _ ⟨⟩; exact .inl rfl)

/-- An optional field that is left out when there is none, where null is a value. -/
def presentOptional (c : Codec F α) : Fields F (Option α) :=
  field name c.present Option.isNone (some none) true (by simp) (by rintro _ ⟨⟩; exact .inl rfl)

variable {name}

@[simp]
theorem names_required : (required name c).names = [name] :=
  (rfl)

@[simp]
theorem names_nullable : (nullable name c).names = [name] :=
  (rfl)

@[simp]
theorem names_optional : (optional name c inSeq).names = [name] :=
  (rfl)

@[simp]
theorem names_presentOptional : (presentOptional name c).names = [name] :=
  (rfl)

variable (f : Fields F α)

/-- A group writes no member but its own. -/
theorem lookups_write_of_not_mem (hk : k ∉ f.names) : lookups k (f.write a) = [] :=
  lookups_eq_nil fun _ hm heq => hk (heq ▸ f.keys_write hm)

/-- So with whatever its values are replaced by. -/
theorem lookups_map_of_not_mem
    (hk : k ∉ f.names) : lookups k ((f.write a).map (Prod.map id g)) = [] := by
  refine lookups_eq_nil fun m hm heq => hk ?_
  obtain ⟨m', hm', rfl⟩ := mem_map.mp hm
  rw [← heq]
  exact f.keys_write (m := m') hm'

/-- Two groups of fields with different names. -/
def both (g : Fields F β) (hnames : ∀ k ∈ f.names, k ∉ g.names := by simp) : Fields F (α × β) where
  names := f.names ++ g.names
  write x := f.write x.1 ++ g.write x.2
  read ms := (f.read ms).bind fun a => (g.read ms).map (a, ·)
  readSeq ds := (f.readSeq ds).bind fun x => (g.readSeq x.2).map fun y => ((x.1, y.1), y.2)
  Good x := f.Good x.1 ∧ g.Good x.2
  keys_write {x m} hm := mem_append.mpr ((mem_append.mp hm).imp f.keys_write g.keys_write)
  read_congr h := by
    rw [f.read_congr fun k hk => h k (mem_append_left _ hk),
      g.read_congr fun k hk => h k (mem_append_right _ hk)]
  read_write {x} hgood := by
    have hf : f.read (f.write x.1 ++ g.write x.2) = some x.1 := by
      rw [← f.read_write hgood.1]
      refine f.read_congr fun k hk => ?_
      rw [lookups_append, g.lookups_write_of_not_mem (hnames k hk), append_nil]
    have hg : g.read (f.write x.1 ++ g.write x.2) = some x.2 := by
      rw [← g.read_write hgood.2]
      refine g.read_congr fun k hk => ?_
      rw [lookups_append, f.lookups_write_of_not_mem fun hkf => hnames k hkf hk, nil_append]
    rw [hf, hg]
    rfl
  good_of_read h := by
    obtain ⟨a, ha, h⟩ := Option.bind_eq_some_iff.mp h
    obtain ⟨b, hb, rfl⟩ := Option.map_eq_some_iff.mp h
    exact ⟨f.good_of_read ha, g.good_of_read hb⟩
  depth_le h hms m hm := by
    obtain ⟨a, ha, h⟩ := Option.bind_eq_some_iff.mp h
    obtain ⟨b, hb, rfl⟩ := Option.map_eq_some_iff.mp h
    exact (mem_append.mp hm).elim (f.depth_le ha hms m) (g.depth_le hb hms m)
  mapFloat_eq {ρ x} h := by
    obtain ⟨a, ha, h⟩ := Option.bind_eq_some_iff.mp h
    obtain ⟨b, hb, rfl⟩ := Option.map_eq_some_iff.mp h
    rw [map_append] at ha hb ⊢
    have hf : f.read ((f.write a).map (Prod.map id (Json.mapFloat ρ))) = some a := by
      rw [← ha]
      refine f.read_congr fun k hk => ?_
      rw [lookups_append, g.lookups_map_of_not_mem (hnames k hk), append_nil]
    have hg : g.read ((g.write b).map (Prod.map id (Json.mapFloat ρ))) = some b := by
      rw [← hb]
      refine g.read_congr fun k hk => ?_
      rw [lookups_append, f.lookups_map_of_not_mem fun hkf => hnames k hkf hk, nil_append]
    rw [f.mapFloat_eq hf, g.mapFloat_eq hg]
  readSeq_spec h := by
    obtain ⟨⟨a, ds⟩, ha, h⟩ := Option.bind_eq_some_iff.mp h
    obtain ⟨⟨b, rest⟩, hb, heq⟩ := Option.map_eq_some_iff.mp h
    cases heq
    obtain ⟨hga, hda⟩ := f.readSeq_spec ha
    obtain ⟨hgb, hdb⟩ := g.readSeq_spec hb
    refine ⟨⟨hga, hgb⟩, fun n hn => ?_⟩
    obtain ⟨hwa, hds⟩ := hda n hn
    obtain ⟨hwb, hrest⟩ := hdb n hds
    exact ⟨fun m hm => (mem_append.mp hm).elim (hwa m) (hwb m), hrest⟩

@[simp]
theorem names_both {f : Fields F α} {g : Fields F β} {hnames : ∀ k ∈ f.names, k ∉ g.names} :
    (f.both g hnames).names = f.names ++ g.names :=
  (rfl)

end Fields

namespace Codec

open List

/-! ## Records and tagged variants -/

/-- A record; other members are refused or ignored. -/
def object (f : Fields F α) (denyUnknown : Bool) : Codec F α where
  enc a := .object (f.write a)
  dec
    | .object ms =>
      if denyUnknown && ms.any (fun m => m.1 ∉ f.names) then none else f.read ms
    | .array ds =>
      match f.readSeq ds with
      | some (a, []) => some a
      | _ => none
    | .scalar _ => none
  Good := f.Good
  dec_enc {a} hgood := by
    have hknown : ((f.write a).any fun m => m.1 ∉ f.names) = false := by
      simpa using fun k d hm => f.keys_write hm
    dsimp only
    rw [hknown, Bool.and_false, if_neg Bool.false_ne_true, f.read_write hgood]
  good_of_dec h := by
    split at h
    · split at h
      · cases h
      · exact f.good_of_read h
    · split at h
      next hseq =>
        cases h
        exact (f.readSeq_spec hseq).1
      · cases h
    · cases h
  depth_le h := by
    split at h
    next ms =>
      split at h
      · cases h
      · obtain ⟨n, hn⟩ := Json.depth_object_pos ms
        rw [hn, Json.depth_object_le]
        exact f.depth_le h (Json.depth_object_le.mp hn.le)
    next ds =>
      split at h
      next hseq =>
        cases h
        obtain ⟨n, hn⟩ := Json.depth_array_pos ds
        rw [hn, Json.depth_object_le]
        exact ((f.readSeq_spec hseq).2 n (Json.depth_array_le.mp hn.le)).1
      · cases h
    · cases h
  null_of_dec _ h := nomatch h
  mapFloat_eq {ρ a} h := by
    rw [Json.mapFloat_object] at h ⊢
    dsimp only at h
    split at h
    · cases h
    · rw [f.mapFloat_eq h]

/-- What a new key adds. -/
theorem lookups_put {map : List (String × Json F)} (hk : ∀ m ∈ map, m.1 ≠ k) :
    lookups key (Json.put k v map) = if k = key then [v] else lookups key map := by
  induction map with
  | nil => exact lookups_cons
  | cons m rest ih =>
    rw [Json.put]
    split
    · rw [lookups_cons]
      split
      next h => rw [lookups_eq_nil (h ▸ hk)]
      next => rfl
    · rw [if_neg (hk m mem_cons_self).symm, lookups_cons,
        ih fun m hm => hk m (mem_cons_of_mem _ hm), lookups_cons]
      by_cases h : k = key
      · rw [if_pos h, if_neg (h ▸ hk m mem_cons_self)]
        exact if_pos h ▸ rfl
      · rw [if_neg h, if_neg h]

/-- The members of a map are those it was made from. -/
theorem lookups_putAll
    (hms : (ms.map Prod.fst).Nodup) : lookups key (Json.putAll ms) = lookups key ms := by
  have hkeeps : ∀ map : List (String × Json F), (∀ m ∈ map, m.1 ∉ ms.map Prod.fst) →
      lookups key (ms.foldl (fun map m => Json.put m.1 m.2 map) map) =
        lookups key map ++ lookups key ms := by
    induction ms with
    | nil => simp [lookups]
    | cons m rest ih =>
      intro map hmap
      obtain ⟨hm, hrest⟩ := nodup_cons.mp hms
      have hfree : ∀ x ∈ map, x.1 ≠ m.1 := fun x hx heq =>
        hmap x hx (heq ▸ mem_map_of_mem mem_cons_self)
      rw [foldl_cons, ih hrest, lookups_put hfree, lookups_cons]
      · by_cases h : m.1 = key
        · have hmap : lookups key map = [] := lookups_eq_nil (h ▸ hfree)
          rw [if_pos h, if_pos h, hmap]
          rfl
        · rw [if_neg h, if_neg h]
      · intro x hx
        rcases Json.mem_put hx with rfl | hx
        · exact hm
        · exact fun hmem => hmap x hx (mem_cons_of_mem _ hmem)
  exact hkeeps [] (by simp)

variable {ι : Type} {γ : ι → Type}

/-- Variants that are records with the name of the variant under a tag. -/
def tagged (tag : String) (label : ι → String) (parse : String → Option ι)
    (hparse : ∀ i, parse (label i) = some i) (fields : ∀ i, Fields F (γ i))
    (htag : ∀ i, tag ∉ (fields i).names) : Codec F (Σ i, γ i) where
  enc x := .object ((tag, .string (label x.1)) :: (fields x.1).write x.2)
  dec
    | .object ms =>
      match lookups tag ms with
      | [.string s] => (parse s).bind fun i =>
        ((object (fields i) true).dec (.object (ms.filter fun m => m.1 ≠ tag))).map (⟨i, ·⟩)
      | _ => none
    | .array (.string s :: ds) => (parse s).bind fun i =>
      ((object (fields i) true).dec (.array ds)).map (⟨i, ·⟩)
    | _ => none
  Good x := (fields x.1).Good x.2
  dec_enc {x} hgood := by
    obtain ⟨i, a⟩ := x
    have hrest : ((fields i).write a).filter (fun m => m.1 ≠ tag) = (fields i).write a := by
      refine filter_eq_self.mpr fun m hm => decide_eq_true fun heq => htag i ?_
      exact heq ▸ (fields i).keys_write hm
    have hlookups : lookups tag ((tag, Json.string (label i)) :: (fields i).write a) =
        [.string (label i)] := by
      rw [← singleton_append, lookups_append,
        (fields i).lookups_write_of_not_mem (htag i), append_nil]
      simp [lookups]
    dsimp only
    rw [hlookups, filter_cons_of_neg (by simp), hrest]
    dsimp only
    have hdec := (object (fields i) true).dec_enc hgood
    rw [hparse, Option.bind_some]
    exact congrArg (Option.map _) hdec
  good_of_dec h := by
    split at h
    · split at h
      · obtain ⟨i, -, h⟩ := Option.bind_eq_some_iff.mp h
        obtain ⟨a, ha, rfl⟩ := Option.map_eq_some_iff.mp h
        exact (object (fields i) true).good_of_dec ha
      · cases h
    · obtain ⟨i, -, h⟩ := Option.bind_eq_some_iff.mp h
      obtain ⟨a, ha, rfl⟩ := Option.map_eq_some_iff.mp h
      exact (object (fields i) true).good_of_dec ha
    · cases h
  depth_le h := by
    have htagged : ∀ {i : ι} {a : γ i} {n : Nat}, ((object (fields i) true).enc a).depth ≤ n →
        (∃ k, n = k + 1) →
          (Json.object ((tag, Json.string (label i)) :: (fields i).write a)).depth ≤ n := by
      rintro i a _ hn ⟨n, rfl⟩
      rw [Json.depth_object_le]
      intro m hm
      rcases mem_cons.mp hm with rfl | hm
      · exact Nat.zero_le n
      · exact Json.depth_object_le.mp hn m hm
    split at h
    next ms =>
      split at h
      · obtain ⟨i, -, h⟩ := Option.bind_eq_some_iff.mp h
        obtain ⟨a, ha, rfl⟩ := Option.map_eq_some_iff.mp h
        refine htagged (((object (fields i) true).depth_le ha).trans ?_) (Json.depth_object_pos _)
        obtain ⟨n, hn⟩ := Json.depth_object_pos ms
        rw [hn, Json.depth_object_le]
        exact fun m hm => Json.depth_object_le.mp hn.le m (mem_of_mem_filter hm)
      · cases h
    next s ds =>
      obtain ⟨i, -, h⟩ := Option.bind_eq_some_iff.mp h
      obtain ⟨a, ha, rfl⟩ := Option.map_eq_some_iff.mp h
      refine htagged (((object (fields i) true).depth_le ha).trans ?_) (Json.depth_array_pos _)
      obtain ⟨n, hn⟩ := Json.depth_array_pos (Json.string s :: ds)
      rw [hn, Json.depth_array_le]
      exact fun d hd => Json.depth_array_le.mp hn.le d (mem_cons_of_mem _ hd)
    · cases h
  null_of_dec _ h := nomatch h
  mapFloat_eq {ρ x} h := by
    obtain ⟨i, a⟩ := x
    rw [Json.mapFloat_object, map_cons] at h ⊢
    have hkeys : ((fields i).write a |>.map (Prod.map id (Json.mapFloat ρ))).filter
        (fun m => m.1 ≠ tag) = ((fields i).write a).map (Prod.map id (Json.mapFloat ρ)) := by
      refine filter_eq_self.mpr fun m hm => decide_eq_true fun heq => htag i ?_
      obtain ⟨m', hm', rfl⟩ := mem_map.mp hm
      rw [← heq]
      exact (fields i).keys_write (m := m') hm'
    rw [Prod.map_apply, id_eq, Json.mapFloat_scalar] at h ⊢
    dsimp only at h
    split at h
    · obtain ⟨i', -, h⟩ := Option.bind_eq_some_iff.mp h
      obtain ⟨a', ha', heq⟩ := Option.map_eq_some_iff.mp h
      cases heq
      rw [filter_cons_of_neg (by simp), hkeys, ← Json.mapFloat_object] at ha'
      have hfixed := (object (fields i) true).mapFloat_eq ha'
      rw [object, Json.mapFloat_object] at hfixed
      rw [Json.object.inj hfixed]
      rfl
    · cases h

end Codec

/-! ## Good values -/

namespace Codec

@[simp]
theorem good_string : (@string F).Good s := trivial

@[simp]
theorem enc_string : (@string F).enc s = .string s := rfl

@[simp]
theorem good_bool : (@bool F).Good b := trivial

@[simp]
theorem good_u64 : (@u64 F).Good n := trivial

@[simp]
theorem good_decimal : (@decimal F).Good n := trivial

/-- Any such integer is good, and not written as null. -/
@[simp]
theorem good_i64 : (@i64 F).Good n ∧ (@i64 F).enc n ≠ .null := ⟨trivial, nofun⟩

@[simp]
theorem good_value : value.Good v := trivial

@[simp]
theorem enc_value : value.enc v = v.val := rfl

@[simp]
theorem good_enum {hlabel : ∀ a, variants.find? (fun b => label b = label a) = some a} :
    (@enum F α label variants hlabel).Good a :=
  trivial

@[simp]
theorem good_list {c : Codec F α} : c.list.Good as ↔ ∀ a ∈ as, c.Good a := Iff.rfl

/-- A value that is written as null would be read as none. -/
theorem good_option {c : Codec F α} {a : Option α} :
    c.option.Good a ↔ ∀ x ∈ a, c.Good x ∧ c.enc x ≠ .null := by
  cases a with
  | none | some a => simp [option]

@[simp]
theorem good_object : (object f deny).Good a ↔ f.Good a := Iff.rfl

@[simp]
theorem enc_object : (object f deny).enc a = .object (f.write a) := rfl

variable {c : Codec F α}

@[simp]
theorem good_iso : (c.iso make parts hmake hparts).Good b ↔ c.Good (parts b) := Iff.rfl

@[simp]
theorem enc_iso : (c.iso make parts hmake hparts).enc b = c.enc (parts b) := rfl

end Codec

namespace Fields

@[simp]
theorem good_required : (required name c).Good a ↔ c.Good a := by
  simp [required, field]

/-- As for `option`. -/
@[simp]
theorem good_nullable : (nullable name c).Good a ↔ ∀ x ∈ a, c.Good x ∧ c.enc x ≠ .null := by
  rw [← Codec.good_option]
  simp [nullable, field]

@[simp]
theorem good_optional : (optional name c inSeq).Good a ↔ ∀ x ∈ a, c.Good x ∧ c.enc x ≠ .null := by
  cases a <;> simp [optional, field, Codec.option]

/-- Here null is a value of its own. -/
@[simp]
theorem good_presentOptional : (presentOptional name c).Good a ↔ ∀ x ∈ a, c.Good x := by
  cases a <;> simp [presentOptional, field, Codec.present]

/-- Both parts are good. -/
@[simp]
theorem good_both {f : Fields F α} {g : Fields F β} {hnames : ∀ k ∈ f.names, k ∉ g.names} :
    (f.both g hnames).Good x ↔ f.Good x.1 ∧ g.Good x.2 :=
  Iff.rfl

end Fields

/-! ## Reading from values -/

/-- What a good value was written as is read from its value too. -/
def Codec.Stable (c : Codec F α) : Prop :=
  ∀ a, c.Good a → c.dec (c.enc a).toValue = some a

/-- The members of a good value have different keys and are read from their values too. -/
def Fields.Stable (f : Fields F α) : Prop :=
  ∀ a, ((f.write a).map Prod.fst).Nodup ∧
    (f.Good a → f.read ((f.write a).map (Prod.map id Json.toValue)) = some a)

namespace Codec

open List

/-- A scalar is its own value. -/
theorem stable_ofScalar {enc : α → Scalar F} {dec : Scalar F → Option α}
    {hdec : ∀ a, dec (enc a) = some a} {hfloat : ∀ a x, enc a ≠ .float x}
    {hnull : ∀ a, enc a ≠ .null} : (ofScalar enc dec hdec hfloat hnull).Stable :=
  fun a _ => hdec a

theorem stable_enum {hlabel : ∀ a, variants.find? (fun b => label b = label a) = some a} :
    (@enum F α label variants hlabel).Stable :=
  fun a _ => hlabel a

/-- A value that is not null stays so. -/
theorem stable_option {c : Codec F α} (hc : c.Stable) : c.option.Stable := by
  intro a hgood
  cases a with
  | none => rfl
  | some a =>
    change (match (c.enc a).toValue with | .null => _ | _ => _) = _
    split
    next h => exact absurd (Json.toValue_eq_null h) hgood.2
    next => rw [hc a hgood.1, Option.map_some]

/-- The order of the members does not matter to the reader. -/
theorem stable_object (hf : f.Stable) : (object f deny).Stable := by
  intro a hgood
  obtain ⟨hnd, hread⟩ := hf a
  have hkeys : ((f.write a).map (Prod.map id Json.toValue)).map Prod.fst =
      (f.write a).map Prod.fst := by
    simp
  have hknown : (Json.putAll ((f.write a).map (Prod.map id Json.toValue))).any
      (fun m => m.1 ∉ f.names) = false := by
    refine any_eq_false.mpr fun m hm => ?_
    obtain ⟨m', hm', rfl⟩ := mem_map.mp (Json.mem_putAll hm)
    simpa using f.keys_write hm'
  rw [enc_object, Json.toValue_object]
  change (if _ then _ else _) = _
  rw [hknown, Bool.and_false, ← hread hgood]
  exact f.read_congr fun k _ => lookups_putAll (hkeys ▸ hnd)

theorem stable_iso {c : Codec F α}
    {hmake : ∀ b, make (parts b) = b} {hparts : ∀ a, parts (make a) = a} (hc : c.Stable) :
    (c.iso make parts hmake hparts).Stable := fun b hgood =>
  (congrArg (Option.map make) (hc (parts b) hgood)).trans (congrArg some (hmake b))

end Codec

namespace Fields

open List

/-- A skipped member is read as what is absent. -/
theorem stable_field {c : Codec F α}
    {habsent : ∀ a, absent = some a → skip a = true ∨ c.Good a ∧ (c.enc a).depth = 0}
    (hc : c.Stable) : (field name c skip absent inSeq hskip habsent).Stable := by
  intro a
  by_cases ha : skip a = true
  · simpa [field, ha, lookups] using hskip a ha
  · simpa [field, ha, lookups] using hc a

/-- Groups with different names are read independently. -/
theorem stable_both {f : Fields F α} {g : Fields F β} {hnames : ∀ k ∈ f.names, k ∉ g.names}
    (hf : f.Stable) (hg : g.Stable) : (f.both g hnames).Stable := by
  intro x
  constructor
  · change ((f.write x.1 ++ g.write x.2).map Prod.fst).Nodup
    rw [map_append]
    refine nodup_append.mpr ⟨(hf x.1).1, (hg x.2).1, ?_⟩
    intro k hk k' hk' heq
    obtain ⟨m, hm, rfl⟩ := mem_map.mp hk
    obtain ⟨m', hm', rfl⟩ := mem_map.mp hk'
    exact hnames _ (f.keys_write hm) (heq ▸ g.keys_write hm')
  · intro hgood
    have hreadf : f.read ((f.write x.1 ++ g.write x.2).map (Prod.map id Json.toValue)) =
        some x.1 := by
      rw [← (hf x.1).2 hgood.1, map_append]
      refine f.read_congr fun k hk => ?_
      rw [lookups_append, g.lookups_map_of_not_mem (hnames k hk), append_nil]
    have hreadg : g.read ((f.write x.1 ++ g.write x.2).map (Prod.map id Json.toValue)) =
        some x.2 := by
      rw [← (hg x.2).2 hgood.2, map_append]
      refine g.read_congr fun k hk => ?_
      rw [lookups_append, f.lookups_map_of_not_mem fun hkf => hnames k hkf hk, nil_append]
    change ((f.read ((f.write x.1 ++ g.write x.2).map _)).bind fun a =>
      (g.read ((f.write x.1 ++ g.write x.2).map _)).map (a, ·)) = _
    rw [hreadf, hreadg]
    rfl

end Fields

/-! ## Texts -/

/-- The library that writes documents as texts without white space and reads a type from a text.  It
reads what it wrote, up to the precision of floats, unless that lies more than 127 deep. -/
structure JsonText (F Text : Type) where
  floatSize : F → Nat
  reread : F → F
  length : Text → Nat
  write : Json F → Text
  fromSlice : {α : Type} → Codec F α → Text → Option α
  length_write : ∀ d, length (write d) = d.size floatSize
  fromSlice_write : ∀ {α : Type} (c : Codec F α) (a : α), fromSlice c (write (c.enc a)) =
    if (c.enc a).depth ≤ 127 then c.dec ((c.enc a).mapFloat reread) else none
  fromSlice_value_write : ∀ d : Json F, fromSlice .value (write d) =
    if d.depth ≤ 127 then Codec.value.dec (d.mapFloat reread) else none
  fromSlice_eq_some : ∀ {α : Type} {c : Codec F α} {text : Text} {a : α},
    fromSlice c text = some a → ∃ d : Json F, d.depth ≤ 127 ∧ c.dec d = some a

/-- Documents as their own texts, with floats that are read exactly. -/
def JsonText.documents : JsonText F (Json F) where
  floatSize _ := 3
  reread := id
  length := Json.size fun _ => 3
  write := id
  fromSlice c d := if d.depth ≤ 127 then c.dec d else none
  length_write _ := rfl
  fromSlice_write c a := by rw [id_eq, Json.mapFloat_id]
  fromSlice_value_write d := by rw [id_eq, Json.mapFloat_id]
  fromSlice_eq_some {_ c d a} h := by
    split at h
    next hdepth => exact ⟨d, hdepth, h⟩
    next => cases h
