/-
# Timestamps of the protocol

A timestamp is kept as the canonical UTC text of its instant, and is compared as that text.  The
text tells instants apart; its order goes wrong just where one text ends within the other
(`timestamp_order_iff`).
-/
import Trellis.Lib.Timestamp

open Timestamp (Instant rfc3339 EndsWithin rfc3339_le_iff rfc3339_eq_iff)

namespace Protocol

inductive TimestampError where
  | parse | format | precision | separator | leapSecond | range
  deriving DecidableEq

/-- The instant a text denotes, or a number of seconds, in UTC and in a year of four digits. -/
structure TimeLibrary where
  read : String → Except TimestampError Instant
  ofUnixSeconds : Int → Except TimestampError Instant

/-- The canonical text. -/
structure Timestamp where
  text : String
  deriving DecidableEq

instance : LT Timestamp := ⟨fun a b => a.text < b.text⟩

variable (time : TimeLibrary)

def Timestamp.parse (value : String) : Except TimestampError Timestamp := do
  let bytes := value.toByteArray.data.toList.map UInt8.toNat
  let digit := fun byte => 48 ≤ byte ∧ byte ≤ 57
  if bytes[10]? ≠ some 84 ∧ bytes[10]? ≠ some 116 then .error .separator
  if (bytes.drop 17).take 2 = [54, 48] then .error .leapSecond
  if bytes[19]? = some 46 ∧ ((bytes.drop 20).takeWhile digit).length > 9 then .error .precision
  return ⟨rfc3339 (← time.read value)⟩

def Timestamp.fromUnixSeconds (seconds : Int) : Except TimestampError Timestamp := do
  return ⟨rfc3339 (← time.ofUnixSeconds seconds)⟩

/-- A timestamp that was accepted, and the instant it denotes. -/
inductive Accepted : Timestamp → Instant → Prop
  | parse {value t i} (h : Timestamp.parse time value = .ok t) (hread : time.read value = .ok i) :
      Accepted t i
  | fromUnixSeconds {seconds t i} (h : Timestamp.fromUnixSeconds time seconds = .ok t)
      (hread : time.ofUnixSeconds seconds = .ok i) : Accepted t i

variable {time} {a b : Timestamp}

theorem Accepted.text_eq (h : Accepted time a i) : a.text = rfc3339 i := by
  cases h with
  | parse h hread =>
    unfold Timestamp.parse at h
    rw [hread] at h
    simp only [bind, Except.bind] at h
    split_ifs at h
    cases h
    rfl
  | fromUnixSeconds h hread =>
    unfold Timestamp.fromUnixSeconds at h
    rw [hread] at h
    cases h
    rfl

/-- **The derived order** agrees with time just when neither text ends within the other. -/
theorem timestamp_order_iff (ha : Accepted time a i) (hb : Accepted time b j) :
    ((a < b ↔ i.nanoseconds < j.nanoseconds) ∧ (a = b ↔ i.nanoseconds = j.nanoseconds)) ↔
      ¬ EndsWithin i j ∧ ¬ EndsWithin j i := by
  have hlt : a < b ↔ ¬ rfc3339 j ≤ rfc3339 i := by
    rw [not_le, ← ha.text_eq, ← hb.text_eq]
    rfl
  have heq : a = b ↔ i.nanoseconds = j.nanoseconds := by
    rw [← rfc3339_eq_iff, ← ha.text_eq, ← hb.text_eq]
    exact ⟨congrArg Timestamp.text, fun h => by cases a; cases b; exact congrArg _ h⟩
  rw [and_iff_left heq, hlt, ← not_le, not_iff_not, rfc3339_le_iff, and_comm]

/-- Some seconds past midnight, and a fraction. -/
def past (second nanosecond : Nat) (second_lt : second < 60 := by decide)
    (nanosecond_lt : nanosecond < 1000000000 := by decide) : Instant where
  year := 2026
  month := 10
  day := 1
  hour := 0
  minute := 0
  second := second
  nanosecond := nanosecond
  second_lt := second_lt
  nanosecond_lt := nanosecond_lt

def whole : Instant := past 5 0

def half : Instant := past 5 500000000

def later : Instant := past 6 0

theorem whole_lt_half : whole.nanoseconds < half.nanoseconds := by
  refine (Instant.nanoseconds_lt_iff whole half).mpr (.inr ⟨?_, by decide⟩)
  simp only [Instant.seconds, Instant.days, Instant.dayOfYear, whole, half, past]

theorem whole_lt_later : whole.seconds < later.seconds := by
  simp only [Instant.seconds, Instant.days, Instant.dayOfYear, whole, later, past]
  omega

/-- A library that reads the three. -/
def halves : TimeLibrary where
  read value := .ok (if value = "2026-10-01T00:00:05Z" then whole
    else if value = "2026-10-01T00:00:06Z" then later else half)
  ofUnixSeconds _ := .ok whole

/-- Whole seconds follow each other as texts as they do in time. -/
theorem timestamp_order_whole :
    let a : Timestamp := ⟨"2026-10-01T00:00:05Z"⟩
    let b : Timestamp := ⟨"2026-10-01T00:00:06Z"⟩
    Timestamp.parse halves a.text = .ok a ∧ Timestamp.parse halves b.text = .ok b ∧ a < b := by
  intro a b
  have ha : Timestamp.parse halves a.text = .ok a := by decide
  have hb : Timestamp.parse halves b.text = .ok b := by decide
  have horder := (timestamp_order_iff (.parse ha rfl) (.parse hb rfl)).mpr
    ⟨fun h => whole_lt_later.ne h.1, fun h => whole_lt_later.ne' h.1⟩
  exact ⟨ha, hb, horder.1.mpr ((Instant.nanoseconds_lt_iff _ _).mpr (.inl whole_lt_later))⟩

/-- Half a second later is before the whole second. -/
theorem half_second_before :
    let a : Timestamp := ⟨"2026-10-01T00:00:05Z"⟩
    let b : Timestamp := ⟨"2026-10-01T00:00:05.5Z"⟩
    Accepted halves a whole ∧ Accepted halves b half ∧ whole.nanoseconds < half.nanoseconds ∧
      b < a := by
  refine ⟨@Accepted.parse halves "2026-10-01T00:00:05Z" _ _ (by decide) rfl,
    @Accepted.parse halves "2026-10-01T00:00:05.5Z" _ _ (by decide) rfl, whole_lt_half, ?_⟩
  show "2026-10-01T00:00:05.5Z" < "2026-10-01T00:00:05Z"
  decide

end Protocol
