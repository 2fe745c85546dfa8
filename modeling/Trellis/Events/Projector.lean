/-
# The dead-letter projector

Deliveries of one journal to its projection, in any order and any number of times;
an application may fail and be retried later.  The checkpoint is the largest
sequence applied, and a delivery at or below it is answered from the transitions
already projected.

As long as no delivery overtakes one that is still to be applied, the projection
is the fold of the journal up to the checkpoint.  A delivery that does overtake
moves the checkpoint past what it has overtaken
(`projection_complete_of_inOrder`).
-/
import Mathlib.Data.Nat.Basic
import Mathlib.Order.Basic
import Trellis.Events.DeadLetters
import Trellis.Lib.Run

namespace DeadLetters

open List Checked Nat

variable {deadLetterId : String → String → Nat → String} {journal : Journal} {store : Store}
  {sequence : Nat}

/-! ## Journals up to a sequence -/

/-- The journal up to a sequence. -/
def Journal.upTo (sequence : Nat) : Journal → Journal
  | [] => []
  | t :: older => if older.length + 1 ≤ sequence then t :: older else Journal.upTo sequence older

theorem length_upTo_of_le (h : sequence ≤ journal.length) :
    (journal.upTo sequence).length = sequence := by
  induction journal with
  | nil => exact (le_zero.mp h).symm
  | cons t older ih =>
    by_cases hle : older.length + 1 ≤ sequence
    · rw [Journal.upTo, if_pos hle]
      exact le_antisymm hle h
    · rw [Journal.upTo, if_neg hle]
      exact ih (by omega)

theorem upTo_length : journal.upTo journal.length = journal := by
  cases journal with
  | nil => rfl
  | cons t older => exact if_pos le_rfl

theorem upTo_zero : journal.upTo 0 = [] := by
  induction journal with
  | nil => rfl
  | cons t older ih => rw [Journal.upTo, if_neg (not_succ_le_zero _), ih]

theorem message_le
    (h : journal.message sequence = some t) : 0 < sequence ∧ sequence ≤ journal.length := by
  induction journal with
  | nil => cases h
  | cons t' older ih =>
    by_cases hseq : sequence = older.length + 1
    · subst hseq
      exact ⟨succ_pos _, le_rfl⟩
    · rw [Journal.message, if_neg hseq] at h
      exact ⟨(ih h).1, (ih h).2.trans (le_succ _)⟩

theorem exists_message (hpos : 0 < sequence) (hle : sequence ≤ journal.length) :
    ∃ t, journal.message sequence = some t := by
  induction journal with
  | nil => exact absurd hpos (not_lt.mpr hle)
  | cons t older ih =>
    by_cases hseq : sequence = older.length + 1
    · exact ⟨t, if_pos hseq⟩
    rw [Journal.message, if_neg hseq]
    apply ih
    simp only [length_cons] at hle
    omega

theorem message_upTo (h : sequence ≤ n) :
    (journal.upTo n).message sequence = journal.message sequence := by
  induction journal with
  | nil => rfl
  | cons t older ih =>
    by_cases hle : older.length + 1 ≤ n
    · rw [Journal.upTo, if_pos hle]
    · rw [Journal.upTo, if_neg hle, Journal.message, if_neg (by omega)]
      exact ih

/-- The journal grows by one message at a time. -/
theorem upTo_message (h : journal.message (sequence + 1) = some t) :
    journal.upTo (sequence + 1) = t :: journal.upTo sequence := by
  induction journal with
  | nil => cases h
  | cons t' older ih =>
    by_cases hseq : sequence + 1 = older.length + 1
    · rw [Journal.message, if_pos hseq] at h
      obtain rfl : sequence = older.length := succ.inj hseq
      rw [Journal.upTo, if_pos le_rfl, Journal.upTo, if_neg (not_succ_le_self _), upTo_length,
        Option.some.inj h]
    · rw [Journal.message, if_neg hseq] at h
      have hle := (message_le h).2
      rw [Journal.upTo, if_neg (by omega), Journal.upTo, if_neg (by omega)]
      exact ih h

/-! ## What is projected -/

/-- The row of a transition. -/
def transitionRow (t : DeadLetterTransition) (sequence : Nat) : TransitionRow :=
  ⟨sequence, t.id, t.revision, t.state⟩

/-- A projection whose sequences are those of a journal. -/
structure Covers (journal : Journal) (store : Store) : Prop where
  checkpoint : store.checkpoint = journal.length
  letters : ∀ id row, store.letters id = some row → row.lastJournalSequence ≤ journal.length
  transitions : ∀ row, row ∈ store.transitions ↔
    ∃ sequence t, journal.message sequence = some t ∧ row = transitionRow t sequence

theorem covers_empty : Covers [] .empty := by
  constructor <;> simp [Store.empty, Journal.message]

theorem write_eq_ok (h : store.write t sequence row = .ok store') :
    (∀ id, store'.letters id = if id = t.id then some row else store.letters id) ∧
      store'.transitions = transitionRow t sequence :: store.transitions ∧
      store'.checkpoint = max store.checkpoint sequence := by
  obtain ⟨commands, -, h⟩ := bind_eq_ok.mp h
  obtain ⟨-, h⟩ := guard_eq_ok.mp h
  cases h
  exact ⟨fun _ => rfl, rfl, rfl⟩

/-- Applying a sequence beyond the checkpoint writes it. -/
theorem project_eq_ok_of_gt (h : projectDeadLetter deadLetterId t sequence store = .ok store')
    (hgt : store.checkpoint < sequence)
    (hletters : ∀ id row, store.letters id = some row → row.lastJournalSequence < sequence) :
    ∃ row, row.lastJournalSequence = sequence ∧ store.write t sequence row = .ok store' := by
  unfold projectDeadLetter at h
  rw [if_neg (not_le.mpr hgt)] at h
  split at h
  next row hrow =>
    rw [if_neg (Nat.ne_of_lt (hletters _ row hrow))] at h
    split at h
    · exact ⟨_, rfl, h⟩
    · cases h
  · obtain ⟨-, h⟩ := guard_eq_ok.mp h
    split at h
    · cases h
    · obtain ⟨-, h⟩ := guard_eq_ok.mp h
      exact ⟨_, rfl, h⟩

theorem covers_of_projectAll (h : projectAll deadLetterId journal = .ok store) :
    Covers journal store := by
  induction journal generalizing store with
  | nil =>
    cases h
    exact covers_empty
  | cons t older ih =>
    obtain ⟨prev, hprev, h⟩ := bind_eq_ok.mp h
    have hcovers := ih hprev
    have hletters : ∀ id row, prev.letters id = some row →
        row.lastJournalSequence < older.length + 1 :=
      fun id row hrow => lt_succ_of_le (hcovers.letters id row hrow)
    obtain ⟨row, hlast, hwrite⟩ :=
      project_eq_ok_of_gt h (by rw [hcovers.checkpoint]; omega) hletters
    obtain ⟨hl, ht, hc⟩ := write_eq_ok hwrite
    constructor
    case checkpoint =>
      rw [hc, hcovers.checkpoint]
      exact max_eq_right (le_succ _)
    case letters =>
      intro id row' hrow'
      rw [hl] at hrow'
      split at hrow'
      · cases hrow'
        exact hlast.le
      · exact (hcovers.letters id row' hrow').trans (le_succ _)
    case transitions =>
      intro row'
      rw [ht, mem_cons, hcovers.transitions]
      constructor
      · rintro (rfl | ⟨sequence, t', hmsg, rfl⟩)
        · exact ⟨_, t, if_pos rfl, rfl⟩
        · refine ⟨sequence, t', ?_, rfl⟩
          have hle := (message_le hmsg).2
          rw [Journal.message, if_neg (by omega)]
          exact hmsg
      · rintro ⟨sequence, t', hmsg, rfl⟩
        rw [Journal.message] at hmsg
        split at hmsg
        next hseq =>
          cases hmsg
          exact .inl (hseq ▸ rfl)
        · exact .inr ⟨sequence, t', hmsg, rfl⟩

/-! ## Deliveries -/

/-- A delivery to the projection, or a reset.  When `inOrder` holds, everything before it is
projected. -/
inductive Deliver (deadLetterId : String → String → Nat → String) (journal : Journal)
    (inOrder : Prop) : Store → Store → Prop
  /-- The message is applied, or found to be applied, and acknowledged. -/
  | applied {store store' : Store} (sequence : Nat) (t : DeadLetterTransition)
      (hmessage : journal.message sequence = some t)
      (hproject : projectDeadLetter deadLetterId t sequence store = .ok store')
      (horder : inOrder → sequence ≤ store.checkpoint + 1) :
      Deliver deadLetterId journal inOrder store store'
  /-- The message is refused, and will be delivered again. -/
  | refused {store : Store} (sequence : Nat) (t : DeadLetterTransition) (error : EventsStoreError)
      (hmessage : journal.message sequence = some t)
      (hproject : projectDeadLetter deadLetterId t sequence store = .error error) :
      Deliver deadLetterId journal inOrder store store
  /-- Applying the message fails for another reason, and it will be delivered again. -/
  | failed {store : Store} (sequence : Nat) (t : DeadLetterTransition)
      (hmessage : journal.message sequence = some t) :
      Deliver deadLetterId journal inOrder store store
  /-- The projection is cleared to be rebuilt. -/
  | reset {store : Store} : Deliver deadLetterId journal inOrder store .empty

variable (deadLetterId) (journal)

/-- The projections that deliveries reach. -/
def Projected (inOrder : Prop) (store : Store) : Prop :=
  ReflTransGen (Deliver deadLetterId journal inOrder) .empty store

/-- A sequence of the journal is in the projection. -/
def Applied (store : Store) (sequence : Nat) : Prop :=
  ∀ t, journal.message sequence = some t → transitionRow t sequence ∈ store.transitions

/-- Everything up to the checkpoint is applied; with everything applied it is the whole journal's.
-/
structure Complete (store : Store) : Prop where
  applied : ∀ sequence ≤ store.checkpoint, Applied journal store sequence
  whole : (∀ sequence, Applied journal store sequence) → projectAll deadLetterId journal = .ok store

/-- The projection is the one of the journal up to some sequence. -/
def UpTo (store : Store) : Prop :=
  ∃ n ≤ journal.length, projectAll deadLetterId (journal.upTo n) = .ok store

variable {deadLetterId journal}

theorem upTo_deliver (h : UpTo deadLetterId journal store)
    (hstep : Deliver deadLetterId journal True store store') :
    UpTo deadLetterId journal store' := by
  obtain ⟨n, hn, hstore⟩ := h
  have hcheck : store.checkpoint = n := by
    rw [(covers_of_projectAll hstore).checkpoint, length_upTo_of_le hn]
  cases hstep with
  | applied sequence t hmsg hproj horder =>
    have horder := horder trivial
    by_cases hle : sequence ≤ store.checkpoint
    · -- a sequence at or below the checkpoint changes nothing
      unfold projectDeadLetter at hproj
      rw [if_pos hle] at hproj
      split at hproj
      · split at hproj
        · cases hproj
          exact ⟨n, hn, hstore⟩
        · cases hproj
      · cases hproj
    -- the delivery is the one right after the checkpoint
    obtain rfl : sequence = n + 1 := by omega
    refine ⟨n + 1, (message_le hmsg).2, ?_⟩
    rw [upTo_message hmsg]
    refine bind_eq_ok.mpr ⟨store, hstore, ?_⟩
    rw [length_upTo_of_le hn]
    exact hproj
  | refused sequence t error hmsg hproj | failed sequence t hmsg => exact ⟨n, hn, hstore⟩
  | reset => exact ⟨0, zero_le _, by rw [upTo_zero]; rfl⟩

theorem upTo_of_projected (hrun : Projected deadLetterId journal True store) :
    UpTo deadLetterId journal store := by
  refine Run.keeps ?_ hrun ⟨0, zero_le _, by rw [upTo_zero]; rfl⟩
  intro _ _ hstep h
  exact upTo_deliver h hstep

/-- What is projected of a journal up to a sequence. -/
theorem mem_transitions_iff (hn : n ≤ journal.length)
    (hstore : projectAll deadLetterId (journal.upTo n) = .ok store)
    (hmsg : journal.message sequence = some t) :
    transitionRow t sequence ∈ store.transitions ↔ sequence ≤ n := by
  rw [(covers_of_projectAll hstore).transitions]
  constructor
  · rintro ⟨sequence', t', hmsg', hrow⟩
    obtain rfl : sequence = sequence' := congrArg TransitionRow.journalSequence hrow
    have := (message_le hmsg').2
    rwa [length_upTo_of_le hn] at this
  · intro hle
    exact ⟨sequence, t, (message_upTo hle).trans hmsg, rfl⟩

theorem UpTo.complete (h : UpTo deadLetterId journal store) :
    Complete deadLetterId journal store := by
  obtain ⟨n, hn, hstore⟩ := h
  have hcheck : store.checkpoint = n := by
    rw [(covers_of_projectAll hstore).checkpoint, length_upTo_of_le hn]
  constructor
  case applied =>
    intro sequence hle t hmsg
    exact (mem_transitions_iff hn hstore hmsg).mpr (hcheck ▸ hle)
  case whole =>
    intro hall
    by_cases hlt : n < journal.length
    · obtain ⟨t, hmsg⟩ := exists_message (succ_pos n) hlt
      have := (mem_transitions_iff hn hstore hmsg).mp (hall _ t hmsg)
      omega
    · rw [le_antisymm hn (not_lt.mp hlt), upTo_length] at hstore
      exact hstore

/-- A message that overtakes another one is applied over it. -/
theorem not_complete_of_overtaking (h : UpTo deadLetterId journal store)
    (hmsg : journal.message sequence = some t)
    (hproj : projectDeadLetter deadLetterId t sequence store = .ok store')
    (hover : store.checkpoint + 1 < sequence) : ¬ Complete deadLetterId journal store' := by
  obtain ⟨n, hn, hstore⟩ := h
  have hcovers := covers_of_projectAll hstore
  have hcheck : store.checkpoint = n := by rw [hcovers.checkpoint, length_upTo_of_le hn]
  have hletters : ∀ id row, store.letters id = some row → row.lastJournalSequence < sequence := by
    intro id row hrow
    have := hcovers.letters id row hrow
    rw [length_upTo_of_le hn] at this
    omega
  obtain ⟨row, -, hwrite⟩ := project_eq_ok_of_gt hproj (by omega) hletters
  obtain ⟨-, htransitions, hmax⟩ := write_eq_ok hwrite
  intro hcompl
  have hle := (message_le hmsg).2
  obtain ⟨skipped, hskipped⟩ : ∃ t, journal.message (n + 1) = some t :=
    exists_message (succ_pos n) (by omega)
  have happ := hcompl.applied (n + 1) (by rw [hmax]; omega) skipped hskipped
  rw [htransitions, mem_cons] at happ
  rcases happ with heq | hmem
  · have : n + 1 = sequence := congrArg TransitionRow.journalSequence heq
    omega
  · have := (mem_transitions_iff hn hstore hskipped).mp hmem
    omega

/-- **In order, the projection is complete up to its checkpoint**, and the first message applied out
of order makes it incomplete. -/
theorem projection_complete_of_inOrder (deadLetterId : String → String → Nat → String)
    (journal : Journal) :
    (∀ store, Projected deadLetterId journal True store → Complete deadLetterId journal store) ∧
    ∀ store store', Projected deadLetterId journal True store →
      Deliver deadLetterId journal False store store' →
      ¬ Deliver deadLetterId journal True store store' →
        ¬ Complete deadLetterId journal store' := by
  refine ⟨fun store hrun => (upTo_of_projected hrun).complete, ?_⟩
  intro store store' hrun hstep hnot
  cases hstep with
  | applied sequence t hmessage hproject _ =>
    apply not_complete_of_overtaking (upTo_of_projected hrun) hmessage hproject
    by_contra hle
    exact hnot (.applied sequence t hmessage hproject fun _ => not_lt.mp hle)
  | refused sequence t error hmessage hproject =>
    exact absurd (.refused sequence t error hmessage hproject) hnot
  | failed sequence t hmessage => exact absurd (.failed sequence t hmessage) hnot
  | reset => exact absurd .reset hnot

/-- The first records of two letters. -/
def sampleJournal : Journal :=
  [firstRecord "second" "consumer" ⟨"second", 1, "", none, "", [], [], none, none, none, ""⟩ 5 none,
    firstRecord "first" "consumer" ⟨"first", 1, "", none, "", [], [], none, none, none, ""⟩ 5 none]

/-- The first record fails once and is applied, then the second one. -/
theorem sample_in_order : ∃ store, Projected (fun _ stream _ => stream) sampleJournal True store ∧
      store.checkpoint = 2 ∧ Complete (fun _ stream _ => stream) sampleJournal store := by
  have h₁ : Projected (fun _ stream _ => stream) sampleJournal True _ := .single (.failed 1 _ rfl)
  have h₂ := h₁.tail (.applied 1 _ rfl rfl fun _ => le_rfl)
  have h₃ := h₂.tail (.applied 2 _ rfl rfl fun _ => le_rfl)
  exact ⟨_, h₃, rfl, (projection_complete_of_inOrder _ _).1 _ h₃⟩

/-- The first record fails once, the second is applied, and then the first is refused for good. -/
theorem sample_overtaken : ∃ store, Projected (fun _ stream _ => stream) sampleJournal False store ∧
      store.checkpoint = 2 ∧ ¬ Complete (fun _ stream _ => stream) sampleJournal store ∧
      ∀ t, sampleJournal.message 1 = some t → ∃ details,
        projectDeadLetter (fun _ stream _ => stream) t 1 store
          = .error (.contradictoryDeadLetter "first" details) := by
  have h₁ : Projected (fun _ stream _ => stream) sampleJournal False _ := .single (.failed 1 _ rfl)
  have h₂ := h₁.tail (.applied 2 _ rfl rfl False.elim)
  refine ⟨_, h₂, rfl, ?_, ?_⟩
  · intro hcomplete
    exact absurd (hcomplete.applied 1 (by decide) _ rfl) (by decide)
  · rintro t ⟨⟩
    exact ⟨_, rfl⟩

end DeadLetters
