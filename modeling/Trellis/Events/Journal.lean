/-
# The dead-letter journal is projectable

Nodes append by compare and append: what an operation plans from one reading of the journal is
stored only if the letter's subject has not moved, and so follows what it has read.  What is left
to show is that each operation plans a transition the projection accepts.

Three plans do not (`journal_projectable_of_clean`): a first record without a resource, a
correction of an entry that is no longer a plain exhaustion, and a command whose request id was
stored after the operation looked for it.
-/
import Mathlib.Data.Nat.Basic
import Mathlib.Order.Basic
import Trellis.Events.DeadLetters
import Trellis.Lib.Run

namespace DeadLetters

open List Checked

variable {deadLetterId : String → String → Nat → String} {journal : Journal}
  {t : DeadLetterTransition} {id : String}

/-! ## Legal journals -/

/-- A transition that the projection accepts as the first one of its letter. -/
def First (deadLetterId : String → String → Nat → String) (t : DeadLetterTransition) : Prop :=
  t.revision = 1 ∧ t.previousSubjectSequence = 0 ∧
    ∃ event, t.original = some event ∧ t.resourceId ≠ "" ∧ t.generation = 0 ∧ t.state = .dead ∧
      t.cause = .exhausted ∧ t.requestId = none ∧ t.requestDigest = none ∧
      t.id = deadLetterId t.resourceId event.stream event.sequence

/-- A transition that the projection accepts after the latest one of its letter. -/
structure Next (latest : DeadLetterTransition × Nat) (t : DeadLetterTransition) : Prop where
  resourceId : latest.1.resourceId = t.resourceId
  revision : t.revision = latest.1.revision + 1
  generation : latest.1.generation ≤ t.generation
  sequence : t.previousSubjectSequence = latest.2
  record : t.originalRecordSequence = latest.1.originalRecordSequence
  original : t.original = none
  legal : legalDeadLetterSuccessor latest.1.state latest.1.generation t = true

variable (deadLetterId) (journal) (t)

/-- A transition that may be stored over a journal. -/
def Follows : Prop :=
  match journal.latest t.id with
  | none => First deadLetterId t
  | some latest => Next latest t

/-- No transition of the letter carries the request id of this one. -/
def Unlabelled : Prop :=
  ∀ r, t.requestId = some r → ∀ t' ∈ journal, t'.id = t.id → t'.requestId ≠ some r

/-- A transition carries a request id and its digest together. -/
def Paired : Prop := t.requestId.isSome = t.requestDigest.isSome

variable {deadLetterId journal t}

/-- Every transition follows the journal below it. -/
def Legal (deadLetterId : String → String → Nat → String) : Journal → Prop
  | [] => True
  | t :: older => Legal deadLetterId older ∧ Follows deadLetterId older t ∧ Unlabelled older t ∧
      Paired t

/-- The journal projects in its order, its transitions are legal, and a request id labels one. -/
structure Projectable (deadLetterId : String → String → Nat → String) (journal : Journal) :
    Prop where
  projected : ∃ store, projectAll deadLetterId journal = .ok store
  successors : ∀ (newer : Journal) t (older : Journal), journal = newer ++ t :: older →
    ∀ p s, older.latest t.id = some (p, s) → legalDeadLetterSuccessor p.state p.generation t = true
  labels : journal.Pairwise fun t t' => t'.id = t.id → ∀ r, t.requestId = some r →
    t'.requestId ≠ some r

/-! ### The latest transition -/

theorem latest_cons_self :
    Journal.latest t.id (t :: older) = some (if t.revision = 1 ∧ t.originalRecordSequence = 0 then
        { t with originalRecordSequence := older.length + 1 } else t, older.length + 1) := by
  simp [Journal.latest]

theorem latest_cons_of_ne (h : t.id ≠ id) :
    Journal.latest id (t :: older) = Journal.latest id older := by
  simp [Journal.latest, h]

/-- What the latest transition of a letter keeps of the record it was read from. -/
theorem latest_spec (h : journal.latest id = some (p, s)) : p.id = id ∧ 0 < s ∧ s ≤ journal.length ∧
      ∃ t ∈ journal, t.id = id ∧ p.requestId = t.requestId ∧ p.requestDigest = t.requestDigest ∧
        p.cause = t.cause := by
  induction journal with
  | nil => cases h
  | cons t older ih =>
    by_cases hid : t.id = id
    · subst hid
      rw [latest_cons_self] at h
      cases h
      refine ⟨?_, Nat.succ_pos _, le_rfl, t, mem_cons_self, rfl, ?_⟩
      · split <;> rfl
      · split <;> exact ⟨rfl, rfl, rfl⟩
    · rw [latest_cons_of_ne hid] at h
      obtain ⟨hp, hpos, hle, t', ht', hrest⟩ := ih h
      exact ⟨hp, hpos, hle.trans (Nat.le_succ _), t', mem_cons_of_mem _ ht', hrest⟩

theorem subjectSequence_of_latest
    (h : journal.latest id = some latest) : journal.subjectSequence id = latest.2 := by
  simp [Journal.subjectSequence, h]

/-! ## A legal journal projects -/

/-- The row of a letter shows its latest transition. -/
structure Shows (latest : DeadLetterTransition × Nat) (row : LetterRow) : Prop where
  resourceId : row.resourceId = latest.1.resourceId
  revision : row.revision = latest.1.revision
  generation : row.generation = latest.1.generation
  state : row.state = latest.1.state
  record : row.originalRecordSequence = latest.1.originalRecordSequence
  sequence : row.lastJournalSequence = latest.2

/-- A store that holds the projection of a journal. -/
structure Projects (journal : Journal) (store : Store) : Prop where
  checkpoint : store.checkpoint = journal.length
  absent : ∀ id, journal.latest id = none → store.letters id = none
  present : ∀ id latest, journal.latest id = some latest →
    latest.1.originalRecordSequence ≠ 0 ∧ ∃ row, store.letters id = some row ∧ Shows latest row
  transitions : ∀ row ∈ store.transitions, row.journalSequence ≤ journal.length
  commands : ∀ c ∈ store.commands, ∃ t ∈ journal, t.id = c.deadLetterId ∧
    t.requestId = some c.requestId

theorem projects_empty : Projects [] .empty := by
  constructor <;> simp [Store.empty, Journal.latest]

theorem follows_iff (h : Shows latest row) : follows row t = true ↔ Next latest t := by
  simp only [follows, h.resourceId, h.revision, h.generation, h.state, h.record, h.sequence,
    Bool.not_eq_true', Bool.or_eq_false_iff, bne_eq_false_iff_eq, decide_eq_false_iff_not, not_lt,
    Option.isSome_eq_false_iff, Option.isNone_iff_eq_none, Bool.not_eq_false']
  constructor
  · rintro ⟨⟨⟨⟨⟨⟨h₁, h₂⟩, h₃⟩, h₄⟩, h₅⟩, h₆⟩, h₇⟩
    exact ⟨h₁, h₂, h₃, h₄, h₅, h₆, h₇⟩
  · rintro ⟨h₁, h₂, h₃, h₄, h₅, h₆, h₇⟩
    exact ⟨⟨⟨⟨⟨⟨h₁, h₂⟩, h₃⟩, h₄⟩, h₅⟩, h₆⟩, h₇⟩

/-- The command of a transition whose request id is new to its letter. -/
theorem Projects.addCommand (h : Projects journal store)
    (hlabel : Unlabelled journal t) (sequence : Nat) :
    ∃ commands, store.addCommand t sequence = .ok commands ∧
      ∀ c ∈ commands, ∃ t' ∈ t :: journal, t'.id = c.deadLetterId ∧
        t'.requestId = some c.requestId := by
  have hold : ∀ c ∈ store.commands, ∃ t' ∈ t :: journal, t'.id = c.deadLetterId ∧
      t'.requestId = some c.requestId := by
    intro c hc
    obtain ⟨t', ht', hrest⟩ := h.commands c hc
    exact ⟨t', mem_cons_of_mem _ ht', hrest⟩
  unfold Store.addCommand
  split
  next requestId requestDigest hid _ =>
    have hnew : (store.commands.any fun c => c.deadLetterId = t.id ∧ c.requestId = requestId)
        = false := by
      rw [any_eq_false]
      intro c hc hkey
      rw [decide_eq_true_eq] at hkey
      obtain ⟨t', ht', hid', hreq⟩ := h.commands c hc
      exact hlabel requestId hid t' ht' (hid'.trans hkey.1) (hkey.2 ▸ hreq)
    refine ⟨_, if_neg (ne_true_of_eq_false hnew), ?_⟩
    rintro c (_ | ⟨_, hc⟩)
    exacts [⟨t, mem_cons_self, rfl, hid⟩, hold c hc]
  · exact ⟨_, rfl, hold⟩

/-- Writing the row of the next transition. -/
theorem Projects.write (h : Projects journal store) (hlabel : Unlabelled journal t)
    (hrow : ∀ latest, Journal.latest t.id (t :: journal) = some latest →
      latest.1.originalRecordSequence ≠ 0 ∧ Shows latest row) :
    ∃ store', store.write t (journal.length + 1) row = .ok store' ∧
      Projects (t :: journal) store' := by
  have hseq : (store.transitions.any fun r => r.journalSequence = journal.length + 1) = false := by
    rw [any_eq_false]
    intro r hr
    have := h.transitions r hr
    simp only [decide_eq_true_eq]
    omega
  obtain ⟨commands, hadd, hcommands⟩ := h.addCommand hlabel (journal.length + 1)
  refine ⟨_, bind_eq_ok.mpr ⟨commands, hadd, if_neg (ne_true_of_eq_false hseq)⟩, ?_⟩
  constructor
  case checkpoint => simp [h.checkpoint]
  case absent =>
    intro id hid
    have hne : t.id ≠ id := by
      rintro rfl
      rw [latest_cons_self] at hid
      cases hid
    rw [latest_cons_of_ne hne] at hid
    simp [Ne.symm hne, h.absent id hid]
  case present =>
    intro id latest hid
    by_cases hne : t.id = id
    · subst hne
      exact ⟨(hrow latest hid).1, row, by simp, (hrow latest hid).2⟩
    · rw [latest_cons_of_ne hne] at hid
      simpa [Ne.symm hne] using h.present id latest hid
  case transitions =>
    rintro r (_ | ⟨_, hr⟩)
    exacts [le_rfl, (h.transitions r hr).trans (Nat.le_succ _)]
  case commands => exact hcommands

/-- A transition that follows the journal is projected. -/
theorem Projects.next (h : Projects journal store)
    (hfollows : Follows deadLetterId journal t) (hlabel : Unlabelled journal t) :
    ∃ store', projectDeadLetter deadLetterId t (journal.length + 1) store = .ok store' ∧
      Projects (t :: journal) store' := by
  have hnew : ¬ journal.length + 1 ≤ store.checkpoint := by
    rw [h.checkpoint]
    omega
  unfold Follows at hfollows
  cases hlast : journal.latest t.id with
  | none =>
    rw [hlast] at hfollows
    obtain ⟨hrev, hprev, event, horiginal, hres, hgen, hstate, hcause, hreq, hdig, hid⟩ := hfollows
    have hchecks : ¬ (t.resourceId = "" ∨ t.generation ≠ 0 ∨ t.state ≠ .dead ∨
        t.cause ≠ .exhausted ∨ t.requestId.isSome ∨ t.requestDigest.isSome ∨
        t.id ≠ deadLetterId t.resourceId event.stream event.sequence) := by
      simp [hres, hgen, hstate, hcause, hreq, hdig, ← hid]
    have hfirst : ¬ (t.revision ≠ 1 ∨ t.previousSubjectSequence ≠ 0) := by simp [hrev, hprev]
    simp only [projectDeadLetter, if_neg hnew, h.absent _ hlast, if_neg hfirst, horiginal,
      if_neg hchecks]
    apply h.write hlabel
    intro latest hl
    rw [latest_cons_self] at hl
    cases hl
    by_cases hzero : t.originalRecordSequence = 0
    · rw [if_pos ⟨hrev, hzero⟩]
      exact ⟨Nat.succ_ne_zero _, rfl, rfl, rfl, rfl, by simp [recordSequence, hzero], rfl⟩
    · rw [if_neg fun hc => hzero hc.2]
      exact ⟨hzero, rfl, rfl, rfl, rfl, by simp [recordSequence, hzero], rfl⟩
  | some latest =>
    rw [hlast] at hfollows
    obtain ⟨hpos, row, hrow, hshows⟩ := h.present _ _ hlast
    have hrec : t.originalRecordSequence ≠ 0 := hfollows.record ▸ hpos
    have hle := (latest_spec hlast).2.2.1
    have hseq : ¬ row.lastJournalSequence = journal.length + 1 := by
      rw [hshows.sequence]
      omega
    simp only [projectDeadLetter, if_neg hnew, hrow, if_neg hseq,
      if_pos ((follows_iff hshows).mpr hfollows)]
    apply h.write hlabel
    intro latest' hl
    rw [latest_cons_self, if_neg fun hc => hrec hc.2] at hl
    cases hl
    exact ⟨hrec, hshows.resourceId.trans hfollows.resourceId, rfl, rfl, rfl,
      hshows.record.trans hfollows.record.symm, rfl⟩

theorem projects_of_legal (h : Legal deadLetterId journal) :
    ∃ store, projectAll deadLetterId journal = .ok store ∧ Projects journal store := by
  induction journal with
  | nil => exact ⟨.empty, rfl, projects_empty⟩
  | cons t older ih =>
    obtain ⟨hlegal, hfollows, hlabel, -⟩ := h
    obtain ⟨store, hstore, hprojects⟩ := ih hlegal
    obtain ⟨store', hstore', hprojects'⟩ := hprojects.next hfollows hlabel
    exact ⟨store', by simp [projectAll, hstore, hstore', bind, Except.bind], hprojects'⟩

theorem Legal.successors (h : Legal deadLetterId journal) (newer : Journal)
    (t : DeadLetterTransition) (older : Journal) (heq : journal = newer ++ t :: older)
    (p : DeadLetterTransition) (s : Nat) (hlast : older.latest t.id = some (p, s)) :
    legalDeadLetterSuccessor p.state p.generation t = true := by
  induction newer generalizing journal with
  | nil =>
    subst heq
    have hfollows := h.2.1
    unfold Follows at hfollows
    rw [hlast] at hfollows
    exact hfollows.legal
  | cons t' newer ih =>
    subst heq
    exact ih h.1 rfl

theorem Legal.labels (h : Legal deadLetterId journal) :
    journal.Pairwise fun t t' => t'.id = t.id → ∀ r, t.requestId = some r →
      t'.requestId ≠ some r := by
  induction journal with
  | nil => exact .nil
  | cons t older ih =>
    refine .cons ?_ (ih h.1)
    intro t' ht' hid r hr
    exact h.2.2.1 r hr t' ht' hid

theorem Legal.projectable (h : Legal deadLetterId journal) : Projectable deadLetterId journal where
  projected := by
    obtain ⟨store, hstore, -⟩ := projects_of_legal h
    exact ⟨store, hstore⟩
  successors := h.successors
  labels := h.labels

/-! ## What the operations plan -/

theorem requiredLatest_eq_ok
    (h : requiredLatest journal id = .ok current) : journal.latest id = some current := by
  unfold requiredLatest at h
  split at h
  next hlast => rw [hlast, Except.ok.inj h]
  · cases h

/-- `create_dead` plans a first record, or corrects what only the broker has reported. -/
theorem createDead_eq_append {next : DeadLetterTransition}
    (h : createDead deadLetterId journal resourceId event deliveries lastError
      = .ok (.append next expected)) :
    (journal.latest (deadLetterId resourceId event.stream event.sequence) = none ∧
      next = firstRecord (deadLetterId resourceId event.stream event.sequence) resourceId event
        deliveries lastError ∧ expected = 0) ∨
    ∃ existing, journal.latest (deadLetterId resourceId event.stream event.sequence)
        = some existing ∧ next = corrected existing deliveries lastError ∧
      expected = existing.2 := by
  unfold createDead at h
  split at h
  next existing hlast =>
    obtain ⟨existingOriginal, -, h⟩ := bind_eq_ok.mp h
    obtain ⟨-, h⟩ := guard_eq_ok.mp h
    split at h
    · cases h
    split at h
    · cases h
    · cases h
      exact .inr ⟨existing, hlast, rfl, rfl⟩
  next hlast =>
    cases h
    exact .inl ⟨hlast, rfl, rfl⟩

/-- What the plan of a command comes to: the command is legal after the latest transition. -/
theorem Command.plan_eq_append {command : Command} {next : DeadLetterTransition}
    (h : command.plan journal = .ok (.append next expected)) :
    ∃ current, journal.latest command.id = some (current, expected) ∧
      ∃ state cause generation deliveries lastError replay,
        next = successor current expected state cause (some command.requestId)
          (some command.requestDigest) generation deliveries lastError replay ∧
        current.generation ≤ generation ∧
        legalDeadLetterSuccessor current.state current.generation next = true := by
  unfold Command.plan at h
  split at h
  · obtain ⟨⟨current, sequence⟩, hlast, h⟩ := bind_eq_ok.mp h
    obtain ⟨-, h⟩ := guard_eq_ok.mp h
    obtain ⟨hstate, h⟩ := guard_eq_ok.mp h
    obtain ⟨event, -, h⟩ := bind_eq_ok.mp h
    obtain ⟨-, h⟩ := guard_eq_ok.mp h
    cases h
    refine ⟨current, requiredLatest_eq_ok hlast, _, _, _, _, _, _, rfl, Nat.le_succ _, ?_⟩
    have hcases : current.state = .dead ∨ current.state = .dismissed := by
      by_contra hc
      exact hstate (not_or.mp hc)
    rcases hcases with hc | hc <;> simp [legalDeadLetterSuccessor, successor, hc]
  · obtain ⟨⟨current, sequence⟩, hlast, h⟩ := bind_eq_ok.mp h
    obtain ⟨hstate, h⟩ := guard_eq_ok.mp h
    cases h
    refine ⟨current, requiredLatest_eq_ok hlast, _, _, _, _, _, _, rfl, le_rfl, ?_⟩
    have hdead : current.state = .dead := not_not.mp (not_or.mp hstate).2
    simp [legalDeadLetterSuccessor, successor, hdead]

/-! ## Nodes over one journal -/

/-- The journal, the appends sent, the commands whose id was not found, and what replay dispatchers
have read. -/
structure World where
  journal : Journal
  pending : List (DeadLetterTransition × Nat)
  scanned : List Command
  observed : List (DeadLetterTransition × Nat)

namespace World

/-- Nothing is stored. -/
def initial : World := ⟨[], [], [], []⟩

/-- An append is sent. -/
def plan (w : World) (next : DeadLetterTransition) (expected : Nat) : World :=
  { w with pending := (next, expected) :: w.pending }

end World

/-- One step of a node or of the journal.  When `clean` holds, a first report names a resource, a
later one corrects a plain exhaustion only, and a command is planned while its id is not stored. -/
inductive Step (deadLetterId : String → String → Nat → String) (clean : Prop) : World → World → Prop
  /-- A report of exhaustion. -/
  | createDead {w : World} (resourceId : String) (event : OriginalEvent) (deliveries : Nat)
      (lastError : Option String) (next : DeadLetterTransition) (expected : Nat)
      (hplan : createDead deadLetterId w.journal resourceId event deliveries lastError
        = .ok (.append next expected))
      (hresource : clean →
        w.journal.latest (deadLetterId resourceId event.stream event.sequence) = none →
        resourceId ≠ "")
      (hexisting : clean → ∀ existing,
        w.journal.latest (deadLetterId resourceId event.stream event.sequence) = some existing →
        existing.1.state = .dead ∧ existing.1.cause = .exhausted) :
      Step deadLetterId clean w (w.plan next expected)
  /-- The request id of a command is not found. -/
  | scan {w : World} (command) (hscan : scanCommand w.journal command = .ok none) :
      Step deadLetterId clean w { w with scanned := command :: w.scanned }
  /-- A command whose request id was not found. -/
  | command {w : World} (command next expected) (hscanned : command ∈ w.scanned)
      (hplan : command.plan w.journal = .ok (.append next expected))
      (hrequest : clean → w.journal.findCommand command.id command.requestId = none) :
      Step deadLetterId clean w (w.plan next expected)
  /-- A replay dispatcher reads a transition. -/
  | observe {w : World} (id latest) (hlatest : w.journal.latest id = some latest) :
      Step deadLetterId clean w { w with observed := latest :: w.observed }
  /-- A replay that was read before is published. -/
  | markReplaying {w : World} (current sequence replay next expected)
      (hobserved : (current, sequence) ∈ w.observed)
      (hplan : markReplaying w.journal current sequence replay = .ok (.append next expected)) :
      Step deadLetterId clean w (w.plan next expected)
  /-- The outcome of a replay is reported. -/
  | reportReplayOutcome {w : World} (id generation outcome deliveries lastError next expected)
      (hplan : reportReplayOutcome w.journal id generation outcome deliveries lastError
        = .ok (.append next expected)) :
      Step deadLetterId clean w (w.plan next expected)
  /-- An append is stored, now or late: the subject must not have moved. -/
  | append {w : World} (next expected) (hpending : (next, expected) ∈ w.pending)
      (hexpected : w.journal.subjectSequence next.id = expected) :
      Step deadLetterId clean w { w with journal := next :: w.journal }

variable (deadLetterId) (journal)

/-- The worlds that runs reach. -/
def Reachable (clean : Prop) (w : World) : Prop :=
  ReflTransGen (Step deadLetterId clean) World.initial w

/-! ### Appends that are under way -/

/-- Stored while the subject has not moved, an append leaves the journal legal. -/
def Ready (append : DeadLetterTransition × Nat) : Prop :=
  append.2 ≤ journal.length ∧ (journal.subjectSequence append.1.id = append.2 →
    Follows deadLetterId journal append.1 ∧ Unlabelled journal append.1 ∧ Paired append.1)

variable {deadLetterId journal}

/-- A transition of another letter leaves an append as it is, one of the same moves the subject. -/
theorem Ready.cons (h : Ready deadLetterId journal append)
    (t : DeadLetterTransition) : Ready deadLetterId (t :: journal) append := by
  refine ⟨h.1.trans (Nat.le_succ _), ?_⟩
  intro hexp
  by_cases hid : t.id = append.1.id
  · rw [← hid, subjectSequence_of_latest latest_cons_self] at hexp
    have := h.1
    omega
  · rw [Journal.subjectSequence, latest_cons_of_ne hid] at hexp
    obtain ⟨hfollows, hlabel, hpaired⟩ := h.2 hexp
    refine ⟨?_, ?_, hpaired⟩
    · unfold Follows
      rw [latest_cons_of_ne hid]
      exact hfollows
    · rintro r hr t' (_ | ⟨_, ht'⟩) hid'
      exacts [absurd hid' hid, hlabel r hr t' ht' hid']

/-- The first record is known from the latest transition of its letter. -/
theorem Legal.record_ne_zero (h : Legal deadLetterId journal)
    (hlast : journal.latest id = some latest) :
    latest.1.originalRecordSequence ≠ 0 := by
  obtain ⟨store, -, hprojects⟩ := projects_of_legal h
  exact (hprojects.present id latest hlast).1

/-- A successor of the latest transition, with a sequence not beyond the journal. -/
theorem ready_successor {next : DeadLetterTransition} (h : Legal deadLetterId journal)
    (hlast : journal.latest id = some (current, s))
    (hexp : expected ≤ journal.length) {requestId requestDigest : Option String}
    (hnext : next = successor current expected state cause requestId requestDigest generation
      deliveries lastError replay) (hgen : current.generation ≤ generation)
    (hlegal : legalDeadLetterSuccessor current.state current.generation next = true)
    (hlabel : Unlabelled journal next) (hpaired : requestId.isSome = requestDigest.isSome) :
    Ready deadLetterId journal (next, expected) := by
  subst hnext
  obtain ⟨rfl, -⟩ := latest_spec hlast
  refine ⟨hexp, fun hseq => ⟨?_, hlabel, hpaired⟩⟩
  obtain rfl : s = expected := (subjectSequence_of_latest hlast).symm.trans hseq
  have hrec : current.originalRecordSequence ≠ 0 := h.record_ne_zero hlast
  unfold Follows
  simp only [successor, hlast]
  exact ⟨rfl, rfl, hgen, rfl, if_neg hrec, rfl, hlegal⟩

/-- A successor without a request id labels nothing. -/
theorem unlabelled_of_none (h : t.requestId = none) : Unlabelled journal t := by
  intro r hr
  rw [h] at hr
  cases hr

theorem findCommand_eq_none (h : journal.findCommand id requestId = none) :
    ∀ t ∈ journal, t.id = id → t.requestId ≠ some requestId := by
  induction journal with
  | nil => simp
  | cons t older ih =>
    simp only [Journal.findCommand, Option.or_eq_none_iff] at h
    rintro t' (_ | ⟨_, ht'⟩) hid hreq
    · rw [if_pos ⟨hid, hreq⟩] at h
      cases h.2
    · exact ih h.1 t' ht' hid hreq

/-- An exhausted transition of a legal journal carries no request. -/
theorem Legal.request_eq_none (h : Legal deadLetterId journal)
    (ht : t ∈ journal) (hcause : t.cause = .exhausted) :
    t.requestId = none ∧ t.requestDigest = none := by
  induction journal with
  | nil => cases ht
  | cons t' older ih =>
    rcases mem_cons.mp ht with rfl | ht
    · obtain ⟨-, hfollows, -, hpaired⟩ := h
      unfold Follows at hfollows
      split at hfollows
      · obtain ⟨-, -, event, -, -, -, -, -, hreq, hdig, -⟩ := hfollows
        exact ⟨hreq, hdig⟩
      · have hpaired' : t.requestId.isSome = t.requestDigest.isSome := hpaired
        -- only commands are legal with a request id
        have hnone : t.requestDigest.isSome = false := by
          have hlegal := hfollows.legal
          simp only [legalDeadLetterSuccessor, hcause, hpaired', Bool.and_self] at hlegal
          by_contra hreq
          rw [Bool.not_eq_false] at hreq
          rw [hreq] at hlegal
          cases hlegal
        exact ⟨by simpa [hnone] using hpaired', by simpa using hnone⟩
    · exact ih h.1 ht

/-! ### Clean runs -/

/-- What clean steps keep. -/
structure Inv (deadLetterId : String → String → Nat → String) (w : World) : Prop where
  legal : Legal deadLetterId w.journal
  pending : ∀ append ∈ w.pending, Ready deadLetterId w.journal append
  observed : ∀ latest ∈ w.observed, latest.2 ≤ w.journal.length

namespace Inv

theorem initial : Inv deadLetterId .initial where
  legal := trivial
  pending := by simp [World.initial]
  observed := by simp [World.initial]

theorem plan {next : DeadLetterTransition} (h : Inv deadLetterId w)
    (hready : Ready deadLetterId w.journal (next, expected)) :
    Inv deadLetterId (w.plan next expected) := by
  refine { h with pending := ?_ }
  rintro append (_ | ⟨_, ha⟩)
  exacts [hready, h.pending append ha]

theorem step (h : Inv deadLetterId w) (hstep : Step deadLetterId True w w') :
    Inv deadLetterId w' := by
  cases hstep with
  | createDead resourceId event deliveries lastError next expected hplan hresource hold =>
    apply h.plan
    rcases createDead_eq_append hplan with ⟨hnone, rfl, rfl⟩ | ⟨existing, hlast, rfl, rfl⟩
    · -- the first record of a letter
      refine ⟨Nat.zero_le _, fun _ => ⟨?_, unlabelled_of_none rfl, rfl⟩⟩
      unfold Follows
      simp only [firstRecord, hnone]
      exact ⟨rfl, rfl, event, rfl, hresource trivial hnone, rfl, rfl, rfl, rfl, rfl, rfl⟩
    · obtain ⟨hstate, hcause⟩ := hold trivial existing hlast
      obtain ⟨hid, -, hle, t, ht, -, hreq, hdig, hsame⟩ := latest_spec hlast
      obtain ⟨hrequest, hnone⟩ := h.legal.request_eq_none ht (hsame ▸ hcause)
      rw [← hreq] at hrequest
      rw [← hdig] at hnone
      have hpaired : Paired (corrected existing deliveries lastError) := by
        simp [Paired, corrected, hrequest, hnone]
      have hrec := h.legal.record_ne_zero hlast
      refine ⟨hle, fun _ => ⟨?_, unlabelled_of_none hrequest, hpaired⟩⟩
      unfold Follows
      simp only [corrected, hid, hlast]
      refine ⟨rfl, rfl, le_rfl, rfl, if_neg hrec, rfl, ?_⟩
      simp [legalDeadLetterSuccessor, hstate, hcause, hrequest]
  | scan command hscan => exact { h with }
  | command command next expected hscanned hplan hreq =>
    apply h.plan
    obtain ⟨current, hlast, state, cause, generation, deliveries, lastError, replay, hnext, hgen,
      hlegal⟩ := Command.plan_eq_append hplan
    obtain ⟨hid, -, hle, -⟩ := latest_spec hlast
    refine ready_successor h.legal hlast hle hnext hgen hlegal ?_ rfl
    subst hnext
    rintro r hr t ht hsame
    cases hr
    exact findCommand_eq_none (hreq trivial) t ht (hsame.trans hid)
  | observe id latest hlast =>
    refine { h with observed := ?_ }
    rintro o (_ | ⟨_, ho⟩)
    exacts [(latest_spec hlast).2.2.1, h.observed o ho]
  | markReplaying current sequence replay next expected hobs hplan =>
    apply h.plan
    obtain ⟨latest, hlast, hplan⟩ := bind_eq_ok.mp hplan
    split at hplan
    · cases hplan
    rename_i hcond
    obtain ⟨hgen, hstate⟩ := not_or.mp hcond
    cases hplan
    rw [← not_not.mp hgen]
    exact ready_successor h.legal (requiredLatest_eq_ok hlast) (h.observed _ hobs) rfl le_rfl
      (by simp [legalDeadLetterSuccessor, successor, not_not.mp hstate])
      (unlabelled_of_none rfl) rfl
  | reportReplayOutcome id generation outcome deliveries lastError next expected hplan =>
    apply h.plan
    obtain ⟨⟨current, sequence⟩, hlast, hplan⟩ := bind_eq_ok.mp hplan
    simp only at hplan
    split at hplan
    · cases hplan
    obtain ⟨hcond, hplan⟩ := guard_eq_ok.mp hplan
    obtain ⟨hgen, hstate⟩ := not_or.mp hcond
    cases hplan
    have hlast := requiredLatest_eq_ok hlast
    rw [not_not.mp hgen]
    refine ready_successor h.legal hlast (latest_spec hlast).2.2.1 rfl le_rfl ?_
      (unlabelled_of_none rfl) rfl
    have hcases : current.state = .replayPending ∨ current.state = .replaying := by
      by_contra hc
      exact hstate (not_or.mp hc)
    rcases hcases with hc | hc <;> cases outcome <;>
      simp [legalDeadLetterSuccessor, successor, hc, DeliveryOutcome.state, DeliveryOutcome.cause]
  | append next expected hpend hexp =>
    obtain ⟨hfollows, hlabel, hpaired⟩ := (h.pending _ hpend).2 hexp
    exact ⟨⟨h.legal, hfollows, hlabel, hpaired⟩, fun a ha => (h.pending a ha).cons next,
      fun o ho => (h.observed o ho).trans (Nat.le_succ _)⟩

theorem of_reachable (hrun : Reachable deadLetterId True w) : Inv deadLetterId w := by
  refine Run.keeps ?_ hrun initial
  intro _ _ hstep h
  exact h.step hstep

end Inv

/-! ### Plans that are not clean -/

theorem findCommand_ne_none (h : journal.findCommand id requestId ≠ none) :
    ∃ t ∈ journal, t.id = id ∧ t.requestId = some requestId := by
  induction journal with
  | nil => exact absurd rfl h
  | cons t older ih =>
    by_cases hmatch : t.id = id ∧ t.requestId = some requestId
    · exact ⟨t, mem_cons_self, hmatch⟩
    · simp only [Journal.findCommand, if_neg hmatch, Option.or_none] at h
      obtain ⟨t', ht', hrest⟩ := ih h
      exact ⟨t', mem_cons_of_mem _ ht', hrest⟩

/-- **Clean runs keep the journal projectable**, and after every step that is not clean a run can
leave it otherwise. -/
theorem journal_projectable_of_clean (deadLetterId : String → String → Nat → String) :
    (∀ w, Reachable deadLetterId True w → Projectable deadLetterId w.journal) ∧
    ∀ w w', Reachable deadLetterId True w → Step deadLetterId False w w' →
      ¬ Step deadLetterId True w w' →
      ∃ v, Step deadLetterId False w' v ∧ ¬ Projectable deadLetterId v.journal := by
  refine ⟨fun w hrun => (Inv.of_reachable hrun).legal.projectable, ?_⟩
  intro w w' hrun hstep hnot
  have hinv := Inv.of_reachable hrun
  cases hstep with
  | createDead resourceId event deliveries lastError next expected hplan _ _ =>
    rcases createDead_eq_append hplan with ⟨hnone, hnext, hzero⟩ | ⟨existing, hlatest, hnext, hseq⟩
    · have hresource : resourceId = "" := by
        by_contra hres
        refine hnot (.createDead resourceId event deliveries lastError next expected hplan
          (fun _ _ => hres) ?_)
        intro _ existing hlatest
        rw [hnone] at hlatest
        cases hlatest
      subst hresource hnext hzero
      refine ⟨_, .append _ _ mem_cons_self ?_, ?_⟩
      · simp [World.plan, Journal.subjectSequence, firstRecord, hnone]
      rintro ⟨⟨store', hstore'⟩, -, -⟩
      obtain ⟨store, hstore, hprojects⟩ := projects_of_legal hinv.legal
      obtain ⟨prev, hprev, hnext⟩ := bind_eq_ok.mp hstore'
      rw [← Except.ok.inj (hstore.symm.trans hprev)] at hnext
      have hnew : ¬ w.journal.length + 1 ≤ store.checkpoint := by
        rw [hprojects.checkpoint]
        omega
      simp [projectDeadLetter, World.plan, hnew, firstRecord, hprojects.absent _ hnone] at hnext
    · have hbad : ¬ (existing.1.state = .dead ∧ existing.1.cause = .exhausted) := by
        intro hcond
        refine hnot (.createDead resourceId event deliveries lastError next expected hplan ?_ ?_)
        · intro _ hnone
          rw [hlatest] at hnone
          cases hnone
        · intro _ existing' hlatest'
          rw [hlatest] at hlatest'
          cases hlatest'
          exact hcond
      subst hnext hseq
      refine ⟨_, .append _ _ mem_cons_self ?_, fun h => hbad ?_⟩
      · exact subjectSequence_of_latest ((latest_spec hlatest).1 ▸ hlatest)
      · -- a correction keeps the state and the cause, and only one pair may be repeated
        have hlegal := h.successors [] _ _ rfl existing.1 existing.2
          ((latest_spec hlatest).1 ▸ hlatest)
        cases hstate : existing.1.state <;> cases hcause : existing.1.cause <;>
          simp [legalDeadLetterSuccessor, corrected, hstate, hcause] at hlegal ⊢
  | command command next expected hscanned hplan _ =>
    have hfound : w.journal.findCommand command.id command.requestId ≠ none := by
      intro hnone
      exact hnot (.command command next expected hscanned hplan fun _ => hnone)
    obtain ⟨current, hlatest, state, cause, generation, deliveries, lastError, replay, rfl, -, -⟩ :=
      Command.plan_eq_append hplan
    have hid := (latest_spec hlatest).1
    refine ⟨_, .append _ _ mem_cons_self (subjectSequence_of_latest (hid ▸ hlatest)), fun h => ?_⟩
    obtain ⟨t, ht, htid, htreq⟩ := findCommand_ne_none hfound
    exact (pairwise_cons.mp h.labels).1 t ht (htid.trans hid.symm) _ rfl htreq
  | scan | observe | append => exact absurd (by constructor <;> assumption) hnot
  | markReplaying current sequence replay next expected hobserved hplan =>
    exact absurd (.markReplaying current sequence replay next expected hobserved hplan) hnot
  | reportReplayOutcome id generation outcome deliveries lastError next expected hplan =>
    exact absurd (.reportReplayOutcome id generation outcome deliveries lastError next expected
      hplan) hnot

/-- An event that a consumer does not handle. -/
def sampleEvent : OriginalEvent :=
  ⟨"events", 7, "", none, "events.v1.orders.created", [], [], none, none, none, "verified"⟩

/-- The operator who gives up on it. -/
def sampleDismissal : Command := ⟨.dismiss, "letter", 1, "request", "digest"⟩

/-- A letter that the broker has reported, and its dismissal. -/
theorem dismissed_projectable : ∃ w, Reachable (fun _ _ _ => "letter") True w ∧
      w.journal.map (fun t => (t.revision, t.state)) = [(2, .dismissed), (1, .dead)] ∧
      Projectable (fun _ _ _ => "letter") w.journal := by
  have h₁ : Reachable (fun _ _ _ => "letter") True _ :=
    .single (.createDead (w := .initial) "consumer" sampleEvent 5 (some brokerError) _ _ rfl
      (by simp) (by simp [World.initial, Journal.latest]))
  have h₂ := h₁.tail (.append _ _ mem_cons_self rfl)
  have h₃ := h₂.tail (.scan sampleDismissal rfl)
  have h₄ := h₃.tail (.command sampleDismissal _ _ mem_cons_self rfl fun _ => rfl)
  have h₅ := h₄.tail (.append _ _ mem_cons_self rfl)
  exact ⟨_, h₅, rfl, (journal_projectable_of_clean _).1 _ h₅⟩

/-- A second advisory, with another delivery count, reaches the journal after the dismissal. -/
theorem dismissal_corrected : ∃ w, Reachable (fun _ _ _ => "letter") False w ∧
      w.journal.map (fun t => (t.revision, t.state, t.requestId))
        = [(3, .dismissed, some "request"), (2, .dismissed, some "request"), (1, .dead, none)] ∧
      ¬ Projectable (fun _ _ _ => "letter") w.journal := by
  have h₁ : Reachable (fun _ _ _ => "letter") False _ :=
    .single (.createDead (w := .initial) "consumer" sampleEvent 5 (some brokerError) _ _ rfl
      (by simp) (by simp))
  have h₂ := h₁.tail (.append _ _ mem_cons_self rfl)
  have h₃ := h₂.tail (.scan sampleDismissal rfl)
  have h₄ := h₃.tail (.command sampleDismissal _ _ mem_cons_self rfl (by simp))
  have h₅ := h₄.tail (.append _ _ mem_cons_self rfl)
  have h₆ := h₅.tail (.createDead "consumer" sampleEvent 6 (some brokerError) _ _ rfl
      (by simp) (by simp))
  have h₇ := h₆.tail (.append _ _ mem_cons_self rfl)
  refine ⟨_, h₇, rfl, ?_⟩
  intro hprojectable
  exact absurd (hprojectable.successors [] _ _ rfl _ _ rfl) (by decide)

end DeadLetters
