/-
# Streams of numbered messages

A broker keeps named streams.  Each numbers its messages in order and never uses a number twice;
messages, consumers and whole streams may go.  Everything kept has an owner, which the broker does
not know of.

*What is lost* between two states is said owner by owner (`Loses`), with one lemma for each
operation that takes something away.  *What lies below a number* stays what it was: a number that
was the next one when it was read off separates the messages of that moment from those to come
(`Sealed`).  That a step does nothing else is one relation (`Evolves`).
-/
import Trellis.Lib.Checked

namespace Streams

open List

variable {Owner : Type}

structure Message (Owner : Type) where
  sequence : Nat
  subject : String
  owner : Owner

structure Consumer (Owner : Type) where
  (name description : String)
  owner : Owner

/-- A stream; one that is kept for a single owner has it as its own. -/
structure Stream (Owner : Type) where
  (name description : String)
  owner : Option Owner
  lastSequence : Nat
  messages : List (Message Owner)
  consumers : List (Consumer Owner)

/-! ## Operations -/

section

variable (streams : List (Stream Owner))

def find? (name : String) : Option (Stream Owner) :=
  streams.find? fun s => s.name = name

def update (name : String) (change : Stream Owner → Stream Owner) : List (Stream Owner) :=
  streams.map fun s => if s.name = name then change s else s

/-- A stream without messages and consumers. -/
def empty (name description : String) (owner : Option Owner) : Stream Owner where
  name
  description
  owner
  lastSequence := 0
  messages := []
  consumers := []

def create (name description : String) (owner : Option Owner) : List (Stream Owner) :=
  streams ++ [empty name description owner]

def publish (name subject : String) (owner : Owner) : List (Stream Owner) :=
  update streams name fun s => { s with
    lastSequence := s.lastSequence + 1
    messages := s.messages ++ [⟨s.lastSequence + 1, subject, owner⟩] }

def discard (name : String) (select : Message Owner → Bool) : List (Stream Owner) :=
  update streams name fun s => { s with messages := s.messages.filter fun m => !select m }

def createConsumer (name : String) (consumer : Consumer Owner) : List (Stream Owner) :=
  update streams name fun s => { s with consumers := s.consumers ++ [consumer] }

def deleteConsumer (name consumer : String) : List (Stream Owner) :=
  update streams name fun s => { s with
    consumers := s.consumers.filter fun c => !decide (c.name = consumer) }

def delete (name : String) : List (Stream Owner) :=
  streams.filter fun s => !decide (s.name = name)

end

variable {streams : List (Stream Owner)}

theorem find?_eq_some (h : find? streams name = some s) : s ∈ streams ∧ s.name = name :=
  ⟨mem_of_find?_eq_some h, of_decide_eq_true (find?_some h :)⟩

/-! ## What is lost -/

/-- Something a broker keeps: a stream, a consumer or a message of one. -/
inductive Datum (Owner : Type) where
  | stream (name : String) (owner : Owner)
  | consumer (stream : String) (consumer : Consumer Owner)
  | message (stream : String) (message : Message Owner)

def Datum.owner : Datum Owner → Owner
  | .stream _ holder => holder
  | .consumer _ c => c.owner
  | .message _ m => m.owner

def Stream.Has (s : Stream Owner) : Datum Owner → Prop
  | .stream name holder => s.name = name ∧ s.owner = some holder
  | .consumer name c => s.name = name ∧ c ∈ s.consumers
  | .message name m => s.name = name ∧ m ∈ s.messages

def Holds (streams : List (Stream Owner)) (datum : Datum Owner) : Prop :=
  ∃ s ∈ streams, s.Has datum

/-- Something of the owner is there before and not after. -/
def Loses (streams streams' : List (Stream Owner)) (owner : Owner) : Prop :=
  ∃ datum, Holds streams datum ∧ ¬ Holds streams' datum ∧ datum.owner = owner

theorem not_loses_refl (streams : List (Stream Owner)) (owner : Owner) :
    ¬ Loses streams streams owner := by
  rintro ⟨datum, hheld, hlost, -⟩
  exact hlost hheld

/-- What an update loses, one stream of that name loses. -/
theorem Loses.of_update (h : Loses streams (update streams name change) owner) :
    ∃ s ∈ streams, s.name = name ∧ ∃ datum, s.Has datum ∧ ¬ (change s).Has datum ∧
      datum.owner = owner := by
  obtain ⟨datum, ⟨s, hs, hhas⟩, hlost, howner⟩ := h
  have hafter : ¬ (if s.name = name then change s else s).Has datum :=
    fun hkept => hlost ⟨_, mem_map_of_mem hs, hkept⟩
  by_cases hname : s.name = name
  · rw [if_pos hname] at hafter
    exact ⟨s, hs, hname, datum, hhas, hafter, howner⟩
  · rw [if_neg hname] at hafter
    exact absurd hhas hafter

theorem Loses.of_discard (h : Loses streams (discard streams name select) owner) :
    ∃ s ∈ streams, s.name = name ∧ ∃ m ∈ s.messages, select m = true ∧ m.owner = owner := by
  obtain ⟨s, hs, hname, datum, hhas, hlost, howner⟩ := Loses.of_update h
  refine ⟨s, hs, hname, ?_⟩
  cases datum with
  | stream | consumer => exact absurd hhas hlost
  | message stream m =>
    refine ⟨m, hhas.2, ?_, howner⟩
    by_contra hselect
    exact hlost ⟨hhas.1, mem_filter.mpr ⟨hhas.2, by simpa using hselect⟩⟩

theorem Loses.of_deleteConsumer (h : Loses streams (deleteConsumer streams name consumer) owner) :
    ∃ s ∈ streams, s.name = name ∧ ∃ c ∈ s.consumers, c.name = consumer ∧ c.owner = owner := by
  obtain ⟨s, hs, hname, datum, hhas, hlost, howner⟩ := Loses.of_update h
  refine ⟨s, hs, hname, ?_⟩
  cases datum with
  | stream | message => exact absurd hhas hlost
  | consumer stream c =>
    refine ⟨c, hhas.2, ?_, howner⟩
    by_contra hother
    exact hlost ⟨hhas.1, mem_filter.mpr ⟨hhas.2, by simpa using hother⟩⟩

/-- A stream goes with everything in it. -/
theorem Loses.of_delete (h : Loses streams (delete streams name) owner) :
    ∃ s ∈ streams, s.name = name ∧ (s.owner = some owner ∨
      (∃ c ∈ s.consumers, c.owner = owner) ∨ ∃ m ∈ s.messages, m.owner = owner) := by
  obtain ⟨datum, ⟨s, hs, hhas⟩, hlost, howner⟩ := h
  have hname : s.name = name := by
    by_contra hother
    exact hlost ⟨s, mem_filter.mpr ⟨hs, by simpa using hother⟩, hhas⟩
  refine ⟨s, hs, hname, ?_⟩
  cases datum with
  | stream stream holder => exact .inl (hhas.2.trans (congrArg some howner))
  | consumer stream c => exact .inr (.inl ⟨c, hhas.2, howner⟩)
  | message stream m => exact .inr (.inr ⟨m, hhas.2, howner⟩)

/-! ## Evolution -/

section

variable (newStream : Stream Owner → Prop) (newMessage : String → Message Owner → Prop)
  (newConsumer : String → Consumer Owner → Prop)

/-- What a step makes of a stream: its numbers go on, and what is new in it is allowed. -/
structure Descends (s s' : Stream Owner) : Prop where
  name : s'.name = s.name
  owner : s'.owner = s.owner
  last : s.lastSequence ≤ s'.lastSequence
  messages : ∀ m ∈ s'.messages, m ∈ s.messages ∨ s.lastSequence < m.sequence ∧ newMessage s.name m
  consumers : ∀ c ∈ s'.consumers, c ∈ s.consumers ∨ newConsumer s.name c

/-- Streams descend from streams of the same name, what is created is allowed and had a free name,
and what is deleted may be. -/
structure Evolves (gone : String → Prop) (streams streams' : List (Stream Owner)) : Prop where
  source : ∀ s' ∈ streams', (∃ s ∈ streams, Descends newMessage newConsumer s s') ∨
    (newStream s' ∧ s'.messages = [] ∧ s'.consumers = [] ∧ ∀ s ∈ streams, s.name ≠ s'.name)
  stays : ∀ s ∈ streams, (∃ s' ∈ streams', s'.name = s.name) ∨ gone s.name
  nodup : (streams.map Stream.name).Nodup → (streams'.map Stream.name).Nodup

end

section Evolution

theorem Descends.refl (s : Stream Owner) : Descends newMessage newConsumer s s :=
  ⟨rfl, rfl, Nat.le_refl _, fun _ hm => .inl hm, fun _ hc => .inl hc⟩

theorem Evolves.refl (streams : List (Stream Owner)) :
    Evolves newStream newMessage newConsumer gone streams streams where
  source := fun s hs => .inl ⟨s, hs, .refl s⟩
  stays := fun s hs => .inl ⟨s, hs, rfl⟩
  nodup := id

theorem Evolves.of_update (h : ∀ s, s.name = name → Descends newMessage newConsumer s (change s))
    (hname : ∀ s, (change s).name = s.name) :
    Evolves newStream newMessage newConsumer gone streams (update streams name change) := by
  have hone : ∀ s : Stream Owner,
      Descends newMessage newConsumer s (if s.name = name then change s else s) := by
    intro s
    split
    next hs => exact h s hs
    · exact .refl s
  refine ⟨?_, ?_, ?_⟩
  · intro s' hs'
    obtain ⟨s, hs, rfl⟩ := mem_map.mp hs'
    exact .inl ⟨s, hs, hone s⟩
  · exact fun s hs => .inl ⟨_, mem_map_of_mem hs, (hone s).name⟩
  · intro hnd
    unfold update
    rw [map_map]
    convert hnd using 1
    refine map_congr_left fun s _ => ?_
    show (if s.name = name then change s else s).name = s.name
    split
    · exact hname s
    · rfl

theorem Evolves.create {description : String} {owner : Option Owner}
    (hall : newStream (empty name description owner)) (hfree : ∀ s ∈ streams, s.name ≠ name) :
    Evolves newStream newMessage newConsumer gone streams
      (create streams name description owner) := by
  refine ⟨?_, fun s hs => .inl ⟨s, mem_append_left _ hs, rfl⟩, ?_⟩
  · intro s' hs'
    rcases mem_append.mp hs' with hs' | hs'
    · exact .inl ⟨s', hs', .refl s'⟩
    · obtain rfl := mem_singleton.mp hs'
      exact .inr ⟨hall, rfl, rfl, hfree⟩
  · exact fun hnd => Checked.nodup_map_concat hnd hfree

theorem Evolves.publish {subject : String} {owner : Owner}
    (hall : ∀ sequence, newMessage name ⟨sequence, subject, owner⟩) :
    Evolves newStream newMessage newConsumer gone streams (publish streams name subject owner) := by
  refine .of_update (fun s hs => ⟨rfl, rfl, Nat.le_succ _, ?_, fun _ hc => .inl hc⟩) fun _ => rfl
  exact Checked.forall_mem_concat (fun _ => .inl) (.inr ⟨Nat.lt_succ_self _, hs ▸ hall _⟩)

theorem Evolves.discard :
    Evolves newStream newMessage newConsumer gone streams (discard streams name select) :=
  .of_update (fun _ _ => ⟨rfl, rfl, Nat.le_refl _,
    fun _ hm => .inl (mem_filter.mp hm).1, fun _ hc => .inl hc⟩) fun _ => rfl

theorem Evolves.createConsumer {consumer : Consumer Owner} (hall : newConsumer name consumer) :
    Evolves newStream newMessage newConsumer gone streams
      (createConsumer streams name consumer) := by
  refine .of_update (fun s hs => ⟨rfl, rfl, Nat.le_refl _, fun _ hm => .inl hm, ?_⟩) fun _ => rfl
  exact Checked.forall_mem_concat (fun _ => .inl) (.inr (hs ▸ hall))

theorem Evolves.deleteConsumer : Evolves newStream newMessage newConsumer gone streams
      (deleteConsumer streams name consumer) :=
  .of_update (fun _ _ => ⟨rfl, rfl, Nat.le_refl _, fun _ hm => .inl hm,
    fun _ hc => .inl (mem_filter.mp hc).1⟩) fun _ => rfl

theorem Evolves.delete (hgone : gone name) :
    Evolves newStream newMessage newConsumer gone streams (delete streams name) := by
  refine ⟨fun s hs => .inl ⟨s, (mem_filter.mp hs).1, .refl s⟩, ?_,
    fun hnd => hnd.sublist (filter_sublist.map _)⟩
  intro s hs
  by_cases hname : s.name = name
  · exact .inr (hname ▸ hgone)
  · exact .inl ⟨s, mem_filter.mpr ⟨hs, by simpa using hname⟩, rfl⟩

/-! ## Below a number -/

/-- The number is not past a stream's next one, and messages below it are as they should be. -/
structure Sealed (streams : List (Stream Owner)) (name : String) (before : Nat)
    (old : Message Owner → Prop) : Prop where
  present : ∃ s ∈ streams, s.name = name
  next : ∀ s ∈ streams, s.name = name → before ≤ s.lastSequence + 1
  below : ∀ s ∈ streams, s.name = name → ∀ m ∈ s.messages, m.sequence < before → old m

/-- The next number of a stream, read off where every message is as it should be. -/
theorem Sealed.of_find?
    (hnd : (streams.map Stream.name).Nodup) (hfind : find? streams name = some s)
    (hold : ∀ m ∈ s.messages, old m) : Sealed streams name (s.lastSequence + 1) old := by
  obtain ⟨hs, hname⟩ := find?_eq_some hfind
  have hone : ∀ t ∈ streams, t.name = name → t = s := fun t ht htname =>
    inj_on_of_nodup_map hnd ht hs (htname.trans hname.symm)
  refine ⟨⟨s, hs, hname⟩, ?_, ?_⟩
  · intro t ht htname
    exact Nat.le_of_eq (by rw [hone t ht htname])
  · intro t ht htname m hm _
    rw [hone t ht htname] at hm
    exact hold m hm

theorem Sealed.imp (h : Sealed streams name before old)
    (himp : ∀ s ∈ streams, s.name = name → ∀ m ∈ s.messages, old m → old' m) :
    Sealed streams name before old' :=
  ⟨h.present, h.next, fun s hs hname m hm hlow =>
    himp s hs hname m hm (h.below s hs hname m hm hlow)⟩

/-- **A number separates for good.** -/
theorem Sealed.evolves (h : Sealed streams name before old)
    (hstep : Evolves newStream newMessage newConsumer gone streams streams')
    (hgone : ¬ gone name) : Sealed streams' name before old := by
  obtain ⟨s₀, hs₀, hname₀⟩ := h.present
  -- a stream of that name descends from one: the name was not free
  have hdescends : ∀ s' ∈ streams', s'.name = name →
      ∃ s ∈ streams, s.name = name ∧ Descends newMessage newConsumer s s' := by
    intro s' hs' hname
    rcases hstep.source s' hs' with ⟨s, hs, hd⟩ | ⟨-, -, -, hfree⟩
    · exact ⟨s, hs, hd.name.symm.trans hname, hd⟩
    · exact absurd (hname₀.trans hname.symm) (hfree s₀ hs₀)
  refine ⟨?_, ?_, ?_⟩
  · rcases hstep.stays s₀ hs₀ with ⟨s', hs', hsame⟩ | hdeleted
    · exact ⟨s', hs', hsame.trans hname₀⟩
    · exact absurd (hname₀ ▸ hdeleted) hgone
  · intro s' hs' hname
    obtain ⟨s, hs, hsname, hd⟩ := hdescends s' hs' hname
    exact Nat.le_trans (h.next s hs hsname) (Nat.succ_le_succ hd.last)
  · intro s' hs' hname m hm hlow
    obtain ⟨s, hs, hsname, hd⟩ := hdescends s' hs' hname
    rcases hd.messages m hm with hm | ⟨hlate, -⟩
    · exact h.below s hs hsname m hm hlow
    · have hnext := h.next s hs hsname
      omega

/-- What is said of all streams, messages and consumers, and allowed of new ones, stays. -/
theorem Evolves.keeps {P : Stream Owner → Prop} {M : String → Message Owner → Prop}
    {C : String → Consumer Owner → Prop}
    (hstep : Evolves newStream newMessage newConsumer gone streams streams')
    (hstreams : ∀ s ∈ streams, P s) (hmsgs : ∀ s ∈ streams, ∀ m ∈ s.messages, M s.name m)
    (hconss : ∀ s ∈ streams, ∀ c ∈ s.consumers, C s.name c)
    (hP : ∀ s s' : Stream Owner, s'.name = s.name → s'.owner = s.owner → P s → P s')
    (hnew : ∀ s, newStream s → P s) (hnewM : ∀ name m, newMessage name m → M name m)
    (hnewC : ∀ name c, newConsumer name c → C name c) :
    (∀ s ∈ streams', P s) ∧ (∀ s ∈ streams', ∀ m ∈ s.messages, M s.name m) ∧
      ∀ s ∈ streams', ∀ c ∈ s.consumers, C s.name c := by
  refine ⟨?_, ?_, ?_⟩
  all_goals
    intro s' hs'
    rcases hstep.source s' hs' with ⟨s, hs, hd⟩ | ⟨hall, hnone, hnone', -⟩
  · exact hP s s' hd.name hd.owner (hstreams s hs)
  · exact hnew s' hall
  · intro m hm
    rw [hd.name]
    rcases hd.messages m hm with hm | ⟨-, hm⟩
    · exact hmsgs s hs m hm
    · exact hnewM s.name m hm
  · rw [hnone]
    exact fun _ hm => absurd hm not_mem_nil
  · intro c hc
    rw [hd.name]
    rcases hd.consumers c hc with hc | hc
    · exact hconss s hs c hc
    · exact hnewC s.name c hc
  · rw [hnone']
    exact fun _ hc => absurd hc not_mem_nil

end Evolution

end Streams
