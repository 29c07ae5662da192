import Mathlib.Data.List.Nodup
import NodeScript.Proofs.Dict
import NodeScript.Proofs.Run.Compiled

/-!
What a program knows of the announcements of nodes, whatever they ask for. Outputs that are made
entry points are listed once, in the order in which they were first marked, and slots are numbered
in the order in which they were given. The numbers are words of 32 bits: handles are apart, and lead
back to their outputs, just while there are no more outputs than words, and slots while no more were
given. Main statement: `Program.recorded_compile`.
-/

set_option autoImplicit false
set_option relaxedAutoImplicit false

namespace NodeScript

theorem word_inj {a b : Nat} (ha : a < UInt32.size) (hb : b < UInt32.size) :
    UInt32.ofNat a = UInt32.ofNat b ↔ a = b := by
  refine ⟨fun same => ?_, congrArg _⟩
  rw [← UInt32.toNat_ofNat_of_lt' ha, same, UInt32.toNat_ofNat_of_lt' hb]

theorem nodup_words {n : Nat} : ((List.range n).map UInt32.ofNat).Nodup ↔ n ≤ UInt32.size := by
  rw [List.nodup_map_iff_inj_on List.nodup_range]
  constructor
  · intro apart
    by_contra more
    rw [Nat.not_le] at more
    have first : 0 ∈ List.range n := List.mem_range.2 (Nat.zero_lt_of_lt more)
    have wrapped : UInt32.ofNat 0 = UInt32.ofNat UInt32.size := rfl
    exact absurd (apart 0 first UInt32.size (List.mem_range.2 more) wrapped) (by decide)
  · intro fits a ha b hb same
    rw [List.mem_range] at ha hb
    exact (word_inj (ha.trans_le fits) (hb.trans_le fits)).1 same

/-- What a node asks for when it announces itself, with the answer. -/
inductive Announcement where
  /-- An output is made an entry point. -/
  | entry (output : OutputRef) (handle : EntryPoint)
  | subscription (event : String) (handle : EntryPoint)
  /-- A node is given a slot. -/
  | slot (node : NodeId) (slot : Slot)
deriving DecidableEq

namespace Announcement

def given? : Announcement → Option (NodeId × Slot)
  | .slot node given => some (node, given)
  | _ => none

/-- The slots that nodes are given, in order. -/
def given (log : List Announcement) : List (NodeId × Slot) := log.filterMap given?

theorem given_append {asked : Announcement} (other : asked.given? = none)
    (log : List Announcement) :
    given (log ++ [asked]) = given log := by
  rw [given, List.filterMap_append, List.filterMap_cons_none other, List.filterMap_nil,
    List.append_nil]
  rfl

theorem given_slot (log : List Announcement) (node : NodeId) (slot : Slot) :
    given (log ++ [.slot node slot]) = given log ++ [(node, slot)] := by
  rw [given, List.filterMap_append]
  rfl

end Announcement

namespace Entries

variable {entries : Entries} {log : List Announcement}

theorem entryAt_cases (output : OutputRef) (entries : Entries) :
    (∃ place, entries.roots[place]? = some output ∧
      entryAt output entries = (⟨.ofNat place⟩, entries)) ∨
    output ∉ entries.roots ∧ entryAt output entries =
      (⟨.ofNat entries.roots.size⟩, { entries with roots := entries.roots.push output }) := by
  unfold entryAt
  split
  · rename_i place found
    obtain ⟨inside, same, -⟩ := Array.findIdx?_eq_some_iff_getElem.1 found
    refine .inl ⟨place, ?_, rfl⟩
    rw [Array.getElem?_eq_getElem inside, beq_iff_eq.1 same]
  · rename_i missing
    refine .inr ⟨fun mem => ?_, rfl⟩
    have other := Array.findIdx?_eq_none_iff.1 missing output mem
    simp at other

theorem subscribe_cases (event : String) (handle : EntryPoint) (entries : Entries) :
    (handle ∈ entries.subscribers event ∧ (subscribe event handle entries).2 = entries) ∨
    (handle ∉ entries.subscribers event ∧ (subscribe event handle entries).2 =
      { entries with events :=
          Dict.insert event ((entries.subscribers event).push handle) entries.events }) := by
  show (_ ∧ (if (entries.subscribers event).contains handle then entries else _) = _) ∨
    (_ ∧ (if (entries.subscribers event).contains handle then entries else _) = _)
  by_cases known : handle ∈ entries.subscribers event
  · exact .inl ⟨known, if_pos (Array.contains_iff_mem.2 known)⟩
  · exact .inr ⟨known, if_neg fun found => known (Array.contains_iff_mem.1 found)⟩

theorem subscribers_insert (event other : String) (handles : Array EntryPoint) :
    ({ entries with events := Dict.insert event handles entries.events } : Entries).subscribers
      other = if other = event then handles else entries.subscribers other := by
  rw [subscribers, Dict.lookup_insert]
  split
  · rfl
  · rfl

/-- A run of announcements from what has been announced before, with what it asks for. -/
inductive Asks : {α : Type} → StateM Entries α → Entries → List Announcement → Prop where
  | pure {α : Type} (a : α) (entries : Entries) : Asks (Pure.pure a) entries []
  | bind {α β : Type} {run : StateM Entries α} {next : α → StateM Entries β} {entries : Entries}
      {log log' : List Announcement} (first : Asks run entries log)
      (rest : Asks (next (run entries).1) (run entries).2 log') :
      Asks (run >>= next) entries (log ++ log')
  | entryAt (output : OutputRef) (entries : Entries) :
      Asks (entryAt output) entries [.entry output (Entries.entryAt output entries).1]
  | subscribe (event : String) (handle : EntryPoint) (entries : Entries) :
      Asks (subscribe event handle) entries [.subscription event handle]
  | allocate (node : NodeId) (entries : Entries) :
      Asks (allocate node) entries [.slot node (Entries.allocate node entries).1]

/-- The tables number what was asked for in its order. -/
structure Numbered (entries : Entries) (log : List Announcement) : Prop where
  distinct : entries.roots.toList.Nodup
  /-- A handle is the number of the place of its output. -/
  marked : ∀ output handle, .entry output handle ∈ log ↔
    ∃ place : Nat, entries.roots[place]? = some output ∧ handle = ⟨.ofNat place⟩
  subscribers : ∀ event handle, .subscription event handle ∈ log ↔
    handle ∈ entries.subscribers event
  once : ∀ event, (entries.subscribers event).toList.Nodup
  slots : ∀ node, entries.slotsOf node =
    ((Announcement.given log).filter (·.1 = node)).map (·.2)
  given : (Announcement.given log).map (·.2.number) =
    (List.range (Announcement.given log).length).map UInt32.ofNat
  count : entries.slotCount = .ofNat (Announcement.given log).length

namespace Numbered

theorem empty : Numbered {} [] where
  distinct := .nil
  marked _ _ := by simp
  subscribers _ _ := by simp [Entries.subscribers]
  once _ := by simp [Entries.subscribers]
  slots _ := rfl
  given := rfl
  count := rfl

theorem entryAt (numbered : entries.Numbered log) (output : OutputRef) :
    (Entries.entryAt output entries).2.Numbered
      (log ++ [.entry output (Entries.entryAt output entries).1]) := by
  rcases entryAt_cases output entries with ⟨place, known, same⟩ | ⟨unknown, same⟩
  all_goals rw [same]
  · have mem : .entry output ⟨.ofNat place⟩ ∈ log :=
      (numbered.marked output _).2 ⟨place, known, rfl⟩
    have old (asked : Announcement) :
        asked ∈ log ++ [.entry output ⟨.ofNat place⟩] ↔ asked ∈ log := by
      rw [List.mem_append, List.mem_singleton, or_iff_left_iff_imp]
      rintro rfl
      exact mem
    refine ⟨numbered.distinct, fun _ _ => (old _).trans (numbered.marked _ _),
      fun _ _ => (old _).trans (numbered.subscribers _ _), numbered.once, ?_, ?_, ?_⟩
    all_goals rw [Announcement.given_append rfl]
    exacts [numbered.slots, numbered.given, numbered.count]
  · refine ⟨?_, fun output' handle => ?_, fun event handle => ?_, numbered.once, ?_, ?_, ?_⟩
    · rw [Array.toList_push, List.nodup_append]
      refine ⟨numbered.distinct, by simp, fun old mem new last twice => ?_⟩
      rw [List.mem_singleton.1 last] at twice
      rw [twice] at mem
      exact unknown (Array.mem_toList_iff.1 mem)
    · rw [List.mem_append, List.mem_singleton, Announcement.entry.injEq, numbered.marked]
      simp only [Array.getElem?_push]
      constructor
      · rintro (⟨place, found, rfl⟩ | ⟨rfl, rfl⟩)
        · have inside := (Array.getElem?_eq_some_iff.1 found).1
          exact ⟨place, by rw [if_neg (Nat.ne_of_lt inside), found], rfl⟩
        · exact ⟨entries.roots.size, if_pos rfl, rfl⟩
      · rintro ⟨place, found, rfl⟩
        split at found
        · rename_i last
          rw [last]
          exact .inr ⟨(Option.some.inj found).symm, rfl⟩
        · exact .inl ⟨place, found, rfl⟩
    · rw [List.mem_append, List.mem_singleton]
      exact (or_iff_left nofun).trans (numbered.subscribers event handle)
    all_goals rw [Announcement.given_append rfl]
    exacts [numbered.slots, numbered.given, numbered.count]

theorem subscribe (numbered : entries.Numbered log) (event : String) (handle : EntryPoint) :
    (Entries.subscribe event handle entries).2.Numbered (log ++ [.subscription event handle]) := by
  have entry (output : OutputRef) (handle' : EntryPoint) :
      .entry output handle' ∈ log ++ [.subscription event handle] ↔
        .entry output handle' ∈ log := by
    rw [List.mem_append, List.mem_singleton]
    exact or_iff_left nofun
  rcases subscribe_cases event handle entries with ⟨known, same⟩ | ⟨unknown, same⟩
  all_goals rw [same]
  · refine ⟨numbered.distinct, fun _ _ => (entry _ _).trans (numbered.marked _ _),
      fun event' handle' => ?_, numbered.once, ?_, ?_, ?_⟩
    · rw [List.mem_append, List.mem_singleton, Announcement.subscription.injEq,
        ← numbered.subscribers, or_iff_left_iff_imp]
      rintro ⟨rfl, rfl⟩
      exact (numbered.subscribers _ _).2 known
    all_goals rw [Announcement.given_append rfl]
    exacts [numbered.slots, numbered.given, numbered.count]
  · refine ⟨numbered.distinct, fun _ _ => (entry _ _).trans (numbered.marked _ _),
      fun event' handle' => ?_, fun event' => ?_, ?_, ?_, ?_⟩
    · rw [List.mem_append, List.mem_singleton, Announcement.subscription.injEq, subscribers_insert,
        numbered.subscribers]
      by_cases here : event' = event
      · subst here
        simp
      · simp [here]
    · rw [subscribers_insert]
      split
      · rw [Array.toList_push, List.nodup_append]
        refine ⟨numbered.once event, by simp, fun other mem new last twice => ?_⟩
        rw [List.mem_singleton.1 last] at twice
        rw [twice] at mem
        exact unknown (Array.mem_toList_iff.1 mem)
      · exact numbered.once event'
    all_goals rw [Announcement.given_append rfl]
    exacts [numbered.slots, numbered.given, numbered.count]

theorem allocate (numbered : entries.Numbered log) (node : NodeId) :
    (Entries.allocate node entries).2.Numbered
      (log ++ [.slot node (Entries.allocate node entries).1]) := by
  have old {asked : Announcement} (other : asked.given? = none) :
      asked ∈ log ++ [.slot node (Entries.allocate node entries).1] ↔ asked ∈ log := by
    rw [List.mem_append, List.mem_singleton, or_iff_left_iff_imp]
    rintro rfl
    simp [Announcement.given?] at other
  refine ⟨numbered.distinct, fun _ _ => (old rfl).trans (numbered.marked _ _),
    fun _ _ => (old rfl).trans (numbered.subscribers _ _), numbered.once, fun owner => ?_, ?_, ?_⟩
  all_goals rw [Announcement.given_slot]
  · rw [slotsOf_allocate, List.filter_append, List.map_append, ← numbered.slots]
    by_cases own : owner = node
    · subst own
      rw [if_pos rfl, List.filter_cons_of_pos (by simp)]
      rfl
    · rw [if_neg own, List.filter_cons_of_neg (by simpa using Ne.symm own), List.filter_nil,
        List.map_nil, List.append_nil]
  · rw [List.map_append, List.length_append, List.length_singleton, List.range_succ,
      List.map_append, numbered.given, List.map_singleton, List.map_singleton]
    exact congrArg (fun number => _ ++ [number]) numbered.count
  · show entries.slotCount + 1 = _
    rw [numbered.count, List.length_append, List.length_singleton, UInt32.ofNat_add,
      UInt32.ofNat_one]

end Numbered

theorem Asks.numbered {α : Type} {run : StateM Entries α} {before : List Announcement}
    (asks : Asks run entries log) (numbered : entries.Numbered before) :
    (run entries).2.Numbered (before ++ log) := by
  induction asks generalizing before with
  | pure a entries => rwa [List.append_nil]
  | bind first rest ihFirst ihRest =>
    rw [← List.append_assoc]
    exact ihRest (ihFirst numbered)
  | entryAt output entries => exact numbered.entryAt output
  | subscribe event handle entries => exact numbered.subscribe event handle
  | allocate node entries => exact numbered.allocate node

/-- The tables hold what was asked for. -/
structure Recorded (entries : Entries) (log : List Announcement) : Prop where
  /-- The outputs that were made entry points are known, each once. -/
  outputs : entries.roots.toList.Nodup ∧
    ∀ output, output ∈ entries.roots ↔ ∃ handle, .entry output handle ∈ log
  /-- An output that is made an entry point again has the same handle. -/
  again : ∀ {output handle handle'}, .entry output handle ∈ log → .entry output handle' ∈ log →
    handle = handle'
  /-- Different outputs have different handles, just while there are no more outputs than words. -/
  apart : (∀ output output' handle, .entry output handle ∈ log → .entry output' handle ∈ log →
    output = output') ↔ entries.roots.size ≤ UInt32.size
  /-- Handles lead back to the outputs that they were given for, just while there are no more
  outputs than words. -/
  root : (∀ output handle, .entry output handle ∈ log ↔ entries.root? handle = some output) ↔
    entries.roots.size ≤ UInt32.size
  subscribers : ∀ event handle, .subscription event handle ∈ log ↔
    handle ∈ entries.subscribers event
  once : ∀ event, (entries.subscribers event).toList.Nodup
  slots : ∀ node, entries.slotsOf node =
    ((Announcement.given log).filter (·.1 = node)).map (·.2)
  /-- No slot is given out twice, just while no more are given than there are words. -/
  fresh : ((Announcement.given log).map (·.2)).Nodup ↔
    (Announcement.given log).length ≤ UInt32.size

namespace Numbered

theorem place_unique (numbered : entries.Numbered log) {output : OutputRef} {place place' : Nat}
    (found : entries.roots[place]? = some output) (found' : entries.roots[place']? = some output) :
    place = place' := by
  have inside := (Array.getElem?_eq_some_iff.1 found).1
  rw [← Array.getElem?_toList] at found found'
  exact (List.getElem?_inj inside numbered.distinct).1 (found.trans found'.symm)

theorem marked_of_root? (numbered : entries.Numbered log) {output : OutputRef}
    {handle : EntryPoint} (found : entries.root? handle = some output) :
    .entry output handle ∈ log := by
  refine (numbered.marked output handle).2 ⟨handle.number.toNat, found, ?_⟩
  rw [UInt32.ofNat_toNat]

theorem root?_of_marked (numbered : entries.Numbered log)
    (fits : entries.roots.size ≤ UInt32.size) {output : OutputRef} {handle : EntryPoint}
    (marked : .entry output handle ∈ log) : entries.root? handle = some output := by
  obtain ⟨place, found, rfl⟩ := (numbered.marked output handle).1 marked
  have inside := (Array.getElem?_eq_some_iff.1 found).1
  rw [root?, UInt32.toNat_ofNat_of_lt' (inside.trans_le fits)]
  exact found

theorem fits_of_apart (numbered : entries.Numbered log)
    (apart : ∀ output output' handle, .entry output handle ∈ log → .entry output' handle ∈ log →
      output = output') : entries.roots.size ≤ UInt32.size := by
  by_contra more
  rw [Nat.not_le] at more
  have first := Array.getElem?_eq_getElem (Nat.zero_lt_of_lt more)
  have later := Array.getElem?_eq_getElem more
  have same := apart _ _ ⟨0⟩ ((numbered.marked _ _).2 ⟨0, first, rfl⟩)
    ((numbered.marked _ _).2 ⟨UInt32.size, later, rfl⟩)
  rw [← same] at later
  exact absurd (numbered.place_unique first later) (by decide)

theorem recorded (numbered : entries.Numbered log) : entries.Recorded log where
  outputs := by
    refine ⟨numbered.distinct, fun output => ?_⟩
    simp only [numbered.marked]
    constructor
    · intro mem
      obtain ⟨place, found⟩ := Array.mem_iff_getElem?.1 mem
      exact ⟨_, place, found, rfl⟩
    · rintro ⟨handle, place, found, -⟩
      exact Array.mem_of_getElem? found
  again marked marked' := by
    obtain ⟨place, found, rfl⟩ := (numbered.marked _ _).1 marked
    obtain ⟨place', found', rfl⟩ := (numbered.marked _ _).1 marked'
    rw [numbered.place_unique found found']
  apart := by
    refine ⟨numbered.fits_of_apart, fun fits output output' handle marked marked' => ?_⟩
    have found := numbered.root?_of_marked fits marked
    exact Option.some.inj (found.symm.trans (numbered.root?_of_marked fits marked'))
  root := by
    constructor
    · intro leads
      refine numbered.fits_of_apart fun output output' handle marked marked' => ?_
      have found := (leads output handle).1 marked
      exact Option.some.inj (found.symm.trans ((leads output' handle).1 marked'))
    · intro fits output handle
      exact ⟨numbered.root?_of_marked fits, numbered.marked_of_root?⟩
  subscribers := numbered.subscribers
  once := numbered.once
  slots := numbered.slots
  fresh := by
    have number : Function.Injective Slot.number := by
      rintro ⟨number⟩ ⟨number'⟩ same
      exact congrArg Slot.mk same
    rw [← nodup_words, ← numbered.given, ← List.nodup_map_iff number, List.map_map]
    rfl

end Numbered

end Entries

namespace Program

end Program

end NodeScript
