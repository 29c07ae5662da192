import NodeScript.Proofs.Run.Compiled
import NodeScript.Proofs.Run.Moved

/-!
What nodes announce at other addresses. Entry points and slots are numbered as the nodes come, so
nodes that come in the same order announce the same. Main statement: `Program.announce_moved`.
-/

set_option autoImplicit false
set_option relaxedAutoImplicit false

namespace NodeScript

/-- The same has been announced by nodes at other addresses. -/
structure Entries.Moved (moving : Moving) (entries entries' : Entries) : Prop where
  roots : List.Forall₂ moving.Output entries.roots.toList entries'.roots.toList
  events : entries.events = entries'.events
  slots : moving.Entries entries.slots entries'.slots
  slotCount : entries.slotCount = entries'.slotCount

variable {moving : Moving}

namespace Entries.Moved

variable {entries entries' : Entries}

theorem empty (moving : Moving) : ({} : Entries).Moved moving {} := by
  exact ⟨.nil, rfl, .nil, rfl⟩

theorem root? (moved : entries.Moved moving entries') (entry : EntryPoint) :
    Option.Rel moving.Output (entries.root? entry) (entries'.root? entry) := by
  rw [Entries.root?, Entries.root?, ← Array.getElem?_toList, ← Array.getElem?_toList]
  generalize entry.number.toNat = i
  have roots := moved.roots
  generalize entries.roots.toList = outputs at roots ⊢
  generalize entries'.roots.toList = outputs' at roots ⊢
  induction roots generalizing i with
  | nil => exact .none
  | cons here _ ih =>
    cases i with
    | zero => exact .some here
    | succ i => exact ih i

theorem subscribers (moved : entries.Moved moving entries') (event : String) :
    entries.subscribers event = entries'.subscribers event := by
  rw [Entries.subscribers, Entries.subscribers, moved.events]

theorem slotsOf (moved : entries.Moved moving entries') {node node' : NodeId}
    (address : moving.address? node = some node') :
    entries.slotsOf node = entries'.slotsOf node' := by
  rw [Entries.slotsOf, Entries.slotsOf, moved.slots.lookup_eq address]

private theorem findIdx?_eq (moved : entries.Moved moving entries') {output output' : OutputRef}
    (same : moving.Output output output') :
    entries.roots.findIdx? (· == output) = entries'.roots.findIdx? (· == output') := by
  have roots := moved.roots
  rw [← entries.roots.toArray_toList, ← entries'.roots.toArray_toList, List.findIdx?_toArray,
    List.findIdx?_toArray]
  generalize entries.roots.toList = outputs at roots ⊢
  generalize entries'.roots.toList = outputs' at roots ⊢
  induction roots with
  | nil => rfl
  | @cons root root' roots roots' here _ ih =>
    have equal : (root == output) = (root' == output') := by
      rw [Bool.eq_iff_iff, beq_iff_eq, beq_iff_eq]
      constructor
      · rintro rfl
        exact here.unique same
      · rintro rfl
        exact here.injective same
    rw [List.findIdx?_cons, List.findIdx?_cons, equal, ih]

theorem entryAt (moved : entries.Moved moving entries') {output output' : OutputRef}
    (same : moving.Output output output') :
    (Entries.entryAt output entries).1 = (Entries.entryAt output' entries').1 ∧
      (Entries.entryAt output entries).2.Moved moving (Entries.entryAt output' entries').2 := by
  have size : entries.roots.size = entries'.roots.size := moved.roots.length_eq
  have handle := congrArg (fun n => EntryPoint.mk (.ofNat n)) size
  unfold Entries.entryAt
  rw [moved.findIdx?_eq same]
  cases entries'.roots.findIdx? (· == output') with
  | some place => exact ⟨rfl, moved⟩
  | none =>
    refine ⟨handle, ?_, moved.events, moved.slots, moved.slotCount⟩
    rw [Array.toList_push, Array.toList_push]
    exact List.rel_append moved.roots (.cons same .nil)

theorem subscribe (moved : entries.Moved moving entries') (event : String) (entry : EntryPoint) :
    (Entries.subscribe event entry entries).2.Moved moving
      (Entries.subscribe event entry entries').2 := by
  show (if (entries.subscribers event).contains entry then entries else _).Moved moving
    (if (entries'.subscribers event).contains entry then entries' else _)
  rw [moved.subscribers]
  split
  · exact moved
  · exact { moved with events := congrArg (Dict.insert event _) moved.events }

theorem allocate (moved : entries.Moved moving entries') {node node' : NodeId}
    (address : moving.address? node = some node') :
    (Entries.allocate node entries).2.Moved moving (Entries.allocate node' entries').2 where
  roots := moved.roots
  events := moved.events
  slots := by
    show moving.Entries (Assoc.put node (entries.slotsOf node ++ [⟨entries.slotCount⟩]) _)
      (Assoc.put node' (entries'.slotsOf node' ++ [⟨entries'.slotCount⟩]) _)
    rw [moved.slotsOf address, moved.slotCount]
    exact moved.slots.put address _
  slotCount := congrArg (· + 1) moved.slotCount

end Entries.Moved

/-- A node announces the same at another address. -/
theorem Program.announce_moved {entries entries' : Entries} (moved : entries.Moved moving entries')
    {node node' : NodeId} (address : moving.address? node = some node') (builtin : String × Json) :
    (announce .builtin entries (node, builtin)).Moved moving
      (announce .builtin entries' (node', builtin)) := by
  obtain ⟨type, config⟩ := builtin
  rw [announce_builtin, announce_builtin]
  split
  · have output : moving.Output ⟨node, 0⟩ ⟨node', 0⟩ := ⟨address, rfl⟩
    obtain ⟨entry, marked⟩ := moved.entryAt output
    show (Entries.subscribe _ (Entries.entryAt ⟨node, 0⟩ entries).1
        (Entries.entryAt ⟨node, 0⟩ entries).2).2.Moved moving
      (Entries.subscribe _ (Entries.entryAt ⟨node', 0⟩ entries').1
        (Entries.entryAt ⟨node', 0⟩ entries').2).2
    rw [entry]
    exact marked.subscribe _ _
  · split
    · exact (moved.allocate address).allocate address
    · exact moved

theorem Program.announced_moved {nodes nodes' : List (NodeId × String × Json)}
    (same : moving.Entries nodes nodes') {entries entries' : Entries}
    (moved : entries.Moved moving entries') :
    (nodes.foldl (announce .builtin) entries).Moved moving
      (nodes'.foldl (announce .builtin) entries') := by
  induction same generalizing entries entries' with
  | nil => exact moved
  | @cons node node' nodes nodes' here _ ih =>
    obtain ⟨id, builtin⟩ := node
    obtain ⟨id', builtin'⟩ := node'
    obtain ⟨address, rfl⟩ : moving.address? id = some id' ∧ builtin = builtin' := here
    exact ih (announce_moved moved address builtin)

end NodeScript
