import NodeScript.Dict
import NodeScript.Graph.Address

/-!
What nodes announce when a graph is compiled: the signal outputs from which runs start, the events
that start them, and the slots for the variables of loops. Handles and slots are numbered by words
of 32 bits, which wrap around.
-/

set_option autoImplicit false
set_option relaxedAutoImplicit false

namespace NodeScript

/-- A handle for a signal output from which runs start. -/
structure EntryPoint where
  number : UInt32
deriving DecidableEq, Inhabited, Repr

/-- A place for a variable that belongs to a node. -/
structure Slot where
  number : UInt32
deriving DecidableEq, Inhabited, Repr

instance : ToString Slot := ⟨fun slot => s!"${slot.number}"⟩

/-- The announcements of the nodes of a graph. -/
structure Entries where
  /-- The outputs behind the entry points, in the order of their marks. -/
  roots : Array OutputRef := #[]
  /-- The entry points of each event, in the order of their subscription. -/
  events : Dict (Array EntryPoint) := []
  slots : List (NodeId × List Slot) := []
  /-- The number of the next slot. -/
  slotCount : UInt32 := 0
deriving Inhabited, Repr

namespace Entries

/-- The output that a run from an entry point starts at. -/
def root? (entries : Entries) (entry : EntryPoint) : Option OutputRef :=
  entries.roots[entry.number.toNat]?

/-- The entry points of an event. -/
def subscribers (entries : Entries) (event : String) : Array EntryPoint :=
  (entries.events.lookup event).getD #[]

/-- The slots of a node, in the order of their allocation. -/
def slotsOf (entries : Entries) (node : NodeId) : List Slot :=
  (entries.slots.lookup node).getD []

/-- Makes an output an entry point. An output has one handle, however often it is marked. -/
def entryAt (output : OutputRef) : StateM Entries EntryPoint := fun entries =>
  match entries.roots.findIdx? (· == output) with
  | some place => (⟨.ofNat place⟩, entries)
  | none => (⟨.ofNat entries.roots.size⟩, { entries with roots := entries.roots.push output })

/-- Runs an entry point whenever the event fires, once each time. -/
def subscribe (event : String) (entry : EntryPoint) : StateM Entries Unit :=
  modify fun entries =>
    let known := entries.subscribers event
    if known.contains entry then entries
    else { entries with events := Dict.insert event (known.push entry) entries.events }

/-- Gives a node the next slot. -/
def allocate (node : NodeId) : StateM Entries Slot := fun entries =>
  let slot : Slot := ⟨entries.slotCount⟩
  (slot, { entries with
    slots := Assoc.put node (entries.slotsOf node ++ [slot]) entries.slots
    slotCount := entries.slotCount + 1 })

end Entries

end NodeScript
