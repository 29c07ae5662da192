import NodeScript.Proofs.Format.Loaded
import NodeScript.Proofs.Run.Recorded

/-!
What compiled programs know of the nodes of a script: one entry point of each node that waits for an
event, which is subscribed to that event, and two slots of each loop. Main statement:
`Program.compile_matches`.
-/

set_option autoImplicit false
set_option relaxedAutoImplicit false

namespace NodeScript

def Node.event? (node : Node) : Option String :=
  if node.kind = .builtin Catalog.onEvent.id then some (Catalog.eventName.value node.config)
  else none

def Graph.listeners (graph : Graph) (event : String) : List NodeId :=
  (graph.live.filter fun entry => entry.2.event? = some event).map (·.1)

private def awaited? (node : NodeId × String × Json) : Option String :=
  if node.2.1 = Catalog.onEvent.id then some (Catalog.eventName.value node.2.2) else none

private theorem awaited?_builtin? (id : NodeId) (node : Node) :
    (node.form.builtin?.map (id, ·)).bind awaited? = node.event? := by
  unfold Form.builtin? Node.form Node.event?
  cases kind : node.kind <;> simp [awaited?]

theorem Graph.mem_listeners {graph : Graph} {event : String} {id : NodeId} :
    id ∈ graph.listeners event ↔ ∃ node, graph.node? id = some node ∧ node.event? = some event := by
  simp [listeners, mem_live]

private theorem Graph.listeners_eq (graph : Graph) (event : String) :
    graph.listeners event = (graph.builtins.filter (awaited? · = some event)).map (·.1) := by
  rw [listeners, builtins]
  induction graph.live with
  | nil => rfl
  | cons entry rest ih =>
    obtain ⟨id, node⟩ := entry
    have same := awaited?_builtin? id node
    rw [List.filter_cons, List.filterMap_cons]
    dsimp only
    cases found : node.form.builtin? with
    | none =>
      rw [found] at same
      rw [← same, if_neg (by simp)]
      exact ih
    | some builtin =>
      rw [found] at same
      rw [← same, Option.map_some]
      dsimp only [Option.bind_some]
      rw [List.filter_cons]
      by_cases waits : awaited? (id, builtin) = some event
      · rw [if_pos (by simpa using waits), if_pos (by simpa using waits), List.map_cons, ih,
          List.map_cons]
      · rw [if_neg (by simpa using waits), if_neg (by simpa using waits), ih]

/-- No two nodes that wait for events have the same handle. -/
def Graph.HandlesFit (graph : Graph) : Prop :=
  graph.population Catalog.onEvent.id ≤ UInt32.size

instance (graph : Graph) : Decidable graph.HandlesFit :=
  inferInstanceAs (Decidable (graph.population Catalog.onEvent.id ≤ UInt32.size))

namespace Entries

variable {entries : Entries}

theorem root?_push (room : entries.roots.size < UInt32.size) (output : OutputRef)
    (handle : EntryPoint) :
    ({ entries with roots := entries.roots.push output } : Entries).root? handle =
      if handle = ⟨.ofNat entries.roots.size⟩ then some output else entries.root? handle := by
  obtain ⟨number⟩ := handle
  simp only [root?, Array.getElem?_push, EntryPoint.mk.injEq]
  refine if_congr ⟨fun last => ?_, fun last => ?_⟩ rfl rfl
  · rw [← last, UInt32.ofNat_toNat]
  · rw [last, UInt32.toNat_ofNat_of_lt' room]

theorem root?_size (room : entries.roots.size < UInt32.size) :
    entries.root? ⟨.ofNat entries.roots.size⟩ = none := by
  rw [root?, UInt32.toNat_ofNat_of_lt' room]
  exact Array.getElem?_size

theorem mem_events_of_subscriber {event : String} {handle : EntryPoint}
    (mem : handle ∈ entries.subscribers event) : event ∈ entries.events.map (·.1) := by
  unfold subscribers at mem
  cases found : entries.events.lookup event with
  | none => simp [found] at mem
  | some handles => exact Dict.mem_keys_iff.2 ⟨handles, found⟩

/-- The entry points begin at the nodes that wait for events, in their order, and the events are
those that they wait for. -/
structure Listed (nodes : List (NodeId × String × Json)) (entries : Entries) : Prop where
  roots : entries.roots.toList = (nodes.filter (awaited? · |>.isSome)).map (⟨·.1, 0⟩)
  ascending : Dict.Ascending entries.events
  known : ∀ event, event ∈ entries.events.map (·.1) ↔ ∃ node ∈ nodes, awaited? node = some event

namespace Listed

variable {next : Entries} {nodes : List (NodeId × String × Json)} {id : NodeId}

theorem empty : Listed [] {} where
  roots := rfl
  ascending := Dict.ascending_nil
  known _ := by simp

/-- A node that waits for nothing. -/
private theorem other (listed : entries.Listed nodes) {node : NodeId × String × Json}
    (waits : awaited? node = none) (roots : next.roots = entries.roots)
    (events : next.events = entries.events) : next.Listed (nodes ++ [node]) where
  roots := by
    rw [roots, List.filter_append, List.filter_cons_of_neg (by simp [waits])]
    simpa using listed.roots
  ascending := by
    rw [events]
    exact listed.ascending
  known event := by
    rw [events, listed.known]
    simp [waits]

private theorem node_of_root (listed : entries.Listed nodes) {root : OutputRef}
    (mem : root ∈ entries.roots) : root.node ∈ nodes.map (·.1) := by
  rw [← Array.mem_toList_iff] at mem
  rw [listed.roots, List.mem_map] at mem
  obtain ⟨node, mem, rfl⟩ := mem
  exact List.mem_map_of_mem (List.mem_of_mem_filter mem)

private theorem entryAt_eq (listed : entries.Listed nodes) (new : id ∉ nodes.map (·.1)) :
    entryAt ⟨id, 0⟩ entries = (⟨.ofNat entries.roots.size⟩,
      { entries with roots := entries.roots.push ⟨id, 0⟩ }) := by
  rcases entryAt_cases ⟨id, 0⟩ entries with ⟨place, found, -⟩ | ⟨-, marked⟩
  · exact absurd (listed.node_of_root (Array.mem_of_getElem? found)) new
  · exact marked

/-- A node that waits for an event. -/
private theorem event (listed : entries.Listed nodes) (new : id ∉ nodes.map (·.1))
    (config : Json) : (Catalog.onEvent.behavior.announce id config entries).2.Listed
      (nodes ++ [(id, Catalog.onEvent.id, config)]) := by
  let name := Catalog.eventName.value config
  have waits : awaited? (id, Catalog.onEvent.id, config) = some name := if_pos rfl
  let pushed : Entries := { entries with roots := entries.roots.push ⟨id, 0⟩ }
  have announced : (Catalog.onEvent.behavior.announce id config entries).2 =
      (subscribe name ⟨.ofNat entries.roots.size⟩ pushed).2 := by
    show (subscribe name (entryAt ⟨id, 0⟩ entries).1 (entryAt ⟨id, 0⟩ entries).2).2 = _
    rw [listed.entryAt_eq new]
  have roots : pushed.roots.toList = ((nodes ++ [(id, Catalog.onEvent.id, config)]).filter
      (awaited? · |>.isSome)).map (⟨·.1, 0⟩) := by
    rw [Array.toList_push, listed.roots, List.filter_append,
      List.filter_cons_of_pos (by simp [waits])]
    simp
  have known (event : String) : (∃ node ∈ nodes ++ [(id, Catalog.onEvent.id, config)],
      awaited? node = some event) ↔ event = name ∨ event ∈ entries.events.map (·.1) := by
    rw [listed.known]
    simp [waits, eq_comm, or_comm]
  rw [announced]
  rcases subscribe_cases name ⟨.ofNat entries.roots.size⟩ pushed with ⟨heard, same⟩ | ⟨-, same⟩
  · rw [same]
    refine ⟨roots, listed.ascending, fun event => ?_⟩
    rw [known]
    refine ⟨.inr, ?_⟩
    rintro (rfl | mem)
    · exact mem_events_of_subscriber heard
    · exact mem
  · rw [same]
    refine ⟨roots, Dict.ascending_insert listed.ascending, fun event => ?_⟩
    rw [known]
    exact Dict.mem_keys_insert

theorem foldl (nodup : (nodes.map (·.1)).Nodup) :
    (nodes.foldl (Program.announce .builtin) {}).Listed nodes := by
  induction nodes using List.reverseRecOn with
  | nil => exact empty
  | append_singleton nodes node ih =>
    obtain ⟨id, type, config⟩ := node
    rw [List.map_append, List.nodup_append] at nodup
    have listed := ih nodup.1
    rw [List.foldl_append, List.foldl_cons, List.foldl_nil, Program.announce_builtin]
    split
    · rename_i waits
      subst waits
      exact listed.event (fun mem => nodup.2.2 id mem id (by simp) rfl) config
    · rename_i waits
      have waits : awaited? (id, type, config) = none := if_neg waits
      split
      · exact listed.other waits rfl rfl
      · exact listed.other waits rfl rfl

theorem size_roots (listed : entries.Listed nodes) :
    entries.roots.size = nodes.countP (·.2.1 = Catalog.onEvent.id) := by
  rw [← Array.length_toList, listed.roots, List.length_map, ← List.countP_eq_length_filter]
  refine List.countP_congr fun node _ => ?_
  unfold awaited?
  split <;> simp [*]

end Listed

/-- Each entry point is subscribed to the event that its node waits for. -/
structure Subscribed (nodes : List (NodeId × String × Json)) (entries : Entries) : Prop
    extends entries.Listed nodes where
  subscribers : ∀ event, (entries.subscribers event).toList.map entries.root? =
    (nodes.filter (awaited? · = some event)).map fun node => some ⟨node.1, 0⟩

namespace Subscribed

variable {next : Entries} {nodes : List (NodeId × String × Json)} {id : NodeId}

/-- A node that waits for nothing. -/
private theorem other (subscribed : entries.Subscribed nodes) {node : NodeId × String × Json}
    (waits : awaited? node = none) (roots : next.roots = entries.roots)
    (events : next.events = entries.events) : next.Subscribed (nodes ++ [node]) where
  toListed := subscribed.toListed.other waits roots events
  subscribers event := by
    have same : next.root? = entries.root? := by
      funext handle
      rw [root?, root?, roots]
    have heard : next.subscribers event = entries.subscribers event := by
      rw [Entries.subscribers, Entries.subscribers, events]
    rw [same, heard, List.filter_append, List.filter_cons_of_neg (by simp [waits])]
    simpa using subscribed.subscribers event

private theorem root_of_subscriber (subscribed : entries.Subscribed nodes) {event : String}
    {handle : EntryPoint} (mem : handle ∈ entries.subscribers event) :
    ∃ root, entries.root? handle = some root := by
  have listed : entries.root? handle ∈ (entries.subscribers event).toList.map entries.root? :=
    List.mem_map_of_mem (Array.mem_toList_iff.2 mem)
  rw [subscribed.subscribers, List.mem_map] at listed
  obtain ⟨node, -, same⟩ := listed
  exact ⟨_, same.symm⟩

private theorem next_not_subscriber (subscribed : entries.Subscribed nodes)
    (room : entries.roots.size < UInt32.size) (event : String) :
    (⟨.ofNat entries.roots.size⟩ : EntryPoint) ∉ entries.subscribers event := by
  intro mem
  obtain ⟨root, found⟩ := subscribed.root_of_subscriber mem
  simp [root?_size room] at found

private theorem map_root?_push (subscribed : entries.Subscribed nodes)
    (room : entries.roots.size < UInt32.size) (output : OutputRef) (event : String) :
    (entries.subscribers event).toList.map
        ({ entries with roots := entries.roots.push output } : Entries).root? =
      (nodes.filter (awaited? · = some event)).map fun node => some ⟨node.1, 0⟩ := by
  rw [← subscribed.subscribers]
  refine List.map_congr_left fun handle mem => ?_
  rw [root?_push room, if_neg]
  rintro rfl
  exact subscribed.next_not_subscriber room event (Array.mem_toList_iff.1 mem)

private theorem announce_event (subscribed : entries.Subscribed nodes)
    (room : entries.roots.size < UInt32.size) (new : id ∉ nodes.map (·.1)) (config : Json) :
    (Catalog.onEvent.behavior.announce id config entries).2 =
      let name := Catalog.eventName.value config
      { entries with
        roots := entries.roots.push ⟨id, 0⟩
        events := Dict.insert name ((entries.subscribers name).push ⟨.ofNat entries.roots.size⟩)
          entries.events } := by
  show (subscribe _ (entryAt ⟨id, 0⟩ entries).1 (entryAt ⟨id, 0⟩ entries).2).2 = _
  rw [subscribed.toListed.entryAt_eq new]
  let pushed : Entries := { entries with roots := entries.roots.push ⟨id, 0⟩ }
  exact ((subscribe_cases _ ⟨.ofNat entries.roots.size⟩ pushed).resolve_left fun known =>
    subscribed.next_not_subscriber room _ known.1).2

/-- A node that waits for an event. -/
private theorem event (subscribed : entries.Subscribed nodes)
    (room : entries.roots.size < UInt32.size) (new : id ∉ nodes.map (·.1)) (config : Json) :
    (Catalog.onEvent.behavior.announce id config entries).2.Subscribed
      (nodes ++ [(id, Catalog.onEvent.id, config)]) where
  toListed := subscribed.toListed.event new config
  subscribers event := by
    let name := Catalog.eventName.value config
    have waits : awaited? (id, Catalog.onEvent.id, config) = some name := if_pos rfl
    rw [subscribed.announce_event room new]
    show ((({ entries with events := Dict.insert name _ entries.events } : Entries).subscribers
      event).toList.map ({ entries with roots := entries.roots.push ⟨id, 0⟩ } : Entries).root?) = _
    rw [subscribers_insert, List.filter_append, List.map_append]
    by_cases here : event = name
    · subst here
      rw [if_pos rfl, Array.toList_push, List.map_append, subscribed.map_root?_push room,
        List.filter_cons_of_pos (by simpa using waits), List.map_singleton, root?_push room,
        if_pos rfl]
      rfl
    · rw [if_neg here, subscribed.map_root?_push room, List.filter_cons_of_neg]
      · exact (List.append_nil _).symm
      · simpa [waits] using Ne.symm here

theorem foldl (nodup : (nodes.map (·.1)).Nodup)
    (fits : nodes.countP (·.2.1 = Catalog.onEvent.id) ≤ UInt32.size) :
    (nodes.foldl (Program.announce .builtin) {}).Subscribed nodes := by
  induction nodes using List.reverseRecOn with
  | nil => exact ⟨.empty, fun _ => rfl⟩
  | append_singleton nodes node ih =>
    obtain ⟨id, type, config⟩ := node
    rw [List.map_append, List.nodup_append] at nodup
    rw [List.countP_append] at fits
    have subscribed := ih nodup.1 (Nat.le_of_add_right_le fits)
    rw [List.foldl_append, List.foldl_cons, List.foldl_nil, Program.announce_builtin]
    split
    · rename_i waits
      subst waits
      rw [← subscribed.toListed.size_roots] at fits
      exact subscribed.event fits (fun mem => nodup.2.2 id mem id (by simp) rfl) config
    · rename_i waits
      have waits : awaited? (id, type, config) = none := if_neg waits
      split
      · exact subscribed.other waits rfl rfl
      · exact subscribed.other waits rfl rfl

end Subscribed

end Entries

namespace Program

variable {graph : Graph}

theorem listed (graph : Graph) :
    (compile graph .builtin).entries.Listed graph.builtins := by
  rw [entries_compile]
  exact .foldl graph.builtins_nodup

theorem subscribed (fits : graph.HandlesFit) :
    (compile graph .builtin).entries.Subscribed graph.builtins := by
  rw [Graph.HandlesFit, graph.population_eq] at fits
  rw [entries_compile]
  exact .foldl graph.builtins_nodup fits

theorem subscribers_compile (fits : graph.HandlesFit) (event : String) :
    ((compile graph .builtin).entries.subscribers event).toList.map
      (compile graph .builtin).entries.root? =
        (graph.listeners event).map fun id => some ⟨id, 0⟩ := by
  rw [(subscribed fits).subscribers, Graph.listeners_eq, List.map_map]
  rfl

theorem mem_events_compile (graph : Graph) {event : String} :
    event ∈ (compile graph .builtin).entries.events.map (·.1) ↔
      ∃ id node, graph.node? id = some node ∧ node.event? = some event := by
  have listed : (∃ node ∈ graph.builtins, awaited? node = some event) ↔
      ∃ id, id ∈ graph.listeners event := by
    simp only [Graph.listeners_eq, List.mem_map, List.mem_filter, decide_eq_true_eq]
    exact ⟨fun ⟨node, mem⟩ => ⟨node.1, node, mem, rfl⟩, fun ⟨_, node, mem, _⟩ => ⟨node, mem⟩⟩
  rw [(Program.listed graph).known, listed]
  exact exists_congr fun id => Graph.mem_listeners

namespace Matches

variable {program : Program}

end Matches

end Program

end NodeScript
