import Mathlib.Data.List.Induction
import Mathlib.Data.List.Sort
import NodeScript.Proofs.Catalog.Config
import NodeScript.Proofs.Graph.Form
import NodeScript.Run.Machine

/-!
What a graph announces when it is compiled. Only the nodes of registered types count, and of those
only kind and configuration. Main statements: `Program.entries_congr`, and `Entries.Allotted` of
what the catalog announces: runs start at event nodes, and each loop has two slots of its own.
-/

set_option autoImplicit false
set_option relaxedAutoImplicit false

namespace NodeScript

/-- The type and the configuration of a node of a registered type. -/
def Form.builtin? (form : Form) : Option (String × Json) :=
  match form.kind with
  | .builtin type => some (type, form.config)
  | _ => none

theorem Form.builtin?_eq_some_iff {form : Form} {type : String} {config : Json} :
    form.builtin? = some (type, config) ↔ form.kind = .builtin type ∧ form.config = config := by
  unfold Form.builtin?
  cases form.kind <;> simp

namespace Graph

/-- The type and the configuration of the node at an address. -/
def builtin? (graph : Graph) (id : NodeId) : Option (String × Json) :=
  (graph.form? id).bind Form.builtin?

/-- The nodes of registered types, in the order of their places. -/
def builtins (graph : Graph) : List (NodeId × String × Json) :=
  graph.live.filterMap fun (id, node) => node.form.builtin?.map (id, ·)

variable {graph next : Graph}

theorem builtin?_eq_some {id : NodeId} {form : Form} {type : String}
    (found : graph.form? id = some form) (kind : form.kind = .builtin type) :
    graph.builtin? id = some (type, form.config) := by
  rw [builtin?, found]
  exact Form.builtin?_eq_some_iff.2 ⟨kind, rfl⟩

theorem mem_builtins {id : NodeId} {builtin : String × Json} :
    (id, builtin) ∈ graph.builtins ↔ graph.builtin? id = some builtin := by
  simp only [builtins, List.mem_filterMap, Prod.exists, mem_live, Option.map_eq_some_iff,
    Prod.mk.injEq, builtin?, Option.bind_eq_some_iff, form?]
  constructor
  · rintro ⟨_, node, found, type, config, same, rfl, rfl⟩
    exact ⟨node.form, ⟨node, found, rfl⟩, same⟩
  · rintro ⟨_, ⟨node, found, rfl⟩, same⟩
    exact ⟨id, node, found, builtin.1, builtin.2, same, rfl, rfl⟩

theorem builtins_pairwise (graph : Graph) : graph.builtins.Pairwise (·.1.index < ·.1.index) := by
  rw [builtins, List.pairwise_filterMap]
  refine graph.live_pairwise.imp fun {a b} less x hx y hy => ?_
  obtain ⟨_, _, rfl⟩ := Option.map_eq_some_iff.1 hx
  obtain ⟨_, _, rfl⟩ := Option.map_eq_some_iff.1 hy
  exact less

theorem builtins_nodup (graph : Graph) : (graph.builtins.map (·.1)).Nodup := by
  refine List.pairwise_map.2 (graph.builtins_pairwise.imp fun {a b} less same => ?_)
  rw [same] at less
  exact Nat.lt_irrefl _ less

def population (graph : Graph) (type : String) : Nat :=
  graph.live.countP (·.2.kind = .builtin type)

theorem population_eq (graph : Graph) (type : String) :
    graph.population type = graph.builtins.countP (·.2.1 = type) := by
  rw [population, builtins, List.countP_filterMap]
  refine List.countP_congr fun entry _ => ?_
  unfold Form.builtin? Node.form
  dsimp only
  cases entry.2.kind <;> simp

/-- No two slots that the loops of a graph are given have the same number. -/
def SlotsFit (graph : Graph) : Prop := 2 * graph.population Catalog.forEach.id ≤ UInt32.size

instance (graph : Graph) : Decidable graph.SlotsFit :=
  inferInstanceAs (Decidable (2 * graph.population Catalog.forEach.id ≤ UInt32.size))

theorem builtin?_congr {id : NodeId} (same : ∀ form type, form.kind = .builtin type →
    (next.form? id = some form ↔ graph.form? id = some form)) :
    next.builtin? id = graph.builtin? id := by
  refine Option.ext ?_
  rintro ⟨type, config⟩
  simp only [builtin?, Option.bind_eq_some_iff, Form.builtin?_eq_some_iff]
  refine exists_congr fun form => and_congr_left ?_
  rintro ⟨kind, -⟩
  exact same form type kind

theorem builtins_congr (same : ∀ id, next.builtin? id = graph.builtin? id) :
    next.builtins = graph.builtins := by
  let before (a b : NodeId × String × Json) : Prop := a.1.index < b.1.index
  have : Std.Irrefl before := ⟨fun a => Nat.lt_irrefl a.1.index⟩
  have : Std.Antisymm before := ⟨fun a b less less' => absurd less (Nat.lt_asymm less')⟩
  refine List.Pairwise.eq_of_mem_iff (r := before) next.builtins_pairwise graph.builtins_pairwise ?_
  rintro ⟨id, builtin⟩
  rw [mem_builtins, mem_builtins, same]

end Graph

namespace Program

variable {graph next : Graph} {registry : Registry}

/-- The announcement of one node. -/
def announce (registry : Registry) (entries : Entries) (node : NodeId × String × Json) : Entries :=
  match registry.behavior? node.2.1 with
  | some behavior => (behavior.announce node.1 node.2.2 entries).2
  | none => entries

theorem entries_compile (graph : Graph) (registry : Registry) :
    (compile graph registry).entries = graph.builtins.foldl (announce registry) {} := by
  rw [compile, Graph.builtins, List.foldl_filterMap]
  dsimp only
  congr
  funext entries ⟨id, node⟩
  unfold behaviorOf? Form.builtin? Node.form
  cases node.kind <;> rfl

theorem entries_congr (same : ∀ id, next.builtin? id = graph.builtin? id) :
    (compile next registry).entries = (compile graph registry).entries := by
  rw [entries_compile, entries_compile, Graph.builtins_congr same]

theorem behavior?_compile (graph : Graph) (registry : Registry) (id : NodeId) :
    (compile graph registry).behavior? id =
      (graph.builtin? id).bind fun node => registry.behavior? node.1 := by
  simp only [behavior?, compile, Array.getElem?_map, Graph.builtin?, Graph.form?, Graph.node?]
  rcases graph.arena[id.index]? with _ | _ | node
  · rfl
  · rfl
  · show behaviorOf? registry node = _
    simp only [Option.join_some, Option.map_some, Option.bind_some, Node.form, Form.builtin?,
      behaviorOf?]
    cases node.kind <;> rfl

end Program

private def silent (behavior : Behavior) : Prop :=
  ∀ id config entries, (behavior.announce id config entries).2 = entries

private theorem Catalog.all_announce {type : NodeType} (h : type ∈ all) :
    type = onEvent ∨ type = forEach ∨
      (type.id ≠ onEvent.id ∧ type.id ≠ forEach.id ∧ silent type.behavior) := by
  simp only [all, List.mem_cons, List.not_mem_nil, or_false] at h
  rcases h with rfl | rfl | rfl | rfl | rfl | rfl | rfl | rfl | rfl | rfl | rfl | rfl | rfl | rfl |
    rfl | rfl | rfl | rfl | rfl | rfl | rfl | rfl | rfl | rfl | rfl
  case inl => exact .inl rfl
  case inr.inr.inr.inl => exact .inr (.inl rfl)
  all_goals exact .inr (.inr ⟨by decide, by decide, fun _ _ _ => rfl⟩)

theorem Program.announce_builtin (entries : Entries) (id : NodeId) (type : String) (config : Json) :
    announce .builtin entries (id, type, config) =
      if type = Catalog.onEvent.id then (Catalog.onEvent.behavior.announce id config entries).2
      else if type = Catalog.forEach.id then
        (Catalog.forEach.behavior.announce id config entries).2
      else entries := by
  unfold announce
  dsimp only
  split
  · rename_i behavior found
    obtain ⟨known, registered, rfl⟩ := Option.map_eq_some_iff.1 found
    obtain ⟨mem, rfl⟩ := Registry.mem_of_find? registered
    rcases Catalog.all_announce mem with rfl | rfl | ⟨event, loop, nothing⟩
    · rw [if_pos rfl]
    · rw [if_neg (by decide), if_pos rfl]
    · rw [if_neg event, if_neg loop, nothing]
  · rename_i missing
    have present (known : NodeType) (found : Registry.builtin.find? known.id = some known) :
        type ≠ known.id := by
      rintro rfl
      simp [Registry.behavior?, found] at missing
    rw [if_neg (present _ rfl), if_neg (present _ rfl)]

namespace Entries

def wanted (nodes : List (NodeId × String × Json)) : Nat :=
  2 * nodes.countP (·.2.1 = Catalog.forEach.id)

/-- Runs start at event nodes, and each loop has two slots that no other node has, as long as their
numbers do not wrap around. -/
structure Allotted (nodes : List (NodeId × String × Json)) (entries : Entries) : Prop where
  roots : ∀ root ∈ entries.roots, root.slot = 0 ∧
    ∃ config, (root.node, Catalog.onEvent.id, config) ∈ nodes
  owners : ∀ id, entries.slotsOf id ≠ [] → ∃ config, (id, Catalog.forEach.id, config) ∈ nodes
  loops : ∀ id config, (id, Catalog.forEach.id, config) ∈ nodes →
    ∃ element index, entries.slotsOf id = [element, index] ∧ element ≠ index
  count : entries.slotCount = .ofNat (wanted nodes)
  older : wanted nodes ≤ UInt32.size → ∀ id, ∀ slot ∈ entries.slotsOf id,
    slot.number.toNat < wanted nodes
  apart : wanted nodes ≤ UInt32.size → ∀ id other, ∀ slot ∈ entries.slotsOf id,
    slot ∈ entries.slotsOf other → id = other

variable {entries next : Entries} {nodes : List (NodeId × String × Json)} {id : NodeId}
  {type : String} {config : Json}

theorem wanted_concat_loop (nodes : List (NodeId × String × Json)) (id : NodeId) (config : Json) :
    wanted (nodes ++ [(id, Catalog.forEach.id, config)]) = wanted nodes + 2 := by
  simp [wanted, Nat.mul_add]

theorem wanted_concat_of_ne (nodes : List (NodeId × String × Json)) (id : NodeId) (config : Json)
    (other : type ≠ Catalog.forEach.id) :
    wanted (nodes ++ [(id, type, config)]) = wanted nodes := by
  simp [wanted, other]

theorem allotted_empty : Allotted [] {} where
  roots := by simp
  owners := by simp [slotsOf]
  loops := by simp
  count := rfl
  older := by simp [slotsOf]
  apart := by simp [slotsOf]

private theorem Allotted.slotless (allotted : entries.Allotted nodes)
    (roots : ∀ root ∈ next.roots, root ∈ entries.roots ∨
      root.slot = 0 ∧ root.node = id ∧ type = Catalog.onEvent.id)
    (slots : next.slots = entries.slots) (count : next.slotCount = entries.slotCount)
    (other : type ≠ Catalog.forEach.id) : next.Allotted (nodes ++ [(id, type, config)]) := by
  have same : next.slotsOf = entries.slotsOf := by
    funext node
    rw [slotsOf, slots, slotsOf]
  refine ⟨fun root hroot => ?_, fun node hnode => ?_, fun node config' mem => ?_, ?_, ?_, ?_⟩
  · rcases roots root hroot with before | ⟨slot, rfl, rfl⟩
    · obtain ⟨slot, config', mem⟩ := allotted.roots root before
      exact ⟨slot, config', List.mem_append_left _ mem⟩
    · exact ⟨slot, config, by simp⟩
  · rw [same] at hnode
    obtain ⟨config', mem⟩ := allotted.owners node hnode
    exact ⟨config', List.mem_append_left _ mem⟩
  · rw [same]
    refine allotted.loops node config' ((List.mem_append.1 mem).resolve_right fun last => ?_)
    simp only [List.mem_singleton, Prod.mk.injEq] at last
    exact other last.2.1.symm
  · rw [count, allotted.count, wanted_concat_of_ne nodes id config other]
  · rw [same, wanted_concat_of_ne nodes id config other]
    exact allotted.older
  · rw [same, wanted_concat_of_ne nodes id config other]
    exact allotted.apart

theorem slotsOf_allocate (entries : Entries) (id node : NodeId) :
    (allocate id entries).2.slotsOf node =
      if node = id then entries.slotsOf id ++ [⟨entries.slotCount⟩] else entries.slotsOf node := by
  let slots := entries.slotsOf id ++ [⟨entries.slotCount⟩]
  show ((Assoc.put id slots entries.slots).lookup node).getD [] = _
  split
  · rename_i same
    rw [same, Assoc.lookup_put_self, Option.getD_some]
  · rename_i other
    rw [Assoc.lookup_put_of_ne other, slotsOf]

private theorem Allotted.event (allotted : entries.Allotted nodes) :
    (Catalog.onEvent.behavior.announce id config entries).2.Allotted
      (nodes ++ [(id, Catalog.onEvent.id, config)]) := by
  have subscribed (entries : Entries) (event : String) (entry : EntryPoint) :
      (subscribe event entry entries).2.roots = entries.roots ∧
        (subscribe event entry entries).2.slots = entries.slots ∧
        (subscribe event entry entries).2.slotCount = entries.slotCount := by
    show (if (entries.subscribers event).contains entry then entries else _).roots = _ ∧
      (if (entries.subscribers event).contains entry then entries else _).slots = _ ∧
      (if (entries.subscribers event).contains entry then entries else _).slotCount = _
    split <;> exact ⟨rfl, rfl, rfl⟩
  have marked : (∀ root ∈ (entryAt ⟨id, 0⟩ entries).2.roots, root ∈ entries.roots ∨
        root.slot = 0 ∧ root.node = id ∧ Catalog.onEvent.id = Catalog.onEvent.id) ∧
      (entryAt ⟨id, 0⟩ entries).2.slots = entries.slots ∧
      (entryAt ⟨id, 0⟩ entries).2.slotCount = entries.slotCount := by
    unfold entryAt
    split
    · exact ⟨fun _ => .inl, rfl, rfl⟩
    · refine ⟨fun root hroot => (Array.mem_push.1 hroot).imp_right ?_, rfl, rfl⟩
      rintro rfl
      exact ⟨rfl, rfl, rfl⟩
  obtain ⟨roots, slots, count⟩ := subscribed (entryAt ⟨id, 0⟩ entries).2
    (Catalog.eventName.value config) (entryAt ⟨id, 0⟩ entries).1
  refine allotted.slotless ?_ (slots.trans marked.2.1) (count.trans marked.2.2) (by decide)
  intro root hroot
  have listed : root ∈ (entryAt ⟨id, 0⟩ entries).2.roots := by
    rw [← roots]
    exact hroot
  exact marked.1 root listed

private theorem Allotted.slotsOf_loop (allotted : entries.Allotted nodes)
    (new : id ∉ nodes.map (·.1)) (config : Json) (node : NodeId) :
    (Catalog.forEach.behavior.announce id config entries).2.slotsOf node =
      if node = id then [⟨entries.slotCount⟩, ⟨entries.slotCount + 1⟩]
      else entries.slotsOf node := by
  have bare : entries.slotsOf id = [] := by
    refine Classical.byContradiction fun some => ?_
    obtain ⟨config', mem⟩ := allotted.owners id some
    exact new (List.mem_map_of_mem mem)
  show (allocate id (allocate id entries).2).2.slotsOf node = _
  rw [slotsOf_allocate, slotsOf_allocate, if_pos rfl, bare, slotsOf_allocate]
  split <;> rfl

private theorem Allotted.number_of_next (allotted : entries.Allotted nodes)
    (fits : wanted nodes + 2 ≤ UInt32.size) {slot : Slot}
    (next : slot ∈ ([⟨entries.slotCount⟩, ⟨entries.slotCount + 1⟩] : List Slot)) :
    wanted nodes ≤ slot.number.toNat ∧ slot.number.toNat < wanted nodes + 2 := by
  have first : entries.slotCount.toNat = wanted nodes := by
    rw [allotted.count]
    exact UInt32.toNat_ofNat_of_lt' (by omega)
  have second : (entries.slotCount + 1).toNat = wanted nodes + 1 := by
    rw [allotted.count, ← UInt32.ofNat_one, ← UInt32.ofNat_add]
    exact UInt32.toNat_ofNat_of_lt' (by omega)
  simp only [List.mem_cons, List.not_mem_nil, or_false] at next
  rcases next with rfl | rfl
  · dsimp only
    omega
  · dsimp only
    omega

/-- The next two slots are no node's yet. -/
private theorem Allotted.fresh (allotted : entries.Allotted nodes)
    (fits : wanted nodes + 2 ≤ UInt32.size) {node : NodeId} {slot : Slot}
    (old : slot ∈ entries.slotsOf node) :
    slot ∉ ([⟨entries.slotCount⟩, ⟨entries.slotCount + 1⟩] : List Slot) := by
  intro new
  have older := allotted.older (Nat.le_of_add_right_le fits) node slot old
  exact Nat.not_le_of_lt older (allotted.number_of_next fits new).1

private theorem Allotted.loop (allotted : entries.Allotted nodes)
    (new : id ∉ nodes.map (·.1)) :
    (Catalog.forEach.behavior.announce id config entries).2.Allotted
      (nodes ++ [(id, Catalog.forEach.id, config)]) := by
  have slots := allotted.slotsOf_loop new config
  have count : (Catalog.forEach.behavior.announce id config entries).2.slotCount =
      entries.slotCount + 1 + 1 := rfl
  refine ⟨fun root hroot => ?_, fun node hnode => ?_, fun node config' mem => ?_, ?_, ?_, ?_⟩
  · obtain ⟨slot, config', mem⟩ := allotted.roots root hroot
    exact ⟨slot, config', List.mem_append_left _ mem⟩
  · rw [slots] at hnode
    split at hnode
    · subst node
      exact ⟨config, by simp⟩
    · obtain ⟨config', mem⟩ := allotted.owners node hnode
      exact ⟨config', List.mem_append_left _ mem⟩
  · rw [slots]
    split
    · exact ⟨_, _, rfl, by simp⟩
    · rename_i other
      refine allotted.loops node config' ((List.mem_append.1 mem).resolve_right fun last => ?_)
      simp only [List.mem_singleton, Prod.mk.injEq] at last
      exact other last.1
  · rw [count, allotted.count, wanted_concat_loop, ← UInt32.ofNat_one, ← UInt32.ofNat_add,
      ← UInt32.ofNat_add]
  all_goals
    rw [wanted_concat_loop]
    intro fits
  · intro node slot hslot
    rw [slots] at hslot
    split at hslot
    · exact (allotted.number_of_next fits hslot).2
    · have older := allotted.older (Nat.le_of_add_right_le fits) node slot hslot
      exact Nat.lt_add_right 2 older
  · intro node other slot hslot hslot'
    rw [slots] at hslot hslot'
    split at hslot <;> split at hslot'
    · rename_i here there
      exact here.trans there.symm
    · exact (allotted.fresh fits hslot' hslot).elim
    · exact (allotted.fresh fits hslot hslot').elim
    · exact allotted.apart (Nat.le_of_add_right_le fits) node other slot hslot hslot'

theorem allotted_foldl (nodup : (nodes.map (·.1)).Nodup) :
    (nodes.foldl (Program.announce .builtin) {}).Allotted nodes := by
  induction nodes using List.reverseRecOn with
  | nil => exact allotted_empty
  | append_singleton nodes node ih =>
    obtain ⟨id, type, config⟩ := node
    rw [List.map_append, List.nodup_append] at nodup
    have allotted := ih nodup.1
    rw [List.foldl_append, List.foldl_cons, List.foldl_nil, Program.announce_builtin]
    split
    · rename_i event
      subst event
      exact allotted.event
    · split
      · rename_i loop
        subst loop
        refine allotted.loop fun mem => ?_
        exact nodup.2.2 id mem id (by simp) rfl
      · exact allotted.slotless (fun _ => .inl) rfl rfl ‹_›

end Entries

theorem Program.allotted (graph : Graph) :
    (compile graph .builtin).entries.Allotted graph.builtins := by
  rw [entries_compile]
  exact Entries.allotted_foldl graph.builtins_nodup

theorem Graph.SlotsFit.wanted_le {graph : Graph} (fits : graph.SlotsFit) :
    Entries.wanted graph.builtins ≤ UInt32.size := by
  rwa [Entries.wanted, ← graph.population_eq]

theorem Graph.hasKind_root {graph : Graph} {entry : EntryPoint} {root : OutputRef}
    (found : (Program.compile graph .builtin).entries.root? entry = some root) :
    root.slot = 0 ∧ graph.HasKind root.node (.builtin Catalog.onEvent.id) := by
  obtain ⟨first, config, mem⟩ := (Program.allotted graph).roots root (Array.mem_of_getElem? found)
  obtain ⟨form, here, same⟩ := Option.bind_eq_some_iff.1 (Graph.mem_builtins.1 mem)
  exact ⟨first, form, here, (Form.builtin?_eq_some_iff.1 same).1⟩

/-- The machine that runs a graph. -/
def Graph.machine (graph : Graph) (registry : Registry) (maxCallDepth : Nat) : Machine where
  graph
  program := .compile graph registry
  maxCallDepth

theorem Graph.behavior_machine {graph : Graph} {registry : Registry} {id : NodeId} {type : String}
    {config : Json} {behavior : Behavior} (builtin : graph.builtin? id = some (type, config))
    (registered : registry.behavior? type = some behavior) (maxCallDepth : Nat) :
    (graph.machine registry maxCallDepth).behavior id = pure behavior := by
  have compiled : (graph.machine registry maxCallDepth).program.behavior? id = some behavior := by
    show (Program.compile graph registry).behavior? id = some behavior
    rw [Program.behavior?_compile, builtin]
    exact registered
  rw [Machine.behavior, compiled]

theorem Graph.hasKind_machine {graph : Graph} {registry : Registry} {maxCallDepth : Nat}
    {id : NodeId} {behavior : Behavior}
    (found : (graph.machine registry maxCallDepth).program.behavior? id = some behavior) :
    ∃ type, graph.HasKind id (.builtin type) ∧ registry.behavior? type = some behavior := by
  have compiled := Program.behavior?_compile graph registry id
  obtain ⟨⟨type, config⟩, builtin, registered⟩ :=
    Option.bind_eq_some_iff.1 (compiled.symm.trans found)
  obtain ⟨form, here, same⟩ := Option.bind_eq_some_iff.1 builtin
  exact ⟨type, ⟨form, here, (Form.builtin?_eq_some_iff.1 same).1⟩, registered⟩

theorem Graph.registered_machine {graph : Graph} {registry : Registry} {maxCallDepth : Nat}
    {id : NodeId} {behavior : Behavior}
    (found : (graph.machine registry maxCallDepth).program.behavior? id = some behavior) :
    ∃ type, registry.behavior? type = some behavior := by
  obtain ⟨type, -, registered⟩ := hasKind_machine found
  exact ⟨type, registered⟩

end NodeScript
