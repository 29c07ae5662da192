import NodeScript.Format.Load
import NodeScript.Proofs.Catalog.Ports
import NodeScript.Proofs.Graph.Edit

/-!
What is loaded is well-formed, whatever the bytes are. Each part of a file is put into the graph by
the operations that edits are made of; the definitions get the nodes that they lack at the end.
`Format.Assembled` lists these operations, so what each of them keeps holds of every loaded graph.
Main statements: `Format.assembled_of_decodeWith` and `Format.decodeWith_wellFormed`.
-/

set_option autoImplicit false
set_option relaxedAutoImplicit false

namespace NodeScript

open Decode Format NodeScript.Graph

variable {registry : Registry} {admits : Admits} {excused : NodeKind → Prop} {graph next : Graph}

private theorem isKnown_of_decodeWithin {known : List Schema} {n : Nat} {type : DataType}
    (given : Gives (DataType.decodeWithin known n) type) : type.IsKnown known := by
  induction n generalizing type with
  | zero => exact absurd given Gives.not_throw
  | succ n ih =>
    obtain ⟨tag, -, given⟩ := given.of_bind
    split at given
    case h_6 =>
      obtain ⟨element, inner, given⟩ := given.of_bind
      obtain rfl := given.of_pure
      intro schema hs
      exact ih inner schema hs
    case h_7 =>
      obtain ⟨name, -, given⟩ := given.of_bind
      split at given
      · obtain rfl := given.of_pure
        exact DataType.isKnown_type ‹_›
      · exact absurd given Gives.not_throw
    case h_8 => exact absurd given Gives.not_throw
    all_goals
      obtain rfl := given.of_pure
      exact DataType.isKnown_of_schema? rfl

theorem Format.isKnown_of_decodeField {known : List Schema} {field : Field}
    (given : Gives (decodeField known) field) : field.type.IsKnown known := by
  obtain ⟨name, -, given⟩ := given.of_bind
  obtain ⟨type, read, given⟩ := given.of_bind
  obtain rfl := given.of_pure
  exact isKnown_of_decodeWithin read

theorem Format.levels_of_decodeField {known : List Schema} {field : Field}
    (given : Gives (decodeField known) field) : field.type.levels ≤ maxNesting := by
  obtain ⟨name, -, given⟩ := given.of_bind
  obtain ⟨type, read, given⟩ := given.of_bind
  obtain rfl := given.of_pure
  exact DataType.levels_of_decodeWithin read

def Format.Placeable (registry : Registry) (graph : Graph) (node : Node) : Prop :=
  ∃ kind config ports position, node = .ofPorts kind config ports position ∧
    graph.Fits (registry.DeclaresIn graph.schemas) ⟨kind, config, ports⟩ ∧
    ∀ type behavior, kind = .builtin type → registry.behavior? type = some behavior →
      Gives (behavior.readAmong graph.schemas) config

/-- The graphs that are put together from the parts of files. What files give is nested no deeper
than the reader goes, and structs have no more fields than a byte counts. -/
inductive Format.Assembled (registry : Registry) : Graph → Prop where
  | empty : Assembled registry .empty
  | struct {graph : Graph} {schema : Schema} (before : Assembled registry graph)
      (fresh : graph.structNamed? schema.name = none)
      (known : ∀ field ∈ schema.fields, field.type.IsKnown graph.schemas)
      (shallow : ∀ field ∈ schema.fields, field.type.levels ≤ maxNesting)
      (few : schema.fields.length ≤ 255) : Assembled registry (graph.withStruct schema)
  | function {graph : Graph} {signature : Signature} (before : Assembled registry graph)
      (fresh : graph.functionNamed? signature.name = none)
      (known : ∀ type ∈ signature.types, type.IsKnown graph.schemas)
      (shallow : ∀ type ∈ signature.types, type.levels ≤ maxNesting) :
      Assembled registry (graph.withFunction signature)
  | node {graph : Graph} {node : Node} (before : Assembled registry graph)
      (placeable : Placeable registry graph node) : Assembled registry (graph.push node).2
  | literal {graph next : Graph} {target : InputRef} {value : Option Value}
      (before : Assembled registry graph) (accepted : graph.setInset target value = .ok next)
      (shallow : ∀ v ∈ value, v.levels ≤ maxNesting) : Assembled registry next
  | wire {graph : Graph} {source : OutputRef} {target : InputRef} {output : Output} {input : Input}
      (relays : List Position) (before : Assembled registry graph)
      (joinable : graph.Joinable source target output input) :
      Assembled registry (graph.link source target relays (displaced source target output input))

namespace Format

theorem Assembled.readSchema (assembled : Assembled registry graph)
    (given : Gives (readSchema graph) next) : Assembled registry next := by
  obtain ⟨name, -, given⟩ := given.of_bind
  obtain ⟨n, -, given⟩ := given.of_bind
  obtain ⟨fields, read, given⟩ := given.of_bind
  split at given
  · rename_i declared
    obtain rfl := given.of_pure
    obtain ⟨fresh, -, rfl⟩ := declareStruct_eq_ok_iff.1 declared
    have few : n.toNat < 256 := n.toNat_lt
    rw [← read.length_of_times] at few
    exact assembled.struct fresh (fun field hf => isKnown_of_decodeField (read.of_times field hf))
      (fun field hf => levels_of_decodeField (read.of_times field hf))
      (Nat.le_of_lt_succ few)
  · exact absurd given Gives.not_throw

theorem Assembled.readSignature (assembled : Assembled registry graph)
    (given : Gives (readSignature graph) next) : Assembled registry next := by
  obtain ⟨name, -, given⟩ := given.of_bind
  obtain ⟨inputs, readInputs, given⟩ := given.of_bind
  obtain ⟨outputs, readOutputs, given⟩ := given.of_bind
  split at given
  · rename_i declared
    obtain rfl := given.of_pure
    obtain ⟨fresh, -, rfl⟩ := declareFunction_eq_ok_iff.1 declared
    have given (field : Field) (hf : field ∈ inputs ++ outputs) :
        Gives (decodeField graph.schemas) field :=
      (List.mem_append.1 hf).elim (readInputs.of_many field) (readOutputs.of_many field)
    refine assembled.function fresh (fun type ht => ?_) fun type ht => ?_
    · obtain ⟨field, hf, rfl⟩ := List.mem_map.1 ht
      exact isKnown_of_decodeField (given field hf)
    · obtain ⟨field, hf, rfl⟩ := List.mem_map.1 ht
      exact levels_of_decodeField (given field hf)
  · exact absurd given Gives.not_throw

theorem shallow_of_decodeInsets {insets : List (Nat × Value)} (given : Gives decodeInsets insets) :
    ∀ inset ∈ insets, inset.2.levels ≤ maxNesting := by
  intro inset mem
  obtain ⟨slot, -, given⟩ := (given.of_many inset mem).of_bind
  obtain ⟨v, read, given⟩ := given.of_bind
  obtain rfl := given.of_pure
  exact Value.levels_of_decodeWithin read

theorem readNode_placeable {record : NodeRecord} {node : Node} {insets : List (Nat × Value)}
    (given : Gives (readNode registry graph record) (some (node, insets))) :
    Placeable registry graph node ∧ ∀ inset ∈ insets, inset.2.levels ≤ maxNesting := by
  unfold readNode at given
  split at given
  · split at given
    · exact absurd given.of_pure (by simp)
    · rename_i behavior found
      obtain ⟨⟨read, config⟩, payload, given⟩ := given.of_bind
      obtain ⟨_, literals, payload⟩ := payload.of_within.of_bind
      obtain ⟨_, configured, payload⟩ := payload.of_bind
      have parts := payload.of_pure
      rw [Prod.mk.injEq] at parts
      obtain ⟨rfl, rfl⟩ := parts
      dsimp only at given
      split at given
      · rename_i ports declared
        have same := given.of_pure
        simp only [Option.some.injEq, Prod.mk.injEq] at same
        obtain ⟨rfl, rfl⟩ := same
        refine ⟨⟨_, _, _, _, rfl, ⟨behavior, found, declared⟩, fun type other kind known => ?_⟩,
          shallow_of_decodeInsets literals⟩
        obtain rfl := NodeKind.builtin.inj kind
        obtain rfl := Option.some.inj (found.symm.trans known)
        exact configured
      · exact absurd given.of_pure (by simp)
  · split at given
    · exact absurd given.of_pure (by simp)
    · obtain ⟨read, payload, given⟩ := given.of_bind
      split at given
      · rename_i ports declared
        have same := given.of_pure
        simp only [Option.some.injEq, Prod.mk.injEq] at same
        obtain ⟨rfl, rfl⟩ := same
        refine ⟨⟨_, _, _, _, rfl, fits_of_definedPorts declared, fun type _ kind => ?_⟩,
          shallow_of_decodeInsets payload.of_within⟩
        subst kind
        simp [definedPorts] at declared
      · exact absurd given.of_pure (by simp)

theorem Assembled.setInsetsIfFit (assembled : Assembled registry graph) (id : NodeId)
    {insets : List (Nat × Value)} (shallow : ∀ inset ∈ insets, inset.2.levels ≤ maxNesting) :
    Assembled registry (insets.foldl (setInsetIfFits id) graph) := by
  induction insets generalizing graph with
  | nil => exact assembled
  | cons inset insets ih =>
    rw [List.forall_mem_cons] at shallow
    refine ih ?_ shallow.2
    unfold setInsetIfFits
    split
    · exact assembled.literal ‹_› (by simpa using shallow.1)
    · exact assembled

theorem Assembled.readNext {loading loading' : Loading}
    (assembled : Assembled registry loading.graph)
    (given : Gives (loading.readNext registry) loading') : Assembled registry loading'.graph := by
  obtain ⟨record, -, given⟩ := given.of_bind
  obtain ⟨node?, read, given⟩ := given.of_bind
  obtain rfl := given.of_pure
  cases node? with
  | none => exact assembled
  | some placed =>
    obtain ⟨placeable, shallow⟩ := readNode_placeable read
    exact (assembled.node placeable).setInsetsIfFit ⟨loading.graph.arena.size⟩ shallow

theorem Assembled.connectNext (assembled : Assembled registry graph)
    (placed : Array (Option NodeId)) (dropped : Nat) (wire : PendingWire) :
    Assembled registry (connectNext placed (graph, dropped) wire).1 := by
  unfold Format.connectNext
  dsimp only
  split
  · exact assembled
  · split
    · rename_i displaced
      obtain ⟨output, input, joinable, rfl⟩ := joinable_of_displacedBy displaced
      exact assembled.wire wire.2.2.relays joinable
    · exact assembled

theorem Assembled.connectAll (assembled : Assembled registry graph)
    (placed : Array (Option NodeId)) (dropped : Nat) (wires : List PendingWire) :
    Assembled registry (wires.foldl (Format.connectNext placed) (graph, dropped)).1 := by
  induction wires generalizing graph dropped with
  | nil => exact assembled
  | cons wire wires ih => exact ih (assembled.connectNext placed dropped wire) _

theorem assembled_of_readTables {read : Graph × Nat × Nat}
    (given : Gives (readTables registry) read) :
    ∃ graph, Assembled registry graph ∧ graph.completeDefinitions = .ok read.1 := by
  obtain ⟨n, -, given⟩ := given.of_bind
  obtain ⟨structs, hstructs, given⟩ := given.of_bind
  obtain ⟨m, -, given⟩ := given.of_bind
  obtain ⟨definitions, hdefinitions, given⟩ := given.of_bind
  obtain ⟨k, -, given⟩ := given.of_bind
  obtain ⟨loading, hloading, given⟩ := given.of_bind
  have structs := hstructs.of_iterate (Assembled registry)
    (fun _ _ assembled given => assembled.readSchema given) .empty
  have definitions := hdefinitions.of_iterate (Assembled registry)
    (fun _ _ assembled given => assembled.readSignature given) structs
  have loaded := hloading.of_iterate (fun loading => Assembled registry loading.graph)
    (fun _ _ assembled given => assembled.readNext given) definitions
  have linked := loaded.connectAll loading.placed 0 loading.pending.toList
  rw [Array.foldl_toList] at linked
  dsimp only at given
  split at given
  · rename_i completed done
    obtain rfl := given.of_pure
    exact ⟨_, linked, done⟩
  · exact absurd given Gives.not_throw

theorem Assembled.sound (assembled : Assembled registry graph) :
    graph.Sound registry.Declares fun _ => False := by
  induction assembled with
  | empty => exact wellFormed_empty.toSound
  | struct _ fresh _ _ _ ih => exact ih.withStruct fresh
  | function _ fresh _ _ ih => exact ih.withFunction fresh
  | node _ placeable ih =>
    obtain ⟨kind, config, ports, position, rfl, fits, -⟩ := placeable
    refine ih.push position (fits.imp fun _ _ _ declares => ?_)
    obtain ⟨behavior, found, declared⟩ := declares
    exact ⟨behavior, _, found, declared⟩
  | literal _ accepted _ ih =>
    obtain ⟨input, hi, fits, rfl⟩ := setInset_eq_ok accepted
    refine ih.modifyInput _ (fun _ => ⟨rfl, rfl⟩) fun old value hold hv => ?_
    obtain rfl := Option.some.inj (hi.symm.trans hold)
    exact fits value hv
  | wire relays _ joinable ih => exact ih.link joinable relays

end Format

theorem Format.gives_of_decodeWith {steps : List Step} {file : Bytes} {loaded : Loaded}
    (accepted : decodeWith steps registry file = .ok loaded) :
    ∃ read, Gives (readTables registry) read ∧ loaded.graph = read.1 := by
  obtain ⟨version, -, accepted⟩ := Accepted.bind_iff.1 accepted
  split at accepted
  · exact absurd (Accepted.bind_iff.1 accepted) (by simp)
  obtain ⟨upgraded, -, accepted⟩ := Accepted.bind_iff.1 accepted
  obtain ⟨reached, -, given⟩ := (gives_of_result accepted).of_bind
  split at given
  · obtain ⟨_, thrown, -⟩ := given.of_bind
    exact absurd thrown Gives.not_throw
  obtain ⟨read, tables, made⟩ := given.of_bind
  obtain rfl := made.of_pure
  exact ⟨read, tables, rfl⟩

theorem Format.assembled_of_decodeWith {steps : List Step} {file : Bytes} {loaded : Loaded}
    (accepted : decodeWith steps registry file = .ok loaded) :
    ∃ graph, Assembled registry graph ∧ graph.completeDefinitions = .ok loaded.graph := by
  obtain ⟨read, given, same⟩ := gives_of_decodeWith accepted
  rw [same]
  exact assembled_of_readTables given

/-- What is loaded is well-formed, whatever steps brought it into the current layout. -/
theorem Format.decodeWith_wellFormed {steps : List Step} {file : Bytes} {loaded : Loaded}
    (accepted : decodeWith steps registry file = .ok loaded) :
    loaded.graph.WellFormed registry.Declares := by
  obtain ⟨parts, assembled, completed⟩ := assembled_of_decodeWith accepted
  exact assembled.sound.completeDefinitions completed

theorem Format.decode_wellFormed {file : Bytes} {loaded : Loaded}
    (accepted : decode registry file = .ok loaded) :
    loaded.graph.WellFormed registry.Declares :=
  decodeWith_wellFormed accepted

/-- Scripts: the empty graph and loaded graphs, and what edits make of them. -/
def Graph.IsScript (registry : Registry) (graph : Graph) : Prop :=
  Reached (fun first => first = .empty ∨
    ∃ file loaded, decode registry file = .ok loaded ∧ first = loaded.graph)
    (Edit.Leads (· = registry) fun _ _ => True) graph

theorem Graph.IsScript.wellFormed (script : graph.IsScript registry) :
    graph.WellFormed registry.Declares := by
  refine Reached.wellFormed ?_ ?_ script
  · rintro _ rfl _ _ _ canonical
    exact canonical.declares
  · rintro first (rfl | ⟨file, loaded, decoded, rfl⟩)
    · exact wellFormed_empty
    · exact decode_wellFormed decoded

end NodeScript
