import NodeScript.Host.Basic
import NodeScript.Proofs.Format.Held
import NodeScript.Proofs.Format.RoundTrip
import NodeScript.Proofs.Host.Guarded
import NodeScript.Proofs.Run.Elsewhere

/-!
Events of a graph that has been written and read. A file of any version that is read gives a graph
with the nodes of the written one at the places of their numbers, with the same wires into their
inputs (`Graph.reloaded_of_decode`), so all its events do what they did before. Main statement:
`Reached.fire_loaded`.
-/

set_option autoImplicit false
set_option relaxedAutoImplicit false

namespace NodeScript

open Format

namespace Graph

variable {registry : Registry} {graph next : Graph} {version : Int32} {file : Bytes}
  {loaded : Loaded}

theorem mirrored_of_held (mirrored : Mirrored (graph.held version) next) : Mirrored graph next where
  size := mirrored.size.trans (by rw [live_held, List.length_map])
  node i id node number := by
    have here : (graph.held version).live[i]? = some (id, heldNode version node) := by
      rw [live_held, List.getElem?_map, number]
      rfl
    obtain ⟨kind, alike, bare⟩ := mirrored.node i id _ here
    rw [(kind_heldNode version node).1] at alike
    rw [bare_heldNode] at bare
    obtain ⟨structs, functions⟩ := definitions_held version graph
    have same : (graph.held version).SameDefinitions graph := ⟨functions.symm, structs.symm⟩
    exact ⟨kind, (alike.symm.congr same.lookup.1 same.lookup.2).symm, bare⟩

private theorem forall₂_filterMap {α β : Type} {rel : α → β → Prop} {give : α → Option β}
    {items : List α} (each : ∀ a ∈ items, ∃ b, give a = some b ∧ rel a b) :
    List.Forall₂ rel items (items.filterMap give) := by
  induction items with
  | nil => exact .nil
  | cons a items ih =>
    rw [List.forall_mem_cons] at each
    obtain ⟨b, given, here⟩ := each.1
    rw [List.filterMap_cons_some given]
    exact .cons here (ih each.2)

theorem Wired.renumbered (wired : graph.Wired) (version : Int32) {target : InputRef} {input : Input}
    (found : graph.input? target = some input) :
    List.Forall₂ (fun wire wire' : Wire => graph.renumbering.Output wire.source wire'.source)
      input.wires (numbered graph.ranks
        (fun source wire => (⟨⟨⟨source⟩, wire.source.slot⟩, wire.relays⟩ : Wire))
        (heldInput version input)) := by
  have sources := (heldInput_same version input).2.2
  have each : ∀ wire ∈ (heldInput version input).wires, ∃ wire' : Wire,
      (graph.ranks[wire.source.node.index]?.join.map fun source =>
        (⟨⟨⟨source⟩, wire.source.slot⟩, wire.relays⟩ : Wire)) = some wire' ∧
        graph.renumbering.Output wire.source wire'.source := by
    intro wire mem
    have mem : wire.source ∈ input.wires.map (·.source) := by
      rw [← sources]
      exact List.mem_map_of_mem mem
    obtain ⟨before, hb, same⟩ := List.mem_map.1 mem
    obtain ⟨output, out, -⟩ := wired.source found hb
    obtain ⟨node, here, -⟩ := Option.bind_eq_some_iff.1 out
    rw [same] at here
    obtain ⟨number, address⟩ := exists_number? here
    obtain ⟨i, rank, rfl⟩ := Option.map_eq_some_iff.1 address
    exact ⟨_, Option.map_eq_some_iff.2 ⟨i, rank, rfl⟩, address, rfl⟩
  have wires := forall₂_filterMap each
  rw [← List.forall₂_map_left_iff (R := fun source (wire' : Wire) =>
    graph.renumbering.Output source wire'.source)] at wires ⊢
  rwa [sources] at wires

/-- A graph that has been written and read has the nodes at the places of their numbers. -/
theorem reloaded_of_decode (formed : graph.WellFormed Registry.builtin.Canonical)
    (settled : graph.Settled .builtin) (sole : graph.SoleBoundaries)
    (fit : graph.CountsFit .builtin) (written : graph.encode .builtin version = .ok file)
    (read : decode .builtin file = .ok loaded) : graph.Reloaded loaded.graph := by
  obtain ⟨upgraded, written', read'⟩ := decode_held (fit.older version) written read
  have held := formed.held version
  have small := fit.held version
  have shallow := (held.decodes_iff small written').1 ⟨_, read'⟩
  obtain ⟨next, reread, mirrored, rewired, -, -⟩ :=
    held.reread_eq (settled.held version) shallow written'
  have decoded := (decode_encode written' held.configsReread small).1 _ reread
  obtain rfl : loaded.graph = next :=
    congrArg Loaded.graph (Except.ok.inj (read'.symm.trans decoded))
  obtain ⟨-, records, recorded, -⟩ := encode_eq_ok written'
  refine ⟨formed.imp fun _ _ _ canonical => canonical.declares, decode_wellFormed read, sole,
    mirrored_of_held mirrored, ?_⟩
  intro target target' input input' same found found'
  obtain ⟨node, number⟩ := number?_eq_some_iff.1 same.1
  have here : (graph.held version).live[target'.node.index]? =
      some (target.node, heldNode version node) := by
    rw [live_held, List.getElem?_map, number]
    rfl
  have place : (heldNode version node).inputs[target'.slot]? = some (heldInput version input) := by
    rw [input?, node?_of_number number, Option.bind_some, same.2] at found
    rw [(inputs_heldNode version node).1, List.getElem?_map, found]
    rfl
  have wires := (rewired target' input' found').trans
    (wiresTo_eq (records_eq_ok recorded).2 here place)
  rw [wires, ranks_held]
  exact formed.wired.renumbered version found

end Graph

theorem Host.invoke_alike {host next : Host} {moving : Moving} {fuel : Nat} {entry : EntryPoint}
    (moved : Run.Moved moving [none] Eq (host.machine.emit fuel entry)
      (next.machine.emit fuel entry)) (trigger : Trigger) (draws : Draws) :
    Run.EndsAlike moving.address? Eq (host.invoke fuel trigger draws entry).1
      (next.invoke fuel trigger draws entry).1 := by
  obtain ⟨ends, after⟩ := moved _ _ (.start moving trigger draws)
  rw [invoke, invoke]
  generalize (host.machine.emit fuel entry).runAt _ = outcome at ends after ⊢
  generalize (next.machine.emit fuel entry).runAt _ = outcome' at ends after ⊢
  obtain ⟨result, ctx⟩ := outcome
  obtain ⟨result', ctx'⟩ := outcome'
  cases ends with
  | ok => exact .ok after.report
  | error same => exact .error same

/-- Whatever version a graph is written in, if its file is read, then every event does the same on
what is read: as many runs, of which each has no end where the one before has none, leaves behind
the same messages, variables and steps, or ends with the same fault, but that its nodes have their
numbers for addresses. -/
theorem Reached.fire_loaded {graph : Graph} {version : Int32} {file : Bytes} {loaded : Loaded}
    (reached : Reached (· = .empty) (Edit.Leads (· = Registry.builtin)
      fun graph edit => edit.IsGuarded graph ∧ edit.IsCurrent graph) graph)
    (fit : graph.CountsFit Registry.builtin)
    (written : graph.encode Registry.builtin version = .ok file)
    (read : decode Registry.builtin file = .ok loaded) (maxCallDepth fuel : Nat)
    (trigger : Trigger) (draws : Nat → Draws) :
    List.Forall₂ (Run.EndsAlike graph.number? Eq)
      ({ Host.ofGraph .builtin graph with maxCallDepth }.fire fuel trigger draws).1
      ({ Host.ofGraph .builtin loaded.graph with maxCallDepth }.fire fuel trigger draws).1 := by
  obtain ⟨formed, settled⟩ := reached.settled Registry.builtin_steady fun _ h => h
  have reloaded := Graph.reloaded_of_decode formed settled
    (reached.soleBoundaries fun _ h => h) fit written read
  have listed := reloaded.entries.subscribers trigger.event
  rw [Host.fire_fst, Host.fire_fst,
    show (Host.ofGraph .builtin graph).program.entries.subscribers trigger.event = _ from listed,
    List.mapIdx_eq_zipIdx_map, List.mapIdx_eq_zipIdx_map, List.forall₂_map_left_iff,
    List.forall₂_map_right_iff]
  refine List.forall₂_same.2 fun ⟨entry, place⟩ _ => ?_
  show Run.EndsAlike graph.renumbering.address? Eq _ _
  refine Host.invoke_alike ?_ trigger (draws place)
  exact reloaded.emit_moved maxCallDepth fuel entry

def Edit.shifting : List Edit := [
  .defineFunction { name := "f", inputs := [("in", .signal)], outputs := [("out", .signal)] } .zero,
  .addBuiltin "event/On" .null .zero,
  .addBuiltin "event/On" (.obj [("event", .str "go")]) .zero,
  .addCall ⟨0⟩ .zero,
  .addBuiltin "var/Set" .null .zero,
  .connect ⟨⟨0⟩, 0⟩ ⟨⟨1⟩, 0⟩ [.zero],
  .connect ⟨⟨3⟩, 0⟩ ⟨⟨4⟩, 0⟩ [],
  .connect ⟨⟨4⟩, 0⟩ ⟨⟨5⟩, 0⟩ [],
  .remove ⟨2⟩]

/-- In a layout without relays and without literals the event ends with the same fault, at the node
before. -/
theorem shifting_fire_loaded : ∃ graph file loaded,
    Edit.shifting.foldlM (Edit.apply Registry.builtin) .empty = .ok graph ∧
      graph.encode Registry.builtin 2 = .ok file ∧ decode Registry.builtin file = .ok loaded ∧
      ((Host.ofGraph .builtin graph).fire 20 { event := "go" }).1 =
        [.error (.fault (.missingValue ⟨5⟩ "value"))] ∧
      ((Host.ofGraph .builtin loaded.graph).fire 20 { event := "go" }).1 =
        [.error (.fault (.missingValue ⟨4⟩ "value"))] := by
  have facts : ∃ graph ∈ (Edit.shifting.foldlM (Edit.apply Registry.builtin) .empty).toOption,
      graph.CountsFit Registry.builtin ∧ graph.number? ⟨5⟩ = some ⟨4⟩ ∧
        (∃ file ∈ (graph.encode Registry.builtin 2).toOption,
          (decode Registry.builtin file).toOption.isSome) ∧
        ((Host.ofGraph .builtin graph).fire 20 { event := "go" }).1.map stop? =
          [some (.fault (.missingValue ⟨5⟩ "value"))] := by decide +kernel
  obtain ⟨graph, built, fit, number, ⟨file, written, read⟩, stops⟩ := facts
  have built := Accepted.toOption_eq_some_iff.1 built
  have written := Accepted.toOption_eq_some_iff.1 written
  obtain ⟨loaded, read⟩ := Option.isSome_iff_exists.1 read
  have read := Accepted.toOption_eq_some_iff.1 read
  have reached : Reached (· = .empty) (Edit.Leads (· = Registry.builtin)
      fun graph edit => edit.IsGuarded graph ∧ edit.IsCurrent graph) graph := by
    refine Reached.foldlM rfl (.first rfl) (fun edit he graph => ⟨?_, ?_⟩) built
    · simp only [Edit.shifting, List.mem_cons, List.not_mem_nil, or_false] at he
      rcases he with rfl | rfl | rfl | rfl | rfl | rfl | rfl | rfl | rfl <;> trivial
    · simp only [Edit.shifting, List.mem_cons, List.not_mem_nil, or_false] at he
      rcases he with rfl | rfl | rfl | rfl | rfl | rfl | rfl | rfl | rfl
      case inl => simp [Edit.IsCurrent, Signature.types, DataType.IsKnown, DataType.schema?]
      all_goals trivial
  obtain ⟨ended, fired, stopped⟩ := List.map_eq_singleton_iff.1 stops
  have alike := reached.fire_loaded fit written read 256 20 { event := "go" } fun _ => default
  refine ⟨graph, file, loaded, built, written, read, ?_⟩
  cases ended with
  | ok report => simp [stop?] at stopped
  | error stop =>
    obtain rfl := Option.some.inj stopped
    refine ⟨fired, ?_⟩
    rw [show ({ Host.ofGraph .builtin graph with maxCallDepth := 256 } : Host) =
      Host.ofGraph .builtin graph from rfl, fired] at alike
    obtain ⟨ended', rest, here, none, fired'⟩ := List.forall₂_cons_left_iff.1 alike
    obtain rfl := List.forall₂_nil_left_iff.1 none
    refine fired'.trans ?_
    cases here with
    | error same =>
      cases same with
      | fault same =>
        rw [RunError.moved?, number] at same
        obtain rfl := Option.some.inj same
        rfl

end NodeScript
