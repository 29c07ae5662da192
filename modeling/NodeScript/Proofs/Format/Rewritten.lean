import NodeScript.Proofs.Format.Readable
import NodeScript.Proofs.Format.RoundTrip

/-!
What is read back of a graph is written in the same bytes as the graph. Main statement:
`Rewired.encode_eq`.
-/

set_option autoImplicit false
set_option relaxedAutoImplicit false

namespace NodeScript

open Format NodeScript.Graph

variable {registry : Registry} {graph next : Graph}

namespace Graph

theorem definitionFault?_congr (schemas : next.schemas = graph.schemas)
    (signatures : next.functions.map (·.signature) = graph.functions.map (·.signature))
    (fine : graph.definitionFault? = none) : next.definitionFault? = none := by
  rw [definitionFault?_eq_none_iff] at fine ⊢
  rwa [schemas, signatures]

end Graph

theorem Graph.insetsOf_eq (node : Node) : insetsOf node =
    (node.inputs.map (·.inset)).zipIdx.filterMap fun (inset, slot) => inset.map (slot, ·) := by
  rw [insetsOf, List.zipIdx_map, List.filterMap_map]
  rfl

theorem Graph.Alike.code {kind kind' : NodeKind} (alike : graph.Alike next kind kind') :
    kind'.code = kind.code := by
  cases alike <;> rfl

namespace Format.Resembles

variable {node copy : Node} (resembles : Resembles graph next node copy)
include resembles

theorem insetsOf_eq : insetsOf copy = insetsOf node := by
  have insets := congrArg (List.map fun (_, inset, _) => inset) (resembles.inputs fun _ _ _ => ())
  rw [List.map_map, List.map_map] at insets
  rw [Graph.insetsOf_eq, Graph.insetsOf_eq]
  exact congrArg (fun insets => insets.zipIdx.filterMap fun (inset, slot) => inset.map (slot, ·))
    insets

theorem configBytes_eq (registry : Registry) :
    configBytes registry copy = configBytes registry node := by
  have alike := resembles.kind
  unfold configBytes
  rw [resembles.config]
  generalize node.kind = kind at alike
  generalize copy.kind = kind' at alike
  cases alike <;> rfl

theorem record?_eq (registry : Registry) :
    next.record? next.ranks registry current copy =
      graph.record? graph.ranks registry current node := by
  have wires := congrArg (List.map fun (_, _, wires) => wires) (resembles.inputs WireRecord.mk)
  rw [List.map_map, List.map_map] at wires
  have wires : copy.inputs.map (next.wiresOf WireRecord.mk) =
      node.inputs.map (graph.wiresOf WireRecord.mk) := wires
  unfold wiresOf at wires
  rw [record?, record?, resembles.kind.nameOf?, resembles.kind.code, resembles.position,
    resembles.insetsOf_eq, resembles.configBytes_eq registry, wires]

end Format.Resembles

theorem Format.Rewired.records_eq
    (mirrored : Mirrored graph next) (rewired : Rewired registry graph next)
    {records : List NodeRecord} (recorded : graph.records registry current = .ok records) :
    next.records registry current = .ok records := by
  have all := (records_eq_ok recorded).2
  have each := records_iff.1 recorded
  have length : next.live.length = graph.live.length :=
    mirrored.full.live_length.trans mirrored.size
  refine records_iff.2
    (List.forall₂_iff_get.2 ⟨length.trans each.length_eq, fun i inside bound => ?_⟩)
  have placed : i < graph.live.length := by
    rw [← length]
    exact inside
  have number : graph.live[i]? = some graph.live[i] := List.getElem?_eq_getElem placed
  rw [mirrored.full.live_length] at inside
  obtain ⟨copy, found⟩ := Option.isSome_iff_exists.1
    (mirrored.full i inside)
  have here : next.live[i]? = some (⟨i⟩, copy) := by
    rw [mirrored.full.live_eq, found]
    rfl
  obtain ⟨_, here⟩ := List.getElem?_eq_some_iff.1 here
  have resembles := rewired.resembles all mirrored number found
  rw [List.get_eq_getElem, here, resembles.record?_eq registry]
  exact each.get placed bound

/-- What is read back is written in the same bytes. -/
theorem Format.Rewired.encode_eq
    (mirrored : Mirrored graph next) (rewired : Rewired registry graph next)
    (signatures : next.functions.map (·.signature) = graph.functions.map (·.signature))
    (schemas : next.schemas = graph.schemas) {file : Bytes}
    (written : graph.encode registry current = .ok file) :
    next.encode registry current = .ok file := by
  obtain ⟨fine, records, recorded, rfl⟩ := encode_eq_file_iff.1 written
  rw [fault?_current] at fine
  refine encode_eq_file_iff.2 ⟨?_, records, rewired.records_eq mirrored recorded, ?_⟩
  · rw [fault?_current]
    exact definitionFault?_congr schemas signatures fine
  · rw [tables, tables, schemas, signatures]

end NodeScript
