import NodeScript.Proofs.Format.Clamped
import NodeScript.Proofs.Format.Rewritten

/-!
Loaded graphs that are written and read again. Main statements: after one save nothing changes any
more in the bytes (`Loaded.saves_alike`), and what there is to see is the same after it exactly if
no sequence was given a number of outputs out of bounds (`Loaded.same_iff_bounded`).
-/

set_option autoImplicit false
set_option relaxedAutoImplicit false

namespace NodeScript

open Format NodeScript.Graph

namespace Format

variable {file : Bytes} {loaded : Loaded}

/-- A loaded graph is written, and what is read of it is what there was, with the number of outputs
of every sequence within bounds. -/
theorem Loaded.reread (decoded : decode Registry.builtin file = .ok loaded)
    (fit : loaded.graph.CountsFit Registry.builtin) :
    ∃ saved again, loaded.graph.encode Registry.builtin current = .ok saved ∧
      decode Registry.builtin saved = .ok ⟨again, current, 0, 0⟩ ∧
      again.encode Registry.builtin current = .ok saved ∧
      again.summary = loaded.graph.summary.clamped := by
  have formed := decode_wellFormed decoded
  have readable := readable_of_decode Registry.builtin_steady decoded
  obtain ⟨saved, written⟩ := readable.encode_isOk formed
  -- the same bytes are those of the graph with all numbers within bounds, which is read back
  have clamped := encode_clamped written
  obtain ⟨again, reread, mirrored, rewired, signatures, schemas⟩ :=
    formed.clamped.reread_eq readable.settled.clamped readable.nested.clamped clamped
  have decoded' := (decode_encode clamped readable.configsReread fit.clamped).1 _ reread
  obtain ⟨-, records, recorded, -⟩ := encode_eq_ok clamped
  have same := rewired.summary_eq (records_eq_ok recorded).2 mirrored signatures schemas
    formed.clamped (decode_wellFormed decoded')
  exact ⟨saved, again, written, decoded', rewired.encode_eq mirrored signatures schemas clamped,
    same.trans (summary_clamped loaded.graph)⟩

/-- One save settles everything: what is read of it lacks nothing and is written in the same
bytes. -/
theorem Loaded.saves_alike (decoded : decode Registry.builtin file = .ok loaded)
    (fit : loaded.graph.CountsFit Registry.builtin) :
    ∃ saved again, loaded.graph.encode Registry.builtin current = .ok saved ∧
      decode Registry.builtin saved = .ok again ∧ again.version = 4 ∧
      again.droppedNodes = 0 ∧ again.droppedWires = 0 ∧
      again.graph.encode Registry.builtin current = .ok saved := by
  obtain ⟨saved, again, written, decoded', rewritten, -⟩ := Loaded.reread decoded fit
  exact ⟨saved, ⟨again, current, 0, 0⟩, written, decoded', rfl, rfl, rfl, rewritten⟩

def roughFile : Bytes :=
  Tables.file 3 ⟨[], [⟨"f", [], []⟩], [
    { name := "unknown", kind := 0, payload := [], position := .zero, inputs := [] },
    { name := Catalog.sequence.id, kind := 0, payload := Encode.count 0 ++ [7], position := .zero,
      inputs := [[⟨0, 0, []⟩, ⟨1, 1, [.zero]⟩]] }]⟩ ++ [9]

theorem roughFile_saves_alike : ∃ loaded saved again,
    decode Registry.builtin roughFile = .ok loaded ∧ loaded.version = 3 ∧
      loaded.droppedNodes = 1 ∧ loaded.droppedWires = 2 ∧
      loaded.graph.encode Registry.builtin current = .ok saved ∧
      decode Registry.builtin saved = .ok again ∧ again.version = 4 ∧
      again.droppedNodes = 0 ∧ again.droppedWires = 0 ∧
      again.graph.encode Registry.builtin current = .ok saved := by
  have facts : ∃ loaded ∈ (decode Registry.builtin roughFile).toOption, loaded.version = 3 ∧
      loaded.droppedNodes = 1 ∧ loaded.droppedWires = 2 ∧
      loaded.graph.CountsFit Registry.builtin := by decide +kernel
  obtain ⟨loaded, decoded, version, nodes, wires, fit⟩ := facts
  have decoded := Accepted.toOption_eq_some_iff.1 decoded
  obtain ⟨saved, again, settled⟩ := Loaded.saves_alike decoded fit
  exact ⟨loaded, saved, again, decoded, version, nodes, wires, settled⟩

/-- A loaded graph looks the same after it is written and read, but for the numbers of outputs that
are out of bounds. -/
theorem Loaded.same_iff_bounded (decoded : decode Registry.builtin file = .ok loaded)
    (fit : loaded.graph.CountsFit Registry.builtin) :
    ∃ saved again, loaded.graph.encode Registry.builtin current = .ok saved ∧
      decode Registry.builtin saved = .ok again ∧
      again.graph.summary = loaded.graph.summary.clamped ∧
      (again.graph.summary = loaded.graph.summary ↔
        ∀ node ∈ loaded.graph.summary.nodes, node.kind = "builtin" → node.id = "flow/Sequence" →
          ∃ n, 1 ≤ n ∧ n ≤ 16 ∧ node.config = Catalog.sequenceConfig n) := by
  obtain ⟨saved, again, written, decoded', -, same⟩ := Loaded.reread decoded fit
  refine ⟨saved, ⟨again, current, 0, 0⟩, written, decoded', same, ?_⟩
  dsimp only
  rw [same]
  exact Summary.clamped_eq_self_iff

/-- A file with a sequence without wires. -/
def sequenceFile (outputs : Nat) : Bytes :=
  Tables.file current ⟨[], [], [{
    name := Catalog.sequence.id
    kind := 0
    payload := encodeInsets [] ++ Encode.count outputs
    position := .zero
    inputs := [[]] }]⟩

theorem three_outputs_same : ∃ loaded saved again,
    decode Registry.builtin (sequenceFile 3) = .ok loaded ∧
      loaded.graph.summary.nodes.map (·.config) = [Catalog.sequenceConfig 3] ∧
      loaded.graph.encode Registry.builtin current = .ok saved ∧
      decode Registry.builtin saved = .ok again ∧
      again.graph.summary = loaded.graph.summary := by
  have configs : (decode Registry.builtin (sequenceFile 3)).toOption.map
      (fun loaded => loaded.graph.summary.nodes.map (·.config)) =
        some [Catalog.sequenceConfig 3] := rfl
  have fits : ∀ loaded ∈ (decode Registry.builtin (sequenceFile 3)).toOption,
      loaded.graph.CountsFit Registry.builtin := by decide +kernel
  obtain ⟨loaded, found, configs⟩ := Option.map_eq_some_iff.1 configs
  have decoded := Accepted.toOption_eq_some_iff.1 found
  obtain ⟨saved, again, written, decoded', -, same⟩ :=
    Loaded.same_iff_bounded decoded (fits loaded found)
  refine ⟨loaded, saved, again, decoded, configs, written, decoded', same.2 ?_⟩
  intro node mem _ _
  have config : node.config ∈ loaded.graph.summary.nodes.map (·.config) := List.mem_map_of_mem mem
  rw [configs, List.mem_singleton] at config
  exact ⟨3, by decide, by decide, config⟩

def outputCounts (seen : Summary) : List (Option Nat) :=
  seen.nodes.map fun node => (node.config.get? "outputs").bind Json.asNat?

/-- A sequence that a file gives twenty outputs has sixteen after it is written and read. -/
theorem twenty_outputs_changed : ∃ loaded saved again,
    decode Registry.builtin (sequenceFile 20) = .ok loaded ∧
      loaded.graph.CountsFit Registry.builtin ∧
      loaded.graph.encode Registry.builtin current = .ok saved ∧
      decode Registry.builtin saved = .ok again ∧
      again.graph.summary ≠ loaded.graph.summary := by
  have facts : ∃ loaded ∈ (decode Registry.builtin (sequenceFile 20)).toOption,
      loaded.graph.CountsFit Registry.builtin ∧
        ∃ saved ∈ (loaded.graph.encode Registry.builtin current).toOption,
          ∃ again ∈ (decode Registry.builtin saved).toOption,
            outputCounts loaded.graph.summary = [some 20] ∧
              outputCounts again.graph.summary = [some 16] := by
    decide +kernel
  obtain ⟨loaded, decoded, fit, saved, written, again, decoded', before, after⟩ := facts
  refine ⟨loaded, saved, again, Accepted.toOption_eq_some_iff.1 decoded, fit,
    Accepted.toOption_eq_some_iff.1 written, Accepted.toOption_eq_some_iff.1 decoded',
      fun same => ?_⟩
  rw [same, before] at after
  exact absurd after (by decide)

end Format

end NodeScript
