import Mathlib.Tactic.MkIffOfInductiveProp
import NodeScript.Format.Load
import NodeScript.Format.Save
import NodeScript.Proofs.Bytes.Nested

/-!
The parts of a file are read back from their bytes: fields, definitions, wires, literals and the
records of nodes. Definitions are read against those before them, so what is read of one is a
function of the graph so far.
-/

set_option autoImplicit false
set_option relaxedAutoImplicit false

namespace NodeScript

open Decode Format

def Field.CountsFit (field : Field) : Prop := IsCount field.name.utf8ByteSize ∧ field.type.CountsFit

instance (field : Field) : Decidable (Field.CountsFit field) := inferInstanceAs (Decidable (_ ∧ _))

/-- The format can hold the lengths in a schema. -/
@[mk_iff] structure Schema.CountsFit (schema : Schema) : Prop where
  name : IsCount schema.name.utf8ByteSize
  each : ∀ field ∈ schema.fields, Field.CountsFit field

instance (schema : Schema) : Decidable (Schema.CountsFit schema) :=
  decidable_of_iff _ (Schema.countsFit_iff schema).symm

/-- The format can hold the lengths in a signature. -/
@[mk_iff] structure Signature.CountsFit (signature : Signature) : Prop where
  name : IsCount signature.name.utf8ByteSize
  inputs : IsCount signature.inputs.length
  outputs : IsCount signature.outputs.length
  each : ∀ field ∈ signature.inputs ++ signature.outputs, Field.CountsFit field

instance (signature : Signature) : Decidable (Signature.CountsFit signature) :=
  decidable_of_iff _ (Signature.countsFit_iff signature).symm

/-- The format can hold the numbers in a wire. -/
@[mk_iff] structure Format.WireRecord.CountsFit (wire : WireRecord) : Prop where
  source : IsCount wire.source
  output : IsCount wire.output
  relays : IsCount wire.relays.length

instance (wire : WireRecord) : Decidable (Format.WireRecord.CountsFit wire) :=
  decidable_of_iff _ (Format.WireRecord.countsFit_iff wire).symm

/-- The format can hold the lengths in a node and the numbers in its wires. -/
@[mk_iff] structure Format.NodeRecord.CountsFit (record : NodeRecord) : Prop where
  name : IsCount record.name.utf8ByteSize
  payload : IsCount record.payload.length
  inputs : IsCount record.inputs.length
  wires : ∀ wires ∈ record.inputs, IsCount wires.length
  each : ∀ wires ∈ record.inputs, ∀ wire ∈ wires, wire.CountsFit

instance (record : NodeRecord) : Decidable (Format.NodeRecord.CountsFit record) :=
  decidable_of_iff _ (Format.NodeRecord.countsFit_iff record).symm

/-- The format can hold the lengths and the numbers in literals. -/
@[mk_iff] structure Format.InsetsFit (insets : List (Nat × Value)) : Prop where
  length : IsCount insets.length
  each : ∀ inset ∈ insets, IsCount inset.1 ∧ inset.2.CountsFit

instance (insets : List (Nat × Value)) : Decidable (Format.InsetsFit insets) :=
  decidable_of_iff _ (Format.insetsFit_iff insets).symm

/-- What is read for a field where some structs are known. -/
def Field.reread (known : List Schema) (field : Field) : Option Field :=
  (field.type.reread known maxNesting).map (field.name, ·)

theorem Format.reads_field (known : List Schema) {field : Field} (fit : Field.CountsFit field) :
    Reads (decodeField known) (encodeField field) (Field.reread known field) :=
  (Reads.text fit.1).andThen (DataType.reads known field.type fit.2 maxNesting).map

/-- The graph with the struct that is read for a schema. -/
def Graph.rereadSchema (graph : Graph) (schema : Schema) : Option Graph := do
  let fields ← schema.fields.mapM (Field.reread graph.schemas)
  match graph.declareStruct { name := schema.name, fields } with
  | .ok (_, graph) => some graph
  | .error _ => none

/-- The graph with the function that is read for a signature. -/
def Graph.rereadSignature (graph : Graph) (signature : Signature) : Option Graph := do
  let inputs ← signature.inputs.mapM (Field.reread graph.schemas)
  let outputs ← signature.outputs.mapM (Field.reread graph.schemas)
  match graph.declareFunction { name := signature.name, inputs, outputs } with
  | .ok (_, graph) => some graph
  | .error _ => none

theorem Format.reads_schema (graph : Graph) {schema : Schema} (fit : schema.CountsFit)
    (few : schema.fields.length ≤ 255) :
    Reads (readSchema graph) (Graph.encodeSchema schema) (graph.rereadSchema schema) := by
  have length : (UInt8.ofNat schema.fields.length).toNat = schema.fields.length := by
    rw [UInt8.toNat_ofNat']
    exact Nat.mod_eq_of_lt (Nat.lt_succ_of_le few)
  have bytes : Graph.encodeSchema schema = Encode.text schema.name ++
      ([UInt8.ofNat schema.fields.length] ++ (schema.fields.flatMap encodeField ++ [])) := by
    rw [Graph.encodeSchema, List.append_nil]
    rfl
  rw [bytes]
  refine (Reads.text fit.name).andThen ((Reads.byte _).andThen ?_)
  rw [length]
  refine (Reads.times fun field hf => reads_field graph.schemas (fit.each field hf)).bind
    fun fields _ => ?_
  cases graph.declareStruct { name := schema.name, fields } with
  | ok declared => exact Reads.pure declared.2
  | error reason => exact Reads.throw _ _

theorem Format.reads_signature (graph : Graph) {signature : Signature}
    (fit : signature.CountsFit) :
    Reads (readSignature graph) (Graph.encodeSignature signature)
      (graph.rereadSignature signature) := by
  have bytes : Graph.encodeSignature signature = Encode.text signature.name ++
      (Encode.many encodeField signature.inputs ++
        (Encode.many encodeField signature.outputs ++ [])) := by
    rw [Graph.encodeSignature, List.append_nil, List.append_assoc]
  rw [bytes]
  refine (Reads.text fit.name).andThen ?_
  refine (Reads.many fit.inputs fun field hf =>
    reads_field graph.schemas (fit.each field (List.mem_append_left _ hf))).bind fun inputs _ => ?_
  refine (Reads.many fit.outputs fun field hf =>
    reads_field graph.schemas (fit.each field (List.mem_append_right _ hf))).bind
      fun outputs _ => ?_
  cases graph.declareFunction { name := signature.name, inputs, outputs } with
  | ok declared => exact Reads.pure declared.2
  | error reason => exact Reads.throw _ _

theorem Format.reads_position (position : Position) :
    Reads decodePosition (encodePosition position) (some position) :=
  (Reads.double position.x).andThen ((Reads.double position.y).map (f := Position.mk position.x))

private theorem mapM_some {α : Type} (items : List α) : items.mapM some = some items := by
  rw [show (some : α → Option α) = fun a => pure (id a) from rfl, List.mapM_pure, List.map_id]
  rfl

private theorem reads_all {α : Type} {read : Decode α} {encode : α → Bytes} {items : List α}
    (short : IsCount items.length) (each : ∀ a ∈ items, Reads read (encode a) (some a)) :
    Reads (Decode.many read) (Encode.many encode items) (some items) := by
  have read := Reads.many short each
  rwa [mapM_some] at read

theorem Format.WireRecord.reads {wire : WireRecord} (fit : wire.CountsFit) :
    Reads decode (wire.encode current) (some wire) := by
  have bytes : wire.encode current = Encode.count wire.source ++ (Encode.count wire.output ++
      Encode.many encodePosition wire.relays) := by
    rw [encode, if_pos (by decide), List.append_assoc]
  rw [bytes]
  exact (Reads.count fit.source).andThen ((Reads.count fit.output).andThen
    ((reads_all fit.relays fun position _ => reads_position position).map
      (f := WireRecord.mk wire.source wire.output)))

theorem Format.NodeRecord.reads {record : NodeRecord} (fit : record.CountsFit) :
    Reads decode (record.encode current) (some record) := by
  have bytes : record.encode current = Encode.text record.name ++ ([record.kind] ++
      (Encode.blob record.payload ++ (encodePosition record.position ++
        Encode.many (Encode.many (WireRecord.encode current)) record.inputs))) := by
    rw [encode, if_pos (by decide), List.append_assoc, List.append_assoc, List.append_assoc]
  rw [bytes]
  refine (Reads.text fit.name).andThen ((Reads.byte _).andThen ((Reads.blob fit.payload).andThen
    ((reads_position record.position).andThen ?_)))
  have inputs := reads_all fit.inputs fun wires hw =>
    reads_all (fit.wires wires hw) fun wire h => WireRecord.reads (fit.each wires hw wire h)
  exact inputs.map (f := NodeRecord.mk record.name record.kind record.payload record.position)

theorem Graph.insetsOf_eq_nil {node : Node} (none : ∀ input ∈ node.inputs, input.inset = none) :
    insetsOf node = [] := by
  rw [insetsOf, List.filterMap_eq_nil_iff]
  rintro ⟨input, slot⟩ mem
  show input.inset.map (slot, ·) = .none
  rw [none input (List.fst_mem_of_mem_zipIdx mem), Option.map_none]

def Format.rereadInsets (insets : List (Nat × Value)) : Option (List (Nat × Value)) :=
  insets.mapM fun inset => (inset.2.within maxNesting).map (inset.1, ·)

theorem Format.reads_insets {insets : List (Nat × Value)} (fit : InsetsFit insets) :
    Reads decodeInsets (encodeInsets insets) (rereadInsets insets) := by
  refine Reads.many fit.length fun inset hi => ?_
  have value := Value.reads inset.2 (fit.each inset hi).2 maxNesting
  exact (Reads.count (fit.each inset hi).1).andThen value.map

end NodeScript
