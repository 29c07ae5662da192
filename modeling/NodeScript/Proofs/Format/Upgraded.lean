import NodeScript.Format.Save
import NodeScript.Proofs.Format.Transcribed

/-!
What becomes of the tables of a file of an older version on their way to the current one. A step
changes the records of nodes and leaves the definitions alone, and it fails only where it copies a
type that is nested too deeply. Main statement: `Format.upgrades_all`.
-/

set_option autoImplicit false
set_option relaxedAutoImplicit false

namespace NodeScript

open Decode Format

namespace Format

/-- The tables of a file. -/
structure Tables where
  schemas : List Schema
  signatures : List Signature
  records : List NodeRecord

namespace Tables

/-- The bytes of the tables in the layout of a version. -/
def encode (version : Int32) (tables : Tables) : Bytes :=
  (if withStructs ≤ version then Encode.many Graph.encodeSchema tables.schemas else []) ++
    ((if withFunctions ≤ version then Encode.many Graph.encodeSignature tables.signatures
      else []) ++ Encode.many (NodeRecord.encode version) tables.records)

/-- A file of a version with the given tables. -/
def file (version : Int32) (tables : Tables) : Bytes :=
  Encode.int32 version ++ tables.encode version

/-- The layouts can hold the tables. -/
structure Fits (tables : Tables) : Prop where
  schemas : IsCount tables.schemas.length
  signatures : IsCount tables.signatures.length
  records : IsCount tables.records.length
  eachSchema : ∀ schema ∈ tables.schemas, schema.CountsFit ∧ schema.fields.length ≤ 255
  eachSignature : ∀ signature ∈ tables.signatures, signature.CountsFit
  eachRecord : ∀ record ∈ tables.records, record.CountsFit

def IsShallow (tables : Tables) : Prop :=
  (∀ schema ∈ tables.schemas, schema.IsShallow) ∧
    ∀ signature ∈ tables.signatures, signature.IsShallow

theorem version_file (version : Int32) (tables : Tables) :
    Decode.int32.result (tables.file version) = .ok version :=
  congrArg Prod.fst ((Reads.int32 version).gives version rfl (tables.encode version) 0)

theorem length_file (version : Int32) (tables : Tables) : 8 ≤ (tables.file version).length := by
  simp only [file, encode, Encode.int32, Encode.many, Encode.count, List.length_append,
    length_bigEndian]
  omega

end Tables

/-- The wire without its relays. -/
def WireRecord.bare (wire : WireRecord) : WireRecord := { wire with relays := [] }

namespace Step

/-- A record in the next layout. -/
def record : Step → NodeRecord → NodeRecord
  | addFunctionTable, node | addStructTable, node => node
  | addWireRelays, node => { node with inputs := node.inputs.map (·.map WireRecord.bare) }
  | addInputInsets, node => { node with payload := Encode.count 0 ++ node.payload }

/-- The tables in the next layout. -/
def next (step : Step) (tables : Tables) : Tables :=
  { tables with records := tables.records.map step.record }

def Suits : Step → Tables → Prop
  | addFunctionTable, tables => tables.schemas = [] ∧ tables.signatures = [] ∧
      ∀ record ∈ tables.records, record.kind = 0
  | addStructTable, tables => tables.schemas = []
  | addWireRelays, _ | addInputInsets, _ => True

variable {tables : Tables}

private theorem run_of_reads (step : Step) {bytes out : Bytes} (rest : Bytes) (version : Int32)
    (reads : Reads step.tables bytes (some out)) :
    step.run (Encode.int32 version ++ (bytes ++ rest)) =
      .ok (Encode.int32 (step.version + 1) ++ out ++ rest) := by
  have first := (Reads.int32 version).gives version rfl (bytes ++ rest) 0
  have second := reads.gives out rfl rest (0 + (Encode.int32 version).length)
  unfold run Decode.result Cursor.ofBytes
  rw [runAt_bind, first]
  dsimp only
  rw [runAt_bind, second]
  rfl

private theorem run_of_absent {step : Step} {bytes rest : Bytes} (version : Int32)
    (reads : Reads step.tables bytes none) :
    ∃ e, step.run (Encode.int32 version ++ (bytes ++ rest)) = .error e := by
  have first := (Reads.int32 version).gives version rfl (bytes ++ rest) 0
  obtain ⟨e, c, second⟩ := reads.fails rfl rest (0 + (Encode.int32 version).length)
  refine ⟨e, ?_⟩
  unfold run Decode.result Cursor.ofBytes
  rw [runAt_bind, first]
  dsimp only
  rw [runAt_bind, second]

private theorem reads_records {kind payload wire : CopyOf} {old new : Int32}
    {records : List NodeRecord} {next : NodeRecord → NodeRecord} (short : IsCount records.length)
    (each : ∀ record ∈ records,
      Reads (CopyOf.node kind payload wire) (record.encode old) (some ((next record).encode new))) :
    Reads (CopyOf.many (CopyOf.node kind payload wire))
      (Encode.many (NodeRecord.encode old) records)
      (some (Encode.many (NodeRecord.encode new) (records.map next))) := by
  have copies := CopyOf.reads_many short each
  rwa [Encode.many, Encode.many, List.length_map, List.flatMap_map]

private theorem map_id_inputs (record : NodeRecord) :
    record.inputs = record.inputs.map (·.map id) := by simp

theorem encode_wire_old {version : Int32} (old : ¬withRelays ≤ version) (wire : WireRecord) :
    wire.encode version = Encode.count wire.source ++ Encode.count wire.output := by
  rw [WireRecord.encode, if_neg old, List.append_nil]

theorem encode_wire_new {version : Int32} (new : withRelays ≤ version) (wire : WireRecord) :
    wire.encode version = Encode.count wire.source ++ (Encode.count wire.output ++
      Encode.many encodePosition wire.relays) := by
  rw [WireRecord.encode, if_pos new, List.append_assoc]

private theorem reads_ends {wire : WireRecord} (fit : wire.CountsFit) :
    Reads (CopyOf.all [CopyOf.word, CopyOf.word])
      (Encode.count wire.source ++ Encode.count wire.output)
      (some (Encode.count wire.source ++ Encode.count wire.output)) := by
  refine CopyOf.reads_part (CopyOf.reads_count fit.source) ?_
  exact CopyOf.reads_last (CopyOf.reads_count fit.output)

private theorem reads_kind (record : NodeRecord) {old new : Int32} (hasOld : withFunctions ≤ old)
    (hasNew : withFunctions ≤ new) :
    Reads CopyOf.byte (if withFunctions ≤ old then [record.kind] else [])
      (some (if withFunctions ≤ new then [record.kind] else [])) := by
  rw [if_pos hasOld, if_pos hasNew]
  exact CopyOf.reads_byte _

theorem run_addFunctionTable (fit : tables.Fits) (suits : addFunctionTable.Suits tables) :
    addFunctionTable.run (tables.file 0) = .ok ((addFunctionTable.next tables).file 1) := by
  obtain ⟨schemas, signatures, records⟩ := tables
  obtain ⟨rfl, rfl, kinds⟩ := suits
  have each : ∀ record ∈ records, Reads
      (CopyOf.node (return Encode.byte (NodeKind.builtin "").code) CopyOf.blob
        (CopyOf.all [CopyOf.word, CopyOf.word]))
      (record.encode 0) (some ((addFunctionTable.record record).encode 1)) := by
    intro record hr
    have recordFit := fit.eachRecord record hr
    refine CopyOf.reads_node id recordFit rfl rfl (map_id_inputs record) ?_
      (CopyOf.reads_blob recordFit.payload) fun wire wireFit => ?_
    · rw [if_neg (by decide), if_pos (by decide)]
      have kind : (addFunctionTable.record record).kind = 0 := kinds record hr
      rw [kind]
      exact Reads.pure [0]
    · rw [encode_wire_old (by decide), encode_wire_old (by decide)]
      exact reads_ends wireFit
  have copies := (reads_records fit.records each).map (f := fun nodes => Encode.count 0 ++ nodes)
  have run := run_of_reads addFunctionTable [] 0 copies
  rw [List.append_nil, List.append_nil] at run
  exact run

theorem encode_record_structs : NodeRecord.encode 2 = NodeRecord.encode 1 := by
  have wires : WireRecord.encode 2 = WireRecord.encode 1 := by
    funext wire
    rw [encode_wire_old (by decide), encode_wire_old (by decide)]
  funext record
  rw [NodeRecord.encode, NodeRecord.encode, wires, if_pos (by decide), if_pos (by decide)]

theorem run_addStructTable (suits : addStructTable.Suits tables) :
    addStructTable.run (tables.file 1) = .ok ((addStructTable.next tables).file 2) := by
  obtain ⟨schemas, signatures, records⟩ := tables
  obtain rfl : schemas = [] := suits
  have run := run_of_reads addStructTable (Tables.encode 1 ⟨[], signatures, records⟩) 1
    (Reads.pure (Encode.count 0))
  rw [List.nil_append] at run
  have bytes : (addStructTable.next ⟨[], signatures, records⟩).file 2 =
      Encode.int32 2 ++ Encode.count 0 ++ Tables.encode 1 ⟨[], signatures, records⟩ := by
    have same : records.map addStructTable.record = records := List.map_id records
    rw [Tables.file, Tables.encode, Tables.encode, next, same, if_pos (by decide),
      if_pos (by decide), if_neg (by decide), if_pos (by decide), encode_record_structs,
      List.append_assoc]
    rfl
  exact run.trans (congrArg Except.ok bytes.symm)

private theorem file_split {version : Int32} (hasStructs : withStructs ≤ version)
    (hasFunctions : withFunctions ≤ version) (tables : Tables) :
    tables.file version = Encode.int32 version ++ ((Encode.many Graph.encodeSchema tables.schemas ++
      Encode.many Graph.encodeSignature tables.signatures) ++
        Encode.many (NodeRecord.encode version) tables.records ++ []) := by
  rw [Tables.file, Tables.encode, if_pos hasStructs, if_pos hasFunctions, List.append_nil,
    List.append_assoc]

private theorem run_defined (step : Step) {kind payload wire : CopyOf} {new : Int32}
    (made : step.tables =
      CopyOf.all [CopyOf.definitions, CopyOf.many (CopyOf.node kind payload wire)])
    (following : step.version + 1 = new) (old : withStructs ≤ step.version)
    (old' : withFunctions ≤ step.version) (later : withStructs ≤ new) (later' : withFunctions ≤ new)
    (fit : tables.Fits) (each : ∀ record ∈ tables.records, Reads (CopyOf.node kind payload wire)
      (record.encode step.version) (some ((step.record record).encode new))) :
    (tables.IsShallow → step.run (tables.file step.version) = .ok ((step.next tables).file new)) ∧
    (¬tables.IsShallow → ∃ e, step.run (tables.file step.version) = .error e) := by
  have definitions := CopyOf.transcribes_definitions fit.schemas fit.signatures fit.eachSchema
    fit.eachSignature
  have nodes := CopyOf.Transcribes.of_reads
    (CopyOf.reads_last (reads_records fit.records each))
  have both := (definitions.cons nodes).congr (and_iff_left trivial)
  rw [← made] at both
  subst following
  rw [file_split old old', file_split later later']
  constructor
  · intro shallow
    have run := run_of_reads step [] step.version (both.gives shallow)
    rw [run, List.append_assoc]
    rfl
  · intro deep
    exact run_of_absent step.version (both.fails deep)

theorem run_addWireRelays (fit : tables.Fits) :
    (tables.IsShallow →
      addWireRelays.run (tables.file 2) = .ok ((addWireRelays.next tables).file 3)) ∧
    (¬tables.IsShallow → ∃ e, addWireRelays.run (tables.file 2) = .error e) := by
  refine run_defined addWireRelays rfl rfl (by decide) (by decide) (by decide)
    (by decide) fit fun record hr => ?_
  have recordFit := fit.eachRecord record hr
  refine CopyOf.reads_node WireRecord.bare recordFit rfl rfl rfl
    (reads_kind record (by decide) (by decide)) (CopyOf.reads_blob recordFit.payload)
    fun wire wireFit => ?_
  have bare : (WireRecord.bare wire).encode 3 =
      Encode.count wire.source ++ (Encode.count wire.output ++ (Encode.count 0 ++ [])) :=
    encode_wire_new (by decide) _
  have bytes : wire.encode 2 =
      Encode.count wire.source ++ (Encode.count wire.output ++ ([] ++ [])) := by
    rw [encode_wire_old (by decide) wire, List.append_nil, List.append_nil]
  have written : wire.encode addWireRelays.version = _ := bytes
  rw [bare, written]
  exact CopyOf.reads_part (CopyOf.reads_count wireFit.source) (CopyOf.reads_part
    (CopyOf.reads_count wireFit.output) (CopyOf.reads_part (Reads.pure _) (Reads.pure [])))

theorem run_addInputInsets (fit : tables.Fits) :
    (tables.IsShallow →
      addInputInsets.run (tables.file 3) = .ok ((addInputInsets.next tables).file 4)) ∧
    (¬tables.IsShallow → ∃ e, addInputInsets.run (tables.file 3) = .error e) := by
  refine run_defined addInputInsets rfl rfl (by decide) (by decide) (by decide)
    (by decide) fit fun record hr => ?_
  have recordFit := fit.eachRecord record hr
  refine CopyOf.reads_node id recordFit rfl rfl (map_id_inputs record)
    (reads_kind record (by decide) (by decide))
    ((Reads.blob recordFit.payload).map
      (f := fun payload => Encode.blob (Encode.count 0 ++ payload))) fun wire wireFit => ?_
  rw [encode_wire_new (by decide), encode_wire_new (by decide)]
  exact CopyOf.reads_part (CopyOf.reads_count wireFit.source) (CopyOf.reads_part
    (CopyOf.reads_count wireFit.output) (CopyOf.reads_last
      (CopyOf.reads_many wireFit.relays fun position _ => CopyOf.reads_position position)))

theorem countsFit_addWireRelays {record : NodeRecord} (fit : record.CountsFit) :
    (addWireRelays.record record).CountsFit := by
  refine ⟨fit.name, fit.payload, ?_, ?_, ?_⟩
  · simpa [Step.record] using fit.inputs
  · intro wires hw
    obtain ⟨before, hb, rfl⟩ := List.mem_map.1 hw
    simpa using fit.wires before hb
  · intro wires hw wire h
    obtain ⟨before, hb, rfl⟩ := List.mem_map.1 hw
    obtain ⟨kept, hk, rfl⟩ := List.mem_map.1 h
    have ends := fit.each before hb kept hk
    exact ⟨ends.source, ends.output, (by decide : IsCount 0)⟩

theorem fits_addWireRelays (fit : tables.Fits) : (addWireRelays.next tables).Fits := by
  refine ⟨fit.schemas, fit.signatures, ?_, fit.eachSchema, fit.eachSignature, ?_⟩
  · simpa [Step.next] using fit.records
  · intro record hr
    obtain ⟨before, hb, rfl⟩ := List.mem_map.1 hr
    exact countsFit_addWireRelays (fit.eachRecord before hb)

end Step

/-- A record of a version in the current layout. -/
def NodeRecord.upgraded (version : Int32) (record : NodeRecord) : NodeRecord :=
  { record with
    payload := (if version < withInsets then Encode.count 0 else []) ++ record.payload
    inputs := if version < withRelays then record.inputs.map (·.map WireRecord.bare)
      else record.inputs }

/-- The tables of a version in the current layout. -/
def Tables.upgraded (version : Int32) (tables : Tables) : Tables :=
  { tables with records := tables.records.map (NodeRecord.upgraded version) }

variable {tables : Tables}

theorem upgrade_cons_of_ne {step : Step} {version : Int32} (other : step.version ≠ version)
    (steps : List Step) :
    upgrade (step :: steps) (tables.file version) = upgrade steps (tables.file version) := by
  have applies : step.applies version (tables.file version).length = false := by
    simp [Step.applies, Ne.symm other]
  rw [upgrade_cons, Tables.version_file]
  simp only [bind, Except.bind, applies, Bool.false_eq_true, if_false]

theorem upgrade_cons_of_eq (step : Step) (steps : List Step) :
    upgrade (step :: steps) (tables.file step.version) =
      step.run (tables.file step.version) >>= upgrade steps := by
  have applies : step.applies step.version (tables.file step.version).length = true := by
    simp [Step.applies, Tables.length_file]
  rw [upgrade_cons, Tables.version_file]
  simp only [bind, Except.bind, applies, if_true]

theorem isKnown_iff {version : Int32} : isKnown version ↔
    version = 0 ∨ version = 1 ∨ version = 2 ∨ version = 3 ∨ version = 4 := by
  have bounds : isKnown version ↔ 0 ≤ version.toInt ∧ version.toInt ≤ 4 := by
    rw [isKnown, Bool.and_eq_true, decide_eq_true_iff, decide_eq_true_iff, Int32.le_iff_toInt_le,
      Int32.le_iff_toInt_le]
    rfl
  have numbers : (0 : Int32).toInt = 0 ∧ (1 : Int32).toInt = 1 ∧ (2 : Int32).toInt = 2 ∧
      (3 : Int32).toInt = 3 ∧ (4 : Int32).toInt = 4 := by decide
  simp only [bounds, ← Int32.toInt_inj, numbers]
  omega

/-- What the steps make of a file of a version. -/
structure Upgrades (steps : List Step) (version : Int32) (tables : Tables) : Prop where
  gives : tables.IsShallow →
    upgrade steps (tables.file version) = .ok ((tables.upgraded version).file current)
  fails : ¬tables.IsShallow → version ≠ current →
    ∃ e, upgrade steps (tables.file version) = .error e

theorem Tables.upgraded_current (tables : Tables) : tables.upgraded current = tables := by
  have records : tables.records.map (NodeRecord.upgraded current) = tables.records :=
    List.map_id tables.records
  rw [Tables.upgraded, records]

theorem upgrade_file_current (steps : List Step) (tables : Tables) :
    upgrade steps (tables.file current) = .ok (tables.file current) :=
  upgrade_of_current (tables.version_file current) steps

theorem upgrades_current (steps : List Step) : Upgrades steps current tables where
  gives := by
    intro _
    rw [tables.upgraded_current]
    exact upgrade_file_current steps tables
  fails := fun _ other => (other rfl).elim

theorem Upgrades.skip {step : Step} {steps : List Step} {version : Int32}
    (other : step.version ≠ version) (rest : Upgrades steps version tables) :
    Upgrades (step :: steps) version tables where
  gives := fun shallow => (upgrade_cons_of_ne other steps).trans (rest.gives shallow)
  fails := by
    intro deep old
    obtain ⟨e, failed⟩ := rest.fails deep old
    exact ⟨e, (upgrade_cons_of_ne other steps).trans failed⟩

/-- A step that applies, where those after it go on from the next version. -/
theorem Upgrades.step {step : Step} {steps : List Step} (next : Int32)
    (made : tables.IsShallow → step.run (tables.file step.version) =
      .ok ((step.next tables).file next))
    (refused : ¬tables.IsShallow → (∃ e, step.run (tables.file step.version) = .error e) ∨
      (step.run (tables.file step.version) = .ok ((step.next tables).file next) ∧
        next ≠ current))
    (same : (step.next tables).upgraded next = tables.upgraded step.version)
    (rest : Upgrades steps next (step.next tables)) :
    Upgrades (step :: steps) step.version tables where
  gives := by
    intro shallow
    rw [upgrade_cons_of_eq, made shallow, ← same]
    exact rest.gives shallow
  fails := by
    intro deep _
    rw [upgrade_cons_of_eq]
    rcases refused deep with ⟨e, failed⟩ | ⟨run, old⟩
    · exact ⟨e, by rw [failed]; rfl⟩
    · rw [run]
      exact rest.fails deep old

private theorem upgraded_relays (tables : Tables) :
    (Step.addInputInsets.next tables).upgraded 4 = tables.upgraded 3 := by
  have records : (Step.addInputInsets.next tables).records.map (NodeRecord.upgraded 4) =
      tables.records.map (NodeRecord.upgraded 3) := by
    rw [Step.next, List.map_map]
    rfl
  rw [Tables.upgraded, Tables.upgraded, records]
  rfl

private theorem upgraded_structs (tables : Tables) :
    (Step.addWireRelays.next tables).upgraded 3 = tables.upgraded 2 := by
  have records : (Step.addWireRelays.next tables).records.map (NodeRecord.upgraded 3) =
      tables.records.map (NodeRecord.upgraded 2) := by
    rw [Step.next, List.map_map]
    rfl
  rw [Tables.upgraded, Tables.upgraded, records]
  rfl

private theorem next_eq {step : Step} (records : step.record = id) (tables : Tables) :
    step.next tables = tables := by
  rw [Step.next, records, List.map_id]

theorem upgrades_relays (fit : tables.Fits) : Upgrades [.addInputInsets] 3 tables := by
  obtain ⟨made, refused⟩ := Step.run_addInputInsets fit
  exact .step _ made (fun deep => .inl (refused deep)) (upgraded_relays tables)
    (upgrades_current [])

theorem upgrades_structs (fit : tables.Fits) :
    Upgrades [.addWireRelays, .addInputInsets] 2 tables := by
  obtain ⟨made, refused⟩ := Step.run_addWireRelays fit
  exact .step _ made (fun deep => .inl (refused deep)) (upgraded_structs tables)
    (upgrades_relays (Step.fits_addWireRelays fit))

theorem upgrades_functions (fit : tables.Fits) (suits : Step.addStructTable.Suits tables) :
    Upgrades [.addStructTable, .addWireRelays, .addInputInsets] 1 tables := by
  have same : Step.addStructTable.next tables = tables := next_eq rfl tables
  have run := Step.run_addStructTable suits
  refine .step 2 (fun _ => run) (fun _ => .inr ⟨run, by decide⟩) ?_ ?_
  · rw [same]
    rfl
  · rw [same]
    exact upgrades_structs fit

theorem upgrades_oldest (fit : tables.Fits) (suits : Step.addFunctionTable.Suits tables) :
    Upgrades Step.all 0 tables := by
  have same : Step.addFunctionTable.next tables = tables := next_eq rfl tables
  have run := Step.run_addFunctionTable fit suits
  refine .step 1 (fun _ => run) (fun _ => .inr ⟨run, by decide⟩) ?_ ?_
  · rw [same]
    rfl
  · rw [same]
    exact upgrades_functions fit suits.1

/-- What all the steps make of a file, if its tables have nothing that its version lacks. -/
theorem upgrades_all {version : Int32} (known : isKnown version) (fit : tables.Fits)
    (structs : version < withStructs → tables.schemas = [])
    (functions : version < withFunctions → tables.signatures = [])
    (kinds : version < withFunctions → ∀ record ∈ tables.records, record.kind = 0) :
    Upgrades Step.all version tables := by
  rcases isKnown_iff.1 known with rfl | rfl | rfl | rfl | rfl
  · exact upgrades_oldest fit
      ⟨structs (by decide), functions (by decide), kinds (by decide)⟩
  · exact .skip (by decide) (upgrades_functions fit (structs (by decide)))
  · exact .skip (by decide) (.skip (by decide) (upgrades_structs fit))
  · exact .skip (by decide) (.skip (by decide) (.skip (by decide) (upgrades_relays fit)))
  · exact upgrades_current Step.all

end Format

end NodeScript
