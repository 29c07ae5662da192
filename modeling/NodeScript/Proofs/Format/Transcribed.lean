import NodeScript.Format.Upgrade
import NodeScript.Proofs.Format.Records

/-!
What the copies of the parts of a file are. A part is copied as it stands, a type only where it is
not nested deeper than the reader goes. Main statements: `reads_definitions`, for the tables of
definitions, and `reads_node`, for a record whose kind, payload and wires are copied in some way of
their own. `upgrade_cons` says what one step of an upgrade is in front of the others.
-/

set_option autoImplicit false
set_option relaxedAutoImplicit false

namespace NodeScript

open Decode Format

namespace DataType

theorem Copy.run_bind {α β : Type} (copy : Copy α) (next : α → Copy β) (state : Cursor × Bytes) :
    (copy >>= next).run.run state =
      match copy.run.run state with
      | (.ok a, state) => (next a).run.run state
      | (.error e, state) => (.error e, state) := by
  show (ExceptT.run (ExceptT.bind copy next)).run state = _
  simp only [ExceptT.bind, ExceptT.run, ExceptT.mk, StateT.run, bind, StateT.bind]
  rcases h : copy state with ⟨result, state'⟩
  cases result <;> rfl

theorem Copy.run_read {α : Type} (read : Decode α) (cursor : Cursor) (written : Bytes) :
    (Copy.read read).run.run (cursor, written) =
      ((read.runAt cursor).1, (read.runAt cursor).2, written) := rfl

/-- What a copy makes of bytes, whatever follows them: it writes them all and stops behind them,
or it fails. -/
structure Copies (copy : Copy Unit) (bytes : Bytes) (whole : Prop) : Prop where
  gives : whole → ∀ rest offset written, copy.run.run (⟨bytes ++ rest, offset⟩, written) =
    (.ok (), ⟨rest, offset + bytes.length⟩, written ++ bytes)
  fails : ¬whole → ∀ rest offset written, ∃ e state,
    copy.run.run (⟨bytes ++ rest, offset⟩, written) = (.error e, state)

theorem Copies.pure : Copies (pure ()) [] True where
  gives := fun _ rest offset written => by
    rw [List.append_nil]
    rfl
  fails := fun absurd => (absurd trivial).elim

theorem Copies.throw (e : DecodeError) (bytes : Bytes) : Copies (throw e) bytes False where
  gives := fun absurd => absurd.elim
  fails := fun _ _ _ _ => ⟨e, _, rfl⟩

theorem Copies.tagged {tag : UInt8} {bytes : Bytes} {whole : Prop} {next : UInt8 → Copy Unit}
    (rest : Copies (next tag) bytes whole) :
    Copies (do let tag ← Copy.read Decode.byte; Copy.write [tag]; next tag) (tag :: bytes)
      whole := by
  have first (more : Bytes) (offset : Nat) (written : Bytes) :
      (do let tag ← Copy.read Decode.byte; Copy.write [tag]; next tag : Copy Unit).run.run
          (⟨tag :: bytes ++ more, offset⟩, written) =
        (next tag).run.run (⟨bytes ++ more, offset + 1⟩, written ++ [tag]) := by
    have read := (Reads.byte tag).gives tag rfl (bytes ++ more) offset
    rw [Copy.run_bind, Copy.run_read]
    rw [show tag :: bytes ++ more = [tag] ++ (bytes ++ more) from rfl, read]
    rfl
  constructor
  · intro h more offset written
    rw [first, rest.gives h, List.length_cons, List.append_assoc, Nat.add_right_comm,
      Nat.add_assoc]
    rfl
  · intro h more offset written
    rw [first]
    exact rest.fails h more _ _

theorem copies_text {s : String} (short : IsCount s.utf8ByteSize) :
    Copies (do Copy.write (Encode.text (← Copy.read Decode.text))) (Encode.text s) True where
  gives := by
    intro _ rest offset written
    have read := (Reads.text short).gives s rfl rest offset
    rw [Copy.run_bind, Copy.run_read, read]
    rfl
  fails := fun absurd => (absurd trivial).elim

theorem copies : ∀ (type : DataType), type.CountsFit → ∀ n,
    Copies (copyWithin n) type.encode (type.levels ≤ n)
  | type, _, 0 => by
    have deep : (type.levels ≤ 0) = False := by cases type <;> simp [levels]
    rw [deep]
    exact Copies.throw _ _
  | list element, fit, n + 1 => by
    have inner := copies element fit n
    have same : ((list element).levels ≤ n + 1) = (element.levels ≤ n) := by simp [levels]
    rw [same]
    exact Copies.tagged inner
  | struct name fields, fit, n + 1 => by
    have shallow : ((struct name fields).levels ≤ n + 1) = True := by simp [levels]
    rw [shallow]
    exact Copies.tagged (copies_text fit)
  | signal, _, n + 1 | number, _, n + 1 | text, _, n + 1 | boolean, _, n + 1
  | player, _, n + 1 => by
    simp only [levels, Nat.le_add_left, encode]
    exact Copies.tagged Copies.pure

theorem runAt_copied (cursor : Cursor) :
    copied.runAt cursor =
      ((copyAt cursor).1.map fun _ => (copyAt cursor).2.2, (copyAt cursor).2.1) := rfl

end DataType

namespace Format.CopyOf

/-- What a copy makes of bytes, whatever follows them: the bytes of the next layout, the cursor
being behind those of the old one, or nothing. -/
structure Transcribes (copy : CopyOf) (bytes next : Bytes) (whole : Prop) : Prop where
  gives : whole → Reads copy bytes (some next)
  fails : ¬whole → Reads copy bytes none

namespace Transcribes

theorem of_reads {copy : CopyOf} {bytes next : Bytes} (reads : Reads copy bytes (some next)) :
    Transcribes copy bytes next True := by
  refine ⟨?_, ?_⟩
  · intro _
    exact reads
  · intro absurd
    exact (absurd trivial).elim

theorem congr {copy : CopyOf} {bytes next : Bytes} {whole whole' : Prop}
    (transcribes : Transcribes copy bytes next whole) (same : whole ↔ whole') :
    Transcribes copy bytes next whole' := by
  refine ⟨?_, ?_⟩
  · intro h
    exact transcribes.gives (same.2 h)
  · intro h
    refine transcribes.fails fun hw => ?_
    exact h (same.1 hw)

theorem all_cons (part : CopyOf) (parts : List CopyOf) :
    all (part :: parts) = do return (← part) ++ (← all parts) := by
  simp [all, List.mapM_cons]

protected theorem nil : Transcribes (all []) [] [] True := of_reads (Reads.pure [])

protected theorem cons {part : CopyOf} {parts : List CopyOf} {bytes bytes' next next' : Bytes}
    {whole whole' : Prop} (first : Transcribes part bytes next whole)
    (rest : Transcribes (all parts) bytes' next' whole') :
    Transcribes (all (part :: parts)) (bytes ++ bytes') (next ++ next') (whole ∧ whole') := by
  rw [all_cons]
  constructor
  · rintro ⟨h, h'⟩
    exact (first.gives h).andThen (rest.gives h').map
  · intro broken
    by_cases h : whole
    · exact (first.gives h).andThen (rest.fails fun h' => broken ⟨h, h'⟩).map
    · have absent (copy : Bytes) (given : none = some copy) :
          Reads (do return copy ++ (← all parts)) bytes' none := by simp at given
      exact (first.fails h).bind absent

/-- The last part. -/
theorem last {part : CopyOf} {bytes next : Bytes} {whole : Prop}
    (only : Transcribes part bytes next whole) : Transcribes (all [part]) bytes next whole := by
  have both := Transcribes.cons only Transcribes.nil
  rw [List.append_nil, List.append_nil] at both
  exact both.congr (and_iff_left trivial)

section

variable {α : Type} {part : CopyOf} {encode next : α → Bytes} {whole : α → Prop} {items : List α}

private theorem mapM_absent {β : Type} {answer : α → Option β} {a : α} (mem : a ∈ items)
    (absent : answer a = none) : items.mapM answer = none := by
  induction items with
  | nil => simp at mem
  | cons b items ih =>
    rw [List.mapM_cons]
    rcases List.mem_cons.1 mem with rfl | mem
    · rw [absent]
      rfl
    · rw [ih mem]
      cases answer b <;> rfl

private theorem mapM_given (next : α → Bytes) (items : List α) :
    items.mapM (fun a => some (next a)) = some (items.map next) := by
  rw [show (fun a => some (next a)) = fun a => pure (next a) from rfl, List.mapM_pure]
  rfl

theorem times (each : ∀ a ∈ items, Transcribes part (encode a) (next a) (whole a)) :
    ((∀ a ∈ items, whole a) →
      Reads (Decode.times items.length part) (items.flatMap encode) (some (items.map next))) ∧
    ((¬∀ a ∈ items, whole a) →
      Reads (Decode.times items.length part) (items.flatMap encode) none) := by
  classical
  constructor
  · intro all
    rw [← mapM_given]
    exact Reads.times fun a ha => (each a ha).gives (all a ha)
  · intro broken
    obtain ⟨a, ha, h⟩ : ∃ a ∈ items, ¬whole a := by simpa using broken
    have absent : items.mapM (fun a => if whole a then some (next a) else none) = none :=
      mapM_absent ha (if_neg h)
    rw [← absent]
    refine Reads.times fun b hb => ?_
    split
    · rename_i given
      exact (each b hb).gives given
    · rename_i given
      exact (each b hb).fails given

protected theorem many (short : IsCount items.length)
    (each : ∀ a ∈ items, Transcribes part (encode a) (next a) (whole a)) :
    Transcribes (many part) (Encode.many encode items) (Encode.many next items)
      (∀ a ∈ items, whole a) where
  gives := by
    intro h
    refine (Reads.count short).andThen ?_
    have copies := ((times each).1 h).map
      (f := fun copies => Encode.count items.length ++ copies.flatten)
    rw [Option.map_some, ← List.flatMap_def] at copies
    exact copies
  fails := by
    intro h
    refine (Reads.count short).andThen ?_
    exact ((times each).2 h).map

end

end Transcribes

theorem reads_word (i : Int32) : Reads word (Encode.int32 i) (some (Encode.int32 i)) :=
  (Reads.int32 i).map

theorem reads_byte (b : UInt8) : Reads byte [b] (some [b]) := (Reads.byte b).map

theorem reads_blob {data : Bytes} (short : IsCount data.length) :
    Reads blob (Encode.blob data) (some (Encode.blob data)) := (Reads.blob short).map

theorem reads_text {s : String} (short : IsCount s.utf8ByteSize) :
    Reads text (Encode.text s) (some (Encode.text s)) := (Reads.text short).map

theorem reads_count {n : Nat} (small : IsCount n) :
    Reads word (Encode.count n) (some (Encode.count n)) := by
  have below : n < 2 ^ 31 := Nat.lt_succ_of_le small
  have bytes : Encode.count n = Encode.int32 (Int32.ofNat n) := by
    rw [Encode.int32, Encode.count, Int32.toUInt32_ofNat', UInt32.toNat_ofNat',
      Nat.mod_eq_of_lt (by omega), Nat.min_eq_left small]
  rw [bytes]
  exact reads_word _

theorem reads_part {part : CopyOf} {parts : List CopyOf} {bytes bytes' next next' : Bytes}
    (first : Reads part bytes (some next)) (rest : Reads (all parts) bytes' (some next')) :
    Reads (all (part :: parts)) (bytes ++ bytes') (some (next ++ next')) := by
  exact ((Transcribes.of_reads first).cons (.of_reads rest)).gives ⟨trivial, trivial⟩

theorem reads_last {part : CopyOf} {bytes next : Bytes} (only : Reads part bytes (some next)) :
    Reads (all [part]) bytes (some next) := (Transcribes.of_reads only).last.gives trivial

theorem reads_many {α : Type} {part : CopyOf} {encode next : α → Bytes} {items : List α}
    (short : IsCount items.length)
    (each : ∀ a ∈ items, Reads part (encode a) (some (next a))) :
    Reads (many part) (Encode.many encode items) (some (Encode.many next items)) := by
  refine (Transcribes.many short fun a ha => .of_reads (each a ha)).gives fun _ _ => ?_
  trivial

theorem reads_position (p : Position) :
    Reads position (encodePosition p) (some (encodePosition p)) :=
  reads_part (Reads.double p.x).map (reads_last (Reads.double p.y).map)

theorem transcribes_type {type : DataType} (fit : type.CountsFit) :
    Transcribes DataType.copied type.encode type.encode (type.levels ≤ maxNesting) := by
  have copy := DataType.copies type fit maxNesting
  constructor
  · intro shallow
    refine .of_some fun rest offset => ?_
    have run : DataType.copyAt ⟨type.encode ++ rest, offset⟩ = _ :=
      copy.gives shallow rest offset []
    rw [DataType.runAt_copied, run]
    rfl
  · intro deep
    refine ⟨fun _ absent => by simp at absent, fun _ rest offset => ?_⟩
    obtain ⟨e, ⟨cursor, written⟩, run⟩ := copy.fails deep rest offset []
    have run : DataType.copyAt ⟨type.encode ++ rest, offset⟩ = _ := run
    refine ⟨e, cursor, ?_⟩
    rw [DataType.runAt_copied, run]
    rfl

theorem transcribes_field {field : Field} (fit : Field.CountsFit field) :
    Transcribes CopyOf.field (encodeField field) (encodeField field)
      (field.type.levels ≤ maxNesting) := by
  exact ((Transcribes.of_reads (reads_text fit.1)).cons (transcribes_type fit.2).last).congr
    (and_iff_right trivial)

end Format.CopyOf

def Schema.IsShallow (schema : Schema) : Prop :=
  ∀ field ∈ schema.fields, field.type.levels ≤ maxNesting

def Signature.IsShallow (signature : Signature) : Prop :=
  (∀ field ∈ signature.inputs, field.type.levels ≤ maxNesting) ∧
    ∀ field ∈ signature.outputs, field.type.levels ≤ maxNesting

namespace Format.CopyOf

theorem transcribes_schema {schema : Schema} (fit : schema.CountsFit)
    (few : schema.fields.length ≤ 255) :
    Transcribes CopyOf.schema (Graph.encodeSchema schema) (Graph.encodeSchema schema)
      schema.IsShallow := by
  have length : (UInt8.ofNat schema.fields.length).toNat = schema.fields.length := by
    rw [UInt8.toNat_ofNat']
    exact Nat.mod_eq_of_lt (Nat.lt_succ_of_le few)
  obtain ⟨given, absent⟩ := Transcribes.times fun field hf => transcribes_field (fit.each field hf)
  constructor
  · intro shallow
    have fields := (given shallow).map (f := fun copies =>
      Encode.text schema.name ++ UInt8.ofNat schema.fields.length :: copies.flatten)
    rw [Option.map_some, ← List.flatMap_def] at fields
    refine (reads_text fit.name).andThen ((Reads.byte _).andThen ?_)
    rw [length]
    exact fields
  · intro deep
    refine (reads_text fit.name).andThen ((Reads.byte _).andThen ?_)
    rw [length]
    exact (absent deep).map

theorem transcribes_signature {signature : Signature} (fit : signature.CountsFit) :
    Transcribes CopyOf.signature (Graph.encodeSignature signature)
      (Graph.encodeSignature signature) signature.IsShallow := by
  have inputs := Transcribes.many fit.inputs fun field hf =>
    transcribes_field (fit.each field (List.mem_append_left _ hf))
  have outputs := Transcribes.many fit.outputs fun field hf =>
    transcribes_field (fit.each field (List.mem_append_right _ hf))
  have parts := (Transcribes.of_reads (reads_text fit.name)).cons (inputs.cons outputs.last)
  rw [Graph.encodeSignature, List.append_assoc]
  exact parts.congr (and_iff_right trivial)

theorem transcribes_definitions {schemas : List Schema} {signatures : List Signature}
    (schemaCount : IsCount schemas.length) (signatureCount : IsCount signatures.length)
    (schemasFit : ∀ schema ∈ schemas, schema.CountsFit ∧ schema.fields.length ≤ 255)
    (signaturesFit : ∀ signature ∈ signatures, signature.CountsFit) :
    Transcribes definitions
      (Encode.many Graph.encodeSchema schemas ++ Encode.many Graph.encodeSignature signatures)
      (Encode.many Graph.encodeSchema schemas ++ Encode.many Graph.encodeSignature signatures)
      ((∀ schema ∈ schemas, schema.IsShallow) ∧
        ∀ signature ∈ signatures, signature.IsShallow) := by
  have structs := Transcribes.many schemaCount fun schema hs =>
    transcribes_schema (schemasFit schema hs).1 (schemasFit schema hs).2
  have functions := Transcribes.many signatureCount fun signature hs =>
    transcribes_signature (signaturesFit signature hs)
  exact structs.cons functions.last

/-- A record whose kind, payload and wires are copied in some way of their own. -/
theorem reads_node {kind payload wire : CopyOf} {old new : Int32} {record next : NodeRecord}
    (change : WireRecord → WireRecord) (fit : record.CountsFit)
    (name : next.name = record.name) (position : next.position = record.position)
    (inputs : next.inputs = record.inputs.map (·.map change))
    (kinds : Reads kind (if withFunctions ≤ old then [record.kind] else [])
      (some (if withFunctions ≤ new then [next.kind] else [])))
    (payloads : Reads payload (Encode.blob record.payload) (some (Encode.blob next.payload)))
    (wires : ∀ w : WireRecord, w.CountsFit →
      Reads wire (w.encode old) (some ((change w).encode new))) :
    Reads (node kind payload wire) (record.encode old) (some (next.encode new)) := by
  have each : ∀ ws ∈ record.inputs, Reads (many wire) (Encode.many (WireRecord.encode old) ws)
      (some (Encode.many (WireRecord.encode new) (ws.map change))) := by
    intro ws hws
    have copies := reads_many (fit.wires ws hws) fun w hw => wires w (fit.each ws hws w hw)
    rwa [Encode.many, Encode.many, List.length_map, List.flatMap_map]
  have table : Reads (many (many wire))
      (Encode.many (Encode.many (WireRecord.encode old)) record.inputs)
      (some (Encode.many (Encode.many (WireRecord.encode new)) next.inputs)) := by
    have copies := reads_many fit.inputs each
    rw [inputs]
    rwa [Encode.many, Encode.many, List.length_map, List.flatMap_map]
  have parts := reads_part (reads_text fit.name) (reads_part kinds (reads_part payloads
    (reads_part (reads_position record.position) (reads_last table))))
  rw [NodeRecord.encode, NodeRecord.encode, name, position]
  simp only [List.append_assoc]
  exact parts

end Format.CopyOf

namespace Format

variable {file : Bytes} {version : Int32}

theorem Step.version_ne_current (step : Step) : step.version ≠ current := by
  cases step <;> decide

theorem upgrade_cons (step : Step) (steps : List Step) (file : Bytes) :
    upgrade (step :: steps) file = (Decode.int32.result file >>= fun version =>
      if step.applies version file.length then step.run file >>= upgrade steps
      else upgrade steps file) := by
  unfold upgrade
  rw [List.foldlM_cons]
  cases Decode.int32.result file with
  | error e => rfl
  | ok version =>
    simp only [bind, Except.bind]
    cases step.applies version file.length <;> rfl

theorem upgrade_of_still (named : Decode.int32.result file = .ok version)
    (still : ∀ step : Step, step.applies version file.length = false) (steps : List Step) :
    upgrade steps file = .ok file := by
  induction steps with
  | nil => rfl
  | cons step steps ih =>
    rw [upgrade_cons, named]
    simp only [bind, Except.bind, still, Bool.false_eq_true, if_false]
    exact ih

theorem upgrade_of_current (named : Decode.int32.result file = .ok current) (steps : List Step) :
    upgrade steps file = .ok file := by
  exact upgrade_of_still named (fun step => by simp [Step.applies, Ne.symm
    step.version_ne_current]) steps

end Format

end NodeScript
