import Mathlib.Data.Nat.Find
import NodeScript.Catalog.Builtin
import NodeScript.Format.Load
import NodeScript.Proofs.Accepted
import NodeScript.Proofs.Bytes.Measured
import NodeScript.Proofs.Format.Older

/-!
Files that are cut off. What is made of a file does not depend on the bytes behind its tables: each
step of an upgrade copies the tables that it knows and leaves the bytes behind them as they are, and
a file that is too short for a step is too short for the current layout as well. Main statements:
`Format.stable_decode`, and `Format.complete_of_decode` for what is left of a file on the way.
-/

set_option autoImplicit false
set_option relaxedAutoImplicit false

namespace NodeScript

open Decode

namespace DataType

variable {known : List Schema}

theorem measured_decodeWithin (n : Nat) : Measured (decodeWithin known n) := by
  induction n with
  | zero => exact .throw _
  | succ n ih =>
    refine Measured.byte.bind fun tag => ?_
    split
    case h_6 => exact ih.map
    case h_7 =>
      refine Measured.text.bind fun name => ?_
      cases Schema.find? known name
      · exact .throw _
      · exact .pure _
    case h_8 => exact .throw _
    all_goals exact .pure _

def Copy.Writes (copy : Copy Unit) (read : Decode Bytes) : Prop :=
  ∀ cursor written, match read.runAt cursor with
    | (.ok bytes, cursor') => copy.run.run (cursor, written) = (.ok (), cursor', written ++ bytes)
    | (.error e, cursor') =>
      ∃ written', copy.run.run (cursor, written) = (.error e, cursor', written')

theorem Copy.Writes.tagged {next : UInt8 → Copy Unit} {read : UInt8 → Decode Bytes}
    (rest : ∀ tag, (next tag).Writes (read tag)) :
    Copy.Writes (do let tag ← Copy.read Decode.byte; Copy.write [tag]; next tag)
      (do let tag ← Decode.byte; return tag :: (← read tag)) := by
  intro cursor written
  rw [runAt_bind, Copy.run_bind, Copy.run_read]
  rcases Decode.byte.runAt cursor with ⟨e | tag, cursor⟩
  · exact ⟨_, rfl⟩
  · have onwards := rest tag cursor (written ++ [tag])
    have wrote : (Copy.write [tag]).run.run (cursor, written) =
        (.ok (), cursor, written ++ [tag]) := rfl
    dsimp only
    rw [runAt_bind, Copy.run_bind, wrote]
    rcases found : (read tag).runAt cursor with ⟨e | bytes, cursor'⟩
    · rw [found] at onwards
      exact onwards
    · rw [found] at onwards
      exact onwards.trans (by rw [List.append_assoc]; rfl)

def copiedBehind (element : Decode Bytes) (tag : UInt8) : Decode Bytes :=
  match tag.toNat with
  | 0 | 1 | 2 | 3 | 4 => return []
  | 5 => element
  | 6 => do return Encode.text (← Decode.text)
  | _ => throw (.unknownTypeTag tag)

def copiedWithin : Nat → Decode Bytes
  | 0 => throw .tooDeep
  | levels + 1 => do
    let tag ← Decode.byte
    return tag :: (← copiedBehind (copiedWithin levels) tag)

theorem copyWithin_writes (n : Nat) : (copyWithin n).Writes (copiedWithin n) := by
  induction n with
  | zero =>
    intro _ _
    exact ⟨_, rfl⟩
  | succ n ih =>
    refine Copy.Writes.tagged fun tag => ?_
    unfold copiedBehind
    generalize tag.toNat = code
    have nothing : Copy.Writes (pure ()) (pure []) := fun cursor written => by
      rw [runAt_pure]
      exact congrArg (fun bytes => (Except.ok (), cursor, bytes)) (List.append_nil written).symm
    have named : Copy.Writes (do Copy.write (Encode.text (← Copy.read Decode.text)))
        (do return Encode.text (← Decode.text)) := fun cursor written => by
      rw [runAt_bind, Copy.run_bind, Copy.run_read]
      rcases Decode.text.runAt cursor with ⟨e | name, cursor⟩
      · exact ⟨_, rfl⟩
      · rfl
    match code with
    | 0 | 1 | 2 | 3 | 4 => exact nothing
    | 5 => exact ih
    | 6 => exact named
    | _ + 7 =>
      intro _ _
      exact ⟨_, rfl⟩

theorem copied_eq : copied = copiedWithin maxNesting := by
  funext cursor
  show copied.runAt cursor = (copiedWithin maxNesting).runAt cursor
  have writes := copyWithin_writes maxNesting cursor []
  rw [runAt_copied, copyAt]
  rcases found : (copiedWithin maxNesting).runAt cursor with ⟨e | bytes, cursor'⟩
  · rw [found] at writes
    obtain ⟨written, stopped⟩ := writes
    rw [stopped]
    rfl
  · rw [found] at writes
    rw [writes]
    rfl

theorem measured_copied : Measured copied := by
  rw [copied_eq]
  generalize maxNesting = n
  induction n with
  | zero => exact .throw _
  | succ n ih =>
    refine Measured.byte.bind fun tag => Measured.map ?_
    unfold copiedBehind
    split
    case h_6 => exact ih
    case h_7 => exact Measured.text.map
    case h_8 => exact .throw _
    all_goals exact .pure _

end DataType

namespace Format

namespace CopyOf

theorem measured_word : Measured word := Measured.int32.map

theorem measured_double : Measured double := Measured.double.map

theorem measured_byte : Measured byte := Measured.byte.map

theorem measured_text : Measured text := Measured.text.map

theorem measured_blob : Measured blob := Measured.blob.map

theorem measured_all {parts : List CopyOf} (each : ∀ part ∈ parts, Measured part) :
    Measured (all parts) := (Measured.mapM each).map

theorem measured_many {part : CopyOf} (each : Measured part) : Measured (many part) := by
  refine Measured.count.bind fun n => ?_
  exact (each.times n).map

theorem measured_field : Measured field := by
  exact measured_all (by simp [measured_text, DataType.measured_copied])

theorem measured_schema : Measured schema := by
  refine measured_text.bind fun _ => ?_
  refine Measured.byte.bind fun n => ?_
  exact (measured_field.times n.toNat).map

theorem measured_definitions : Measured definitions := by
  have signature : Measured signature :=
    measured_all (by simp [measured_text, measured_many measured_field])
  exact measured_all (by simp [measured_many signature, measured_many measured_schema])

theorem measured_position : Measured position := by
  exact measured_all (by simp [measured_double])

theorem measured_node {kind payload wire : CopyOf} (hkind : Measured kind)
    (hpayload : Measured payload) (hwire : Measured wire) : Measured (node kind payload wire) :=
  measured_all (by
    simp [measured_text, hkind, hpayload, measured_position, measured_many (measured_many hwire)])

end CopyOf

open CopyOf in
theorem Step.measured_tables (step : Step) : Measured step.tables := by
  cases step with
  | addFunctionTable =>
    have wire : Measured (CopyOf.all [.word, .word]) := measured_all (by simp [measured_word])
    exact (measured_many (measured_node (.pure _) measured_blob wire)).map
  | addStructTable => exact .pure _
  | addWireRelays =>
    have wire : Measured (CopyOf.all [.word, .word, return Encode.count 0]) :=
      measured_all (by simp [measured_word, Measured.pure])
    exact measured_all (by
      simp [measured_definitions, measured_many (measured_node measured_byte measured_blob wire)])
  | addInputInsets =>
    have wire : Measured (CopyOf.all [.word, .word, .many .position]) :=
      measured_all (by simp [measured_word, measured_many measured_position])
    have node := measured_node measured_byte (Measured.blob.map (f := fun data =>
      Encode.blob (Encode.count 0 ++ data))) wire
    refine measured_all ?_
    simp only [List.forall_mem_cons]
    exact ⟨measured_definitions, measured_many node, by simp⟩

variable {registry : Registry} {graph : Graph}

theorem measured_decodeField (known : List Schema) : Measured (decodeField known) := by
  refine Measured.text.bind fun _ => ?_
  exact (DataType.measured_decodeWithin maxNesting).map

theorem measured_readSchema (graph : Graph) : Measured (readSchema graph) := by
  refine Measured.text.bind fun _ => ?_
  refine Measured.byte.bind fun n => ?_
  refine ((measured_decodeField graph.schemas).times n.toNat).bind fun fields => ?_
  split
  · exact .pure _
  · exact .throw _

theorem measured_readSignature (graph : Graph) : Measured (readSignature graph) := by
  refine Measured.text.bind fun _ => ?_
  refine (measured_decodeField graph.schemas).many.bind fun _ => ?_
  refine (measured_decodeField graph.schemas).many.bind fun _ => ?_
  split
  · exact .pure _
  · exact .throw _

theorem measured_decodePosition : Measured decodePosition := by
  refine Measured.double.bind fun _ => ?_
  exact Measured.double.map

theorem WireRecord.measured_decode : Measured WireRecord.decode := by
  refine Measured.count.bind fun _ => ?_
  refine Measured.count.bind fun _ => ?_
  exact measured_decodePosition.many.map

theorem NodeRecord.measured_decode : Measured NodeRecord.decode := by
  refine Measured.text.bind fun _ => ?_
  refine Measured.byte.bind fun _ => ?_
  refine Measured.blob.bind fun _ => ?_
  refine measured_decodePosition.bind fun _ => ?_
  exact WireRecord.measured_decode.many.many.map

theorem measured_readNode (registry : Registry) (graph : Graph) (record : NodeRecord) :
    Measured (readNode registry graph record) := by
  unfold readNode
  split
  · split
    · exact .pure _
    · refine (Measured.within _ _).bind fun (insets, config) => ?_
      dsimp only
      split <;> exact .pure _
  · split
    · exact .pure _
    · refine (Measured.within _ _).bind fun _ => ?_
      split <;> exact .pure _

theorem measured_readTables (registry : Registry) : Measured (readTables registry) := by
  refine Measured.count.bind fun n => (Measured.iterate measured_readSchema n _).bind fun _ => ?_
  refine Measured.count.bind fun n => (Measured.iterate measured_readSignature n _).bind fun _ => ?_
  refine Measured.count.bind fun n => (Measured.iterate (fun loading => ?_) n _).bind fun _ => ?_
  · exact NodeRecord.measured_decode.bind fun record =>
      (measured_readNode registry loading.graph record).map
  · dsimp only
    split
    · exact .pure _
    · exact .throw _

variable {α : Type} {file rest : Bytes} {version : Int32} {steps : List Step}

def IsStable (read : Bytes → Except DecodeError α) : Prop :=
  ∀ file a, read file = .ok a → ∀ rest, read (file ++ rest) = .ok a

theorem exists_takes_of_result {read : Decode α} (measured : Measured read) {a : α}
    (given : read.result file = .ok a) :
    ∃ bytes rest, file = bytes ++ rest ∧ Takes read 0 bytes a := by
  obtain ⟨bytes, split, takes⟩ := measured (Cursor.ofBytes file) a
    (read.runAt (Cursor.ofBytes file)).2
    (Prod.ext given rfl)
  exact ⟨bytes, _, split, takes⟩

theorem stable_result {read : Decode α} (measured : Measured read) : IsStable read.result := by
  intro file a given rest
  obtain ⟨bytes, behind, rfl, takes⟩ := exists_takes_of_result measured given
  rw [List.append_assoc]
  exact takes.result

theorem truncated_of_result {read : Decode α} (measured : Measured read) {a : α}
    (given : read.result file = .ok a) {short : Bytes} (part : short <+: file) {e : DecodeError}
    (refused : read.result short = .error e) : e.IsTruncated := by
  obtain ⟨bytes, rest, rfl, takes⟩ := exists_takes_of_result measured given
  rw [List.prefix_iff_eq_take] at part
  rcases Nat.lt_or_ge short.length bytes.length with early | late
  · rw [List.take_append_of_le_length (Nat.le_of_lt early)] at part
    obtain ⟨e', stopped, reason⟩ := takes.result_cut early
    rw [← part, refused, Except.error.injEq] at stopped
    subst stopped
    exact reason
  · rw [List.take_append, List.take_of_length_le late] at part
    rw [part, takes.result] at refused
    simp at refused

theorem Step.run_append {step : Step} {next : Bytes} (given : step.run file = .ok next)
    (rest : Bytes) : step.run (file ++ rest) = .ok (next ++ rest) := by
  have measured : Measured (do let _ ← Decode.int32; step.tables) :=
    Measured.int32.bind fun _ => step.measured_tables
  have run_eq (file : Bytes) : step.run file =
      match (do let _ ← Decode.int32; step.tables : CopyOf).runAt (Cursor.ofBytes file) with
      | (.ok tables, c) => .ok (Encode.int32 (step.version + 1) ++ tables ++ c.rest)
      | (.error e, _) => .error e := by
    unfold run Decode.result
    simp only [runAt_bind]
    rcases Decode.int32.runAt (Cursor.ofBytes file) with ⟨e | _, c⟩
    · rfl
    · dsimp only
      rcases step.tables.runAt c with ⟨e | tables, c⟩ <;> rfl
  rw [run_eq] at given ⊢
  split at given
  · rename_i tables c found
    obtain ⟨bytes, split, takes⟩ := measured _ _ _ found
    have split : file = bytes ++ c.rest := split
    rw [split, List.append_assoc]
    have gives := takes.gives (c.rest ++ rest)
    rw [Cursor.ofBytes] at gives ⊢
    rw [gives, ← Except.ok.inj given, List.append_assoc _ c.rest]
  · simp at given

/-- Behind a reader that takes nothing but the current layout, upgrades do not depend on what
stands behind a file. -/
theorem stable_upgrade {read : Bytes → Except DecodeError α} (stable : IsStable read)
    (only : ∀ file a, read file = .ok a → Decode.int32.result file = .ok current)
    (steps : List Step) : IsStable fun file => upgrade steps file >>= read := by
  induction steps with
  | nil => exact stable
  | cons step steps ih =>
    intro file a given rest
    dsimp only at given ⊢
    rw [upgrade_cons] at given ⊢
    cases named : Decode.int32.result file with
    | error e =>
      rw [named] at given
      simp [bind, Except.bind] at given
    | ok version =>
      rw [named] at given
      rw [stable_result Measured.int32 file version named rest]
      simp only [bind, Except.bind] at given ⊢
      by_cases applies : step.applies version file.length
      · have longer : step.applies version (file ++ rest).length := by
          simp only [Step.applies, Bool.and_eq_true, decide_eq_true_eq, List.length_append]
            at applies ⊢
          exact ⟨applies.1, Nat.le_add_right_of_le applies.2⟩
        rw [if_pos applies] at given
        rw [if_pos longer]
        cases ran : step.run file with
        | error e => simp [ran] at given
        | ok next =>
          rw [ran] at given
          rw [Step.run_append ran rest]
          exact ih next a given rest
      · rw [if_neg applies] at given
        have onwards := ih file a given rest
        -- A file that only becomes long enough for the step was of the current version before.
        suffices still : ¬step.applies version (file ++ rest).length by
          rw [if_neg still]
          exact onwards
        intro longer
        simp only [Step.applies, Bool.and_eq_true, beq_iff_eq, decide_eq_true_eq] at applies longer
        have short : file.length < 8 := Nat.lt_of_not_le fun long => applies ⟨longer.1, long⟩
        rw [upgrade_of_still named (fun step => by simp [Step.applies, short])] at given
        have reached := only file a given
        rw [named, Except.ok.injEq, longer.1] at reached
        exact step.version_ne_current reached

def finish (registry : Registry) (version : Int32) : Decode Loaded := do
  let reached ← Decode.int32
  if reached != current then throw (.unsupportedVersion reached)
  let (graph, droppedNodes, droppedWires) ← readTables registry
  return { graph, version, droppedNodes, droppedWires }

theorem measured_finish (registry : Registry) (version : Int32) :
    Measured (finish registry version) := by
  refine Measured.int32.bind fun reached => ?_
  by_cases other : reached != current
  · simp only [other]
    exact .throw _
  · simp only [other]
    exact (measured_readTables registry).map

theorem decode_eq (registry : Registry) (file : Bytes) :
    decode registry file = (Decode.int32.result file >>= fun version =>
      if isKnown version then upgrade Step.all file >>= (finish registry version).result
      else .error (.unsupportedVersion version)) := by
  unfold decode decodeWith
  cases Decode.int32.result file with
  | error e => rfl
  | ok version =>
    simp only [bind, Except.bind]
    cases isKnown version <;> rfl

theorem decode_eq_ok_iff {registry : Registry} {loaded : Loaded} :
    decode registry file = .ok loaded ↔ ∃ version,
      Decode.int32.result file = .ok version ∧ isKnown version ∧
        (upgrade Step.all file >>= (finish registry version).result) = .ok loaded := by
  rw [decode_eq, Accepted.bind_iff]
  refine exists_congr fun version => and_congr_right fun _ => ?_
  cases isKnown version <;> simp

theorem finish_result (registry : Registry) (version : Int32) (file : Bytes) :
    (finish registry version).result file =
      match Decode.int32.runAt (Cursor.ofBytes file) with
      | (.ok reached, c) =>
        if reached = current then ((readTables registry).runAt c).1.map
          fun (graph, droppedNodes, droppedWires) => { graph, version, droppedNodes, droppedWires }
        else .error (.unsupportedVersion reached)
      | (.error e, _) => .error e := by
  unfold finish Decode.result
  rw [runAt_bind]
  rcases Decode.int32.runAt (Cursor.ofBytes file) with ⟨e | reached, c⟩
  · rfl
  · by_cases now : reached = current
    · subst now
      simp only [bne_self_eq_false, Bool.false_eq_true, if_false, if_true, runAt_bind]
      rcases (readTables registry).runAt c with ⟨e | tables, c⟩ <;> rfl
    · simp [now]

theorem current_of_finish {registry : Registry} {loaded : Loaded}
    (given : (finish registry version).result file = .ok loaded) :
    Decode.int32.result file = .ok current ∧ loaded.version = version := by
  rw [finish_result] at given
  unfold Decode.result
  rcases found : Decode.int32.runAt (Cursor.ofBytes file) with ⟨e | reached, c⟩
  · simp [found] at given
  · rw [found] at given
    dsimp only at given ⊢
    split at given
    · rename_i now
      obtain ⟨tables, -, rfl⟩ := Accepted.map_iff.1 given
      exact ⟨congrArg _ now, rfl⟩
    · simp at given

theorem stable_decode (registry : Registry) : IsStable (decode registry) := by
  intro file loaded given rest
  obtain ⟨version, named, known, given⟩ := decode_eq_ok_iff.1 given
  have upgraded := stable_upgrade (stable_result (measured_finish registry version))
    (fun _ _ finished => (current_of_finish finished).1) Step.all
  exact decode_eq_ok_iff.2
    ⟨version, stable_result Measured.int32 _ _ named rest, known, upgraded _ _ given rest⟩

theorem decode_of_current (registry : Registry) (now : Decode.int32.result file = .ok current) :
    decode registry file = (finish registry current).result file := by
  rw [decode_eq, now]
  simp only [bind, Except.bind, upgrade_of_current now]
  rfl

theorem truncated_of_decode {registry : Registry} {loaded : Loaded}
    (given : decode registry file = .ok loaded) (now : loaded.version = current) {short : Bytes}
    (part : short <+: file) {e : DecodeError} (refused : decode registry short = .error e) :
    e.IsTruncated := by
  obtain ⟨version, named, -, upgraded⟩ := decode_eq_ok_iff.1 given
  obtain ⟨_, -, finished⟩ := Accepted.bind_iff.1 upgraded
  obtain rfl : version = current := (current_of_finish finished).2.symm.trans now
  rw [decode_of_current registry named] at given
  cases start : Decode.int32.result short with
  | error e' =>
    rw [decode_eq, start] at refused
    obtain rfl : e' = e := Except.error.inj refused
    exact truncated_of_result Measured.int32 named part start
  | ok version =>
    obtain ⟨rest, rfl⟩ := part
    have same := stable_result Measured.int32 _ _ start rest
    obtain rfl : version = current := Except.ok.inj (same.symm.trans named)
    rw [decode_of_current registry start] at refused
    exact truncated_of_result (measured_finish registry current) given
      (List.prefix_append short rest) refused

/-- A file that is accepted is complete at some length: whatever follows that many of its bytes, it
comes to the same, and fewer of them are refused, as cut off if the file is of the current
version. -/
theorem complete_of_decode {registry : Registry} {loaded : Loaded}
    (given : decode registry file = .ok loaded) :
    ∃ n ≤ file.length, (∀ other, file.take n <+: other → decode registry other = .ok loaded) ∧
      ∀ short, short <+: file.take n → short ≠ file.take n →
        ∃ e, decode registry short = .error e ∧ (loaded.version = current → e.IsTruncated) := by
  classical
  -- The length is that of the shortest beginning of the file that is accepted at all.
  have whole : ∃ n, ∃ loaded, decode registry (file.take n) = .ok loaded :=
    ⟨file.length, loaded, by rw [List.take_length, given]⟩
  obtain ⟨loaded', enough⟩ := Nat.find_spec whole
  have fewest := fun m => Nat.find_min (m := m) whole
  have bounded : Nat.find whole ≤ file.length :=
    Nat.find_min' whole ⟨loaded, by rw [List.take_length, given]⟩
  generalize Nat.find whole = n at enough fewest bounded
  have same : loaded' = loaded := by
    have onwards := stable_decode registry _ _ enough (file.drop n)
    rw [List.take_append_drop, given] at onwards
    exact (Except.ok.inj onwards).symm
  refine ⟨n, bounded, ?_, ?_⟩
  · rintro _ ⟨rest, rfl⟩
    rw [stable_decode registry _ _ enough rest, same]
  · intro short part strict
    have within := part.trans (List.take_prefix n file)
    cases answer : decode registry short with
    | error e => exact ⟨e, rfl, fun now => truncated_of_decode given now within answer⟩
    | ok accepted =>
      have shorter : short.length < n := by
        have most := part.length_le
        rw [List.length_take, Nat.min_eq_left bounded] at most
        refine Nat.lt_of_le_of_ne most fun equal => strict (part.eq_of_length ?_)
        rw [equal, List.length_take, Nat.min_eq_left bounded]
      exact absurd ⟨accepted, by rw [← List.prefix_iff_eq_take.1 within, answer]⟩
        (fewest _ shorter)

theorem complete_of_bending : ∃ file loaded,
    decode Registry.builtin file = .ok loaded ∧ loaded.version = 1 ∧
      ∃ n ≤ file.length, (∀ other, file.take n <+: other →
          decode Registry.builtin other = .ok loaded) ∧
        ∀ short, short <+: file.take n → short ≠ file.take n →
          ∃ e, decode Registry.builtin short = .error e ∧
            (loaded.version = current → e.IsTruncated) := by
  have facts : ∃ graph ∈ (Edit.bending.foldlM (Edit.apply Registry.builtin) .empty).toOption,
      ∃ file ∈ (graph.encode Registry.builtin 1).toOption,
        ∃ loaded ∈ (decode Registry.builtin (file ++ [7])).toOption, loaded.version = 1 := by
    decide +kernel
  obtain ⟨graph, -, file, -, loaded, given, version⟩ := facts
  have given := Accepted.toOption_eq_some_iff.1 given
  exact ⟨file ++ [7], loaded, given, version, complete_of_decode given⟩

end Format

end NodeScript
