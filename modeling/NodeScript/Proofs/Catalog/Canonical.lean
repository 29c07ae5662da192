import Mathlib.Algebra.Group.Int.Defs
import NodeScript.Proofs.Double
import NodeScript.Proofs.Format.Tables

/-!
Configurations that are read back from the bytes of any configuration. `Behavior.Settles` says that
a configuration is read back as another one, which declares the same ports and has the same bytes.
Main statement: `Registry.builtin_settles`: every configuration that a type of the catalog declares
ports for is read back as such a one, and a node that is made with it is given the other one and is
read back from files as it is.
-/

set_option autoImplicit false
set_option relaxedAutoImplicit false

namespace NodeScript

open Decode Format

namespace Json

mutual

/-- Numbers are integers of 64 bits, with or without a sign, or finite, and the format can hold the
lengths of texts. -/
def IsStorable : Json → Prop
  | null | bool _ => True
  | int i => -2 ^ 63 ≤ i ∧ i < 2 ^ 64
  | float d => d.isFinite = true
  | str s => IsCount s.utf8ByteSize
  | arr items => ItemsStorable items
  | obj fields => FieldsStorable fields

def ItemsStorable : List Json → Prop
  | [] => True
  | item :: items => item.IsStorable ∧ ItemsStorable items

def FieldsStorable : List (String × Json) → Prop
  | [] => True
  | (_, value) :: fields => value.IsStorable ∧ FieldsStorable fields

end

theorem FieldsStorable.lookup {fields : List (String × Json)} (storable : FieldsStorable fields)
    {key : String} {value : Json} (found : fields.lookup key = some value) : value.IsStorable := by
  induction fields with
  | nil => simp at found
  | cons field fields ih =>
    rw [List.lookup_cons] at found
    split at found
    · obtain rfl := Option.some.inj found
      exact storable.1
    · exact ih storable.2 found

theorem IsStorable.get? {config value : Json} (storable : config.IsStorable) {key : String}
    (found : config.get? key = some value) : value.IsStorable := by
  cases config with
  | obj fields => exact FieldsStorable.lookup storable found
  | _ => simp [Json.get?] at found

end Json

/-- A configuration is read back from its bytes as the settled one, which has the same ports and
the same bytes. -/
structure Behavior.Settles (behavior : Behavior) (config settled : Json) : Prop where
  reads : ∀ known, Reads (behavior.readAmong known) (behavior.write config) (some settled)
  write : behavior.write settled = behavior.write config
  ports : ∀ known, behavior.ports settled known = behavior.ports config known

theorem Behavior.Settles.rereads {behavior : Behavior} {config settled : Json}
    (settles : behavior.Settles config settled) : behavior.Rereads settled := by
  intro known
  rw [settles.write]
  exact settles.reads known

theorem Behavior.Settles.canonical {behavior : Behavior} {config settled : Json}
    (settles : behavior.Settles config settled) {known : List Schema} {ports : Ports}
    (declared : behavior.ports config known = .ok ports) :
    behavior.canonical known config = .ok (settled, ports) := by
  refine canonical_eq_ok_iff.2 ⟨⟨ports, declared⟩, (settles.reads known).result, ?_⟩
  rw [settles.ports known]
  exact declared

namespace Catalog

variable {config : Json}

theorem Setting.short_value {setting : Setting} (short : IsCount setting.default.utf8ByteSize)
    (storable : config.IsStorable) : IsCount (setting.value config).utf8ByteSize := by
  unfold Setting.value Json.text?
  cases found : config.get? setting.key with
  | none => exact short
  | some value =>
    have inner := storable.get? found
    cases value with
    | str s => exact inner
    | _ => exact short

theorem Setting.value_settled {settings : List Setting} (nodup : (settings.map (·.key)).Nodup)
    {setting : Setting} (mem : setting ∈ settings) :
    setting.value (settled settings config) = setting.value config := by
  exact value_object (by simpa [Function.comp_def] using nodup) (List.mem_map_of_mem mem)

/-- A literal that can be written and read back. -/
structure IsLiteral (value : Value) : Prop where
  primitive : ∃ type, literalType value = .ok type
  fit : value.CountsFit
  finite : ∀ d, value = .number d → d.isFinite = true

theorem isLiteral_of_ofContent {kind : String} {content : Json} {value : Value} {type : DataType}
    (storable : content.IsStorable) (found : Value.ofContent kind content = some value)
    (primitive : literalType value = .ok type) : IsLiteral value := by
  cases content with
  | null => simp [Value.ofContent] at found
  | bool b =>
    obtain ⟨-, same⟩ := Option.ite_none_right_eq_some.1 found
    obtain rfl := Option.some.inj same
    exact ⟨⟨_, primitive⟩, trivial, fun d same => by simp at same⟩
  | int i =>
    obtain ⟨-, same⟩ := Option.ite_none_right_eq_some.1 found
    obtain rfl := Option.some.inj same
    obtain ⟨least, most⟩ := storable
    have small : i.natAbs < 2 ^ 65 := by omega
    exact ⟨⟨_, primitive⟩, trivial, fun d same => by
      obtain rfl := Value.number.inj same
      exact Double.isFinite_ofInt small⟩
  | float d =>
    obtain ⟨-, same⟩ := Option.ite_none_right_eq_some.1 found
    obtain rfl := Option.some.inj same
    refine ⟨⟨_, primitive⟩, trivial, ?_⟩
    intro d' same
    obtain rfl := Value.number.inj same
    exact storable
  | str s =>
    rw [Value.ofContent] at found
    split at found
    · obtain rfl := Option.some.inj found
      exact ⟨⟨_, primitive⟩, storable, fun d same => by simp at same⟩
    · obtain ⟨-, same⟩ := Option.ite_none_right_eq_some.1 found
      obtain rfl := Option.some.inj same
      exact ⟨⟨_, primitive⟩, storable, fun d same => by simp at same⟩
  | arr items =>
    rw [Value.ofContent, Option.ite_none_right_eq_some] at found
    obtain ⟨_, -, rfl⟩ := Option.map_eq_some_iff.1 found.2
    simp [literalType] at primitive
  | obj fields =>
    rw [Value.ofContent, Option.ite_none_right_eq_some] at found
    obtain ⟨name, -, found⟩ := Option.bind_eq_some_iff.1 found.2
    obtain ⟨_, -, rfl⟩ := Option.map_eq_some_iff.1 found
    simp [literalType] at primitive

theorem isLiteral_of_ofContentIn {kind : String} {fields : List (String × Json)} {value : Value}
    {type : DataType} (storable : Json.FieldsStorable fields)
    (found : Value.ofContentIn kind fields = some value)
    (primitive : literalType value = .ok type) : IsLiteral value := by
  induction fields with
  | nil => simp [Value.ofContentIn] at found
  | cons field fields ih =>
    rw [Value.ofContentIn] at found
    split at found
    · exact isLiteral_of_ofContent storable.1 found primitive
    · exact ih storable.2 found

theorem isLiteral_of_ofJson? {raw : Json} {value : Value} {type : DataType}
    (storable : raw.IsStorable) (found : Value.ofJson? raw = some value)
    (primitive : literalType value = .ok type) : IsLiteral value := by
  unfold Value.ofJson? at found
  split at found
  · obtain ⟨kind, -, found⟩ := Option.bind_eq_some_iff.1 found
    exact isLiteral_of_ofContentIn storable found primitive
  · exact isLiteral_of_ofContent storable.2.1 found primitive
  · simp at found

theorem isLiteral_of_literal {value : Value} {type : DataType} (storable : config.IsStorable)
    (found : literal config = .ok value) (primitive : literalType value = .ok type) :
    IsLiteral value := by
  unfold literal at found
  have zero : IsLiteral (.number .zero) := ⟨⟨_, rfl⟩, trivial, fun d same => by
    obtain rfl := Value.number.inj same
    decide⟩
  split at found
  · obtain rfl := Except.ok.inj found
    exact zero
  · obtain rfl := Except.ok.inj found
    exact zero
  · rename_i raw configured
    split at found
    · rename_i read
      obtain rfl := Except.ok.inj found
      exact isLiteral_of_ofJson? (storable.get? configured) read primitive
    · simp at found

theorem IsLiteral.literal_constantConfig {value : Value} (isLiteral : IsLiteral value) :
    literal (constantConfig value) = .ok value := by
  obtain ⟨⟨type, primitive⟩, -, finite⟩ := isLiteral
  have read : Value.ofJson? value.toJson = some value := by
    cases value with
    | number d => simp [Value.toJson, ofJson?_tagged, Json.ofDouble, finite d rfl, Value.ofContent]
    | text s | boolean b | player s => simp [Value.toJson, ofJson?_tagged, Value.ofContent]
    | list items | struct name fields => simp [literalType] at primitive
  have tagged : value.toJson ≠ .null := by cases value <;> simp [Value.toJson, Value.tagged]
  unfold literal
  rw [get?_constantConfig]
  split
  · rename_i missing
    simp at missing
  · rename_i empty
    exact absurd (Option.some.inj empty) tagged
  · rename_i raw same
    rw [← Option.some.inj same, read]

variable {type : NodeType} {behavior : Behavior}

theorem settles_nothing {ports : Ports} (declared : behavior.ports = fun _ _ => .ok ports)
    (read : behavior.readAmong = fun _ => pure .null) (write : ∀ config, behavior.write config = [])
    (config : Json) : behavior.Settles config .null where
  reads known := by
    rw [read, write]
    exact Reads.pure _
  write := by rw [write, write]
  ports known := by rw [declared]

theorem settles_settings {settings : List Setting} (nodup : (settings.map (·.key)).Nodup)
    (short : ∀ setting ∈ settings, IsCount setting.default.utf8ByteSize)
    (read : behavior.readAmong = fun _ => Setting.read settings)
    (write : behavior.write = Setting.write settings)
    (declared : ∀ config config', (∀ setting ∈ settings, setting.value config =
      setting.value config') → behavior.ports config = behavior.ports config')
    (storable : config.IsStorable) : behavior.Settles config (Setting.settled settings config) where
  reads known := by
    rw [read, write]
    exact Setting.reads_settled fun setting mem => Setting.short_value (short setting mem) storable
  write := by
    rw [write]
    exact List.flatMap_congr fun setting mem => by rw [Setting.value_settled nodup mem]
  ports known := congrFun (declared _ _ fun setting mem => Setting.value_settled nodup mem) known

theorem settles_sequence (config : Json) :
    sequence.behavior.Settles config (sequenceConfig (sequenceLength config)) where
  reads known := reads_sequence config
  write := by simp only [sequence, sequenceLength_clamped]
  ports known := by simp only [sequence, sequenceLength_clamped]

theorem settles_constant {known : List Schema} {ports : Ports} (storable : config.IsStorable)
    (declared : constant.behavior.ports config known = .ok ports) :
    ∃ settled, constant.behavior.Settles config settled := by
  obtain ⟨value, given, declared⟩ := Accepted.bind_iff.1 declared
  obtain ⟨type, primitive, -⟩ := Accepted.bind_iff.1 declared
  have isLiteral := isLiteral_of_literal storable given primitive
  have settled := isLiteral.literal_constantConfig
  refine ⟨constantConfig value, fun known => ?_, ?_, fun known => ?_⟩
  · exact reads_constant given primitive isLiteral.fit
  · simp only [constant, given, settled]
  · simp only [constant, given, settled]

theorem exists_settles {known : List Schema} {ports : Ports} (mem : type ∈ all)
    (storable : config.IsStorable) (declared : type.behavior.ports config known = .ok ports) :
    ∃ settled, type.behavior.Settles config settled := by
  cases all_stored mem with
  | nothing declared read write => exact ⟨_, settles_nothing declared read write config⟩
  | settings settings nodup short read write declared =>
    exact ⟨_, settles_settings nodup short read write declared storable⟩
  | sequence => exact ⟨_, settles_sequence config⟩
  | constant => exact settles_constant storable declared

end Catalog

/-- A node without literals is read back as it is from what any file says about it, where the given
structs are known. -/
def Format.Reloads (registry : Registry) (known : List Schema) (node : Node) : Prop :=
  ∀ (written read : Graph) ranks, read.schemas = known →
    ∃ record, written.record? ranks registry current node = some record ∧
      Reads (readNode registry read record) [] (some (some (node, [])))

theorem Format.reloads_builtin {registry : Registry} {id : String} {behavior : Behavior}
    (found : registry.behavior? id = some behavior) {config : Json}
    (rereads : behavior.Rereads config) {known : List Schema} {ports : Ports}
    (declared : behavior.ports config known = .ok ports) (position : Position) :
    Reloads registry known (.ofPorts (.builtin id) config ports position) := by
  rintro written read ranks rfl
  let node : Node := .ofPorts (.builtin id) config ports position
  have bare : Graph.insetsOf node = [] := Graph.insetsOf_eq_nil fun input mem => by
    obtain ⟨port, -, rfl⟩ := List.mem_map.1 mem
    rfl
  obtain ⟨record, recorded⟩ : ∃ record, written.record? ranks registry current node = some record :=
    ⟨_, rfl⟩
  have reads := reads_node registry.within_refl read recorded
    (fun type other kind found' => by
      obtain rfl := NodeKind.builtin.inj kind
      rwa [← Option.some.inj (found.symm.trans found')])
    (by rw [bare]; exact ⟨(by decide : IsCount 0), fun _ mem => absurd mem List.not_mem_nil⟩)
  have answer : rereadNode registry read node record = some (some (node, [])) := by
    obtain ⟨_, named, rfl⟩ := Option.map_eq_some_iff.1 recorded
    obtain rfl := Option.some.inj named
    have none : rereadInsets (Graph.insetsOf node) = some [] := by rw [bare]; rfl
    have same : behavior.ports node.config read.schemas = .ok ports := declared
    unfold rereadNode
    rw [none]
    simp only [found, same]
    rfl
  rw [answer] at reads
  exact ⟨record, recorded, reads⟩

/-- A configuration that a type of the catalog declares ports for is read back as a settled one, the
same for everyone, and a node that is made with it keeps the settled one. -/
theorem Registry.builtin_settles {id : String} {behavior : Behavior}
    (found : builtin.behavior? id = some behavior) {config : Json} (storable : config.IsStorable)
    {known : List Schema} {ports : Ports} (declared : behavior.ports config known = .ok ports) :
    ∃ settled, behavior.Settles config settled ∧ behavior.Rereads settled ∧
      ∀ graph : Graph, graph.schemas = known → ∀ position,
        let node := .ofPorts (.builtin id) settled ports position
        graph.addBuiltin builtin id config position = .ok (graph.push node) ∧
          Reloads builtin known node := by
  obtain ⟨type, registered, rfl⟩ := Option.map_eq_some_iff.1 found
  obtain ⟨settled, settles⟩ :=
    Catalog.exists_settles (mem_of_find? registered).1 storable declared
  refine ⟨settled, settles, settles.rereads, ?_⟩
  rintro graph rfl position
  have added := settles.canonical declared
  rw [← settles.ports _] at declared
  refine ⟨?_, reloads_builtin found settles.rereads declared position⟩
  rw [Graph.addBuiltin, found]
  simp only [added, bind, Except.bind, pure, Except.pure]

def Catalog.oddConfig : Json :=
  .obj [("note", .arr [.bool true, .float .zero]),
    ("value", .obj [("kind", .str "number"), ("value", .int 9007199254740993)])]

theorem Registry.builtin_settles_odd :
    builtin.behavior? "value/Constant" = some Catalog.constant.behavior ∧
      Catalog.oddConfig.IsStorable ∧ ∃ ports,
      Catalog.constant.behavior.ports Catalog.oddConfig [] = .ok ports ∧
      ∃ settled, Catalog.constant.behavior.Settles Catalog.oddConfig settled ∧
        Catalog.constant.behavior.Rereads settled ∧
        ∀ graph : Graph, graph.schemas = [] → ∀ position,
          let node := .ofPorts (.builtin "value/Constant") settled ports position
          graph.addBuiltin builtin "value/Constant" Catalog.oddConfig position =
              .ok (graph.push node) ∧
            Reloads builtin [] node := by
  have storable : Catalog.oddConfig.IsStorable := by
    simp [Catalog.oddConfig, Json.IsStorable, Json.ItemsStorable, Json.FieldsStorable]
    decide
  exact ⟨rfl, storable, _, rfl, builtin_settles rfl storable rfl⟩

end NodeScript
