import NodeScript.Catalog.Builtin
import NodeScript.Proofs.Accepted
import NodeScript.Proofs.Bytes.Nested

/-!
Configurations in files. The configuration that a node is given in the end is one that is read
back from its own bytes, and so is one that is read from any bytes, once the number of outputs of a
sequence is brought within bounds. Main statements: `Registry.builtin_rereads` and
`Registry.builtin_rereads_clamped`, for every type of the catalog.
-/

set_option autoImplicit false
set_option relaxedAutoImplicit false

namespace NodeScript

open Decode

namespace Behavior

/-- A configuration that is read back from its own bytes, whatever structs are known. -/
def Rereads (behavior : Behavior) (config : Json) : Prop :=
  ∀ known, Reads (behavior.readAmong known) (behavior.write config) (some config)

theorem canonical_eq_ok_iff {behavior : Behavior} {known : List Schema} {config config' : Json}
    {ports : Ports} : behavior.canonical known config = .ok (config', ports) ↔
      (∃ first, behavior.ports config known = .ok first) ∧
        (behavior.readAmong known).result (behavior.write config) = .ok config' ∧
        behavior.ports config' known = .ok ports := by
  unfold Behavior.canonical
  cases behavior.ports config known with
  | error reason => simp [bind, Except.bind]
  | ok first =>
    cases (behavior.readAmong known).result (behavior.write config) with
    | error reason => simp [bind, Except.bind, throw, throwThe, MonadExceptOf.throw]
    | ok read =>
      simp only [bind, Except.bind, Pure.pure, Except.pure, Except.ok.injEq]
      cases hp : behavior.ports read known with
      | error reason =>
        simp only [reduceCtorEq, exists_eq', true_and, false_iff, not_and]
        rintro rfl
        simp [hp]
      | ok ports' =>
        simp only [Except.ok.injEq, Prod.mk.injEq, exists_eq', true_and]
        constructor
        · rintro ⟨rfl, rfl⟩
          exact ⟨rfl, hp⟩
        · rintro ⟨rfl, h⟩
          rw [hp, Except.ok.injEq] at h
          exact ⟨rfl, h⟩

end Behavior

/-- Some graph could be given a node of the type with that configuration and those ports. -/
def Registry.Canonical (registry : Registry) (type : String) (config : Json) (ports : Ports) :
    Prop :=
  ∃ behavior known given, registry.behavior? type = some behavior ∧
    behavior.canonical known given = .ok (config, ports)

/-- The type declares the ports for the configuration where some structs are known. -/
def Registry.Declares (registry : Registry) (type : String) (config : Json) (ports : Ports) :
    Prop :=
  ∃ behavior known, registry.behavior? type = some behavior ∧
    behavior.ports config known = .ok ports

def Registry.DeclaresIn (registry : Registry) (known : List Schema) (type : String)
    (config : Json) (ports : Ports) : Prop :=
  ∃ behavior, registry.behavior? type = some behavior ∧ behavior.ports config known = .ok ports

theorem Registry.Canonical.declares {registry : Registry} {type : String} {config : Json}
    {ports : Ports} (canonical : registry.Canonical type config ports) :
    registry.Declares type config ports := by
  obtain ⟨behavior, known, given, found, canonical⟩ := canonical
  exact ⟨behavior, known, found, (Behavior.canonical_eq_ok_iff.1 canonical).2.2⟩

namespace Catalog

theorem Setting.value_object {fields : List (String × Json)} (nodup : (fields.map (·.1)).Nodup)
    {setting : Setting} {text : String} (mem : (setting.key, Json.str text) ∈ fields) :
    setting.value (Json.object fields) = text := by
  rw [Setting.value, Json.text?, Json.object, Json.get?, Dict.lookup_ofList nodup mem]
  rfl

private abbrev TextFields (settings : List Setting) (fields : List (String × Json)) : Prop :=
  List.Forall₂ (fun setting field => ∃ text, IsCount text.utf8ByteSize ∧
    field = (setting.key, Json.str text)) settings fields

private theorem TextFields.keys {settings : List Setting} {fields : List (String × Json)}
    (texts : TextFields settings fields) : fields.map (·.1) = settings.map (·.key) := by
  induction texts with
  | nil => rfl
  | cons first _ ih =>
    obtain ⟨text, -, rfl⟩ := first
    rw [List.map_cons, List.map_cons, ih]

private theorem TextFields.values {settings : List Setting} {fields all : List (String × Json)}
    (texts : TextFields settings fields) (nodup : (all.map (·.1)).Nodup) (sub : fields ⊆ all) :
    fields = settings.map (fun setting =>
        (setting.key, Json.str (setting.value (Json.object all)))) ∧
      ∀ setting ∈ settings, IsCount (setting.value (Json.object all)).utf8ByteSize := by
  induction texts with
  | nil => exact ⟨rfl, fun _ h => by simp at h⟩
  | @cons setting field settings fields first _ ih =>
    obtain ⟨text, short, rfl⟩ := first
    obtain ⟨same, others⟩ := ih fun f hf => sub (List.mem_cons_of_mem _ hf)
    have here := Setting.value_object nodup (sub List.mem_cons_self)
    refine ⟨?_, ?_⟩
    · rw [List.map_cons, here, ← same]
    · intro other ho
      rcases List.mem_cons.1 ho with rfl | ho
      · rwa [here]
      · exact others other ho

/-- The values of settings under their keys. -/
def Setting.settled (settings : List Setting) (config : Json) : Json :=
  Json.object (settings.map fun setting => (setting.key, .str (setting.value config)))

theorem Setting.reads_settled {settings : List Setting} {config : Json}
    (short : ∀ setting ∈ settings, IsCount (setting.value config).utf8ByteSize) :
    Reads (Setting.read settings) (Setting.write settings config)
      (some (settled settings config)) := by
  have reads := Reads.mapM fun setting mem =>
    (Reads.text (short setting mem)).map (f := fun text => (setting.key, Json.str text))
  have answer : settings.mapM (fun setting =>
      (some (setting.value config)).map fun text => (setting.key, Json.str text)) =
      some (settings.map fun setting => (setting.key, .str (setting.value config))) :=
    List.mapM_pure ..
  rw [answer] at reads
  exact reads.map (f := Json.object)

theorem Setting.rereads {settings : List Setting} (nodup : (settings.map (·.key)).Nodup)
    {config : Json} (given : Gives (Setting.read settings) config) :
    Reads (Setting.read settings) (Setting.write settings config) (some config) := by
  obtain ⟨fields, hfields, made⟩ := given.of_bind
  have made := made.of_pure
  subst made
  have texts : TextFields settings fields := hfields.of_mapM.imp fun setting field h => by
    obtain ⟨text, htext, made⟩ := h.of_bind
    exact ⟨text, htext.text, made.of_pure.symm⟩
  rw [← texts.keys] at nodup
  obtain ⟨same, short⟩ := texts.values nodup fun _ h => h
  have settled : settled settings (Json.object fields) = Json.object fields :=
    congrArg Json.object same.symm
  have reads := reads_settled short
  rwa [settled] at reads

variable {behavior : Behavior} {known declaring : List Schema} {config : Json} {ports : Ports}

private theorem rereads_plain (read : behavior.readAmong = fun _ => pure .null)
    (write : ∀ config, behavior.write config = [])
    (given : Gives (behavior.readAmong known) config) : behavior.Rereads config := by
  rw [Behavior.Rereads, write, read]
  rw [read] at given
  intro _
  rw [given.of_pure]
  exact Reads.pure _

private theorem rereads_settings (settings : List Setting) (nodup : (settings.map (·.key)).Nodup)
    (read : behavior.readAmong = fun _ => Setting.read settings)
    (write : behavior.write = Setting.write settings)
    (given : Gives (behavior.readAmong known) config) : behavior.Rereads config := by
  rw [Behavior.Rereads, write, read]
  rw [read] at given
  intro _
  exact Setting.rereads nodup given

/-- The configuration of a sequence with a number of outputs. -/
def sequenceConfig (n : Nat) : Json := Json.object [("outputs", .int n)]

theorem sequenceLength_bounds (config : Json) :
    1 ≤ sequenceLength config ∧ sequenceLength config ≤ 16 := by
  unfold sequenceLength
  split <;> omega

theorem sequenceLength_sequenceConfig (n : Nat) :
    sequenceLength (sequenceConfig n) = min (max n 1) 16 := by
  have outputs : (sequenceConfig n).get? "outputs" = some (.int n) :=
    Dict.lookup_ofList (by simp) List.mem_cons_self
  unfold sequenceLength
  simp only [outputs, Option.bind_eq_bind, Option.bind_some, Json.asNat?]
  simp

theorem reads_sequence (config : Json) : Reads (sequence.behavior.readAmong known)
    (sequence.behavior.write config) (some (sequenceConfig (sequenceLength config))) := by
  have small : IsCount (sequenceLength config) := by
    have bounds := sequenceLength_bounds config
    unfold IsCount Encode.maxCount
    omega
  exact (Reads.count small).map (f := sequenceConfig)

private theorem rereads_sequence {n : Nat} (least : 1 ≤ n) (most : n ≤ 16) :
    sequence.behavior.Rereads (sequenceConfig n) := by
  intro known
  have reads := @reads_sequence known (sequenceConfig n)
  have length : min (max n 1) 16 = n := by omega
  rwa [sequenceLength_sequenceConfig, length] at reads

private theorem canonical_sequence {given : Json}
    (canonical : sequence.behavior.canonical known given = .ok (config, ports)) :
    ∃ n, 1 ≤ n ∧ n ≤ 16 ∧ config = sequenceConfig n := by
  obtain ⟨-, found, -⟩ := Behavior.canonical_eq_ok_iff.1 canonical
  rw [(reads_sequence given).result, Except.ok.injEq] at found
  obtain ⟨least, most⟩ := sequenceLength_bounds given
  exact ⟨sequenceLength given, least, most, found.symm⟩

theorem ofJson?_tagged (kind : String) (content : Json) :
    Value.ofJson? (Value.tagged kind content) = Value.ofContent kind content := by
  simp [Value.tagged, Value.ofJson?, Value.kindOf?, Value.ofContentIn]

private theorem ofJson?_toJson {value given : Value} {type : DataType}
    (found : Value.ofJson? given.toJson = some value)
    (primitive : literalType value = .ok type) : value = given := by
  cases given with
  | number d =>
    rw [Value.toJson, ofJson?_tagged, Json.ofDouble] at found
    split at found <;> simp [Value.ofContent] at found
    exact found.symm
  | text s => simpa [Value.toJson, ofJson?_tagged, Value.ofContent, eq_comm] using found
  | boolean b => simpa [Value.toJson, ofJson?_tagged, Value.ofContent, eq_comm] using found
  | player s => simpa [Value.toJson, ofJson?_tagged, Value.ofContent, eq_comm] using found
  | list items =>
    rw [Value.toJson, ofJson?_tagged] at found
    simp only [Value.ofContent, if_true, Option.map_eq_some_iff] at found
    obtain ⟨_, -, rfl⟩ := found
    simp [literalType] at primitive
  | struct name fields =>
    rw [Value.toJson, ofJson?_tagged] at found
    simp only [Value.ofContent, if_true, Option.bind_eq_bind, Option.bind_eq_some_iff,
      Option.map_eq_some_iff] at found
    obtain ⟨_, -, _, -, rfl⟩ := found
    simp [literalType] at primitive

def constantConfig (value : Value) : Json := Json.object [("value", value.toJson)]

theorem get?_constantConfig (value : Value) :
    (constantConfig value).get? "value" = some value.toJson := by
  exact Dict.lookup_ofList (by simp) List.mem_cons_self

theorem reads_constant {value : Value} {type : DataType} (given : literal config = .ok value)
    (primitive : literalType value = .ok type) (fit : value.CountsFit) :
    Reads (constant.behavior.readAmong known) (constant.behavior.write config)
      (some (constantConfig value)) := by
  have shallow : value.within maxNesting = some value := by
    cases value <;> simp [literalType, Value.within, Value.levels, maxNesting] at primitive ⊢
  have reads := Value.reads value fit maxNesting
  rw [shallow] at reads
  have written : constant.behavior.write config = value.encode := by simp only [constant, given]
  rw [written]
  exact reads.map (f := constantConfig)

private theorem countsFit_of_gives {value : Value} {type : DataType}
    (primitive : literalType value = .ok type) {n : Nat}
    (given : Gives (Value.decodeWithin n) value) : value.CountsFit := by
  cases n with
  | zero => exact absurd given Gives.not_throw
  | succ n =>
    obtain ⟨tag, -, given⟩ := given.of_bind
    split at given
    · obtain ⟨_, -, made⟩ := given.of_bind
      obtain rfl := made.of_pure
      exact trivial
    · obtain ⟨_, text, made⟩ := given.of_bind
      obtain rfl := made.of_pure
      exact text.text
    · obtain ⟨_, -, made⟩ := given.of_bind
      obtain rfl := made.of_pure
      exact trivial
    · obtain ⟨_, text, made⟩ := given.of_bind
      rw [← made.of_pure]
      exact text.text
    · obtain ⟨_, -, made⟩ := given.of_bind
      rw [← made.of_pure] at primitive
      simp [literalType] at primitive
    · obtain ⟨_, -, given⟩ := given.of_bind
      obtain ⟨_, -, made⟩ := given.of_bind
      rw [← made.of_pure] at primitive
      simp [literalType] at primitive
    · exact absurd given Gives.not_throw

private theorem rereads_constant (given : Gives (constant.behavior.readAmong known) config)
    (declared : constant.behavior.ports config declaring = .ok ports) :
    constant.behavior.Rereads config := by
  obtain ⟨read, given, made⟩ := given.of_bind
  have made := made.of_pure
  have raw : config.get? "value" = some read.toJson := by
    rw [← made]
    exact get?_constantConfig read
  obtain ⟨value, hvalue, declared⟩ := Accepted.bind_iff.1 declared
  obtain ⟨type, primitive, -⟩ := Accepted.bind_iff.1 declared
  have same : value = read := by
    refine ofJson?_toJson ?_ primitive
    obtain ⟨fields, tagged⟩ : ∃ fields, read.toJson = .obj fields := by
      cases read <;> exact ⟨_, rfl⟩
    rw [literal, raw, tagged] at hvalue
    dsimp only at hvalue
    split at hvalue
    · rename_i found
      rw [tagged, found, Except.ok.inj hvalue]
    · simp at hvalue
  subst same
  intro among
  have reads := @reads_constant among _ _ _ hvalue primitive (countsFit_of_gives primitive given)
  rwa [show constantConfig value = config from made] at reads

/-- The ways in which the types of the catalog keep a configuration in bytes: not at all, as
settings that the ports are made from, or in one of two ways of their own. -/
inductive Stored : NodeType → Prop where
  | nothing {type : NodeType} {ports : Ports}
      (declared : type.behavior.ports = fun _ _ => .ok ports)
      (read : type.behavior.readAmong = fun _ => pure .null)
      (write : ∀ config, type.behavior.write config = []) : Stored type
  | settings {type : NodeType} (settings : List Setting) (nodup : (settings.map (·.key)).Nodup)
      (short : ∀ setting ∈ settings, IsCount setting.default.utf8ByteSize)
      (read : type.behavior.readAmong = fun _ => Setting.read settings)
      (write : type.behavior.write = Setting.write settings)
      (declared : ∀ config config', (∀ setting ∈ settings, setting.value config =
        setting.value config') → type.behavior.ports config = type.behavior.ports config') :
      Stored type
  | sequence : Stored sequence
  | constant : Stored constant

theorem Setting.type_congr {setting : Setting} {config config' : Json}
    (same : setting.value config = setting.value config') :
    setting.type config = setting.type config' := by
  funext known
  rw [Setting.type, Setting.type, same]

private theorem stored_typed {type : NodeType} (setting : Setting)
    (make : DataType → Except GraphError Ports) (short : IsCount setting.default.utf8ByteSize)
    (read : type.behavior.readAmong = fun _ => Setting.read [setting])
    (write : type.behavior.write = Setting.write [setting])
    (declared : type.behavior.ports = fun config known => setting.type config known >>= make) :
    Stored type := by
  refine .settings [setting] (by simp) (by simpa using short) read write
    fun config config' same => ?_
  rw [declared]
  funext known
  dsimp only
  rw [Setting.type_congr (same setting (.head _))]

private theorem stored_variable {type : NodeType} (make : DataType → Except GraphError Ports)
    (read : type.behavior.readAmong = fun _ => Setting.read [variableName, typeName])
    (write : type.behavior.write = Setting.write [variableName, typeName])
    (declared : type.behavior.ports = fun config known => typeName.type config known >>= make) :
    Stored type := by
  refine .settings [variableName, typeName] (by decide) (by decide) read write
    fun config config' same => ?_
  rw [declared]
  funext known
  dsimp only
  rw [Setting.type_congr (same typeName (.tail _ (.head _)))]

theorem all_stored {type : NodeType} (h : type ∈ all) : Stored type := by
  simp only [all, List.mem_cons, List.not_mem_nil, or_false] at h
  rcases h with rfl | rfl | rfl | rfl | rfl | rfl | rfl | rfl | rfl | rfl | rfl | rfl | rfl | rfl |
    rfl | rfl | rfl | rfl | rfl | rfl | rfl | rfl | rfl | rfl | rfl
  · exact .settings [eventName] (by decide) (by decide) rfl rfl fun _ _ _ => rfl
  · exact .nothing rfl rfl fun _ => rfl
  · exact .nothing rfl rfl fun _ => rfl
  · exact stored_typed elementType _ (by decide) rfl rfl rfl
  · exact .sequence
  · exact .settings [logLevel] (by decide) (by decide) rfl rfl fun _ _ _ => rfl
  · exact .nothing rfl rfl fun _ => rfl
  · exact .constant
  · exact stored_variable _ rfl rfl rfl
  · exact stored_variable _ rfl rfl rfl
  · exact .nothing rfl rfl fun _ => rfl
  · exact .nothing rfl rfl fun _ => rfl
  · exact .nothing rfl rfl fun _ => rfl
  · exact .nothing rfl rfl fun _ => rfl
  · exact .nothing rfl rfl fun _ => rfl
  · exact .settings [operator] (by decide) (by decide) rfl rfl fun config config' same => by
      simp only [compare, same operator (.head _)]
  · exact .nothing rfl rfl fun _ => rfl
  · exact .nothing rfl rfl fun _ => rfl
  · exact .nothing rfl rfl fun _ => rfl
  · exact .nothing rfl rfl fun _ => rfl
  · exact stored_typed shownType _ (by decide) rfl rfl rfl
  · exact stored_typed listElement _ (by decide) rfl rfl rfl
  · exact stored_typed listElement _ (by decide) rfl rfl rfl
  · exact stored_typed listElement _ (by decide) rfl rfl rfl
  · exact .settings [structName, fieldName] (by decide) (by decide) rfl rfl
      fun config config' same => by
        simp only [getField, same structName (.head _), same fieldName (.tail _ (.head _))]

private theorem all_rereads {type : NodeType} (h : type ∈ all)
    (given : Gives (type.behavior.readAmong known) config)
    (declared : type.behavior.ports config declaring = .ok ports)
    (bounded : type = sequence → ∃ n, 1 ≤ n ∧ n ≤ 16 ∧ config = sequenceConfig n) :
    type.behavior.Rereads config := by
  cases all_stored h with
  | nothing _ read write => exact rereads_plain read write given
  | settings settings nodup _ read write _ => exact rereads_settings settings nodup read write given
  | sequence =>
    obtain ⟨n, least, most, rfl⟩ := bounded rfl
    exact rereads_sequence least most
  | constant => exact rereads_constant given declared

def clampConfig (type : String) (config : Json) : Json :=
  if type = sequence.id then sequenceConfig (sequenceLength config) else config

theorem sequenceLength_clamped (config : Json) :
    sequenceLength (sequenceConfig (sequenceLength config)) = sequenceLength config := by
  have bounds := sequenceLength_bounds config
  rw [sequenceLength_sequenceConfig]
  omega

theorem clampConfig_eq_self_iff {type : String} {config : Json} : clampConfig type config = config ↔
    (type = sequence.id → ∃ n, 1 ≤ n ∧ n ≤ 16 ∧ config = sequenceConfig n) := by
  unfold clampConfig
  split
  · rename_i sequence
    constructor
    · intro same _
      obtain ⟨least, most⟩ := sequenceLength_bounds config
      exact ⟨sequenceLength config, least, most, same.symm⟩
    · intro bounded
      obtain ⟨n, least, most, rfl⟩ := bounded sequence
      have length : min (max n 1) 16 = n := by omega
      rw [sequenceLength_sequenceConfig, length]
  · rename_i other
    exact ⟨fun _ same => absurd same other, fun _ => rfl⟩

end Catalog

private theorem mem_of_lookup_insert {types : Dict NodeType} {type found : NodeType} {id : String}
    (h : (Dict.insert type.id type types).lookup id = some found) :
    found = type ∧ id = type.id ∨ types.lookup id = some found := by
  rw [Dict.lookup_insert] at h
  split at h
  · rename_i same
    exact .inl ⟨(Option.some.inj h).symm, same⟩
  · exact .inr h

theorem Registry.mem_of_find? {types : List NodeType} {id : String} {type : NodeType}
    (h : (ofList types).find? id = some type) : type ∈ types ∧ id = type.id := by
  have all (types : List NodeType) (registry : Registry)
      (h : (types.foldl (fun registry type => registry.register type) registry).find? id =
        some type) : type ∈ types ∧ id = type.id ∨ registry.find? id = some type := by
    induction types generalizing registry with
    | nil => exact .inr h
    | cons first rest ih =>
      rcases ih _ h with ⟨mem, same⟩ | found
      · exact .inl ⟨List.mem_cons_of_mem _ mem, same⟩
      · rcases mem_of_lookup_insert found with ⟨rfl, same⟩ | found
        · exact .inl ⟨List.mem_cons_self, same⟩
        · exact .inr found
  exact (all types empty h).resolve_right (by simp [find?, empty])

/-- The configuration of a node of the catalog is read back from its bytes. -/
theorem Registry.builtin_rereads {id : String} {config : Json} {ports : Ports}
    (canonical : builtin.Canonical id config ports) :
    ∃ behavior, builtin.behavior? id = some behavior ∧ behavior.Rereads config := by
  obtain ⟨behavior, known, given, found, canonical⟩ := canonical
  obtain ⟨type, registered, rfl⟩ := Option.map_eq_some_iff.1 found
  obtain ⟨-, read, declared⟩ := Behavior.canonical_eq_ok_iff.1 canonical
  refine ⟨type.behavior, found, Catalog.all_rereads (mem_of_find? registered).1
    (gives_of_result read) declared ?_⟩
  rintro rfl
  exact Catalog.canonical_sequence canonical

theorem Registry.builtin_sequence :
    builtin.behavior? Catalog.sequence.id = some Catalog.sequence.behavior := (rfl)

theorem Registry.builtin_clamped {id : String} {behavior : Behavior}
    (found : builtin.behavior? id = some behavior) (config : Json) :
    (∀ known, behavior.ports (Catalog.clampConfig id config) known = behavior.ports config known) ∧
      behavior.write (Catalog.clampConfig id config) = behavior.write config := by
  unfold Catalog.clampConfig
  split
  · subst id
    rw [builtin_sequence] at found
    obtain rfl : Catalog.sequence.behavior = behavior := Option.some.inj found
    have same := Catalog.sequenceLength_clamped config
    refine ⟨fun known => ?_, ?_⟩
    · simp only [Catalog.sequence, same]
    · simp only [Catalog.sequence, same]
  · exact ⟨fun _ => rfl, rfl⟩

/-- What is read from any bytes is read back from its own, once the number of outputs of a sequence
is brought within bounds. -/
theorem Registry.builtin_rereads_clamped {id : String} {behavior : Behavior}
    {known declaring : List Schema} {config : Json} {ports : Ports}
    (found : builtin.behavior? id = some behavior) (given : Gives (behavior.readAmong known) config)
    (declared : behavior.ports config declaring = .ok ports) :
    behavior.Rereads (Catalog.clampConfig id config) := by
  unfold Catalog.clampConfig
  split
  · subst id
    rw [builtin_sequence] at found
    obtain rfl : Catalog.sequence.behavior = behavior := Option.some.inj found
    obtain ⟨least, most⟩ := Catalog.sequenceLength_bounds config
    exact Catalog.rereads_sequence least most
  · rename_i other
    obtain ⟨type, registered, rfl⟩ := Option.map_eq_some_iff.1 found
    obtain ⟨mem, rfl⟩ := mem_of_find? registered
    refine Catalog.all_rereads mem given declared fun same => ?_
    subst same
    exact absurd rfl other

end NodeScript
