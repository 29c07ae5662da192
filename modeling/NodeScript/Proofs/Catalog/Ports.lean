import NodeScript.Catalog.Builtin
import NodeScript.Proofs.Accepted
import NodeScript.Proofs.Catalog.Config

/-!
The ports of nodes of the catalog and the structs that are known. A type has ports without structs,
ports of one type that a setting names, or a port for a field of a struct (`Catalog.Shaped`). Main
statements: the ports of a node mention structs as they are known, and stay as they are for as long
as those structs do (`Registry.builtin_steady`); they mention no structs but known ones where the
fields of these do not either (`Registry.builtin_drawn`).
-/

set_option autoImplicit false
set_option relaxedAutoImplicit false

namespace NodeScript

/-- The struct that a type holds is known as it is. -/
def DataType.IsKnown (known : List Schema) (type : DataType) : Prop :=
  ∀ schema, type.schema? = some schema → Schema.find? known schema.name = some schema

def Ports.AreKnown (known : List Schema) (ports : Ports) : Prop :=
  ∀ port ∈ ports.inputs ++ ports.outputs, port.type.IsKnown known

def Schema.AllKnown (known : List Schema) : Prop :=
  ∀ schema ∈ known, ∀ field ∈ schema.fields, field.type.IsKnown known

/-- The struct that a type holds has one of the names. -/
def DataType.IsNamed (names : List String) (type : DataType) : Prop :=
  ∀ schema, type.schema? = some schema → schema.name ∈ names

/-- The structs that the fields of a struct hold have some of the names. -/
def Schema.FieldsNamed (names : List String) (schema : Schema) : Prop :=
  ∀ field ∈ schema.fields, field.type.IsNamed names

variable {known known' : List Schema}

theorem Schema.find?_name {name : String} {schema : Schema}
    (found : find? known name = some schema) : schema ∈ known ∧ schema.name = name := by
  refine ⟨List.mem_of_find?_eq_some found, ?_⟩
  simpa using List.find?_some found

namespace DataType

theorem isKnown_of_schema? {type : DataType} (none : type.schema? = none) :
    type.IsKnown known := by
  intro schema hs
  simp [none] at hs

theorem isKnown_type {name : String} {schema : Schema}
    (found : Schema.find? known name = some schema) : schema.type.IsKnown known := by
  intro schema' hs
  obtain rfl : schema = schema' := Option.some.inj hs
  rw [(Schema.find?_name found).2, found]

theorem IsKnown.isNamed {type : DataType} (here : type.IsKnown known) :
    type.IsNamed (known.map (·.name)) := by
  intro schema hs
  exact List.mem_map_of_mem (Schema.find?_name (here schema hs)).1

private theorem ofNameWithin_isKnown {n : Nat} {name : List Char} {type : DataType}
    (found : ofNameWithin known n name = some type) : type.IsKnown known := by
  induction n generalizing name type with
  | zero => simp [ofNameWithin] at found
  | succ n ih =>
    simp only [ofNameWithin] at found
    split at found
    · rename_i primitive
      unfold primitive? at primitive
      obtain rfl := Option.some.inj found
      split at primitive <;> simp only [Option.some.injEq, reduceCtorEq] at primitive <;>
        subst primitive <;> exact isKnown_of_schema? rfl
    · split at found
      · obtain ⟨element, inner, rfl⟩ := Option.map_eq_some_iff.1 found
        intro schema hs
        exact ih inner schema hs
      · obtain ⟨schema, inner, rfl⟩ := Option.map_eq_some_iff.1 found
        exact isKnown_type inner

private theorem ofNameWithin_congr {n : Nat} {name : List Char} {type : DataType}
    (found : ofNameWithin known n name = some type) (same : type.IsKnown known') :
    ofNameWithin known' n name = some type := by
  induction n generalizing name type with
  | zero => simp [ofNameWithin] at found
  | succ n ih =>
    simp only [ofNameWithin] at found ⊢
    split at found
    · exact found
    · split at found
      · obtain ⟨element, inner, rfl⟩ := Option.map_eq_some_iff.1 found
        rw [ih inner same]
        rfl
      · obtain ⟨schema, inner, rfl⟩ := Option.map_eq_some_iff.1 found
        rw [← (Schema.find?_name inner).2, same schema rfl]
        rfl

theorem ofName?_congr {name : String} {type : DataType} (found : ofName? known name = some type)
    (same : type.IsKnown known') : ofName? known' name = some type :=
  ofNameWithin_congr found same

theorem ofName?_isKnown {name : String} {type : DataType}
    (found : ofName? known name = some type) : type.IsKnown known :=
  ofNameWithin_isKnown found

end DataType

theorem Catalog.Setting.type_eq_ok_iff {setting : Setting} {config : Json} {type : DataType} :
    setting.type config known = .ok type ↔
      DataType.ofName? known (setting.value config) = some type := by
  unfold Setting.type
  dsimp only
  cases DataType.ofName? known (setting.value config) <;> simp

/-- The ports of a type hold structs as they are known, and no others are asked for. -/
structure Behavior.Steady (behavior : Behavior) : Prop where
  known : ∀ {config known ports}, Schema.AllKnown known → behavior.ports config known = .ok ports →
    ports.AreKnown known
  stays : ∀ {config known known' ports}, behavior.ports config known = .ok ports →
    ports.AreKnown known' → behavior.ports config known' = .ok ports

/-- The ports of a type hold no structs but known ones, if the fields of known structs do not. -/
def Behavior.Drawn (behavior : Behavior) : Prop :=
  ∀ {config known ports},
    (∀ schema ∈ known, schema.FieldsNamed (known.map (·.name))) →
      behavior.ports config known = .ok ports →
        ∀ port ∈ ports.inputs ++ ports.outputs, port.type.IsNamed (known.map (·.name))

namespace Catalog

def Plain (ports : Ports) : Prop :=
  ∀ port ∈ ports.inputs ++ ports.outputs, port.type.schema? = none

/-- The ways in which the types of the catalog have ports. -/
inductive Shaped : Behavior → Prop where
  | plain {behavior : Behavior} {make : Json → Except GraphError Ports}
      (same : behavior.ports = fun config _ => make config)
      (plain : ∀ config ports, make config = .ok ports → Plain ports) : Shaped behavior
  /-- A type with one type of values that a setting names. -/
  | setting {behavior : Behavior} (setting : Setting) (make : DataType → Ports)
      (same : behavior.ports = fun config known => do return make (← setting.type config known))
      (shows : ∀ type, ∃ port ∈ (make type).inputs ++ (make type).outputs,
        port.type.schema? = type.schema?)
      (only : ∀ type, ∀ port ∈ (make type).inputs ++ (make type).outputs,
        port.type.schema? = none ∨ port.type.schema? = type.schema?) : Shaped behavior
  | getField : Shaped getField.behavior

variable {behavior : Behavior} {config : Json} {ports : Ports}

theorem getField_ports_iff : getField.behavior.ports config known = .ok ports ↔
    ∃ schema type, Schema.find? known (structName.value config) = some schema ∧
      schema.fields.lookup (fieldName.value config) = some type ∧
      ports = ⟨[valuePort "value" schema.type], [valuePort (fieldName.value config) type]⟩ := by
  simp only [getField]
  cases Schema.find? known (structName.value config) with
  | none => simp
  | some schema =>
    cases field : schema.fields.lookup (fieldName.value config) with
    | none => simp [field]
    | some type => simp [field, eq_comm]

theorem Shaped.origin (shaped : Shaped behavior) (found : behavior.ports config known = .ok ports)
    {port : Port} (hp : port ∈ ports.inputs ++ ports.outputs) : port.type.IsKnown known ∨
      ∃ schema ∈ known, ∃ field ∈ schema.fields, field.type = port.type := by
  cases shaped with
  | plain same plain =>
    rw [same] at found
    exact .inl (DataType.isKnown_of_schema? (plain _ _ found port hp))
  | setting setting make same _ only =>
    rw [same] at found
    obtain ⟨type, named, made⟩ := Accepted.bind_iff.1 found
    obtain rfl := Except.ok.inj made
    refine .inl fun schema hs => ?_
    rcases only type port hp with none | same
    · simp [none] at hs
    · rw [same] at hs
      exact DataType.ofName?_isKnown (Setting.type_eq_ok_iff.1 named) schema hs
  | getField =>
    obtain ⟨schema, type, hschema, field, rfl⟩ := getField_ports_iff.1 found
    rcases List.mem_pair.1 hp with rfl | rfl
    · exact .inl (DataType.isKnown_type hschema)
    · obtain ⟨before, after, split, -⟩ := List.lookup_eq_some_iff.1 field
      have mem : (fieldName.value config, type) ∈ schema.fields := by rw [split]; simp
      exact .inr ⟨schema, (Schema.find?_name hschema).1, _, mem, rfl⟩

theorem Shaped.steady (shaped : Shaped behavior) : behavior.Steady where
  known all found port hp := by
    rcases shaped.origin found hp with known | ⟨schema, hs, field, hf, same⟩
    · exact known
    · rw [← same]
      exact all schema hs field hf
  stays found stays := by
    cases shaped with
    | plain same _ =>
      rw [same] at found ⊢
      exact found
    | setting setting make same shows _ =>
      rw [same] at found ⊢
      obtain ⟨type, named, made⟩ := Accepted.bind_iff.1 found
      obtain rfl := Except.ok.inj made
      obtain ⟨port, hp, shown⟩ := shows type
      refine Accepted.bind_iff.2 ⟨type, Setting.type_eq_ok_iff.2 ?_, rfl⟩
      refine DataType.ofName?_congr (Setting.type_eq_ok_iff.1 named) fun schema hs => ?_
      rw [← shown] at hs
      exact stays port hp schema hs
    | getField =>
      obtain ⟨schema, type, hschema, field, rfl⟩ := getField_ports_iff.1 found
      have again := stays _ List.mem_cons_self schema rfl
      rw [(Schema.find?_name hschema).2] at again
      exact getField_ports_iff.2 ⟨schema, type, again, field, rfl⟩

theorem Shaped.drawn (shaped : Shaped behavior) : behavior.Drawn := by
  intro config known ports all found port hp
  rcases shaped.origin found hp with known | ⟨schema, hs, field, hf, same⟩
  · exact known.isNamed
  · rw [← same]
    exact all schema hs field hf

private theorem Shaped.fixed {ports : Ports} (same : behavior.ports = fun _ _ => .ok ports)
    (plain : Plain ports) : Shaped behavior := by
  refine .plain same fun _ _ made => ?_
  obtain rfl := Except.ok.inj made
  exact plain

instance (ports : Ports) : Decidable (Plain ports) :=
  inferInstanceAs (Decidable (∀ port ∈ ports.inputs ++ ports.outputs, port.type.schema? = none))

private theorem shaped_sequence : Shaped sequence.behavior := by
  refine .plain rfl fun config ports made => ?_
  obtain rfl := Except.ok.inj made
  intro port hp
  rcases List.mem_append.1 hp with hp | hp
  · obtain rfl := List.mem_singleton.1 hp
    rfl
  · obtain ⟨i, -, rfl⟩ := List.mem_map.1 hp
    rfl

private theorem shaped_constant : Shaped constant.behavior := by
  refine .plain rfl fun config ports made => ?_
  obtain ⟨value, -, made⟩ := Accepted.bind_iff.1 made
  obtain ⟨type, primitive, made⟩ := Accepted.bind_iff.1 made
  obtain rfl := Except.ok.inj made
  intro port hp
  obtain rfl := List.mem_singleton.1 hp
  cases value <;> simp only [literalType, Except.ok.injEq, reduceCtorEq] at primitive <;>
    subst primitive <;> rfl

private theorem shaped_compare : Shaped compare.behavior := by
  have same : compare.behavior.ports = fun config _ =>
      if (comparison? (operator.value config)).isSome then .ok (numberPorts 0 0 .boolean)
      else .error (.invalidConfig s!"unknown operator '{operator.value config}'") := rfl
  refine .plain same fun config ports made => ?_
  split at made
  · obtain rfl := Except.ok.inj made
    exact by decide
  · simp at made

private theorem all_shaped {type : NodeType} (h : type ∈ all) : Shaped type.behavior := by
  simp only [all, List.mem_cons, List.not_mem_nil, or_false] at h
  rcases h with rfl | rfl | rfl | rfl | rfl | rfl | rfl | rfl | rfl | rfl | rfl | rfl | rfl | rfl |
    rfl | rfl | rfl | rfl | rfl | rfl | rfl | rfl | rfl | rfl | rfl
  · exact .fixed rfl (by decide)
  · exact .fixed rfl (by decide)
  · exact .fixed rfl (by decide)
  · exact .setting elementType _ rfl (fun type => ⟨_, .tail _ (.head _), rfl⟩)
      (by simp [valuePort, Port.signal, DataType.schema?])
  · exact shaped_sequence
  · exact .fixed rfl (by decide)
  · exact .fixed rfl (by decide)
  · exact shaped_constant
  · exact .setting typeName _ rfl (fun type => ⟨_, .head _, rfl⟩) (by simp [valuePort])
  · exact .setting typeName _ rfl (fun type => ⟨_, .tail _ (.head _), rfl⟩)
      (by simp [valuePort, Port.signal, DataType.schema?])
  · exact .fixed rfl (by decide)
  · exact .fixed rfl (by decide)
  · exact .fixed rfl (by decide)
  · exact .fixed rfl (by decide)
  · exact .fixed rfl (by decide)
  · exact shaped_compare
  · exact .fixed rfl (by decide)
  · exact .fixed rfl (by decide)
  · exact .fixed rfl (by decide)
  · exact .fixed rfl (by decide)
  · exact .setting shownType _ rfl (fun type => ⟨_, .head _, rfl⟩)
      (by simp [valuePort, DataType.schema?])
  · exact .setting listElement _ rfl (fun type => ⟨_, .head _, rfl⟩)
      (by simp [valuePort, DataType.schema?])
  · exact .setting listElement _ rfl (fun type => ⟨_, .head _, rfl⟩)
      (by simp [valuePort, defaultPort, DataType.schema?])
  · exact .setting listElement _ rfl (fun type => ⟨_, .head _, rfl⟩)
      (by simp [valuePort, DataType.schema?])
  · exact .getField

end Catalog

def Registry.Steady (registry : Registry) : Prop :=
  ∀ id behavior, registry.behavior? id = some behavior → behavior.Steady

/-- The ports of all types hold no structs but known ones. -/
def Registry.Drawn (registry : Registry) : Prop :=
  ∀ id behavior, registry.behavior? id = some behavior → behavior.Drawn

private theorem Registry.builtin_shaped {id : String} {behavior : Behavior}
    (found : builtin.behavior? id = some behavior) : Catalog.Shaped behavior := by
  obtain ⟨type, registered, rfl⟩ := Option.map_eq_some_iff.1 found
  exact Catalog.all_shaped (mem_of_find? registered).1

theorem Registry.builtin_steady : builtin.Steady := by
  intro _ _ found
  exact (builtin_shaped found).steady

theorem Registry.builtin_drawn : builtin.Drawn := by
  intro _ _ found
  exact (builtin_shaped found).drawn

end NodeScript
