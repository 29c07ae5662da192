import NodeScript.Proofs.Format.RoundTrip
import NodeScript.Proofs.Graph.Ordered

/-!
Definitions by the names of the structs that they mention. Of definitions that are shown alike the
bytes tell those that are the same by name (`Schema.discerns_encode`, `Signature.discerns_encode`),
and so do the names alone where no other type is shown by the name of a struct
(`Schema.nominal_eq`, `Signature.nominal_eq`). Definitions that are known and in order are known by
name (`Schema.eq_of_nominal`, `Signature.eq_of_nominal`).
-/

set_option autoImplicit false
set_option relaxedAutoImplicit false

namespace NodeScript

open Format NodeScript.Graph Schema

def Format.Discerns {α β κ : Type} (shown : α → β) (key : α → κ) (encode : α → Bytes) : Prop :=
  ∀ ⦃a b : α⦄ ⦃rest rest' : Bytes⦄, shown a = shown b → encode a ++ rest = encode b ++ rest' →
    key a = key b ∧ rest = rest'

namespace DataType

def nominal : DataType → DataType
  | list element => list element.nominal
  | struct name _ => struct name []
  | type => type

theorem displayName_list_inj {type other : DataType}
    (same : (list type).displayName = (list other).displayName) :
    type.displayName = other.displayName := by
  have letters := congrArg String.toList same
  exact String.toList_inj.1 (by simpa [displayName] using letters)

/-- Types that are shown alike differ in their tags unless they are the same by name. -/
theorem discerns_encode : Discerns displayName nominal encode := by
  intro type
  induction type using displayName.induct with
  | case6 element ih =>
    intro other rest rest' shown same
    cases other with
    | list element' =>
      obtain ⟨inner, behind⟩ := ih (displayName_list_inj shown) (List.cons.inj same).2
      exact ⟨congrArg list inner, behind⟩
    -- A struct may be named like the list, but it has another tag.
    | _ => simp [encode] at same
  | case7 name fields =>
    intro other rest rest' shown same
    cases other with
    | struct name' fields' =>
      obtain rfl : name = name' := shown
      exact ⟨rfl, List.append_cancel_left same⟩
    | _ => simp [encode] at same
  | _ =>
    intro other rest rest' shown same
    cases other <;> simp_all [encode, nominal]

/-- A known type is known by name. -/
theorem eq_of_nominal {known : List Schema} {type other : DataType} (here : type.IsKnown known)
    (there : other.IsKnown known) (same : type.nominal = other.nominal) : type = other := by
  induction type using displayName.induct generalizing other with
  | case6 element ih =>
    cases other with
    | list element' => exact congrArg list (ih here there (list.inj same))
    | _ => simp [nominal] at same
  | case7 name fields =>
    cases other with
    | struct name' fields' =>
      obtain rfl : name = name' := (struct.inj same).1
      have found := (here ⟨name, fields⟩ rfl).symm.trans (there ⟨name, fields'⟩ rfl)
      exact congrArg Schema.type (Option.some.inj found)
    | _ => simp [nominal] at same
  | _ => cases other <;> simp_all [nominal]

/-- No other type is shown by the name of a struct. -/
def ToldBy (names : List String) : Prop :=
  ∀ type : DataType, type.IsNamed names → type.displayName ∈ names →
    ∃ name fields, type = struct name fields

theorem toldBy_of_plain {names : List String}
    (plain : ∀ name ∈ names, name ∉ ["signal", "number", "text", "boolean", "player"] ∧
      ¬"list<".toList <+: name.toList) : ToldBy names := by
  intro type _ member
  obtain ⟨word, spelled⟩ := plain _ member
  cases type with
  | struct name fields => exact ⟨name, fields, rfl⟩
  | list element =>
    rw [displayName, String.toList_append, String.toList_append, List.append_assoc] at spelled
    exact absurd (List.prefix_append _ _) spelled
  | _ => simp [displayName] at word

theorem head?_displayName_list (element : DataType) :
    (list element).displayName.toList.head? = some 'l' := by
  simp [displayName]

theorem nominal_eq_of_displayName {names : List String} (told : ToldBy names)
    {type other : DataType} (here : type.IsNamed names) (there : other.IsNamed names)
    (shown : type.displayName = other.displayName) : type.nominal = other.nominal := by
  induction type using displayName.induct generalizing other with
  | case6 element ih =>
    cases other with
    | list element' => exact congrArg list (ih here there (displayName_list_inj shown))
    | struct name fields =>
      have known : (struct name fields).displayName ∈ names := there ⟨name, fields⟩ rfl
      rw [← shown] at known
      obtain ⟨_, _, ⟨⟩⟩ := told (list element) here known
    | _ =>
      have first := head?_displayName_list element
      rw [shown] at first
      simp [displayName] at first
  | case7 name fields =>
    -- The other type is shown by the name of a known struct, which only structs are.
    have known : (struct name fields).displayName ∈ names := here ⟨name, fields⟩ rfl
    rw [shown] at known
    obtain ⟨name', fields', rfl⟩ := told other there known
    obtain rfl : name = name' := shown
    rfl
  | _ =>
    cases other with
    | list element =>
      have first := head?_displayName_list element
      rw [← shown] at first
      simp [displayName] at first
    | struct name fields =>
      have known : (struct name fields).displayName ∈ names := there ⟨name, fields⟩ rfl
      rw [← shown] at known
      obtain ⟨_, _, ⟨⟩⟩ := told _ here known
    | _ => simp_all [displayName, nominal]

end DataType

namespace Format.Discerns

variable {α β κ : Type} {shown : α → β} {key : α → κ} {encode : α → Bytes}

theorem flatMap (each : Discerns shown key encode) :
    Discerns (List.map shown) (List.map key) (List.flatMap encode) := by
  intro items items' rest rest' alike same
  induction items generalizing items' with
  | nil =>
    obtain rfl := List.map_eq_nil_iff.1 alike.symm
    exact ⟨rfl, same⟩
  | cons a items ih =>
    cases items' with
    | nil => simp at alike
    | cons b items' =>
      obtain ⟨first, others⟩ := List.cons.inj alike
      rw [List.flatMap_cons, List.flatMap_cons, List.append_assoc, List.append_assoc] at same
      obtain ⟨head, behind⟩ := each first same
      obtain ⟨tail, behind⟩ := ih others behind
      exact ⟨congrArg₂ List.cons head tail, behind⟩

/-- As many things begin with the same number. -/
theorem many (each : Discerns shown key encode) :
    Discerns (List.map shown) (List.map key) (Encode.many encode) := by
  intro items items' rest rest' alike same
  have length : items.length = items'.length := by simpa using congrArg List.length alike
  rw [Encode.many, Encode.many, length, List.append_assoc, List.append_assoc] at same
  exact each.flatMap alike (List.append_cancel_left same)

/-- A table that is left out has no things in it. -/
theorem table (each : Discerns shown key encode) {items items' : List α} {rest rest' : Bytes}
    {written : Prop} [Decidable written] (absent : ¬written → items = [] ∧ items' = [])
    (alike : items.map shown = items'.map shown)
    (same : (if written then Encode.many encode items else []) ++ rest =
      (if written then Encode.many encode items' else []) ++ rest') :
    items.map key = items'.map key ∧ rest = rest' := by
  by_cases here : written
  · rw [if_pos here, if_pos here] at same
    exact each.many alike same
  · rw [if_neg here, if_neg here] at same
    obtain ⟨rfl, rfl⟩ := absent here
    exact ⟨rfl, same⟩

end Format.Discerns

def Field.nominal (field : Field) : Field := (field.name, field.type.nominal)

theorem Field.discerns_encode : Discerns Summary.Entry.ofField nominal encodeField := by
  rintro ⟨name, type⟩ ⟨name', type'⟩ rest rest' shown same
  obtain ⟨rfl, shown⟩ := Summary.Entry.mk.inj shown
  simp only [encodeField, List.append_assoc] at same
  obtain ⟨type, behind⟩ := DataType.discerns_encode shown (List.append_cancel_left same)
  exact ⟨congrArg (Prod.mk name) type, behind⟩

namespace Schema

/-- What there is to see of a struct. -/
def shown (schema : Schema) : String × List Summary.Entry :=
  (schema.name, schema.fields.map .ofField)

def nominal (schema : Schema) : Schema := ⟨schema.name, schema.fields.map Field.nominal⟩

theorem discerns_encode : Discerns shown nominal encodeSchema := by
  rintro ⟨name, fields⟩ ⟨name', fields'⟩ rest rest' alike same
  obtain ⟨rfl, alike⟩ := Prod.mk.inj alike
  have length : fields.length = fields'.length := by simpa using congrArg List.length alike
  simp only [encodeSchema, length, List.append_assoc, List.cons_append] at same
  obtain ⟨each, behind⟩ := Field.discerns_encode.flatMap alike
    (List.cons.inj (List.append_cancel_left same)).2
  exact ⟨congrArg (Schema.mk name) each, behind⟩

end Schema

namespace Signature

/-- What there is to see of a function. -/
def shown (signature : Signature) : String × List Summary.Entry × List Summary.Entry :=
  (signature.name, signature.inputs.map .ofField, signature.outputs.map .ofField)

def nominal (signature : Signature) : Signature :=
  ⟨signature.name, signature.inputs.map Field.nominal, signature.outputs.map Field.nominal⟩

theorem discerns_encode : Discerns shown nominal encodeSignature := by
  rintro ⟨name, inputs, outputs⟩ ⟨name', inputs', outputs'⟩ rest rest' alike same
  obtain ⟨rfl, alike⟩ := Prod.mk.inj alike
  obtain ⟨inputsAlike, outputsAlike⟩ := Prod.mk.inj alike
  simp only [encodeSignature, List.append_assoc] at same
  obtain ⟨inputsSame, behind⟩ :=
    Field.discerns_encode.many inputsAlike (List.append_cancel_left same)
  obtain ⟨outputsSame, behind⟩ := Field.discerns_encode.many outputsAlike behind
  exact ⟨congrArg₂ (Signature.mk name) inputsSame outputsSame, behind⟩

end Signature

theorem Field.map_nominal_eq {names : List String} (told : DataType.ToldBy names)
    {fields fields' : List Field} (here : ∀ field ∈ fields, field.type.IsNamed names)
    (there : ∀ field ∈ fields', field.type.IsNamed names)
    (shown : fields.map Summary.Entry.ofField = fields'.map Summary.Entry.ofField) :
    fields.map nominal = fields'.map nominal := by
  refine map_eq_map shown fun field hf field' hf' same => ?_
  obtain ⟨name, type⟩ := Summary.Entry.mk.inj same
  exact Prod.ext name
    (DataType.nominal_eq_of_displayName told (here field hf) (there field' hf') type)

theorem Schema.nominal_eq {names : List String} (told : DataType.ToldBy names)
    {schema other : Schema} (here : schema.FieldsNamed names) (there : other.FieldsNamed names)
    (same : schema.shown = other.shown) : schema.nominal = other.nominal := by
  obtain ⟨name, fields⟩ := Prod.mk.inj same
  exact congrArg₂ Schema.mk name (Field.map_nominal_eq told here there fields)

theorem Signature.nominal_eq {names : List String} (told : DataType.ToldBy names)
    {signature other : Signature} (here : ∀ type ∈ signature.types, type.IsNamed names)
    (there : ∀ type ∈ other.types, type.IsNamed names) (same : signature.shown = other.shown) :
    signature.nominal = other.nominal := by
  simp only [types, List.map_append, List.forall_mem_append, List.forall_mem_map] at here there
  obtain ⟨name, both⟩ := Prod.mk.inj same
  obtain ⟨inputs, outputs⟩ := Prod.mk.inj both
  rw [nominal, nominal, name, Field.map_nominal_eq told here.1 there.1 inputs,
    Field.map_nominal_eq told here.2 there.2 outputs]

theorem Field.eq_of_nominal {known : List Schema} {field other : Field}
    (here : field.type.IsKnown known) (there : other.type.IsKnown known)
    (same : field.nominal = other.nominal) : field = other := by
  obtain ⟨name, type⟩ := Prod.mk.inj same
  exact Prod.ext name (DataType.eq_of_nominal here there type)

theorem Field.map_eq_of_nominal {known : List Schema} {fields fields' : List Field}
    (here : ∀ field ∈ fields, field.type.IsKnown known)
    (there : ∀ field ∈ fields', field.type.IsKnown known)
    (same : fields.map nominal = fields'.map nominal) : fields = fields' := by
  have each : fields.map id = fields'.map id := map_eq_map same fun field hf field' hf' same =>
    eq_of_nominal (here field hf) (there field' hf') same
  rwa [List.map_id, List.map_id] at each

/-- Structs in order are known by name: each one's fields hold structs that stand before it. -/
theorem Schema.eq_of_nominal {before rest rest' : List Schema} {names : List String}
    (written : ∀ name ∈ names, name ∈ before.map (·.name))
    (ordered : Ordered names rest) (ordered' : Ordered names rest')
    (known : ∀ schema ∈ rest, ∀ field ∈ schema.fields, field.type.IsKnown (before ++ rest))
    (known' : ∀ schema ∈ rest', ∀ field ∈ schema.fields, field.type.IsKnown (before ++ rest'))
    (same : rest.map nominal = rest'.map nominal) : rest = rest' := by
  induction rest generalizing before names rest' with
  | nil => exact (List.map_eq_nil_iff.1 same.symm).symm
  | cons schema rest ih =>
    cases rest' with
    | nil => simp at same
    | cons schema' rest' =>
      obtain ⟨first, others⟩ := List.cons.inj same
      have earlier {schema : Schema} {after : List Schema} (named : schema.FieldsNamed names)
          (known : ∀ field ∈ schema.fields, field.type.IsKnown (before ++ after)) :
          ∀ field ∈ schema.fields, field.type.IsKnown before := fun field hf =>
        isKnown_of_append (known field hf) fun held hh => written _ (named field hf held hh)
      -- The fields hold structs among those before, which are the same on both sides.
      obtain ⟨name, fields⟩ := schema
      obtain ⟨name', fields'⟩ := schema'
      obtain ⟨rfl, nominals⟩ := Schema.mk.inj first
      obtain rfl : fields = fields' := Field.map_eq_of_nominal
        (earlier ordered.1 (known _ List.mem_cons_self))
        (earlier ordered'.1 (known' _ List.mem_cons_self)) nominals
      have moved {after : List Schema} : before ++ ⟨name, fields⟩ :: after =
          before ++ [⟨name, fields⟩] ++ after := List.append_cons ..
      rw [moved] at known known'
      refine congrArg (List.cons _) (ih (fun other member => ?_) ordered.2 ordered'.2
        (fun schema hs => known schema (List.mem_cons_of_mem _ hs))
        (fun schema hs => known' schema (List.mem_cons_of_mem _ hs)) others)
      rw [List.map_append, List.mem_append]
      rcases List.mem_cons.1 member with rfl | member
      · exact .inr (List.mem_singleton_self _)
      · exact .inl (written _ member)

theorem Signature.eq_of_nominal {known : List Schema} {signature other : Signature}
    (here : ∀ type ∈ signature.types, type.IsKnown known)
    (there : ∀ type ∈ other.types, type.IsKnown known)
    (same : signature.nominal = other.nominal) : signature = other := by
  obtain ⟨name, inputs, outputs⟩ := signature
  obtain ⟨name', inputs', outputs'⟩ := other
  simp only [types, List.map_append, List.forall_mem_append, List.forall_mem_map] at here there
  obtain ⟨rfl, inputsSame, outputsSame⟩ := Signature.mk.inj same
  obtain rfl := Field.map_eq_of_nominal here.1 there.1 inputsSame
  obtain rfl := Field.map_eq_of_nominal here.2 there.2 outputsSame
  rfl

end NodeScript
