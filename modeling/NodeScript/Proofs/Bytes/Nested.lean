import NodeScript.DataType.Binary
import NodeScript.Proofs.Bytes.Codec
import NodeScript.Value.Binary

/-!
Types and values are read back from their bytes as long as they are not nested too deeply.
`DataType.levels` and `Value.levels` count what the reader counts. Main statements: `Value.reads`
and `DataType.reads`, which say what is read and when nothing is.
-/

set_option autoImplicit false
set_option relaxedAutoImplicit false

namespace NodeScript

open Decode

private theorem reads_tagged {α : Type} {tag : UInt8} {bytes : Bytes} {next : UInt8 → Decode α}
    {answer : Option α} (reads : Reads (next tag) bytes answer) :
    Reads (Decode.byte >>= next) (tag :: bytes) answer :=
  (Reads.byte tag).andThen reads

namespace Value

mutual

/-- The depth of nesting of a value. -/
def levels : Value → Nat
  | list items => levelsOfItems items + 1
  | struct _ fields => levelsOfFields fields + 1
  | _ => 1

def levelsOfItems : List Value → Nat
  | [] => 0
  | v :: vs => max v.levels (levelsOfItems vs)

def levelsOfFields : List (String × Value) → Nat
  | [] => 0
  | (_, v) :: fs => max v.levels (levelsOfFields fs)

end

mutual

/-- The format can hold the lengths in a value. -/
def CountsFit : Value → Prop
  | number _ | boolean _ => True
  | text s | player s => IsCount s.utf8ByteSize
  | list items => IsCount items.length ∧ ItemsFit items
  | struct name fields =>
    IsCount name.utf8ByteSize ∧ IsCount fields.length ∧ FieldsFit fields

def ItemsFit : List Value → Prop
  | [] => True
  | v :: vs => v.CountsFit ∧ ItemsFit vs

def FieldsFit : List (String × Value) → Prop
  | [] => True
  | (name, v) :: fs => IsCount name.utf8ByteSize ∧ v.CountsFit ∧ FieldsFit fs

end

mutual

def decidableCountsFit : (v : Value) → Decidable v.CountsFit
  | number _ | boolean _ => .isTrue trivial
  | text s | player s => inferInstanceAs (Decidable (IsCount s.utf8ByteSize))
  | list items =>
    have := decidableItemsFit items
    inferInstanceAs (Decidable (IsCount items.length ∧ ItemsFit items))
  | struct name fields =>
    have := decidableFieldsFit fields
    inferInstanceAs
      (Decidable (IsCount name.utf8ByteSize ∧ IsCount fields.length ∧ FieldsFit fields))

def decidableItemsFit : (items : List Value) → Decidable (ItemsFit items)
  | [] => .isTrue trivial
  | v :: vs =>
    have := decidableCountsFit v
    have := decidableItemsFit vs
    inferInstanceAs (Decidable (v.CountsFit ∧ ItemsFit vs))

def decidableFieldsFit : (fields : List (String × Value)) → Decidable (FieldsFit fields)
  | [] => .isTrue trivial
  | (name, v) :: fs =>
    have := decidableCountsFit v
    have := decidableFieldsFit fs
    inferInstanceAs (Decidable (IsCount name.utf8ByteSize ∧ v.CountsFit ∧ FieldsFit fs))

end

instance : DecidablePred CountsFit := decidableCountsFit

theorem encodeItems_eq (items : List Value) : encodeItems items = items.flatMap encode := by
  induction items with
  | nil => rfl
  | cons v vs ih => rw [encodeItems, ih, List.flatMap_cons]

/-- The bytes of a field of a struct. -/
def encodeField (field : String × Value) : Bytes := Encode.text field.1 ++ field.2.encode

theorem encodeFields_eq (fields : List (String × Value)) :
    encodeFields fields = fields.flatMap encodeField := by
  induction fields with
  | nil => rfl
  | cons field fs ih => rw [encodeFields, ih, List.flatMap_cons, encodeField]

/-- The value, if it is not nested deeper than that many levels. -/
def within (n : Nat) (v : Value) : Option Value := if v.levels ≤ n then some v else none

def fieldWithin (n : Nat) (field : String × Value) : Option (String × Value) :=
  (within n field.2).map (field.1, ·)

theorem mapM_within (n : Nat) (items : List Value) :
    items.mapM (within n) = if levelsOfItems items ≤ n then some items else none := by
  induction items with
  | nil => simp [levelsOfItems]
  | cons v vs ih =>
    simp only [List.mapM_cons, ih, within, levelsOfItems, Nat.max_le]
    by_cases hv : v.levels ≤ n <;> by_cases hvs : levelsOfItems vs ≤ n <;> simp [hv, hvs]

theorem mapM_fieldWithin (n : Nat) (fields : List (String × Value)) :
    fields.mapM (fieldWithin n) = if levelsOfFields fields ≤ n then some fields else none := by
  induction fields with
  | nil => simp [levelsOfFields]
  | cons field fs ih =>
    simp only [List.mapM_cons, ih, fieldWithin, within, levelsOfFields, Nat.max_le]
    by_cases hv : field.2.levels ≤ n <;> by_cases hfs : levelsOfFields fs ≤ n <;> simp [hv, hfs]

mutual

theorem reads : ∀ (v : Value), v.CountsFit → ∀ n, Reads (decodeWithin n) v.encode (v.within n)
  | v, fit, 0 => by
    have deep : v.within 0 = none := by
      cases v <;> simp [within, levels]
    rw [deep]
    exact Reads.throw _ _
  | number d, _, n + 1 => by
    have shallow : (number d).within (n + 1) = (some d).map number := by simp [within, levels]
    rw [shallow]
    exact reads_tagged (Reads.double d).map
  | text s, fit, n + 1 => by
    have shallow : (text s).within (n + 1) = (some s).map text := by simp [within, levels]
    rw [shallow]
    exact reads_tagged (Reads.text fit).map
  | boolean b, _, n + 1 => by
    have shallow : (boolean b).within (n + 1) = (some b).map boolean := by simp [within, levels]
    rw [shallow]
    exact reads_tagged (Reads.bool b).map
  | player s, fit, n + 1 => by
    have shallow : (player s).within (n + 1) = (some s).map player := by simp [within, levels]
    rw [shallow]
    exact reads_tagged (Reads.text fit).map
  | list items, fit, n + 1 => by
    have bytes : (list items).encode = 5 :: Encode.many encode items := by
      rw [encode, encodeItems_eq, Encode.many, List.cons_append]
    have answer : (list items).within (n + 1) = (items.mapM (within n)).map list := by
      rw [mapM_within, within, levels]
      by_cases h : levelsOfItems items ≤ n <;> simp [h]
    rw [bytes, answer]
    exact reads_tagged (Reads.many fit.1 (readsItems items fit.2 n)).map
  | struct name fields, fit, n + 1 => by
    have bytes : (struct name fields).encode =
        6 :: (Encode.text name ++ Encode.many encodeField fields) := by
      rw [encode, encodeFields_eq, Encode.many, List.cons_append, List.cons_append,
        List.append_assoc]
    have answer : (struct name fields).within (n + 1) =
        (fields.mapM (fieldWithin n)).map (struct name) := by
      rw [mapM_fieldWithin, within, levels]
      by_cases h : levelsOfFields fields ≤ n <;> simp [h]
    rw [bytes, answer]
    exact reads_tagged ((Reads.text fit.1).andThen
      (Reads.many fit.2.1 (readsFields fields fit.2.2 n)).map)

theorem readsItems : ∀ (items : List Value), ItemsFit items → ∀ n, ∀ v ∈ items,
    Reads (decodeWithin n) v.encode (v.within n)
  | [], _, _ => fun v hv => by simp at hv
  | v :: vs, fit, n => fun w hw => by
    rcases List.mem_cons.1 hw with hw | hw
    · rw [hw]
      exact reads v fit.1 n
    · exact readsItems vs fit.2 n w hw

theorem readsFields : ∀ (fields : List (String × Value)), FieldsFit fields → ∀ n,
    ∀ field ∈ fields, Reads (do return (← Decode.text, ← decodeWithin n)) (encodeField field)
      (fieldWithin n field)
  | [], _, _ => fun field hf => by simp at hf
  | (name, v) :: fs, fit, n => fun field hf => by
    rcases List.mem_cons.1 hf with hf | hf
    · subst hf
      exact (Reads.text fit.1).andThen (reads v fit.2.1 n).map
    · exact readsFields fs fit.2.2 n field hf

end

theorem levelsOfItems_le {n : Nat} {items : List Value} (each : ∀ v ∈ items, v.levels ≤ n) :
    levelsOfItems items ≤ n := by
  induction items with
  | nil => exact Nat.zero_le n
  | cons v vs ih =>
    rw [List.forall_mem_cons] at each
    exact Nat.max_le.2 ⟨each.1, ih each.2⟩

theorem levelsOfFields_le {n : Nat} {fields : List (String × Value)}
    (each : ∀ field ∈ fields, field.2.levels ≤ n) : levelsOfFields fields ≤ n := by
  induction fields with
  | nil => exact Nat.zero_le n
  | cons field fields ih =>
    rw [List.forall_mem_cons] at each
    exact Nat.max_le.2 ⟨each.1, ih each.2⟩

theorem levels_of_decodeWithin {n : Nat} {v : Value} (given : Gives (decodeWithin n) v) :
    v.levels ≤ n := by
  induction n generalizing v with
  | zero => exact absurd given Gives.not_throw
  | succ n ih =>
    obtain ⟨tag, -, given⟩ := given.of_bind
    split at given
    case h_5 =>
      obtain ⟨items, each, given⟩ := given.of_bind
      obtain rfl := given.of_pure
      exact Nat.succ_le_succ (levelsOfItems_le fun v mem => ih (each.of_many v mem))
    case h_6 =>
      obtain ⟨name, -, given⟩ := given.of_bind
      obtain ⟨fields, each, given⟩ := given.of_bind
      obtain rfl := given.of_pure
      refine Nat.succ_le_succ (levelsOfFields_le fun field mem => ?_)
      obtain ⟨key, -, given⟩ := (each.of_many field mem).of_bind
      obtain ⟨v, inner, given⟩ := given.of_bind
      obtain rfl := given.of_pure
      exact ih inner
    case h_7 => exact absurd given Gives.not_throw
    all_goals
      obtain ⟨_, -, given⟩ := given.of_bind
      obtain rfl := given.of_pure
      exact Nat.succ_le_succ (Nat.zero_le n)

end Value

namespace DataType

/-- The depth of nesting of a type. The fields of a struct do not count, since a struct is written
by its name. -/
def levels : DataType → Nat
  | list element => element.levels + 1
  | _ => 1

/-- The format can hold the lengths in a type. -/
def CountsFit : DataType → Prop
  | list element => element.CountsFit
  | struct name _ => IsCount name.utf8ByteSize
  | _ => True

instance decidableCountsFit : DecidablePred CountsFit
  | list element => decidableCountsFit element
  | struct name _ => inferInstanceAs (Decidable (IsCount name.utf8ByteSize))
  | signal | number | text | boolean | player => .isTrue trivial

/-- What is read for a type where the given structs are known: the struct that has its name now,
and nothing where there is none or the nesting is too deep. -/
def reread (known : List Schema) : Nat → DataType → Option DataType
  | 0, _ => none
  | n + 1, list element => (reread known n element).map list
  | _ + 1, struct name _ => (Schema.find? known name).map Schema.type
  | _ + 1, type => some type

theorem reread_isSome_iff {known : List Schema} {n : Nat} {type : DataType} :
    (type.reread known n).isSome ↔ type.levels ≤ n ∧
      ∀ schema, type.schema? = some schema → (Schema.find? known schema.name).isSome := by
  induction n generalizing type with
  | zero => cases type <;> simp [reread, levels]
  | succ n ih => cases type <;> simp [reread, levels, schema?, ih]

theorem reread_eq_some {known : List Schema} {n : Nat} {type : DataType} (shallow : type.levels ≤ n)
    (current : ∀ schema, type.schema? = some schema →
      Schema.find? known schema.name = some schema) : type.reread known n = some type := by
  induction n generalizing type with
  | zero => cases type <;> simp [levels] at shallow
  | succ n ih =>
    cases type with
    | list element =>
      have inner : element.reread known n = some element :=
        ih (Nat.le_of_succ_le_succ shallow) current
      rw [reread, inner, Option.map_some]
    | struct name fields =>
      rw [reread, current ⟨name, fields⟩ rfl]
      rfl
    | _ => rfl

theorem reads (known : List Schema) : ∀ (type : DataType), type.CountsFit → ∀ n,
    Reads (decodeWithin known n) type.encode (type.reread known n)
  | type, _, 0 => by
    have deep : type.reread known 0 = none := by cases type <;> rfl
    rw [deep]
    exact Reads.throw _ _
  | signal, _, _ + 1 => reads_tagged (Reads.pure signal)
  | number, _, _ + 1 => reads_tagged (Reads.pure number)
  | text, _, _ + 1 => reads_tagged (Reads.pure text)
  | boolean, _, _ + 1 => reads_tagged (Reads.pure boolean)
  | player, _, _ + 1 => reads_tagged (Reads.pure player)
  | list element, fit, n + 1 => by
    have element := (reads known element fit n).map (f := list)
    rw [decodeWithin]
    exact reads_tagged element
  | struct name fields, fit, n + 1 => by
    have bytes : (struct name fields).encode = 6 :: (Encode.text name ++ []) := by
      rw [encode, List.append_nil]
    rw [bytes, decodeWithin]
    refine reads_tagged ((Reads.text fit).andThen ?_)
    rw [reread]
    cases Schema.find? known name with
    | none => exact Reads.throw _ _
    | some schema => exact Reads.pure _

theorem levels_of_decodeWithin {known : List Schema} {n : Nat} {type : DataType}
    (given : Gives (decodeWithin known n) type) : type.levels ≤ n := by
  induction n generalizing type with
  | zero => exact absurd given Gives.not_throw
  | succ n ih =>
    obtain ⟨tag, -, given⟩ := given.of_bind
    split at given
    case h_6 =>
      obtain ⟨element, inner, given⟩ := given.of_bind
      obtain rfl := given.of_pure
      exact Nat.succ_le_succ (ih inner)
    case h_7 =>
      obtain ⟨name, -, given⟩ := given.of_bind
      split at given
      · obtain rfl := given.of_pure
        exact Nat.succ_le_succ (Nat.zero_le n)
      · exact absurd given Gives.not_throw
    case h_8 => exact absurd given Gives.not_throw
    all_goals
      obtain rfl := given.of_pure
      exact Nat.succ_le_succ (Nat.zero_le n)

end DataType

end NodeScript
