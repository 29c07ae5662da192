import NodeScript.Proofs.Bytes.Spelled
import NodeScript.Proofs.Format.Truncated

/-!
Types as they are read where structs are looked up in any way, and as they are copied, which looks
nothing up. Main statement: `DataType.decode_resolves`: a type is read back with the struct that its
name stands for, and a copy takes and writes the bytes that a read takes, and stops where a read
does.
-/

set_option autoImplicit false
set_option relaxedAutoImplicit false

namespace NodeScript

open Decode

namespace Decode

variable {α β γ : Type}

def EndAlike (read : Decode α) (read' : Decode β) (c : Cursor) : Prop :=
  (∃ a b c', read.runAt c = (.ok a, c') ∧ read'.runAt c = (.ok b, c')) ∨
    ∃ e c', read.runAt c = (.error e, c') ∧ read'.runAt c = (.error e, c')

namespace EndAlike

theorem pure (a : α) (b : β) (c : Cursor) :
    EndAlike (Pure.pure a : Decode α) (Pure.pure b : Decode β) c := by
  exact .inl ⟨a, b, c, rfl, rfl⟩

theorem throw (e : DecodeError) (c : Cursor) :
    EndAlike (throw e : Decode α) (throw e : Decode β) c := by
  exact .inr ⟨e, c, rfl, rfl⟩

/-- What begins with the same read ends alike if it goes on alike. -/
theorem after {read : Decode γ} {next : γ → Decode α} {next' : γ → Decode β} {c : Cursor}
    (rest : ∀ a c', read.runAt c = (.ok a, c') → EndAlike (next a) (next' a) c') :
    EndAlike (read >>= next) (read >>= next') c := by
  unfold EndAlike
  rw [runAt_bind, runAt_bind]
  rcases found : read.runAt c with ⟨e | a, c'⟩
  · exact .inr ⟨e, c', rfl, rfl⟩
  · exact rest a c' found

theorem symm {read : Decode α} {read' : Decode β} {c : Cursor} (alike : EndAlike read read' c) :
    EndAlike read' read c := by
  rcases alike with ⟨a, b, c', found, found'⟩ | ⟨e, c', stopped, stopped'⟩
  · exact .inl ⟨b, a, c', found', found⟩
  · exact .inr ⟨e, c', stopped', stopped⟩

theorem map {read : Decode α} {read' : Decode β} {c : Cursor} (f : α → γ)
    (alike : EndAlike read read' c) : EndAlike (do return f (← read)) read' c := by
  unfold EndAlike
  rw [runAt_bind]
  rcases alike with ⟨a, b, c', found, found'⟩ | ⟨e, c', stopped, stopped'⟩
  · rw [found]
    exact .inl ⟨f a, b, c', rfl, found'⟩
  · rw [stopped]
    exact .inr ⟨e, c', rfl, stopped'⟩

end EndAlike

end Decode

namespace DataType

/-- Reads a type of at most the given number of levels, where structs are looked up by name. -/
def decodeThrough (lookup : String → Option Schema) : Nat → Decode DataType
  | 0 => throw .tooDeep
  | levels + 1 => do
    let tag ← Decode.byte
    match tag.toNat with
    | 0 => return signal
    | 1 => return number
    | 2 => return text
    | 3 => return boolean
    | 4 => return player
    | 5 => return list (← decodeThrough lookup levels)
    | 6 =>
      let name ← Decode.text
      match lookup name with
      | some schema => return schema.type
      | none => throw (.unknownStruct name)
    | _ => throw (.unknownTypeTag tag)

theorem decodeWithin_eq (known : List Schema) (n : Nat) :
    decodeWithin known n = decodeThrough (Schema.find? known) n := by
  induction n with
  | zero => rfl
  | succ n ih =>
    rw [decodeWithin, ih]
    rfl

variable {lookup : String → Option Schema}

/-- The type with the struct that the name of its struct stands for. -/
def resolve (lookup : String → Option Schema) : DataType → Except DecodeError DataType
  | list element => (element.resolve lookup).map list
  | struct name _ =>
    match lookup name with
    | some schema => .ok schema.type
    | none => .error (.unknownStruct name)
  | type => .ok type

private theorem runAt_tagged {α : Type} (tag : UInt8) (next : UInt8 → Decode α) (rest : Bytes)
    (offset : Nat) : (Decode.byte >>= next).runAt ⟨tag :: rest, offset⟩ =
      (next tag).runAt ⟨rest, offset + 1⟩ := by
  have read := (Reads.byte tag).gives tag rfl rest offset
  rw [List.singleton_append] at read
  rw [runAt_bind, read]
  rfl

theorem runAt_decodeThrough {type : DataType} (fit : type.CountsFit) {n : Nat}
    (shallow : type.levels ≤ n) (rest : Bytes) (offset : Nat) :
    (decodeThrough lookup n).runAt ⟨type.encode ++ rest, offset⟩ =
      (type.resolve lookup, ⟨rest, offset + type.encode.length⟩) := by
  induction n generalizing type offset with
  | zero => cases type <;> simp [levels] at shallow
  | succ n ih =>
    cases type with
    | list element =>
      have inner := @ih element fit (Nat.le_of_succ_le_succ shallow) (offset + 1)
      rw [encode, List.cons_append, decodeThrough, runAt_tagged]
      show (do return list (← decodeThrough lookup n)).runAt _ = _
      rw [runAt_bind, inner, resolve, List.length_cons, Nat.add_comm element.encode.length,
        ← Nat.add_assoc]
      cases element.resolve lookup <;> rfl
    | struct name fields =>
      have named := (Reads.text fit).gives name rfl rest (offset + 1)
      rw [encode, List.cons_append, decodeThrough, runAt_tagged]
      show (Decode.text >>= fun name => match lookup name with
        | some schema => Pure.pure schema.type
        | none => MonadExcept.throw (.unknownStruct name)).runAt _ = _
      rw [runAt_bind, named, resolve, List.length_cons, Nat.add_comm (Encode.text name).length,
        ← Nat.add_assoc]
      dsimp only
      cases lookup name <;> rfl
    | _ => rfl

theorem runAt_decodeThrough_of_lt {type : DataType} {n : Nat} (deep : n < type.levels)
    (rest : Bytes) (offset : Nat) :
    ∃ c, (decodeThrough lookup n).runAt ⟨type.encode ++ rest, offset⟩ = (.error .tooDeep, c) := by
  induction n generalizing type offset with
  | zero => exact ⟨_, rfl⟩
  | succ n ih =>
    cases type with
    | list element =>
      obtain ⟨c, stopped⟩ := ih (Nat.lt_of_succ_lt_succ deep) (offset + 1)
      refine ⟨c, ?_⟩
      rw [encode, List.cons_append, decodeThrough, runAt_tagged]
      show (do return list (← decodeThrough lookup n)).runAt _ = _
      rw [runAt_bind, stopped]
    | _ => simp [levels] at deep

theorem spells_copiedWithin (n : Nat) :
    Spells (copiedWithin n) fun bytes taken => taken = bytes := by
  induction n with
  | zero => exact Spells.throw _ _
  | succ n ih =>
    have behind (tag : UInt8) :
        Spells (copiedBehind (copiedWithin n) tag) fun bytes taken => taken = bytes := by
      unfold copiedBehind
      split
      case h_6 => exact ih
      case h_7 =>
        refine (Spells.text.map Encode.text).imp fun bytes taken spelled => ?_
        obtain ⟨name, rfl, rfl⟩ := spelled
        rfl
      case h_8 => exact Spells.throw _ _
      all_goals exact (Spells.pure []).imp fun bytes taken spelled => spelled.2.trans spelled.1.symm
    have both := Spells.byte.bind fun tag => (behind tag).map (tag :: ·)
    refine both.imp fun bytes taken spelled => ?_
    obtain ⟨tag, _, _, rfl, ⟨_, rfl, rfl⟩, rfl⟩ := spelled
    rfl

theorem endAlike_copiedWithin (known : ∀ name, (lookup name).isSome) (n : Nat) (c : Cursor) :
    EndAlike (decodeThrough lookup n) (copiedWithin n) c := by
  induction n generalizing c with
  | zero => exact .throw _ c
  | succ n ih =>
    refine .after fun tag c' _ => ?_
    unfold copiedBehind
    generalize tag.toNat = code
    match code with
    | 0 | 1 | 2 | 3 | 4 => exact .pure _ _ c'
    | 5 => exact (((ih c').map list).symm.map (tag :: ·)).symm
    | 6 =>
      have named : EndAlike
          (do
            let name ← Decode.text
            match lookup name with
            | some schema => return schema.type
            | none => throw (.unknownStruct name))
          (do return Encode.text (← Decode.text)) c' := .after fun name c' _ => by
        obtain ⟨schema, found⟩ := Option.isSome_iff_exists.1 (known name)
        rw [found]
        exact .pure _ _ c'
      exact (named.symm.map (tag :: ·)).symm
    | _ + 7 => exact .throw _ c'

/-- A type is read back from its bytes, whatever follows them, with the struct that its name stands
for, and refused if the name stands for none; a type that is nested too deeply is refused for that.
Where every name stands for a struct, a copy of any bytes succeeds if a read of them does, and takes
and writes the bytes that the read takes; both fail for the same reason at the same place
otherwise. -/
theorem decode_resolves (lookup : String → Option Schema) :
    (∀ known, decode known = decodeThrough (Schema.find? known) maxNesting) ∧
    (∀ (type : DataType) (rest : Bytes) (offset : Nat),
      (type.levels ≤ maxNesting → type.CountsFit →
        (decodeThrough lookup maxNesting).runAt ⟨type.encode ++ rest, offset⟩ =
          (type.resolve lookup, ⟨rest, offset + type.encode.length⟩)) ∧
      (maxNesting < type.levels → ∃ c,
        (decodeThrough lookup maxNesting).runAt ⟨type.encode ++ rest, offset⟩ =
          (.error .tooDeep, c))) ∧
    ((∀ name, (lookup name).isSome) → ∀ c,
      (∃ type c' written, (decodeThrough lookup maxNesting).runAt c = (.ok type, c') ∧
        copyAt c = (.ok (), c', written) ∧ c.rest = written ++ c'.rest) ∨
      ∃ e c' written, (decodeThrough lookup maxNesting).runAt c = (.error e, c') ∧
        copyAt c = (.error e, c', written)) := by
  refine ⟨fun known => decodeWithin_eq known maxNesting, fun type rest offset => ⟨?_, ?_⟩, ?_⟩
  · intro shallow fit
    exact runAt_decodeThrough fit shallow rest offset
  · intro deep
    exact runAt_decodeThrough_of_lt deep rest offset
  · intro known c
    have writes := copyWithin_writes maxNesting c []
    rcases endAlike_copiedWithin known maxNesting c with
      ⟨type, bytes, c', found, copied⟩ | ⟨e, c', stopped, stopped'⟩
    · rw [copied] at writes
      obtain ⟨taken, split, -, rfl⟩ := spells_copiedWithin maxNesting c bytes c' copied
      exact .inl ⟨type, c', taken, found, writes, split⟩
    · rw [stopped'] at writes
      obtain ⟨written, writes⟩ := writes
      exact .inr ⟨e, c', written, stopped, writes⟩

/-- A list around a type, as many times as given. -/
def lists (type : DataType) : Nat → DataType
  | 0 => type
  | n + 1 => list (lists type n)

theorem levels_lists (type : DataType) (n : Nat) : (lists type n).levels = type.levels + n := by
  induction n with
  | zero => rfl
  | succ n ih => rw [lists, levels, ih, Nat.add_assoc]

theorem decode_resolves_bare :
    let lookup : String → Option Schema := fun name => some ⟨name, []⟩
    let points := list (struct "point" [("x", number)])
    (∀ name, (lookup name).isSome) ∧ points.levels ≤ maxNesting ∧ points.CountsFit ∧
      (decodeThrough lookup maxNesting).runAt ⟨points.encode ++ [9], 3⟩ =
        (.ok (list (struct "point" [])), ⟨[9], 14⟩) ∧
      maxNesting < (lists number 64).levels ∧
      (∃ c, (decodeThrough lookup maxNesting).runAt ⟨(lists number 64).encode ++ [], 0⟩ =
        (.error .tooDeep, c)) ∧
      (decodeThrough lookup maxNesting).runAt ⟨[5, 1, 9], 0⟩ = (.ok (list number), ⟨[9], 2⟩) ∧
      copyAt ⟨[5, 1, 9], 0⟩ = (.ok (), ⟨[9], 2⟩, [5, 1]) := by
  intro lookup points
  have known : ∀ name, (lookup name).isSome := fun _ => rfl
  have shallow : points.levels ≤ maxNesting := by decide
  have fit : points.CountsFit := by decide
  have deep : maxNesting < (lists number 64).levels := by
    rw [levels_lists]
    decide
  have run : (decodeThrough lookup maxNesting).runAt ⟨[5, 1, 9], 0⟩ =
    (.ok (list number), ⟨[9], 2⟩) := rfl
  obtain ⟨-, written, copied⟩ := decode_resolves lookup
  refine ⟨known, shallow, fit, (written points [9] 3).1 shallow fit, deep,
    (written (lists number 64) [] 0).2 deep, run, ?_⟩
  rcases copied known ⟨[5, 1, 9], 0⟩ with ⟨_, _, bytes, found, here, split⟩ | ⟨_, _, _, stopped, -⟩
  · rw [run] at found
    obtain ⟨-, rfl⟩ := Prod.mk.inj found
    have both : bytes ++ [9] = [5, 1] ++ [9] := split.symm
    obtain rfl := List.append_cancel_right both
    exact here
  · rw [run] at stopped
    simp at stopped

end DataType

end NodeScript
