import NodeScript.Proofs.Bytes.Nested
import NodeScript.Proofs.Bytes.Spelled

/-!
The bytes of values, in both directions. A value that is nested too deeply is refused for that and
for nothing else (`Decode.Curtails`), and the bytes that a value is read from are its own, but for
truth values, which may be spelled by any byte (`Value.truths`, `Value.settle`). Main statement:
`Value.decode_exact`.
-/

set_option autoImplicit false
set_option relaxedAutoImplicit false

namespace NodeScript

namespace Decode

variable {α β σ : Type}

/-- A read does what another one does, or it refuses what is nested too deeply. -/
def Curtails (read read' : Decode α) : Prop :=
  ∀ c, read.runAt c = read'.runAt c ∨ ∃ c', read.runAt c = (.error .tooDeep, c')

namespace Curtails

theorem refl (read : Decode α) : Curtails read read := by
  intro _
  exact .inl rfl

theorem throw (read : Decode α) : Curtails (throw .tooDeep) read := by
  intro c
  exact .inr ⟨c, rfl⟩

theorem bind {read read' : Decode α} {next next' : α → Decode β} (first : Curtails read read')
    (rest : ∀ a, Curtails (next a) (next' a)) : Curtails (read >>= next) (read' >>= next') := by
  intro c
  rw [runAt_bind, runAt_bind]
  rcases first c with same | ⟨c', deep⟩
  · rw [same]
    split
    · exact rest _ _
    · exact .inl rfl
  · rw [deep]
    exact .inr ⟨c', rfl⟩

theorem map {read read' : Decode α} (f : α → β) (first : Curtails read read') :
    Curtails (do return f (← read)) (do return f (← read')) := by
  exact first.bind fun _ => refl _

theorem iterate {read read' : σ → Decode σ} (each : ∀ state, Curtails (read state) (read' state))
    (n : Nat) (state : σ) :
    Curtails (Decode.iterate read n state) (Decode.iterate read' n state) := by
  induction n generalizing state with
  | zero => exact refl _
  | succ n ih =>
    rw [iterate_succ, iterate_succ]
    exact (each state).bind ih

theorem many {read read' : Decode α} (each : Curtails read read') :
    Curtails (Decode.many read) (Decode.many read') := by
  refine (refl count).bind fun n => ?_
  exact (iterate (fun done => each.map (· :: done)) n []).map List.reverse

end Curtails

end Decode

open Decode

namespace Value

theorem curtails {n m : Nat} (less : n ≤ m) : Curtails (decodeWithin n) (decodeWithin m) := by
  induction n generalizing m with
  | zero => exact .throw _
  | succ n ih =>
    cases m with
    | zero => exact absurd less (Nat.not_succ_le_zero n)
    | succ m =>
      have inner := ih (Nat.le_of_succ_le_succ less)
      refine (Curtails.refl byte).bind fun tag => ?_
      split
      case h_5 => exact inner.many.map list
      case h_6 => exact (Curtails.refl _).bind fun name =>
        ((Curtails.refl _).bind fun key => inner.map (key, ·)).many.map (struct name)
      all_goals exact .refl _

theorem runAt_decodeWithin_of_lt {v : Value} (fit : v.CountsFit) {n : Nat} (deep : n < v.levels)
    (rest : Bytes) (offset : Nat) :
    ∃ c, (decodeWithin n).runAt ⟨v.encode ++ rest, offset⟩ = (.error .tooDeep, c) := by
  rcases curtails (Nat.le_of_lt deep) ⟨v.encode ++ rest, offset⟩ with same | refused
  · have whole := (reads v fit v.levels).gives v (if_pos (Nat.le_refl _)) rest offset
    obtain ⟨e, c, failed⟩ := (reads v fit n).fails (if_neg (Nat.not_le_of_lt deep)) rest offset
    rw [same, whole] at failed
    simp at failed
  · exact refused

mutual

/-- For each byte of a value, whether it is that of a truth value. -/
def truths : Value → List Bool
  | number _ => List.replicate 9 false
  | text s | player s => List.replicate (5 + s.utf8ByteSize) false
  | boolean _ => [false, true]
  | list items => List.replicate 5 false ++ truthsOfItems items
  | struct name fields =>
    List.replicate (5 + name.utf8ByteSize) false ++ List.replicate 4 false ++ truthsOfFields fields

def truthsOfItems : List Value → List Bool
  | [] => []
  | v :: vs => v.truths ++ truthsOfItems vs

def truthsOfFields : List (String × Value) → List Bool
  | [] => []
  | (name, v) :: fs =>
    List.replicate (4 + name.utf8ByteSize) false ++ v.truths ++ truthsOfFields fs

end

/-- Writes 1 for every marked byte that is not zero. -/
def settle (marks : List Bool) (bytes : Bytes) : Bytes :=
  List.zipWith (fun mark b => if mark && b != 0 then 1 else b) marks bytes

theorem settle_append {marks marks' : List Bool} {bytes bytes' : Bytes}
    (length : marks.length = bytes.length) :
    settle (marks ++ marks') (bytes ++ bytes') = settle marks bytes ++ settle marks' bytes' :=
  List.zipWith_append length

theorem settle_unmarked {n : Nat} {bytes : Bytes} (length : n = bytes.length) :
    settle (List.replicate n false) bytes = bytes := by
  subst length
  induction bytes with
  | nil => rfl
  | cons b bytes ih => exact congrArg (b :: ·) ih

/-- The bytes are those of the value, but for truth values, which any byte but zero may spell. -/
structure SpelledBy (marks : List Bool) (written bytes : Bytes) : Prop where
  length : marks.length = bytes.length
  settles : written = settle marks bytes

namespace SpelledBy

theorem exact {n : Nat} {bytes : Bytes} (length : n = bytes.length) :
    SpelledBy (List.replicate n false) bytes bytes := by
  refine ⟨?_, (settle_unmarked length).symm⟩
  rw [List.length_replicate, length]

theorem append {marks marks' : List Bool} {written written' bytes bytes' : Bytes}
    (first : SpelledBy marks written bytes) (rest : SpelledBy marks' written' bytes') :
    SpelledBy (marks ++ marks') (written ++ written') (bytes ++ bytes') := by
  refine ⟨?_, ?_⟩
  · rw [List.length_append, List.length_append, first.length, rest.length]
  · rw [settle_append first.length, ← first.settles, ← rest.settles]

theorem items {items : List Value} {parts : List Bytes}
    (each : List.Forall₂ (fun v bytes => SpelledBy v.truths v.encode bytes) items parts) :
    SpelledBy (truthsOfItems items) (encodeItems items) parts.flatten := by
  induction each with
  | nil => exact ⟨rfl, rfl⟩
  | cons first _ ih => exact first.append ih

end SpelledBy

@[simp] theorem length_count (n : Nat) : (Encode.count n).length = 4 := length_bigEndian 4 _

@[simp] theorem length_text (s : String) : (Encode.text s).length = 4 + s.utf8ByteSize := by
  simp [Encode.text, Encode.blob]

theorem SpelledBy.tagged (tag : UInt8) (s : String) :
    SpelledBy (List.replicate (5 + s.utf8ByteSize) false) (tag :: Encode.text s)
      (tag :: Encode.text s) := by
  exact .exact (by rw [List.length_cons, length_text]; omega)

theorem SpelledBy.fields {fields : List (String × Value)} {parts : List Bytes}
    (each : List.Forall₂ (fun field bytes => ∃ inner, bytes = Encode.text field.1 ++ inner ∧
      SpelledBy field.2.truths field.2.encode inner) fields parts) :
    SpelledBy (truthsOfFields fields) (encodeFields fields) parts.flatten := by
  induction each with
  | nil => exact ⟨rfl, rfl⟩
  | cons first _ ih =>
    obtain ⟨inner, rfl, spelled⟩ := first
    exact ((SpelledBy.exact (length_text _).symm).append spelled).append ih

theorem SpelledBy.boolean (b : UInt8) :
    SpelledBy (boolean (b != 0)).truths (boolean (b != 0)).encode [3, b] := by
  refine ⟨rfl, ?_⟩
  by_cases zero : b = 0
  · subst zero
    rfl
  · have notZero : (b != 0) = true := bne_iff_ne.2 zero
    simp [encode, Encode.bool, settle, truths, notZero, zero]

/-- Every value is read from bytes that are its own, but for truth values. -/
theorem spells (n : Nat) :
    Spells (decodeWithin n) fun v bytes => SpelledBy v.truths v.encode bytes := by
  induction n with
  | zero => exact Spells.throw _ _
  | succ n ih =>
    refine (Spells.byte.bind (q := fun tag v bytes =>
      SpelledBy v.truths v.encode (tag :: bytes)) fun tag => ?_).imp fun v bytes spelled => ?_
    · split
      case h_1 same =>
        obtain rfl : tag = 1 := UInt8.toNat_inj.1 same
        refine (Spells.double.map number).imp fun v bytes spelled => ?_
        obtain ⟨d, rfl, rfl⟩ := spelled
        exact SpelledBy.exact (n := 9) (congrArg (· + 1) (length_bigEndian 8 _).symm)
      case h_2 same =>
        obtain rfl : tag = 2 := UInt8.toNat_inj.1 same
        refine (Spells.text.map text).imp fun v bytes spelled => ?_
        obtain ⟨s, rfl, rfl⟩ := spelled
        exact .tagged 2 s
      case h_3 same =>
        obtain rfl : tag = 3 := UInt8.toNat_inj.1 same
        refine (Spells.bool.map boolean).imp fun v bytes spelled => ?_
        obtain ⟨_, ⟨b, rfl, rfl⟩, rfl⟩ := spelled
        exact .boolean b
      case h_4 same =>
        obtain rfl : tag = 4 := UInt8.toNat_inj.1 same
        refine (Spells.text.map player).imp fun v bytes spelled => ?_
        obtain ⟨s, rfl, rfl⟩ := spelled
        exact .tagged 4 s
      case h_5 same =>
        obtain rfl : tag = 5 := UInt8.toNat_inj.1 same
        refine (ih.many.map list).imp fun v bytes spelled => ?_
        obtain ⟨items, ⟨parts, each, rfl⟩, rfl⟩ := spelled
        have front : SpelledBy (List.replicate 5 false) (5 :: Encode.count items.length)
          (5 :: Encode.count items.length) := .exact (by simp)
        exact front.append (.items each)
      case h_6 same =>
        obtain rfl : tag = 6 := UInt8.toNat_inj.1 same
        refine (Spells.text.bind fun name =>
          ((Spells.text.bind fun key => ih.map (key, ·)).many.map (struct name))).imp
            fun v bytes spelled => ?_
        obtain ⟨name, _, _, rfl, ⟨fields, ⟨parts, each, rfl⟩, rfl⟩, rfl⟩ := spelled
        have count : SpelledBy (List.replicate 4 false) (Encode.count fields.length)
          (Encode.count fields.length) := .exact (length_count _).symm
        have inner := SpelledBy.fields (each.imp fun field bytes spelled => by
          obtain ⟨key, _, inner, rfl, ⟨v, spelled, rfl⟩, rfl⟩ := spelled
          exact ⟨inner, rfl, spelled⟩)
        have all := ((SpelledBy.tagged 6 name).append count).append inner
        rwa [List.append_assoc _ _ parts.flatten] at all
      case h_7 => exact Spells.throw _ _
    · obtain ⟨tag, _, behind, rfl, spelled, rfl⟩ := spelled
      exact spelled

/-- A value whose lengths the format can hold is read back from its bytes, whatever follows them,
and refused if it is nested too deeply. The bytes that a value is read from are as many as its own,
which have 1 for every truth value that is spelled by another byte than zero. -/
theorem decode_exact :
    (∀ v : Value, v.CountsFit → ∀ rest offset,
      (v.levels ≤ maxNesting → decode.runAt ⟨v.encode ++ rest, offset⟩ =
        (.ok v, ⟨rest, offset + v.encode.length⟩)) ∧
      (maxNesting < v.levels → ∃ c, decode.runAt ⟨v.encode ++ rest, offset⟩ =
        (.error .tooDeep, c))) ∧
    ∀ (v : Value) (c c' : Cursor), decode.runAt c = (.ok v, c') →
      ∃ read, c.rest = read ++ c'.rest ∧ c'.offset = c.offset + read.length ∧
        v.encode.length = read.length ∧ v.encode = settle v.truths read := by
  refine ⟨fun v fit rest offset => ⟨fun shallow => ?_, fun deep => ?_⟩, fun v c c' run => ?_⟩
  · exact (reads v fit maxNesting).gives v (if_pos shallow) rest offset
  · exact runAt_decodeWithin_of_lt fit deep rest offset
  · obtain ⟨read, split, moved, spelled⟩ := spells maxNesting c v c' run
    refine ⟨read, split, moved, ?_, spelled.settles⟩
    rw [spelled.settles, settle, List.length_zipWith, spelled.length, Nat.min_self]

def nest : Nat → Value
  | 0 => list []
  | n + 1 => list [nest n]

theorem levels_nest (n : Nat) : (nest n).levels = n + 1 := by
  induction n with
  | zero => rfl
  | succ n ih => simp [nest, levels, levelsOfItems, ih]

theorem countsFit_nest (n : Nat) : (nest n).CountsFit := by
  induction n with
  | zero => exact ⟨Nat.zero_le _, trivial⟩
  | succ n ih => exact ⟨(by decide : IsCount 1), ih, trivial⟩

theorem decode_exact_flags :
    let flags := list [boolean true, list [], boolean false]
    let spelled : Bytes := [5, 0, 0, 0, 3, 3, 7, 5, 0, 0, 0, 0, 3, 0]
    flags.CountsFit ∧ flags.levels ≤ maxNesting ∧
      decode.runAt ⟨flags.encode ++ [9], 2⟩ = (.ok flags, ⟨[9], 16⟩) ∧
      decode.runAt ⟨spelled ++ [9], 2⟩ = (.ok flags, ⟨[9], 16⟩) ∧
      flags.encode = settle flags.truths spelled ∧ flags.encode ≠ spelled ∧
      (nest maxNesting).CountsFit ∧ maxNesting < (nest maxNesting).levels ∧
      ∃ c, decode.runAt ⟨(nest maxNesting).encode ++ [], 0⟩ = (.error .tooDeep, c) := by
  intro flags spelled
  have fit : flags.CountsFit := by decide
  have shallow : flags.levels ≤ maxNesting := by decide
  have run : decode.runAt ⟨spelled ++ [9], 2⟩ = (.ok flags, ⟨[9], 16⟩) := rfl
  have fit' : (nest maxNesting).CountsFit := countsFit_nest maxNesting
  have deep : maxNesting < (nest maxNesting).levels := by
    rw [levels_nest]
    exact Nat.lt_succ_self maxNesting
  obtain ⟨read, split, -, -, settled⟩ := decode_exact.2 flags _ _ run
  obtain rfl : spelled = read := List.append_cancel_right split
  exact ⟨fit, shallow, (decode_exact.1 flags fit [9] 2).1 shallow, run, settled, by decide, fit',
    deep, (decode_exact.1 (nest maxNesting) fit' [] 0).2 deep⟩

end Value

end NodeScript
