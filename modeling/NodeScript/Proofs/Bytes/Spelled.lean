import Mathlib.Data.List.Induction
import NodeScript.Proofs.Bytes.Codec

/-!
The bytes that a read has moved over. `Decode.Spells` says how the bytes that were taken spell the
item that was given, whatever it is. Main statements: numbers, counts and texts are read from no
bytes but those that are written for them, and lists of items from those of their items.
-/

set_option autoImplicit false
set_option relaxedAutoImplicit false

namespace NodeScript

theorem ofBigEndian_lt (bytes : Bytes) : ofBigEndian bytes < 256 ^ bytes.length := by
  induction bytes using List.reverseRecOn with
  | nil => decide
  | append_singleton bytes b ih =>
    rw [ofBigEndian_append, List.length_append, List.length_singleton, Nat.pow_succ]
    have digit := b.toNat_lt
    omega

theorem bigEndian_ofBigEndian (bytes : Bytes) :
    bigEndian bytes.length (ofBigEndian bytes) = bytes := by
  induction bytes using List.reverseRecOn with
  | nil => rfl
  | append_singleton bytes b ih =>
    have digit := b.toNat_lt
    have high : (ofBigEndian bytes * 256 + b.toNat) / 256 = ofBigEndian bytes := by omega
    have low : UInt8.ofNat (ofBigEndian bytes * 256 + b.toNat) = b := by
      rw [← UInt8.toNat_inj, UInt8.toNat_ofNat']
      omega
    rw [List.length_append, List.length_singleton, bigEndian, ofBigEndian_append, high, low, ih]

theorem Encode.int32_of_le {i : Int32} (notNegative : 0 ≤ i) :
    Encode.int32 i = Encode.count i.toInt.toNat := by
  have small : i.toInt.toNat ≤ Encode.maxCount := by
    have below := i.toInt_lt
    unfold Encode.maxCount
    omega
  rw [Encode.int32, Encode.count, Int32.toNat_toUInt32_of_le notNegative, Nat.min_eq_left small]
  rfl

namespace Decode

variable {α β σ : Type}

/-- Whatever item a read gives, it is spelled in the given form by the bytes that were taken. -/
def Spells (read : Decode α) (form : α → Bytes → Prop) : Prop :=
  ∀ c a c', read.runAt c = (.ok a, c') →
    ∃ bytes, c.rest = bytes ++ c'.rest ∧ c'.offset = c.offset + bytes.length ∧ form a bytes

namespace Spells

theorem imp {read : Decode α} {form form' : α → Bytes → Prop} (spells : Spells read form)
    (weaker : ∀ a bytes, form a bytes → form' a bytes) : Spells read form' := by
  intro c a c' run
  obtain ⟨bytes, split, moved, spelled⟩ := spells c a c' run
  exact ⟨bytes, split, moved, weaker a bytes spelled⟩

theorem pure (a : α) : Spells (Pure.pure a : Decode α) fun b bytes => b = a ∧ bytes = [] := by
  intro c b c' run
  rw [runAt_pure, Prod.mk.injEq, Except.ok.injEq] at run
  obtain ⟨rfl, rfl⟩ := run
  exact ⟨[], rfl, rfl, rfl, rfl⟩

theorem throw (e : DecodeError) (form : α → Bytes → Prop) :
    Spells (throw e : Decode α) form := by
  intro c a c' run
  simp at run

theorem bind {read : Decode α} {next : α → Decode β} {p : α → Bytes → Prop}
    {q : α → β → Bytes → Prop} (first : Spells read p) (rest : ∀ a, Spells (next a) (q a)) :
    Spells (read >>= next) fun b bytes =>
      ∃ a before behind, p a before ∧ q a b behind ∧ bytes = before ++ behind := by
  intro c b last run
  obtain ⟨a, middle, here, onwards⟩ := runAt_bind_eq_ok_iff.1 run
  obtain ⟨before, split, moved, spelled⟩ := first c a middle here
  obtain ⟨behind, split', moved', spelled'⟩ := rest a middle b last onwards
  refine ⟨before ++ behind, ?_, ?_, a, before, behind, spelled, spelled', rfl⟩
  · rw [split, split', List.append_assoc]
  · rw [moved', moved, List.length_append, Nat.add_assoc]

theorem map {read : Decode α} {form : α → Bytes → Prop} (f : α → β) (first : Spells read form) :
    Spells (do return f (← read)) fun b bytes => ∃ a, form a bytes ∧ b = f a := by
  refine (first.bind fun a => pure (f a)).imp fun b bytes spelled => ?_
  obtain ⟨a, before, _, spelled, ⟨rfl, rfl⟩, rfl⟩ := spelled
  exact ⟨a, by rwa [List.append_nil], rfl⟩

theorem offset_bind {next : Nat → Decode α} {form : α → Bytes → Prop}
    (onwards : ∀ start, Spells (next start) form) : Spells (Decode.offset >>= next) form := by
  intro c a c' run
  rw [runAt_bind, runAt_offset] at run
  exact onwards c.offset c a c' run

private theorem collect {read : Decode α} {form : α → Bytes → Prop} (each : Spells read form)
    (n : Nat) (done : List α) :
    Spells (iterate (fun done => do return (← read) :: done) n done) fun last bytes =>
      ∃ items parts, last = items.reverse ++ done ∧ items.length = n ∧
        List.Forall₂ form items parts ∧ bytes = parts.flatten := by
  induction n generalizing done with
  | zero =>
    refine (pure done).imp fun last bytes spelled => ?_
    obtain ⟨rfl, rfl⟩ := spelled
    exact ⟨[], [], rfl, rfl, .nil, rfl⟩
  | succ n ih =>
    rw [iterate_succ]
    refine ((each.map (· :: done)).bind ih).imp fun last bytes spelled => ?_
    obtain ⟨_, here, _, ⟨a, first, rfl⟩, ⟨items, parts, rfl, rfl, rest, rfl⟩, rfl⟩ := spelled
    exact ⟨a :: items, here :: parts, by simp, rfl, .cons first rest, rfl⟩

theorem times {read : Decode α} {form : α → Bytes → Prop} (each : Spells read form) (n : Nat) :
    Spells (Decode.times n read) fun items bytes => ∃ parts,
      items.length = n ∧ List.Forall₂ form items parts ∧ bytes = parts.flatten := by
  refine ((collect each n []).map List.reverse).imp fun items bytes spelled => ?_
  obtain ⟨_, ⟨items, parts, rfl, length, spelled, rfl⟩, rfl⟩ := spelled
  rw [List.append_nil, List.reverse_reverse]
  exact ⟨parts, length, spelled, rfl⟩

theorem take (n : Nat) :
    Spells (Decode.take n) fun data bytes => bytes = data ∧ data.length = n := by
  intro c data c' run
  have length := Gives.take ⟨c, c', run⟩
  rw [runAt_take] at run
  split at run
  · rw [Prod.mk.injEq, Except.ok.injEq] at run
    obtain ⟨rfl, rfl⟩ := run
    exact ⟨c.rest.take n, (List.take_append_drop n c.rest).symm, by rw [length], rfl, length⟩
  · simp at run

theorem byte : Spells Decode.byte fun b bytes => bytes = [b] := by
  refine ((take 1).map fun bytes => bytes.headD 0).imp fun b bytes spelled => ?_
  obtain ⟨_, ⟨rfl, length⟩, rfl⟩ := spelled
  obtain ⟨b, rfl⟩ := List.length_eq_one_iff.1 length
  rfl

theorem int32 : Spells Decode.int32 fun i bytes => bytes = Encode.int32 i := by
  refine ((take 4).map fun bytes => (UInt32.ofNat (ofBigEndian bytes)).toInt32).imp
    fun i bytes spelled => ?_
  obtain ⟨_, ⟨rfl, length⟩, rfl⟩ := spelled
  have small := ofBigEndian_lt bytes
  rw [length] at small
  have word : (UInt32.ofNat (ofBigEndian bytes)).toNat = ofBigEndian bytes :=
    UInt32.toNat_ofNat_of_lt' small
  rw [Encode.int32, UInt32.toUInt32_toInt32, word, ← length, bigEndian_ofBigEndian]

theorem double : Spells Decode.double fun d bytes => bytes = Encode.double d := by
  refine ((take 8).map fun bytes => (⟨UInt64.ofNat (ofBigEndian bytes)⟩ : Double)).imp
    fun d bytes spelled => ?_
  obtain ⟨_, ⟨rfl, length⟩, rfl⟩ := spelled
  have small := ofBigEndian_lt bytes
  rw [length] at small
  have word : (UInt64.ofNat (ofBigEndian bytes)).toNat = ofBigEndian bytes :=
    UInt64.toNat_ofNat_of_lt' small
  rw [Encode.double, word, ← length, bigEndian_ofBigEndian]

/-- A truth value is read from any byte; only zero is false. -/
theorem bool : Spells Decode.bool fun truth bytes => ∃ b, bytes = [b] ∧ truth = (b != 0) := by
  refine (byte.map (· != 0)).imp fun truth bytes spelled => ?_
  obtain ⟨b, spelled, rfl⟩ := spelled
  exact ⟨b, spelled, rfl⟩

theorem count : Spells Decode.count fun n bytes => bytes = Encode.count n := by
  refine offset_bind fun start => ?_
  refine (int32.bind (q := fun i n bytes => 0 ≤ i ∧ n = i.toInt.toNat ∧ bytes = [])
    fun i => ?_).imp fun n bytes spelled => ?_
  · split
    · exact throw _ _
    · rename_i notNegative
      refine (pure _).imp fun n bytes spelled => ?_
      exact ⟨Int32.not_lt.1 notNegative, spelled⟩
  · obtain ⟨i, _, _, rfl, ⟨notNegative, rfl, rfl⟩, rfl⟩ := spelled
    rw [List.append_nil, Encode.int32_of_le notNegative]

theorem blob : Spells Decode.blob fun data bytes => bytes = Encode.blob data := by
  refine (count.bind take).imp fun data bytes spelled => ?_
  obtain ⟨_, _, _, rfl, ⟨rfl, rfl⟩, rfl⟩ := spelled
  rfl

theorem text : Spells Decode.text fun s bytes => bytes = Encode.text s := by
  refine offset_bind fun start => ?_
  refine (blob.bind (q := fun data s bytes => s.toUTF8.data.toList = data ∧ bytes = [])
    fun data => ?_).imp fun s bytes spelled => ?_
  · split
    · rename_i decoded
      refine (pure _).imp fun s bytes spelled => ?_
      obtain ⟨rfl, rfl⟩ := spelled
      exact ⟨toUTF8_of_fromUTF8? decoded, rfl⟩
    · exact throw _ _
  · obtain ⟨_, _, _, rfl, ⟨rfl, rfl⟩, rfl⟩ := spelled
    exact List.append_nil _

theorem many {read : Decode α} {form : α → Bytes → Prop} (each : Spells read form) :
    Spells (Decode.many read) fun items bytes => ∃ parts,
      List.Forall₂ form items parts ∧ bytes = Encode.count items.length ++ parts.flatten := by
  refine (count.bind each.times).imp fun items bytes spelled => ?_
  obtain ⟨_, _, _, rfl, ⟨parts, rfl, spelled, rfl⟩, rfl⟩ := spelled
  exact ⟨parts, spelled, rfl⟩

end Spells

end Decode

end NodeScript
