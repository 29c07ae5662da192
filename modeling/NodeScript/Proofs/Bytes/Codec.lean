import Mathlib.Algebra.Group.Nat.Defs
import NodeScript.Proofs.Bytes.Reads

/-!
The basic items of the file format are read back from their bytes. Counts and lengths are, as long
as they are not beyond the greatest that the format can hold.
-/

set_option autoImplicit false
set_option relaxedAutoImplicit false

namespace NodeScript

@[simp] theorem length_bigEndian (width n : Nat) : (bigEndian width n).length = width := by
  induction width generalizing n with
  | zero => rfl
  | succ width ih => simp [bigEndian, ih]

theorem ofBigEndian_append (bytes : Bytes) (b : UInt8) :
    ofBigEndian (bytes ++ [b]) = ofBigEndian bytes * 256 + b.toNat := by
  simp [ofBigEndian]

theorem ofBigEndian_bigEndian {width n : Nat} (small : n < 256 ^ width) :
    ofBigEndian (bigEndian width n) = n := by
  induction width generalizing n with
  | zero =>
    rw [Nat.pow_zero, Nat.lt_one_iff] at small
    subst small
    rfl
  | succ width ih =>
    have rest : n / 256 < 256 ^ width := by
      rw [Nat.div_lt_iff_lt_mul (by decide)]
      rw [← Nat.pow_succ 256 width]
      exact small
    rw [bigEndian, ofBigEndian_append, ih rest, UInt8.toNat_ofNat']
    omega

/-- The counts and lengths that the format can hold. -/
def IsCount (n : Nat) : Prop := n ≤ Encode.maxCount

instance (n : Nat) : Decidable (IsCount n) := inferInstanceAs (Decidable (n ≤ _))

namespace Decode

theorem Reads.byte (b : UInt8) : Reads byte [b] (some b) := by
  have taken := (Reads.take (rfl : [b].length = 1)).map (f := fun bytes => bytes.headD 0)
  exact taken

theorem Reads.int32 (i : Int32) : Reads int32 (Encode.int32 i) (some i) := by
  have taken := (Reads.take (length_bigEndian 4 i.toUInt32.toNat)).map
    (f := fun bytes => (UInt32.ofNat (ofBigEndian bytes)).toInt32)
  have same : (UInt32.ofNat (ofBigEndian (bigEndian 4 i.toUInt32.toNat))).toInt32 = i := by
    rw [ofBigEndian_bigEndian i.toUInt32.toNat_lt, UInt32.ofNat_toNat]
    rfl
  rw [Option.map_some, same] at taken
  exact taken

theorem Reads.double (d : Double) : Reads double (Encode.double d) (some d) := by
  have taken := (Reads.take (length_bigEndian 8 d.bits.toNat)).map
    (f := fun bytes => (⟨UInt64.ofNat (ofBigEndian bytes)⟩ : Double))
  have same : UInt64.ofNat (ofBigEndian (bigEndian 8 d.bits.toNat)) = d.bits := by
    rw [ofBigEndian_bigEndian d.bits.toNat_lt, UInt64.ofNat_toNat]
  rw [Option.map_some, same] at taken
  exact taken

theorem Reads.bool (b : Bool) : Reads bool (Encode.bool b) (some b) := by
  have read := (Reads.byte (if b then 1 else 0)).map (f := fun b => b != 0)
  cases b <;> exact read

theorem Reads.count {n : Nat} (small : IsCount n) : Reads count (Encode.count n) (some n) := by
  have below : n < 2 ^ 31 := Nat.lt_succ_of_le small
  have bytes : Encode.int32 (Int32.ofNat n) ++ [] = Encode.count n := by
    rw [List.append_nil, Encode.int32, Encode.count, Int32.toUInt32_ofNat', UInt32.toNat_ofNat',
      Nat.mod_eq_of_lt (by omega), Nat.min_eq_left small]
  have notNegative : ¬Int32.ofNat n < 0 := by
    rw [Int32.not_lt]
    exact Int32.zero_le_ofNat_of_lt below
  rw [← bytes]
  refine Reads.offset_bind fun start => (Reads.int32 (Int32.ofNat n)).andThen ?_
  rw [if_neg notNegative, Int32.toInt_ofNat_of_lt below, Int.toNat_natCast]
  exact Reads.pure n

theorem Reads.blob {data : Bytes} (short : IsCount data.length) :
    Reads blob (Encode.blob data) (some data) :=
  (Reads.count short).andThen (Reads.take rfl)

theorem fromUTF8?_toUTF8 (s : String) :
    String.fromUTF8? (ByteArray.mk s.toUTF8.data.toList.toArray) = some s := by
  have same : ByteArray.mk s.toUTF8.data.toList.toArray = s.toByteArray := by simp
  rw [same, String.fromUTF8?, dif_pos s.isValidUTF8]
  rfl

theorem toUTF8_of_fromUTF8? {data : Bytes} {s : String}
    (decoded : String.fromUTF8? (ByteArray.mk data.toArray) = some s) :
    s.toUTF8.data.toList = data := by
  rw [String.fromUTF8?] at decoded
  split at decoded
  · rw [Option.some.injEq] at decoded
    subst decoded
    rfl
  · simp at decoded

theorem Reads.text {s : String} (short : IsCount s.utf8ByteSize) :
    Reads text (Encode.text s) (some s) := by
  have bytes : Encode.text s = Encode.blob s.toUTF8.data.toList ++ [] := (List.append_nil _).symm
  rw [bytes]
  refine Reads.offset_bind fun start => (Reads.blob (by simpa using short)).andThen ?_
  rw [fromUTF8?_toUTF8]
  exact Reads.pure s

theorem Reads.many {α β : Type} {read : Decode α} {encode : β → Bytes} {answer : β → Option α}
    {items : List β} (short : IsCount items.length)
    (each : ∀ b ∈ items, Reads read (encode b) (answer b)) :
    Reads (many read) (Encode.many encode items) (items.mapM answer) :=
  (Reads.count short).andThen (Reads.times each)

theorem Gives.count {n : Nat} (h : Gives count n) : IsCount n := by
  obtain ⟨start, -, h⟩ := h.of_bind
  obtain ⟨i, -, h⟩ := h.of_bind
  split at h
  · exact absurd h Gives.not_throw
  · have below := i.toInt_lt
    have same := h.of_pure
    unfold IsCount Encode.maxCount
    omega

theorem Gives.take {n : Nat} {bytes : Bytes} (h : Gives (take n) bytes) : bytes.length = n := by
  obtain ⟨c, c', run⟩ := h
  rw [runAt_take] at run
  split at run
  · rename_i missing
    simp only [Prod.mk.injEq, Except.ok.injEq] at run
    rw [← run.1]
    rw [List.length_take] at missing ⊢
    omega
  · simp at run

theorem Gives.text {s : String} (h : Gives text s) : IsCount s.utf8ByteSize := by
  obtain ⟨start, -, h⟩ := h.of_bind
  obtain ⟨data, hdata, h⟩ := h.of_bind
  obtain ⟨n, hn, hdata⟩ := hdata.of_bind
  split at h
  · rename_i found decoded
    rw [h.of_pure] at decoded
    have size : s.utf8ByteSize = data.length := by
      rw [← toUTF8_of_fromUTF8? decoded]
      simp
    rw [size, hdata.take]
    exact hn.count
  · exact absurd h Gives.not_throw

end Decode

end NodeScript
