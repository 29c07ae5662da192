import NodeScript.Double

/-!
The bytes of the basic items of the file format: big-endian words, and text and blobs behind a
four-byte signed length.
-/

set_option autoImplicit false
set_option relaxedAutoImplicit false

namespace NodeScript

abbrev Bytes := List UInt8

/-- The last `width` base-256 digits of a number, most significant first. -/
def bigEndian : Nat → Nat → Bytes
  | 0, _ => []
  | width + 1, n => bigEndian width (n / 256) ++ [UInt8.ofNat n]

/-- The number that has the given base-256 digits. -/
def ofBigEndian (bytes : Bytes) : Nat :=
  bytes.foldl (fun n b => n * 256 + b.toNat) 0

namespace Encode

def byte (b : UInt8) : Bytes := [b]

def int32 (i : Int32) : Bytes := bigEndian 4 i.toUInt32.toNat

def double (d : Double) : Bytes := bigEndian 8 d.bits.toNat

def bool (b : Bool) : Bytes := [if b then 1 else 0]

/-- The greatest length that the format can hold. -/
def maxCount : Nat := 0x7fffffff

/-- A count or a length; what is beyond the greatest one is written as the greatest one. -/
def count (n : Nat) : Bytes := bigEndian 4 (min n maxCount)

def blob (data : Bytes) : Bytes := count data.length ++ data

def text (s : String) : Bytes := blob s.toUTF8.data.toList

/-- The items of a list one after the other behind their number. -/
def many {α : Type} (item : α → Bytes) (items : List α) : Bytes :=
  count items.length ++ items.flatMap item

end Encode

end NodeScript
