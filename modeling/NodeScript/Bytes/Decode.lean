import NodeScript.Bytes.Encode

/-!
Reading the basic items of the file format from a cursor. A read that fails leaves the cursor
where it stopped: a word that is cut off consumes nothing, a blob that is cut off has consumed its
length.
-/

set_option autoImplicit false
set_option relaxedAutoImplicit false

namespace NodeScript

/-- The deepest nesting of types and of values that is read. -/
def maxNesting : Nat := 64

/-- Why bytes are not what was to be read. -/
inductive DecodeError where
  /-- The bytes end at the offset, the given number too early. -/
  | truncated (offset needed : Nat)
  | negativeLength (offset : Nat) (length : Int32)
  | invalidUtf8 (offset : Nat)
  | unknownTypeTag (tag : UInt8)
  | unknownValueTag (tag : UInt8)
  | unknownStruct (name : String)
  | unsupportedVersion (version : Int32)
  | duplicateDefinition (name : String)
  | malformed (what : String)
deriving DecidableEq, Repr

namespace DecodeError

def message : DecodeError → String
  | truncated offset needed =>
    s!"Unexpected end of buffer at offset {offset}: needed {needed} more bytes"
  | negativeLength offset length => s!"Negative length {length} at offset {offset}"
  | invalidUtf8 offset => s!"Invalid UTF-8 string at offset {offset}"
  | unknownTypeTag tag => s!"Unknown type tag {tag}"
  | unknownValueTag tag => s!"Unknown value tag {tag}"
  | unknownStruct name => s!"Unknown struct reference '{name}'"
  | unsupportedVersion version => s!"Unsupported format version {version}"
  | duplicateDefinition name => s!"Duplicate definition '{name}'"
  | malformed what => s!"Malformed data: {what}"

/-- The refusal of types and values that are nested too deeply. -/
def tooDeep : DecodeError := malformed s!"nesting deeper than {maxNesting} levels"

end DecodeError

/-- The bytes that are still to be read, and how many came before them. -/
structure Cursor where
  rest : Bytes
  offset : Nat
deriving DecidableEq, Repr

def Cursor.ofBytes (bytes : Bytes) : Cursor := ⟨bytes, 0⟩

/-- A read: a result or an error, and the cursor after it in both cases. -/
abbrev Decode (α : Type) := ExceptT DecodeError (StateM Cursor) α

namespace Decode

/-- Runs a read from the given cursor. -/
def runAt {α : Type} (read : Decode α) (cursor : Cursor) : Except DecodeError α × Cursor :=
  (ExceptT.run read).run cursor

/-- The result of a read on the bytes. -/
def result {α : Type} (read : Decode α) (bytes : Bytes) : Except DecodeError α :=
  (read.runAt (Cursor.ofBytes bytes)).1

def offset : Decode Nat := do return (← get).offset

/-- The next `n` bytes, all of them or none. -/
def take (n : Nat) : Decode Bytes := fun (c : Cursor) =>
  let taken := c.rest.take n
  let missing := n - taken.length
  if missing = 0 then (.ok taken, ⟨c.rest.drop n, c.offset + n⟩)
  else (.error (.truncated c.offset missing), c)

def byte : Decode UInt8 := do
  return (← take 1).headD 0

def int32 : Decode Int32 := do
  return (UInt32.ofNat (ofBigEndian (← take 4))).toInt32

def double : Decode Double := do
  return ⟨UInt64.ofNat (ofBigEndian (← take 8))⟩

def bool : Decode Bool := do
  return (← byte) != 0

/-- A count or a length, which is not negative. -/
def count : Decode Nat := do
  let start ← offset
  let n ← int32
  if n < 0 then throw (.negativeLength start n) else return n.toInt.toNat

def blob : Decode Bytes := do
  take (← count)

/-- A text; an error in it is reported at the place of its length. -/
def text : Decode String := do
  let start ← offset
  let data ← blob
  match String.fromUTF8? (ByteArray.mk data.toArray) with
  | some s => return s
  | none => throw (.invalidUtf8 start)

/-- All the bytes that are left. -/
def remaining : Decode Bytes := fun (c : Cursor) =>
  (.ok c.rest, ⟨[], c.offset + c.rest.length⟩)

/-- Makes a read `n` times, each from the state that the one before has left. -/
def iterate {σ : Type} (read : σ → Decode σ) : Nat → σ → Decode σ
  | 0, state => pure state
  | n + 1, state => fun (c : Cursor) =>
    match (read state).runAt c with
    | (.ok state, c) => iterate read n state c
    | (.error e, c) => (.error e, c)

/-- The results of `n` reads one after the other. -/
def times {α : Type} (n : Nat) (read : Decode α) : Decode (List α) := do
  return (← iterate (fun done => do return (← read) :: done) n []).reverse

/-- As many items as the count in front of them says. -/
def many {α : Type} (read : Decode α) : Decode (List α) := do
  times (← count) read

/-- A read of the given bytes alone, which does not move the cursor. -/
def within {α : Type} (bytes : Bytes) (read : Decode α) : Decode α :=
  liftExcept (read.result bytes)

end Decode

end NodeScript
