import NodeScript.Proofs.Bytes.Spelled

/-!
Basic items one after the other, and the cursor while they are read. `Item.Kind.Fails` says which
reads fail, why, and where they leave the cursor. Main statement: `Item.read_exactly`: items are
read back from their bytes with nothing left over, and whatever is asked of a cursor, and whatever
of it fails, the cursor stays in the bytes that it began with and never goes back.
-/

set_option autoImplicit false
set_option relaxedAutoImplicit false

namespace NodeScript

open Decode

/-- The first cursor stands before the bytes, the second one behind them. -/
structure Cursor.Passes (c : Cursor) (bytes : Bytes) (c' : Cursor) : Prop where
  rest : c.rest = bytes ++ c'.rest
  offset : c'.offset = c.offset + bytes.length

/-- A basic item of the file format. -/
inductive Item where
  | byte (b : UInt8)
  | int32 (i : Int32)
  | double (d : Double)
  | bool (b : Bool)
  | count (n : Nat)
  | blob (data : Bytes)
  | text (s : String)
deriving DecidableEq, Repr

namespace Item

/-- What a basic item can be. -/
inductive Kind where
  | byte
  | int32
  | double
  | bool
  | count
  | blob
  | text
deriving DecidableEq, Repr

def kind : Item → Kind
  | byte _ => .byte
  | int32 _ => .int32
  | double _ => .double
  | bool _ => .bool
  | count _ => .count
  | blob _ => .blob
  | text _ => .text

def encode : Item → Bytes
  | byte b => Encode.byte b
  | int32 i => Encode.int32 i
  | double d => Encode.double d
  | bool b => Encode.bool b
  | count n => Encode.count n
  | blob data => Encode.blob data
  | text s => Encode.text s

/-- The format can hold the count, or the length. -/
def CountsFit : Item → Prop
  | count n => IsCount n
  | blob data => IsCount data.length
  | text s => IsCount s.utf8ByteSize
  | _ => True

instance : DecidablePred CountsFit
  | count n => inferInstanceAs (Decidable (IsCount n))
  | blob data => inferInstanceAs (Decidable (IsCount data.length))
  | text s => inferInstanceAs (Decidable (IsCount s.utf8ByteSize))
  | byte _ | int32 _ | double _ | bool _ => .isTrue trivial

namespace Kind

/-- Reads an item of the kind. -/
def read : Kind → Decode Item
  | byte => do return .byte (← Decode.byte)
  | int32 => do return .int32 (← Decode.int32)
  | double => do return .double (← Decode.double)
  | bool => do return .bool (← Decode.bool)
  | count => do return .count (← Decode.count)
  | blob => do return .blob (← Decode.blob)
  | text => do return .text (← Decode.text)

def width : Kind → Nat
  | byte | bool => 1
  | int32 | count | blob | text => 4
  | double => 8

def IsCounted (kind : Kind) : Prop := kind = count ∨ kind = blob ∨ kind = text
deriving Decidable

def HasContent (kind : Kind) : Prop := kind = blob ∨ kind = text

/-- The reads that fail: the kind, the cursor before, the error, and the cursor after. -/
inductive Fails : Kind → Cursor → DecodeError → Cursor → Prop where
  /-- Nothing is taken where the bytes end within a word or a length. -/
  | short {kind : Kind} {c : Cursor} (few : c.rest.length < kind.width) :
    Fails kind c (.truncated c.offset (kind.width - c.rest.length)) c
  /-- A negative count or length is taken. -/
  | negative {kind : Kind} {c c' : Cursor} {n : Int32} (counted : kind.IsCounted)
    (negative : n < 0) (passed : c.Passes (Encode.int32 n) c') :
    Fails kind c (.negativeLength c.offset n) c'
  /-- The length alone is taken where the bytes end within the content. -/
  | cutOff {kind : Kind} {c c' : Cursor} {n : Nat} (content : kind.HasContent) (small : IsCount n)
    (passed : c.Passes (Encode.count n) c') (few : c'.rest.length < n) :
    Fails kind c (.truncated c'.offset (n - c'.rest.length)) c'
  /-- Content that is no text is taken with its length. -/
  | invalid {c c' : Cursor} {data : Bytes} (small : IsCount data.length)
    (passed : c.Passes (Encode.blob data) c')
    (none : String.fromUTF8? (ByteArray.mk data.toArray) = none) :
    Fails text c (.invalidUtf8 c.offset) c'

end Kind

end Item

namespace Decode

variable {α β : Type} {c c' : Cursor} {e : DecodeError}

theorem runAt_bind_eq_error_iff {read : Decode α} {next : α → Decode β} :
    (read >>= next).runAt c = (.error e, c') ↔ read.runAt c = (.error e, c') ∨
      ∃ a middle, read.runAt c = (.ok a, middle) ∧ (next a).runAt middle = (.error e, c') := by
  rw [runAt_bind]
  split
  · rename_i a middle first
    simp [first]
  · rename_i e' middle first
    simp [first]

theorem runAt_map_eq_error_iff {read : Decode α} {f : α → β} :
    (do return f (← read) : Decode β).runAt c = (.error e, c') ↔ read.runAt c = (.error e, c') := by
  rw [runAt_bind_eq_error_iff, or_iff_left]
  rintro ⟨a, middle, -, failed⟩
  simp at failed

theorem take_eq_error_iff {n : Nat} : (take n).runAt c = (.error e, c') ↔
    c.rest.length < n ∧ e = .truncated c.offset (n - c.rest.length) ∧ c' = c := by
  rw [runAt_take, List.length_take]
  split
  · simp only [Prod.mk.injEq, reduceCtorEq, false_and, false_iff]
    omega
  · have missing : n - min n c.rest.length = n - c.rest.length := by omega
    have few : c.rest.length < n := by omega
    rw [missing, Prod.mk.injEq, Except.error.injEq, eq_comm, @eq_comm _ c]
    exact (and_iff_right few).symm

theorem Spells.eq_ok_iff {read : Decode α} {encode : α → Bytes} {fits : α → Prop}
    (spells : Spells read fun a bytes => bytes = encode a) (gives : ∀ a, Gives read a → fits a)
    (reads : ∀ a, fits a → Reads read (encode a) (some a)) {a : α} :
    read.runAt c = (.ok a, c') ↔ fits a ∧ c.Passes (encode a) c' := by
  constructor
  · intro run
    obtain ⟨_, split, moved, rfl⟩ := spells c a c' run
    exact ⟨gives a ⟨c, c', run⟩, split, moved⟩
  · rintro ⟨fit, split, moved⟩
    have run := (reads a fit).gives a rfl c'.rest c.offset
    rw [← split, ← moved] at run
    exact run

theorem int32_eq_ok_iff {i : Int32} :
    int32.runAt c = (.ok i, c') ↔ c.Passes (Encode.int32 i) c' := by
  rw [Spells.int32.eq_ok_iff (fun _ _ => trivial) fun i _ => Reads.int32 i]
  exact and_iff_right trivial

theorem count_eq_ok_iff {n : Nat} :
    count.runAt c = (.ok n, c') ↔ IsCount n ∧ c.Passes (Encode.count n) c' := by
  exact Spells.count.eq_ok_iff (fun _ => Gives.count) fun _ => Reads.count

theorem Gives.blob {data : Bytes} (h : Gives blob data) : IsCount data.length := by
  obtain ⟨n, hn, hdata⟩ := h.of_bind
  rw [hdata.take]
  exact hn.count

theorem blob_eq_ok_iff {data : Bytes} :
    blob.runAt c = (.ok data, c') ↔ IsCount data.length ∧ c.Passes (Encode.blob data) c' := by
  exact Spells.blob.eq_ok_iff (fun _ => Gives.blob) fun _ => Reads.blob

theorem int32_eq_error_iff : int32.runAt c = (.error e, c') ↔
    c.rest.length < 4 ∧ e = .truncated c.offset (4 - c.rest.length) ∧ c' = c := by
  exact runAt_map_eq_error_iff.trans take_eq_error_iff

theorem count_eq_error_iff : count.runAt c = (.error e, c') ↔
    (c.rest.length < 4 ∧ e = .truncated c.offset (4 - c.rest.length) ∧ c' = c) ∨
      ∃ n : Int32, n < 0 ∧ c.Passes (Encode.int32 n) c' ∧ e = .negativeLength c.offset n := by
  have start : count.runAt c = (int32 >>= fun n =>
      if n < 0 then throw (.negativeLength c.offset n) else return n.toInt.toNat).runAt c := by
    rw [count, runAt_bind, runAt_offset]
  rw [start, runAt_bind_eq_error_iff, int32_eq_error_iff]
  refine or_congr_right (exists_congr fun n => ?_)
  constructor
  · rintro ⟨middle, read, failed⟩
    split at failed
    · rename_i negative
      rw [runAt_throw, Prod.mk.injEq, Except.error.injEq] at failed
      obtain ⟨rfl, rfl⟩ := failed
      exact ⟨negative, int32_eq_ok_iff.1 read, rfl⟩
    · simp at failed
  · rintro ⟨negative, passed, rfl⟩
    exact ⟨c', int32_eq_ok_iff.2 passed, by rw [if_pos negative, runAt_throw]⟩

theorem blob_eq_error_iff : blob.runAt c = (.error e, c') ↔ count.runAt c = (.error e, c') ∨
    ∃ n, IsCount n ∧ c.Passes (Encode.count n) c' ∧ c'.rest.length < n ∧
      e = .truncated c'.offset (n - c'.rest.length) := by
  rw [blob, runAt_bind_eq_error_iff]
  refine or_congr_right (exists_congr fun n => ?_)
  constructor
  · rintro ⟨middle, read, failed⟩
    obtain ⟨few, reason, rfl⟩ := take_eq_error_iff.1 failed
    obtain ⟨small, passed⟩ := count_eq_ok_iff.1 read
    exact ⟨small, passed, few, reason⟩
  · rintro ⟨small, passed, few, reason⟩
    exact ⟨c', count_eq_ok_iff.2 ⟨small, passed⟩, take_eq_error_iff.2 ⟨few, reason, rfl⟩⟩

theorem text_eq_error_iff : text.runAt c = (.error e, c') ↔ blob.runAt c = (.error e, c') ∨
    ∃ data, IsCount data.length ∧ c.Passes (Encode.blob data) c' ∧
      String.fromUTF8? (ByteArray.mk data.toArray) = none ∧ e = .invalidUtf8 c.offset := by
  rw [text, runAt_bind, runAt_offset]
  dsimp only
  rw [runAt_bind_eq_error_iff]
  refine or_congr_right (exists_congr fun data => ?_)
  constructor
  · rintro ⟨middle, read, failed⟩
    split at failed
    · simp at failed
    · rename_i invalid
      rw [runAt_throw, Prod.mk.injEq, Except.error.injEq] at failed
      obtain ⟨rfl, rfl⟩ := failed
      obtain ⟨small, passed⟩ := blob_eq_ok_iff.1 read
      exact ⟨small, passed, invalid, rfl⟩
  · rintro ⟨small, passed, invalid, rfl⟩
    exact ⟨c', blob_eq_ok_iff.2 ⟨small, passed⟩, by rw [invalid]; rfl⟩

end Decode

namespace Item

namespace Kind

variable {kind : Kind} {c c' : Cursor} {e : DecodeError}

theorem fails_word_iff (word : ¬kind.IsCounted) :
    kind.Fails c e c' ↔ (take kind.width).runAt c = (.error e, c') := by
  rw [take_eq_error_iff]
  constructor
  · intro fails
    cases fails with
    | short few => exact ⟨few, rfl, rfl⟩
    | negative counted => exact absurd counted word
    | cutOff content => exact absurd (.inr content) word
    | invalid => exact absurd (.inr (.inr rfl)) word
  · rintro ⟨few, rfl, rfl⟩
    exact .short few

theorem fails_of_count (counted : kind.IsCounted)
    (stopped : Decode.count.runAt c = (.error e, c')) : kind.Fails c e c' := by
  have width : kind.width = 4 := by rcases counted with rfl | rfl | rfl <;> rfl
  rcases count_eq_error_iff.1 stopped with ⟨few, rfl, rfl⟩ | ⟨n, negative, passed, rfl⟩
  · rw [← width] at few ⊢
    exact .short few
  · exact .negative counted negative passed

theorem fails_of_blob (content : kind.HasContent)
    (stopped : Decode.blob.runAt c = (.error e, c')) : kind.Fails c e c' := by
  rcases blob_eq_error_iff.1 stopped with stopped | ⟨n, small, passed, few, rfl⟩
  · exact fails_of_count (.inr content) stopped
  · exact .cutOff content small passed few

theorem fails_count_iff : count.Fails c e c' ↔ Decode.count.runAt c = (.error e, c') := by
  refine ⟨fun fails => count_eq_error_iff.2 ?_, fails_of_count (.inl rfl)⟩
  cases fails with
  | short few => exact .inl ⟨few, rfl, rfl⟩
  | negative _ negative passed => exact .inr ⟨_, negative, passed, rfl⟩
  | cutOff content => rcases content with content | content <;> simp at content

theorem fails_blob_iff : blob.Fails c e c' ↔ Decode.blob.runAt c = (.error e, c') := by
  refine ⟨fun fails => blob_eq_error_iff.2 ?_, fails_of_blob (.inl rfl)⟩
  cases fails with
  | short few => exact .inl (fails_count_iff.1 (.short few))
  | negative _ negative passed =>
    exact .inl (fails_count_iff.1 (.negative (.inl rfl) negative passed))
  | cutOff _ small passed few => exact .inr ⟨_, small, passed, few, rfl⟩

theorem fails_text_iff : text.Fails c e c' ↔ Decode.text.runAt c = (.error e, c') := by
  refine ⟨fun fails => text_eq_error_iff.2 ?_, fun stopped => ?_⟩
  · cases fails with
    | short few => exact .inl (fails_blob_iff.1 (.short few))
    | negative _ negative passed =>
      exact .inl (fails_blob_iff.1 (.negative (.inr (.inl rfl)) negative passed))
    | cutOff _ small passed few =>
      exact .inl (fails_blob_iff.1 (.cutOff (.inl rfl) small passed few))
    | invalid small passed none => exact .inr ⟨_, small, passed, none, rfl⟩
  · rcases text_eq_error_iff.1 stopped with stopped | ⟨data, small, passed, none, rfl⟩
    · exact fails_of_blob (.inr rfl) stopped
    · exact .invalid small passed none

theorem read_eq_error_iff : kind.read.runAt c = (.error e, c') ↔ kind.Fails c e c' := by
  cases kind with
  | byte | int32 | double =>
    rw [fails_word_iff (by decide)]
    exact runAt_map_eq_error_iff.trans runAt_map_eq_error_iff
  | bool =>
    rw [fails_word_iff (by decide)]
    exact runAt_map_eq_error_iff.trans (runAt_map_eq_error_iff.trans runAt_map_eq_error_iff)
  | count => exact runAt_map_eq_error_iff.trans fails_count_iff.symm
  | blob => exact runAt_map_eq_error_iff.trans fails_blob_iff.symm
  | text => exact runAt_map_eq_error_iff.trans fails_text_iff.symm

end Kind

theorem reads {item : Item} (fit : item.CountsFit) :
    Reads item.kind.read item.encode (some item) := by
  cases item with
  | byte b => exact (Reads.byte b).map
  | int32 i => exact (Reads.int32 i).map
  | double d => exact (Reads.double d).map
  | bool b => exact (Reads.bool b).map
  | count n => exact (Reads.count fit).map
  | blob data => exact (Reads.blob fit).map
  | text s => exact (Reads.text fit).map

theorem reads_all {items : List Item} (fit : ∀ item ∈ items, item.CountsFit) :
    Reads ((items.map kind).mapM Kind.read) (items.flatMap encode) (some items) := by
  have all : Reads (items.mapM (Kind.read ∘ kind)) (items.flatMap encode) (items.mapM some) :=
    Reads.mapM fun item hi => reads (fit item hi)
  have whole : items.mapM some = some items := by
    simpa using List.mapM_pure (m := Option) (f := id) (l := items)
  rwa [List.mapM_map, ← whole]

/-- What can be asked of a cursor: an item of a kind, or all the bytes that are left. -/
inductive Call where
  | item (kind : Kind)
  | remaining

/-- The cursor after a call, whether the call fails or not. -/
def Call.after (c : Cursor) : Call → Cursor
  | item kind => (kind.read.runAt c).2
  | remaining => (Decode.remaining.runAt c).2

/-- The cursor after calls, each made where the one before has left the cursor. -/
def Call.afterAll (calls : List Call) (c : Cursor) : Cursor := calls.foldl Call.after c

end Item

namespace Cursor

variable {c c' last : Cursor}

theorem Passes.trans {bytes bytes' : Bytes} (first : c.Passes bytes c')
    (second : c'.Passes bytes' last) : c.Passes (bytes ++ bytes') last where
  rest := by rw [first.rest, second.rest, List.append_assoc]
  offset := by rw [second.offset, first.offset, List.length_append, Nat.add_assoc]

def Reaches (c c' : Cursor) : Prop := ∃ bytes, c.Passes bytes c'

theorem Reaches.refl (c : Cursor) : c.Reaches c := by
  exact ⟨[], rfl, rfl⟩

theorem Reaches.trans (first : c.Reaches c') (second : c'.Reaches last) : c.Reaches last := by
  obtain ⟨bytes, first⟩ := first
  obtain ⟨bytes', second⟩ := second
  exact ⟨_, first.trans second⟩

theorem Reaches.offset_le (reaches : c.Reaches c') : c.offset ≤ c'.offset := by
  obtain ⟨bytes, passed⟩ := reaches
  rw [passed.offset]
  exact Nat.le_add_right _ _

theorem Reaches.of_bytes {bytes : Bytes} (reaches : (ofBytes bytes).Reaches c) :
    c.rest = bytes.drop c.offset ∧ c.offset + c.rest.length = bytes.length := by
  obtain ⟨taken, rest, offset⟩ := reaches
  have whole : bytes = taken ++ c.rest := rest
  have start : c.offset = taken.length := offset.trans (Nat.zero_add _)
  rw [whole, start, List.drop_left, List.length_append]
  exact ⟨rfl, rfl⟩

end Cursor

namespace Item

open Cursor

theorem Kind.Fails.reaches {kind : Kind} {c c' : Cursor} {e : DecodeError}
    (fails : kind.Fails c e c') : c.Reaches c' := by
  cases fails with
  | short => exact .refl c
  | negative _ _ passed => exact ⟨_, passed⟩
  | cutOff _ _ passed => exact ⟨_, passed⟩
  | invalid _ passed => exact ⟨_, passed⟩

theorem Kind.spells (kind : Kind) : Spells kind.read fun _ _ => True := by
  cases kind with
  | byte => exact (Spells.byte.map _).imp fun _ _ _ => trivial
  | int32 => exact (Spells.int32.map _).imp fun _ _ _ => trivial
  | double => exact (Spells.double.map _).imp fun _ _ _ => trivial
  | bool => exact (Spells.bool.map _).imp fun _ _ _ => trivial
  | count => exact (Spells.count.map _).imp fun _ _ _ => trivial
  | blob => exact (Spells.blob.map _).imp fun _ _ _ => trivial
  | text => exact (Spells.text.map _).imp fun _ _ _ => trivial

theorem Call.reaches_after (c : Cursor) (call : Call) : c.Reaches (call.after c) := by
  cases call with
  | item kind =>
    rcases run : kind.read.runAt c with ⟨e | item, c'⟩
    · have fails := Kind.read_eq_error_iff.1 run
      rw [after, run]
      exact fails.reaches
    · obtain ⟨bytes, rest, offset, -⟩ := kind.spells c item c' run
      rw [after, run]
      exact ⟨bytes, rest, offset⟩
  | remaining => exact ⟨c.rest, (List.append_nil _).symm, rfl⟩

theorem Call.reaches_afterAll (calls : List Call) (c : Cursor) : c.Reaches (afterAll calls c) := by
  induction calls generalizing c with
  | nil => exact .refl c
  | cons call calls ih => exact (reaches_after c call).trans (ih (call.after c))

/-- Items whose counts and lengths the format can hold are read back from their bytes, one after
the other, and nothing is left. Whatever has been asked of a cursor before, and whatever of it
failed, the cursor stands in the bytes that it began with as far in as its offset says, the next
call does not move it back, and the next read fails exactly as `Kind.Fails` says. -/
theorem read_exactly :
    (∀ items : List Item, (∀ item ∈ items, item.CountsFit) →
      ((items.map kind).mapM Kind.read).runAt (ofBytes (items.flatMap encode)) =
        (.ok items, ⟨[], (items.flatMap encode).length⟩)) ∧
    ∀ (bytes : Bytes) (calls : List Call),
      let c := Call.afterAll calls (ofBytes bytes)
      c.rest = bytes.drop c.offset ∧ c.offset + c.rest.length = bytes.length ∧
        (∀ call, c.offset ≤ (Call.after c call).offset) ∧
        ∀ (kind : Kind) e c', kind.read.runAt c = (.error e, c') ↔ kind.Fails c e c' := by
  refine ⟨fun items fit => ?_, fun bytes calls => ?_⟩
  · have run := (reads_all fit).gives items rfl [] 0
    rwa [List.append_nil, Nat.zero_add] at run
  · obtain ⟨rest, whole⟩ := (Call.reaches_afterAll calls (ofBytes bytes)).of_bytes
    exact ⟨rest, whole, fun call => (Call.reaches_after _ call).offset_le,
      fun _ _ _ => Kind.read_eq_error_iff⟩

theorem read_exactly_mixed :
    let items := [int32 (-7), byte 200, double ⟨0x3ff8000000000000⟩, text "héllo", blob [1, 2],
      count 3, bool true]
    let bytes : Bytes := [255, 255, 255, 255, 0, 0, 0, 3, 65]
    let c := Call.afterAll [.item .count, .item .blob] (ofBytes bytes)
    (∀ item ∈ items, item.CountsFit) ∧
      ((items.map kind).mapM Kind.read).runAt (ofBytes (items.flatMap encode)) =
        (.ok items, ⟨[], 34⟩) ∧
      c = ⟨[65], 8⟩ ∧ Kind.int32.Fails c (.truncated 8 3) c ∧
      Kind.int32.read.runAt c = (.error (.truncated 8 3), c) := by
  intro items bytes c
  have fit : ∀ item ∈ items, item.CountsFit := by decide
  have place : c = ⟨[65], 8⟩ := by decide
  have fails : Kind.int32.Fails c (.truncated 8 3) c := by
    rw [place]
    exact .short (by decide)
  obtain ⟨-, -, -, exactly⟩ := read_exactly.2 bytes [.item .count, .item .blob]
  exact ⟨fit, read_exactly.1 items fit, place, fails, (exactly .int32 _ _).2 fails⟩

end Item

end NodeScript
