import NodeScript.Proofs.Bytes.Reads

/-!
Reads on bytes that are cut off. `Decode.Takes` says that a read gives an item for some bytes
whatever follows them, and that it is cut short on any fewer of them; a read is measured if this is
so of every item that it ever gives. Main statements: what is made of measured reads is measured.
-/

set_option autoImplicit false
set_option relaxedAutoImplicit false

namespace NodeScript

/-- The bytes ended too early. -/
def DecodeError.IsTruncated (e : DecodeError) : Prop :=
  ∃ offset needed, e = .truncated offset needed

namespace Decode

variable {α β σ : Type}

/-- From an offset on, a read takes the given bytes for an item, and no fewer. -/
structure Takes (read : Decode α) (offset : Nat) (bytes : Bytes) (a : α) : Prop where
  gives : ∀ rest, read.runAt ⟨bytes ++ rest, offset⟩ = (.ok a, ⟨rest, offset + bytes.length⟩)
  cut : ∀ m < bytes.length, ∃ e c, read.runAt ⟨bytes.take m, offset⟩ = (.error e, c) ∧
    e.IsTruncated

def Measured (read : Decode α) : Prop :=
  ∀ c a c', read.runAt c = (.ok a, c') →
    ∃ bytes, c.rest = bytes ++ c'.rest ∧ Takes read c.offset bytes a

/-- What takes no bytes cannot be cut short. -/
theorem Takes.still {read : Decode α} {offset : Nat} {a : α}
    (gives : ∀ rest, read.runAt ⟨rest, offset⟩ = (.ok a, ⟨rest, offset⟩)) :
    Takes read offset [] a := by
  refine ⟨gives, ?_⟩
  intro m short
  exact absurd short (Nat.not_lt_zero m)

theorem Takes.bind {read : Decode α} {next : α → Decode β} {offset : Nat} {bytes bytes' : Bytes}
    {a : α} {b : β} (first : Takes read offset bytes a)
    (second : Takes (next a) (offset + bytes.length) bytes' b) :
    Takes (read >>= next) offset (bytes ++ bytes') b := by
  constructor
  · intro rest
    rw [runAt_bind, List.append_assoc, first.gives, List.length_append, ← Nat.add_assoc]
    exact second.gives rest
  · intro m short
    rw [runAt_bind]
    by_cases early : m < bytes.length
    · obtain ⟨e, c, stopped, reason⟩ := first.cut m early
      rw [List.take_append_of_le_length (Nat.le_of_lt early), stopped]
      exact ⟨e, c, rfl, reason⟩
    · obtain ⟨k, rfl⟩ := Nat.exists_eq_add_of_le (Nat.le_of_not_lt early)
      rw [List.length_append] at short
      rw [List.take_length_add_append, first.gives]
      exact second.cut k (Nat.lt_of_add_lt_add_left short)

/-- What is taken of a whole file. -/
theorem Takes.result {read : Decode α} {bytes rest : Bytes} {a : α} (takes : Takes read 0 bytes a) :
    read.result (bytes ++ rest) = .ok a := congrArg Prod.fst (takes.gives rest)

theorem Takes.result_cut {read : Decode α} {bytes : Bytes} {a : α} (takes : Takes read 0 bytes a)
    {m : Nat} (short : m < bytes.length) :
    ∃ e, read.result (bytes.take m) = .error e ∧ e.IsTruncated := by
  obtain ⟨e, c, stopped, reason⟩ := takes.cut m short
  exact ⟨e, congrArg Prod.fst stopped, reason⟩

namespace Measured

/-- A read that leaves the cursor where it is, whatever comes behind it. -/
theorem still {read : Decode α} (answer : Nat → Except DecodeError α)
    (same : ∀ c, read.runAt c = (answer c.offset, c)) : Measured read := by
  intro c a c' found
  rw [same, Prod.mk.injEq] at found
  obtain ⟨given, rfl⟩ := found
  exact ⟨[], rfl, .still fun rest => by rw [same, given]⟩

theorem pure (a : α) : Measured (Pure.pure a : Decode α) := by
  exact still (fun _ => .ok a) fun _ => rfl

theorem throw (e : DecodeError) : Measured (throw e : Decode α) := by
  exact still (fun _ => .error e) fun _ => rfl

theorem offset : Measured Decode.offset := by
  exact still .ok fun _ => rfl

/-- Bytes that were read before are read on their own. -/
theorem within (bytes : Bytes) (read : Decode α) : Measured (Decode.within bytes read) := by
  refine still (fun _ => read.result bytes) fun _ => ?_
  rw [Decode.within]
  cases read.result bytes <;> rfl

theorem take (n : Nat) : Measured (Decode.take n) := by
  intro c bytes c' found
  rw [runAt_take] at found
  split at found
  · rename_i whole
    rw [Prod.mk.injEq, Except.ok.injEq] at found
    obtain ⟨rfl, rfl⟩ := found
    have length : (c.rest.take n).length = n := by
      rw [List.length_take] at whole ⊢
      omega
    refine ⟨c.rest.take n, (List.take_append_drop n c.rest).symm, fun rest => ?_, fun m short => ?_⟩
    · rw [runAt_take, List.take_left' length, List.drop_left' length, if_pos whole, length]
    · have missing : n - ((((c.rest.take n).take m).take n).length) ≠ 0 := by
        simp only [List.length_take] at length short ⊢
        omega
      exact ⟨_, _, by rw [runAt_take, if_neg missing], _, _, rfl⟩
  · simp at found

theorem bind {read : Decode α} {next : α → Decode β} (first : Measured read)
    (rest : ∀ a, Measured (next a)) : Measured (read >>= next) := by
  intro c b last found
  rw [runAt_bind] at found
  split at found
  · rename_i a middle read
    obtain ⟨bytes, before, taken⟩ := first c a middle read
    obtain ⟨bytes', behind, taken'⟩ := rest a middle b last found
    have onwards : middle.offset = c.offset + bytes.length := by
      have run := taken.gives middle.rest
      rw [← before, read, Prod.mk.injEq] at run
      exact congrArg Cursor.offset run.2
    refine ⟨bytes ++ bytes', by rw [before, behind, List.append_assoc], ?_⟩
    rw [onwards] at taken'
    exact taken.bind taken'
  · simp at found

theorem map {read : Decode α} {f : α → β} (first : Measured read) :
    Measured (do return f (← read)) := by
  refine first.bind fun a => ?_
  exact pure (f a)

theorem iterate {read : σ → Decode σ} (each : ∀ state, Measured (read state)) (n : Nat)
    (state : σ) :
    Measured (Decode.iterate read n state) := by
  induction n generalizing state with
  | zero => exact pure state
  | succ n ih =>
    rw [iterate_succ]
    exact (each state).bind ih

theorem times {read : Decode α} (each : Measured read) (n : Nat) : Measured (Decode.times n read) :=
  (iterate (fun _ => each.map) n []).map

theorem mapM {read : β → Decode α} {items : List β} (each : ∀ b ∈ items, Measured (read b)) :
    Measured (items.mapM read) := by
  induction items with
  | nil => exact pure []
  | cons b items ih =>
    rw [List.forall_mem_cons] at each
    rw [List.mapM_cons]
    exact each.1.bind fun _ => (ih each.2).map

theorem byte : Measured Decode.byte := (take 1).map

theorem int32 : Measured Decode.int32 := (take 4).map

theorem double : Measured Decode.double := (take 8).map

theorem count : Measured Decode.count := by
  refine offset.bind fun _ => ?_
  refine int32.bind fun n => ?_
  split
  · exact throw _
  · exact pure _

theorem blob : Measured Decode.blob := count.bind take

theorem text : Measured Decode.text := by
  refine offset.bind fun _ => ?_
  refine blob.bind fun data => ?_
  cases String.fromUTF8? (ByteArray.mk data.toArray)
  · exact throw _
  · exact pure _

theorem many {read : Decode α} (each : Measured read) : Measured (Decode.many read) :=
  count.bind each.times

end Measured

end Decode

end NodeScript
