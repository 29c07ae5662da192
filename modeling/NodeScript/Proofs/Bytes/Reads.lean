import Mathlib.Data.List.Forall2
import NodeScript.Bytes.Decode

/-!
What reads do. `Decode.Reads` says what a read makes of some bytes whatever follows them: it gives
an item and stops behind the bytes, or it fails. Main statements: the answer of a read that is made
of parts is made of the answers of the parts.
-/

set_option autoImplicit false
set_option relaxedAutoImplicit false

namespace NodeScript.Decode

variable {α β σ : Type}

@[simp] theorem runAt_pure (a : α) (c : Cursor) : (pure a : Decode α).runAt c = (.ok a, c) := rfl

@[simp] theorem runAt_throw (e : DecodeError) (c : Cursor) :
    (throw e : Decode α).runAt c = (.error e, c) := rfl

theorem runAt_bind (read : Decode α) (next : α → Decode β) (c : Cursor) :
    (read >>= next).runAt c =
      match read.runAt c with
      | (.ok a, c) => (next a).runAt c
      | (.error e, c) => (.error e, c) := by
  show (ExceptT.run (ExceptT.bind read next)).run c = _
  simp only [ExceptT.bind, ExceptT.run, ExceptT.mk, runAt, StateT.run, bind, StateT.bind]
  rcases h : read c with ⟨result, c'⟩
  cases result <;> rfl

theorem runAt_bind_eq_ok_iff {read : Decode α} {next : α → Decode β} {c c' : Cursor} {b : β} :
    (read >>= next).runAt c = (.ok b, c') ↔
      ∃ a middle, read.runAt c = (.ok a, middle) ∧ (next a).runAt middle = (.ok b, c') := by
  rw [runAt_bind]
  split
  · rename_i a middle first
    simp [first]
  · rename_i e middle first
    simp [first]

theorem runAt_take (n : Nat) (c : Cursor) :
    (take n).runAt c =
      if n - (c.rest.take n).length = 0 then (.ok (c.rest.take n), ⟨c.rest.drop n, c.offset + n⟩)
      else (.error (.truncated c.offset (n - (c.rest.take n).length)), c) := rfl

theorem runAt_offset (c : Cursor) : offset.runAt c = (.ok c.offset, c) := rfl

/-- What a read makes of bytes, whatever follows them: the item, the cursor being behind the
bytes then, or nothing. -/
structure Reads (read : Decode α) (bytes : Bytes) (answer : Option α) : Prop where
  gives : ∀ a, answer = some a → ∀ rest offset,
    read.runAt ⟨bytes ++ rest, offset⟩ = (.ok a, ⟨rest, offset + bytes.length⟩)
  fails : answer = none → ∀ rest offset, ∃ e c, read.runAt ⟨bytes ++ rest, offset⟩ = (.error e, c)

theorem Reads.of_some {read : Decode α} {bytes : Bytes} {a : α}
    (gives : ∀ rest offset,
      read.runAt ⟨bytes ++ rest, offset⟩ = (.ok a, ⟨rest, offset + bytes.length⟩)) :
    Reads read bytes (some a) := by
  refine ⟨?_, ?_⟩
  · intro _ same
    obtain rfl := Option.some.inj same
    exact gives
  · intro absent
    simp at absent

theorem Reads.pure (a : α) : Reads (pure a) [] (some a) := by
  exact .of_some fun _ _ => rfl

theorem Reads.throw (e : DecodeError) (bytes : Bytes) :
    Reads (throw e : Decode α) bytes none := by
  refine ⟨?_, ?_⟩
  · intro _ absent
    simp at absent
  · intro _ _ _
    exact ⟨e, _, rfl⟩

theorem Reads.bind {read : Decode α} {next : α → Decode β} {bytes bytes' : Bytes}
    {answer : Option α} {answer' : α → Option β} (first : Reads read bytes answer)
    (second : ∀ a, answer = some a → Reads (next a) bytes' (answer' a)) :
    Reads (read >>= next) (bytes ++ bytes') (answer.bind answer') := by
  cases answer with
  | none =>
    refine ⟨fun b absent => by simp at absent, fun _ rest offset => ?_⟩
    obtain ⟨e, c, failed⟩ := first.fails rfl (bytes' ++ rest) offset
    exact ⟨e, c, by rw [runAt_bind, List.append_assoc, failed]⟩
  | some a =>
    have start (rest : Bytes) (offset : Nat) := first.gives a rfl (bytes' ++ rest) offset
    have onwards := second a rfl
    constructor
    · intro b found rest offset
      rw [runAt_bind, List.append_assoc, start, List.length_append, ← Nat.add_assoc]
      exact onwards.gives b found rest _
    · intro absent rest offset
      rw [runAt_bind, List.append_assoc, start]
      exact onwards.fails absent rest _

theorem Reads.result {read : Decode α} {bytes : Bytes} {a : α}
    (reads : Reads read bytes (some a)) : read.result bytes = .ok a := by
  have run := reads.gives a rfl [] 0
  rw [List.append_nil] at run
  exact congrArg Prod.fst run

theorem Reads.result_none {read : Decode α} {bytes : Bytes} (reads : Reads read bytes none) :
    ∃ e, read.result bytes = .error e := by
  obtain ⟨e, c, run⟩ := reads.fails rfl [] 0
  rw [List.append_nil] at run
  exact ⟨e, congrArg Prod.fst run⟩

theorem Reads.andThen {read : Decode α} {next : α → Decode β} {bytes bytes' : Bytes} {a : α}
    {answer : Option β} (first : Reads read bytes (some a))
    (second : Reads (next a) bytes' answer) : Reads (read >>= next) (bytes ++ bytes') answer := by
  have onwards (b : α) (same : some a = some b) : Reads (next b) bytes' answer := by
    obtain rfl := Option.some.inj same
    exact second
  have both := first.bind onwards
  exact both

/-- A read that is followed by a computation without bytes. -/
theorem Reads.map {read : Decode α} {f : α → β} {bytes : Bytes} {answer : Option α}
    (first : Reads read bytes answer) :
    Reads (do return f (← read)) bytes (answer.map f) := by
  have both := first.bind fun a _ => Reads.pure (f a)
  rw [List.append_nil] at both
  cases answer <;> exact both

theorem Reads.take {bytes : Bytes} {n : Nat} (length : bytes.length = n) :
    Reads (take n) bytes (some bytes) := by
  subst length
  refine .of_some fun rest offset => ?_
  simp [runAt_take]

theorem Reads.offset_bind {next : Nat → Decode α} {bytes : Bytes} {answer : Option α}
    (onwards : ∀ start, Reads (next start) bytes answer) :
    Reads (Decode.offset >>= next) bytes answer := by
  constructor
  · intro a found rest offset
    rw [runAt_bind, runAt_offset]
    exact (onwards offset).gives a found rest offset
  · intro absent rest offset
    rw [runAt_bind, runAt_offset]
    exact (onwards offset).fails absent rest offset

theorem iterate_succ (read : σ → Decode σ) (n : Nat) (state : σ) :
    iterate read (n + 1) state = read state >>= iterate read n := by
  funext c
  have steps := runAt_bind (read state) (iterate read n) c
  rw [show (read state >>= iterate read n) c = (read state >>= iterate read n).runAt c from rfl,
    steps]
  rfl

theorem Reads.iterate {read : σ → Decode σ} {encode : β → Bytes} {step : σ → β → Option σ}
    {items : List β} (each : ∀ b ∈ items, ∀ state, Reads (read state) (encode b) (step state b))
    (state : σ) :
    Reads (iterate read items.length state) (items.flatMap encode) (items.foldlM step state) := by
  induction items generalizing state with
  | nil => exact Reads.pure state
  | cons b items ih =>
    rw [List.length_cons, iterate_succ, List.flatMap_cons, List.foldlM_cons]
    exact (each b List.mem_cons_self state).bind fun next _ =>
      ih (fun b hb => each b (List.mem_cons_of_mem _ hb)) next

private theorem foldlM_collect (answer : β → Option α) (items : List β) (done : List α) :
    items.foldlM (fun done b => (answer b).map (· :: done)) done =
      (items.mapM answer).map fun found => found.reverse ++ done := by
  induction items generalizing done with
  | nil => simp
  | cons b items ih =>
    rw [List.foldlM_cons, List.mapM_cons]
    cases answer b with
    | none => rfl
    | some a =>
      simp only [Option.map_some, Option.bind_eq_bind, Option.bind_some, ih]
      cases items.mapM answer <;> simp

theorem Reads.times {read : Decode α} {encode : β → Bytes} {answer : β → Option α}
    {items : List β} (each : ∀ b ∈ items, Reads read (encode b) (answer b)) :
    Reads (times items.length read) (items.flatMap encode) (items.mapM answer) := by
  have loop := Reads.iterate (fun b hb done => (each b hb).map (f := fun a => a :: done)) []
  rw [foldlM_collect] at loop
  have reversed := loop.map (f := List.reverse)
  have same : (items.mapM answer).map (List.reverse ∘ fun found => found.reverse ++ []) =
      items.mapM answer := by simp
  rw [Option.map_map, same] at reversed
  exact reversed

theorem Reads.mapM {read : β → Decode α} {encode : β → Bytes} {answer : β → Option α}
    {items : List β} (each : ∀ b ∈ items, Reads (read b) (encode b) (answer b)) :
    Reads (items.mapM read) (items.flatMap encode) (items.mapM answer) := by
  induction items with
  | nil => exact Reads.pure []
  | cons b items ih =>
    rw [List.mapM_cons, List.flatMap_cons, List.mapM_cons]
    refine (each b List.mem_cons_self).bind fun a _ => ?_
    have rest := (ih fun b hb => each b (List.mem_cons_of_mem _ hb)).map (f := fun as => a :: as)
    have same : (items.mapM answer).map (fun as => a :: as) =
        do return a :: (← items.mapM answer) := by cases items.mapM answer <;> rfl
    rw [← same]
    exact rest

/-- The read gives the item for some bytes. -/
def Gives (read : Decode α) (a : α) : Prop := ∃ c c', read.runAt c = (.ok a, c')

theorem gives_of_result {read : Decode α} {bytes : Bytes} {a : α}
    (h : read.result bytes = .ok a) : Gives read a := by
  exact ⟨Cursor.ofBytes bytes, (read.runAt (Cursor.ofBytes bytes)).2, Prod.ext h rfl⟩

theorem Gives.of_pure {a b : α} (h : Gives (Pure.pure a : Decode α) b) : a = b := by
  obtain ⟨c, c', run⟩ := h
  rw [runAt_pure, Prod.mk.injEq, Except.ok.injEq] at run
  exact run.1

theorem Gives.not_throw {e : DecodeError} {a : α} : ¬Gives (throw e : Decode α) a := by
  rintro ⟨c, c', run⟩
  simp at run

theorem Gives.of_bind {read : Decode α} {next : α → Decode β} {b : β}
    (h : Gives (read >>= next) b) : ∃ a, Gives read a ∧ Gives (next a) b := by
  obtain ⟨c, c', run⟩ := h
  obtain ⟨a, middle, first, run⟩ := runAt_bind_eq_ok_iff.1 run
  exact ⟨a, ⟨c, middle, first⟩, ⟨middle, c', run⟩⟩

theorem Gives.of_mapM {read : β → Decode α} {items : List β} {found : List α}
    (h : Gives (items.mapM read) found) :
    List.Forall₂ (fun b a => Gives (read b) a) items found := by
  induction items generalizing found with
  | nil =>
    rw [← h.of_pure]
    exact .nil
  | cons b items ih =>
    rw [List.mapM_cons] at h
    obtain ⟨a, first, h⟩ := h.of_bind
    obtain ⟨as, rest, h⟩ := h.of_bind
    rw [← h.of_pure]
    exact .cons first (ih rest)

theorem Gives.of_iterate {read : σ → Decode σ} {n : Nat} {state last : σ}
    (h : Gives (iterate read n state) last) (property : σ → Prop)
    (keeps : ∀ state next, property state → Gives (read state) next → property next)
    (start : property state) : property last := by
  induction n generalizing state with
  | zero =>
    rw [← h.of_pure]
    exact start
  | succ n ih =>
    rw [iterate_succ] at h
    obtain ⟨next, first, h⟩ := h.of_bind
    exact ih h (keeps state next start first)

theorem Gives.of_times {read : Decode α} {n : Nat} {items : List α}
    (h : Gives (times n read) items) :
    ∀ a ∈ items, Gives read a := by
  obtain ⟨done, loop, h⟩ := h.of_bind
  obtain rfl := h.of_pure
  have all := loop.of_iterate (fun done => ∀ a ∈ done, Gives read a)
    (fun done next each given => by
      obtain ⟨a, first, given⟩ := given.of_bind
      obtain rfl := given.of_pure
      exact List.forall_mem_cons.2 ⟨first, each⟩) (by simp)
  intro a ha
  exact all a (List.mem_reverse.1 ha)

theorem Gives.length_of_times {read : Decode α} {n : Nat} {items : List α}
    (h : Gives (times n read) items) : items.length = n := by
  obtain ⟨done, loop, h⟩ := h.of_bind
  obtain rfl := h.of_pure
  have longer (n : Nat) (before last : List α)
      (loop : Gives (iterate (fun done => do return (← read) :: done) n before) last) :
      last.length = before.length + n := by
    induction n generalizing before with
    | zero =>
      rw [loop.of_pure]
      exact rfl
    | succ n ih =>
      rw [iterate_succ] at loop
      obtain ⟨next, first, rest⟩ := loop.of_bind
      obtain ⟨a, -, first⟩ := first.of_bind
      obtain rfl := first.of_pure
      rw [ih (a :: before) rest, List.length_cons]
      omega
  rw [List.length_reverse, longer n [] done loop, List.length_nil, Nat.zero_add]

theorem Gives.of_within {read : Decode α} {bytes : Bytes} {a : α}
    (h : Gives (Decode.within bytes read) a) : Gives read a := by
  cases found : read.result bytes with
  | ok b =>
    rw [Decode.within, found] at h
    have same : b = a := h.of_pure
    subst same
    exact gives_of_result found
  | error e =>
    rw [Decode.within, found] at h
    exact absurd h Gives.not_throw

theorem Gives.of_many {read : Decode α} {items : List α} (h : Gives (many read) items) :
    ∀ a ∈ items, Gives read a := by
  obtain ⟨n, -, h⟩ := h.of_bind
  exact h.of_times

end NodeScript.Decode
