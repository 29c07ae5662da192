import NodeScript.DataType.Basic

/-!
The comparison of types whose parts are shared. A struct declared over others holds their fields,
and the same fields may be reached along many paths: a struct with two fields of one type, over
such a struct, and so on, has few parts and very many paths. `DataType.same` walks the paths;
`DataType.fits` gives the same answer, and stops where both sides have come to one and the same
list of fields. Main statement: the two agree on all types.
-/

set_option autoImplicit false
set_option relaxedAutoImplicit false

namespace NodeScript.DataType

mutual

theorem same_refl : ∀ type : DataType, type.same type = true
  | signal | number | text | boolean | player => rfl
  | list element => same_refl element
  | struct _ fields => sameFields_refl fields

theorem sameFields_refl : ∀ fields : List Field, sameFields fields fields = true
  | [] => rfl
  | (name, type) :: fields => by
    rw [sameFields, beq_self_eq_true, same_refl type, sameFields_refl fields]
    rfl

end

/-- The outcome of a computation, together with the proof that it is the given truth value. -/
abbrev Answer (truth : Bool) := { answer : Bool // answer = truth }

/-- The answer to a question on two values whose answer is yes when they are equal. It is looked
for only where the two are not one object. -/
@[inline] def Answer.ofShared {α : Type} (a b : α) {truth : Bool} (refl : a = b → truth = true)
    (search : Unit → Answer truth) : Answer truth :=
  ⟨withPtrEq a b (fun _ => (search ()).1) fun equal => (search ()).2.trans (refl equal),
    (search ()).2⟩

mutual

/-- Whether two types are the same, without a walk over fields that they share. -/
def decideSame : (a b : DataType) → Answer (a.same b)
  | list a, list b => decideSame a b
  | struct _ fs, struct _ gs =>
    .ofShared fs gs (fun equal => equal ▸ sameFields_refl fs) fun _ => decideSameFields fs gs
  | a, b => ⟨a.same b, rfl⟩

def decideSameFields : (fs gs : List Field) → Answer (sameFields fs gs)
  | (m, a) :: fs, (n, b) :: gs =>
    ⟨m == n && (decideSame a b).1 && (decideSameFields fs gs).1, by
      rw [(decideSame a b).2, (decideSameFields fs gs).2, sameFields]⟩
  | fs, gs => ⟨sameFields fs gs, rfl⟩

end

/-- Whether a wire may join ports of two types. -/
def fits (a b : DataType) : Bool :=
  (a.decideSame b).1

@[simp] theorem fits_eq_same (a b : DataType) : a.fits b = a.same b :=
  (a.decideSame b).2

end NodeScript.DataType
