/-!
Search along edges in a finite domain. Each expansion takes an element out of the domain, so the
search ends whatever the edges are. The domain is a list, or, for elements with numbered places,
an array of marks.
-/

set_option autoImplicit false
set_option relaxedAutoImplicit false

namespace NodeScript

variable {α : Type}

/-- Whether an element that meets the goal can be reached from the pending ones, where only the
elements of the domain have edges that count. -/
def leadsTo [DecidableEq α] (edges : α → List α) (goal : α → Bool) (domain : List α) :
    List α → Bool
  | [] => false
  | a :: pending =>
    if goal a then true
    else if a ∈ domain then leadsTo edges goal (domain.erase a) (edges a ++ pending)
    else leadsTo edges goal domain pending
termination_by pending => (domain.length, pending.length)
decreasing_by
  · have shorter := List.length_erase_of_mem (a := a) (l := domain) ‹_›
    have nonempty := List.length_pos_of_mem (a := a) (l := domain) ‹_›
    exact Prod.Lex.left _ _ (by omega)
  · exact Prod.Lex.right _ (by simp)

theorem count_setIfInBounds_lt {marks : Array Bool} {i : Nat} (h : marks[i]? = some true) :
    (marks.setIfInBounds i false).count true < marks.count true := by
  obtain ⟨hi, hm⟩ := Array.getElem?_eq_some_iff.1 h
  have marked : true ∈ marks := by
    rw [← hm]
    exact Array.getElem_mem hi
  have hpos : 0 < marks.count true := Array.count_pos_iff.2 marked
  rw [Array.setIfInBounds, dif_pos hi, Array.count_set]
  simp only [hm, beq_self_eq_true, if_true, Bool.false_beq, Bool.not_true, Bool.false_eq_true,
    if_false]
  omega

/-- Whether an element that meets the goal can be reached from the pending ones, where only the
elements whose places are marked have edges that count. -/
@[specialize]
def leadsToMarked (place : α → Nat) (edges : α → List α) (goal : α → Bool) (marks : Array Bool) :
    List α → Bool
  | [] => false
  | a :: pending =>
    if goal a then true
    else if _marked : marks[place a]? = some true then
      leadsToMarked place edges goal (marks.setIfInBounds (place a) false) (edges a ++ pending)
    else leadsToMarked place edges goal marks pending
termination_by pending => (marks.count true, pending.length)
decreasing_by
  · exact Prod.Lex.left _ _ (count_setIfInBounds_lt _marked)
  · exact Prod.Lex.right _ (by simp)

end NodeScript
