import Mathlib.Data.List.TakeWhile
import NodeScript.DataType.Name
import NodeScript.Proofs.Bytes.Nested

/-!
Types and the names that they are read from. `DataType.Spaced` says that a name is another one with
white space around its levels of nesting, and `DataType.IsNamable` which types have a name that is
read as theirs. Main statement: `DataType.ofName?_displayName`: a type is read from the name that it
is shown under, and a name that is read is the one that its type is shown under, white space apart.
-/

set_option autoImplicit false
set_option relaxedAutoImplicit false

namespace NodeScript

namespace Text

def IsBlank (s : List Char) : Prop := ∀ c ∈ s, isBlank c = true

/-- No white space at either end. -/
structure IsTight (s : List Char) : Prop where
  first : ∀ c, s.head? = some c → isBlank c = false
  last : ∀ c, s.getLast? = some c → isBlank c = false

theorem trimLeft_append {before : List Char} (blank : IsBlank before) (s : List Char) :
    trimLeft (before ++ s) = trimLeft s := List.dropWhile_append_of_pos blank

theorem trimLeft_eq_self {s : List Char} (first : ∀ c, s.head? = some c → isBlank c = false) :
    trimLeft s = s := by
  cases s with
  | nil => rfl
  | cons c s => rw [trimLeft, List.dropWhile_cons_of_neg (by simp [first c rfl])]

theorem trim_padded {before s after : List Char} (blank : IsBlank before) (blank' : IsBlank after)
    (tight : IsTight s) : trim (before ++ s ++ after) = s := by
  have left : trimLeft (before ++ s ++ after) = s ++ after ∨ s = [] := by
    cases s with
    | nil => exact .inr rfl
    | cons c s =>
      rw [List.append_assoc, trimLeft_append blank]
      exact .inl (trimLeft_eq_self fun c' same => tight.first c' same)
  have blankReverse : IsBlank after.reverse := fun c hc => blank' c (List.mem_reverse.1 hc)
  rcases left with left | rfl
  · have right : trimLeft s.reverse = s.reverse :=
      trimLeft_eq_self fun c same => tight.last c (by rwa [List.head?_reverse] at same)
    rw [trim, left, List.reverse_append, trimLeft_append blankReverse, right, List.reverse_reverse]
  · have none : trimLeft (before ++ [] ++ after) = [] := by
      rw [List.append_nil, trimLeft_append blank]
      exact List.dropWhile_eq_nil_iff.2 blank'
    rw [trim, none]
    rfl

theorem trim_tight {s : List Char} (tight : IsTight s) : trim s = s := by
  have none : IsBlank [] := fun _ mem => absurd mem List.not_mem_nil
  have padded := trim_padded none none tight
  rwa [List.nil_append, List.append_nil] at padded

theorem head?_trimLeft {s : List Char} {c : Char} (first : (trimLeft s).head? = some c) :
    isBlank c = false := by
  have stops := List.head?_dropWhile_not isBlank s
  rwa [← trimLeft, first] at stops

theorem trimLeft_split (s : List Char) : ∃ before, IsBlank before ∧ s = before ++ trimLeft s := by
  refine ⟨s.takeWhile isBlank, ?_, List.takeWhile_append_dropWhile.symm⟩
  intro _ mem
  exact List.mem_takeWhile_imp mem

theorem trim_split (s : List Char) : ∃ before after, IsBlank before ∧ IsBlank after ∧
    IsTight (trim s) ∧ s = before ++ trim s ++ after := by
  obtain ⟨before, blank, left⟩ := trimLeft_split s
  obtain ⟨after, blank', right⟩ := trimLeft_split (trimLeft s).reverse
  have kept : trimLeft s = trim s ++ after.reverse := by
    rw [trim, ← List.reverse_append, ← right, List.reverse_reverse]
  refine ⟨before, after.reverse, blank, fun c mem => blank' c (List.mem_reverse.1 mem),
    ⟨fun c first => ?_, fun c last => ?_⟩, ?_⟩
  · refine head?_trimLeft (s := s) ?_
    rw [kept, List.head?_append, first]
    rfl
  · rw [trim, List.getLast?_reverse] at last
    exact head?_trimLeft last
  · rw [List.append_assoc, ← kept, ← left]

end Text

namespace DataType

def listName (element : List Char) : List Char :=
  'l' :: 'i' :: 's' :: 't' :: '<' :: (element ++ ['>'])

/-- The first name is the second with white space around its levels of nesting. -/
inductive Spaced : List Char → List Char → Prop where
  | plain {before name after : List Char} (blank : Text.IsBlank before)
      (blank' : Text.IsBlank after) (tight : Text.IsTight name)
      (plain : ∀ element, name ≠ listName element) : Spaced (before ++ name ++ after) name
  | list {before element element' after : List Char} (blank : Text.IsBlank before)
      (blank' : Text.IsBlank after) (inner : Spaced element element') :
      Spaced (before ++ listName element ++ after) (listName element')

theorem elementName?_eq_some_iff {name element : List Char} :
    elementName? name = some element ↔ name = listName element := by
  constructor
  · intro found
    unfold elementName? at found
    split at found
    · rename_i rest
      split at found
      · rename_i closed
        obtain ⟨front, rfl⟩ := List.getLast?_eq_some_iff.1 closed
        rw [List.dropLast_concat, Option.some.injEq] at found
        rw [found, listName]
      · simp at found
    · simp at found
  · rintro rfl
    simp [elementName?, listName]

theorem getLast?_listName (element : List Char) : (listName element).getLast? = some '>' :=
  List.getLast?_concat (l := ['l', 'i', 's', 't', '<'] ++ element)

theorem isTight_listName (element : List Char) : Text.IsTight (listName element) where
  first c same := by
    obtain rfl := Option.some.inj same
    decide
  last c same := by
    rw [getLast?_listName] at same
    obtain rfl := Option.some.inj same
    decide

/-- Without its white space a name is determined. -/
theorem Spaced.unique {name tight other : List Char} (spaced : Spaced name tight)
    (spaced' : Spaced name other) : other = tight := by
  have trimmed {name tight : List Char} (spaced : Spaced name tight) :
      (∃ element element', Text.trim name = listName element ∧ tight = listName element' ∧
        Spaced element element') ∨ Text.trim name = tight ∧
          ∀ element, tight ≠ listName element := by
    cases spaced with
    | plain blank blank' tight plain => exact .inr ⟨Text.trim_padded blank blank' tight, plain⟩
    | list blank blank' inner =>
      exact .inl ⟨_, _, Text.trim_padded blank blank' (isTight_listName _), rfl, inner⟩
  induction spaced generalizing other with
  | plain blank blank' tight plain =>
    rcases trimmed spaced' with ⟨element, _, same, -⟩ | ⟨same, -⟩
    · rw [Text.trim_padded blank blank' tight] at same
      exact absurd same (plain element)
    · rw [← same, Text.trim_padded blank blank' tight]
  | @list before element element' after blank blank' inner ih =>
    have same := Text.trim_padded blank blank' (isTight_listName element)
    rcases trimmed spaced' with ⟨other, other', same', rfl, inner'⟩ | ⟨same', plain⟩
    · rw [same] at same'
      have elements := elementName?_eq_some_iff.2 same'
      rw [elementName?_eq_some_iff.2 rfl, Option.some.injEq] at elements
      subst elements
      rw [ih inner']
    · exact absurd (same'.symm.trans same) (plain element)

def primitiveNames : List String := ["number", "text", "boolean", "player"]

/-- A type that has a name: no signal, and a struct that is found under its name, which is not read
in another way. -/
def IsNamable (known : List Schema) : DataType → Prop
  | signal => False
  | list element => element.IsNamable known
  | struct name fields => Schema.find? known name = some ⟨name, fields⟩ ∧
    Text.trim name.toList = name.toList ∧ name ∉ primitiveNames ∧
    ∀ element, name.toList ≠ listName element
  | number | text | boolean | player => True

variable {known : List Schema}

theorem primitive?_eq_none_iff {name : String} :
    primitive? name = none ↔ name ∉ primitiveNames := by
  unfold primitive?
  split <;> simp_all [primitiveNames]

theorem displayName_of_primitive? {name : String} {type : DataType}
    (found : primitive? name = some type) : type.displayName = name ∧ type.levels = 1 ∧
      type.IsNamable known ∧ ∀ element, name.toList ≠ listName element := by
  unfold primitive? at found
  split at found <;> first
    | obtain rfl := Option.some.inj found
      exact ⟨rfl, rfl, trivial, fun element same => by simp [listName] at same⟩
    | simp at found

theorem toList_displayName_list (element : DataType) :
    (list element).displayName.toList = listName element.displayName.toList := by
  simp [displayName, listName]

theorem ofNameWithin_displayName {n : Nat} {type : DataType} (namable : type.IsNamable known)
    (shallow : type.levels ≤ n) : ofNameWithin known n type.displayName.toList = some type := by
  induction n generalizing type with
  | zero => cases type <;> simp [levels] at shallow
  | succ n ih =>
    cases type with
    | signal => exact namable.elim
    | list element =>
      have inner := @ih element namable (Nat.le_of_succ_le_succ shallow)
      have other : primitive? (String.ofList (listName element.displayName.toList)) = none := by
        rw [primitive?_eq_none_iff]
        simp [primitiveNames, listName, String.ext_iff]
      rw [toList_displayName_list, ofNameWithin, Text.trim_tight (isTight_listName _)]
      simp only [other, elementName?_eq_some_iff.2 rfl, inner, Option.map_some]
    | struct name fields =>
      obtain ⟨found, tight, other, plain⟩ := namable
      have noElement : elementName? name.toList = none := by
        rw [Option.eq_none_iff_forall_ne_some]
        intro element same
        exact plain element (elementName?_eq_some_iff.1 same)
      rw [displayName, ofNameWithin, tight]
      simp only [String.ofList_toList, primitive?_eq_none_iff.2 other, noElement, found,
        Option.map_some, Schema.type]
    | number | text | boolean | player => rfl

/-- A name that is read is that of its type with white space. -/
theorem spaced_of_ofNameWithin {n : Nat} {name : List Char} {type : DataType}
    (found : ofNameWithin known n name = some type) :
    type.levels ≤ n ∧ type.IsNamable known ∧ Spaced name type.displayName.toList := by
  induction n generalizing name type with
  | zero => simp [ofNameWithin] at found
  | succ n ih =>
    obtain ⟨before, after, blank, blank', tight, split⟩ := Text.trim_split name
    simp only [ofNameWithin] at found
    split at found
    · rename_i primitive
      obtain rfl := Option.some.inj found
      obtain ⟨shown, level, namable, plain⟩ := displayName_of_primitive? primitive
      rw [String.toList_ofList] at plain
      have padded := Spaced.plain blank blank' tight plain
      rw [← split] at padded
      rw [shown, String.toList_ofList, level]
      exact ⟨Nat.succ_le_succ (Nat.zero_le n), namable, padded⟩
    · rename_i other
      split at found
      · rename_i element listed
        obtain ⟨inner, read, rfl⟩ := Option.map_eq_some_iff.1 found
        obtain ⟨shallow, namable, spaced⟩ := ih read
        rw [elementName?_eq_some_iff.1 listed] at split
        rw [toList_displayName_list]
        subst split
        exact ⟨Nat.succ_le_succ shallow, namable, .list blank blank' spaced⟩
      · rename_i unlisted
        obtain ⟨⟨shown, fields⟩, here, rfl⟩ := Option.map_eq_some_iff.1 found
        obtain rfl : shown = String.ofList (Text.trim name) := by simpa using List.find?_some here
        have plain : ∀ element, Text.trim name ≠ listName element := fun element same => by
          rw [elementName?_eq_some_iff.2 same] at unlisted
          simp at unlisted
        have padded := Spaced.plain blank blank' tight plain
        rw [← split] at padded
        rw [Schema.type, displayName, String.toList_ofList]
        refine ⟨Nat.succ_le_succ (Nat.zero_le n), ⟨here, ?_, primitive?_eq_none_iff.1 other, ?_⟩,
          padded⟩
        · rw [String.toList_ofList, Text.trim_tight tight]
        · rwa [String.toList_ofList]

/-- A type that has a name and is not nested too deeply is read from the name that it is shown
under. A name that is read is the one that its type is shown under, which is read as the same type
again, with white space around its levels of nesting. -/
theorem ofName?_displayName (known : List Schema) :
    (∀ type : DataType, type.IsNamable known → type.levels ≤ maxNesting →
      ofName? known type.displayName = some type) ∧
    ∀ (name : String) (type : DataType), ofName? known name = some type →
      Spaced name.toList type.displayName.toList ∧
      (∀ other, Spaced name.toList other → other = type.displayName.toList) ∧
      ofName? known type.displayName = some type := by
  have back (type : DataType) (namable : type.IsNamable known)
      (shallow : type.levels ≤ maxNesting) :
      ofName? known type.displayName = some type := ofNameWithin_displayName namable shallow
  refine ⟨back, fun name type found => ?_⟩
  obtain ⟨shallow, namable, spaced⟩ := spaced_of_ofNameWithin found
  exact ⟨spaced, fun other spaced' => spaced.unique spaced', back type namable shallow⟩

theorem ofName?_displayName_angled :
    let known : List Schema := [⟨"list< x", [("x", number)]⟩]
    let type := list (struct "list< x" [("x", number)])
    type.IsNamable known ∧ type.levels ≤ maxNesting ∧
      ofName? known "list<list< x>" = some type ∧
      ofName? known " list<\tlist< x > " = some type ∧
      Spaced " list<\tlist< x > ".toList "list<list< x>".toList := by
  intro known type
  have plain : ∀ element, "list< x".toList ≠ listName element := fun element same => by
    have last := congrArg List.getLast? same
    rw [getLast?_listName] at last
    simp at last
  have namable : type.IsNamable known := ⟨rfl, by decide, by decide, plain⟩
  have shallow : type.levels ≤ maxNesting := by decide
  have found : ofName? known " list<\tlist< x > " = some type := by rfl
  have both := ofName?_displayName known
  exact ⟨namable, shallow, both.1 type namable shallow, found, (both.2 _ type found).1⟩

end DataType

end NodeScript
