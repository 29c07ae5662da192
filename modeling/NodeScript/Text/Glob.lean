/-!
Patterns of names: a question mark is any one character, a star any run of characters.
-/

set_option autoImplicit false
set_option relaxedAutoImplicit false

namespace NodeScript.Text

/-- A text and all that is left of it after one character, two characters and so on. -/
def suffixes {α : Type} : List α → List (List α)
  | [] => [[]]
  | a :: rest => (a :: rest) :: suffixes rest

/-- What may be left of a name behind the first characters of a pattern, the longest first, where
that is given for all but the last of these characters. -/
def leftBehind (left : List (List Char)) (p : Char) : List (List Char) :=
  match p, left with
  | _, [] => []
  | '*', longest :: _ => suffixes longest
  | '?', left => left.filterMap List.tail?
  | p, left => left.filterMap fun
    | c :: rest => if p = c then some rest else none
    | [] => none

/-- Whether the whole name has the form of the pattern. -/
def matchesGlob (pattern name : List Char) : Bool :=
  (pattern.foldl leftBehind [name]).contains []

end NodeScript.Text
