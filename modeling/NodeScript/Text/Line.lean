/-!
Lines: a line feed ends a line, and a carriage return before it is part of the line's end.
-/

set_option autoImplicit false
set_option relaxedAutoImplicit false

namespace NodeScript.Text

/-- The lines of a text, where the characters of the first line up to here, the last one first,
are given. -/
def linesFrom : List Char → List Char → List (List Char)
  | line, [] => if line.isEmpty then [] else [line.reverse]
  | line, '\r' :: '\n' :: rest => line.reverse :: linesFrom [] rest
  | line, '\n' :: rest => line.reverse :: linesFrom [] rest
  | line, c :: rest => linesFrom (c :: line) rest

/-- The lines of a text; what is behind the last line feed is a line if there is anything. -/
def lines (text : String) : List String := (linesFrom [] text.toList).map String.ofList

end NodeScript.Text
