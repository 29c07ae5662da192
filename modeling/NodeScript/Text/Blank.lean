/-!
White space of Unicode: the 25 characters with the property White_Space.
-/

set_option autoImplicit false
set_option relaxedAutoImplicit false

namespace NodeScript.Text

/-- The code points with the property White_Space, as first and last of each run. -/
def blankRuns : List (Nat × Nat) :=
  [(0x09, 0x0D), (0x20, 0x20), (0x85, 0x85), (0xA0, 0xA0), (0x1680, 0x1680), (0x2000, 0x200A),
    (0x2028, 0x2029), (0x202F, 0x202F), (0x205F, 0x205F), (0x3000, 0x3000)]

def isBlank (c : Char) : Bool :=
  blankRuns.any fun (first, last) => first ≤ c.toNat && c.toNat ≤ last

/-- A text without the white space at its start. -/
def trimLeft (s : List Char) : List Char := s.dropWhile isBlank

/-- A text without the white space at both ends. -/
def trim (s : List Char) : List Char := (trimLeft (trimLeft s).reverse).reverse

end NodeScript.Text
