/-!
Quoted texts: between double quotes a backslash begins an escape, between single quotes nothing
does; three quotes of either kind enclose a text of several lines. Reading takes every form, and
writing chooses the one that needs the fewest escapes.
-/

set_option autoImplicit false
set_option relaxedAutoImplicit false

namespace NodeScript.Toml

/-- A control character other than a tab. -/
def isControl (c : Char) : Bool := (c.toNat < 32 && c != '\t') || c.toNat == 127

/-- A space or a tab. -/
def isGap (c : Char) : Bool := c == ' ' || c == '\t'

/-- The value of a digit in a base of at most sixteen. -/
def digit? (base : Nat) (c : Char) : Option Nat :=
  let c := c.toLower
  let value :=
    if c.isDigit then some (c.toNat - '0'.toNat)
    else if 'a' ≤ c ∧ c ≤ 'f' then some (c.toNat - 'a'.toNat + 10)
    else none
  value.filter (· < base)

/-- The number that digits stand for in a base. -/
def natOfBase? (base : Nat) (digits : List Char) : Option Nat :=
  digits.foldlM (fun n c => (digit? base c).map (base * n + ·)) 0

/-- The character with the given hexadecimal digits as its number. -/
def charOfHex? (digits : List Char) : Option Char :=
  ((natOfBase? 16 digits).filter Nat.isValidChar).map Char.ofNat

/-- The character of the escape whose backslash has been read, and what is behind it. -/
def escape? : List Char → Option (Char × List Char)
  | 'b' :: rest => some ('\x08', rest)
  | 't' :: rest => some ('\t', rest)
  | 'n' :: rest => some ('\n', rest)
  | 'f' :: rest => some ('\x0c', rest)
  | 'r' :: rest => some ('\r', rest)
  | '"' :: rest => some ('"', rest)
  | '\\' :: rest => some ('\\', rest)
  | 'u' :: a :: b :: c :: d :: rest => (charOfHex? [a, b, c, d]).map (·, rest)
  | 'U' :: a :: b :: c :: d :: e :: f :: g :: h :: rest =>
    (charOfHex? [a, b, c, d, e, f, g, h]).map (·, rest)
  | _ => none

theorem length_lt_of_escape? {text rest : List Char} {c : Char}
    (h : escape? text = some (c, rest)) : rest.length < text.length := by
  unfold escape? at h
  split at h
  case h_8 | h_9 =>
    obtain ⟨_, -, heq⟩ := Option.map_eq_some_iff.1 h
    obtain ⟨-, rfl⟩ := Prod.mk.inj heq
    simp only [List.length_cons]
    omega
  all_goals grind

/-- A text without the gaps and ends of lines at its start. -/
def skipLines : List Char → List Char
  | '\n' :: rest => skipLines rest
  | '\r' :: '\n' :: rest => skipLines rest
  | c :: rest => if isGap c then skipLines rest else c :: rest
  | [] => []

theorem length_skipLines_le (text : List Char) : (skipLines text).length ≤ text.length := by
  fun_induction skipLines text <;> simp_all <;> omega

/-- What is behind the end of a line and the blanks at the start of those after it, where nothing
but gaps is left of the line. -/
def afterLine? (text : List Char) : Option (List Char) :=
  match text.dropWhile isGap with
  | '\n' :: rest | '\r' :: '\n' :: rest => some (skipLines rest)
  | _ => none

theorem length_lt_of_afterLine? {text rest : List Char} (h : afterLine? text = some rest) :
    rest.length < text.length := by
  have hle : (text.dropWhile isGap).length ≤ text.length := (List.dropWhile_sublist _).length_le
  unfold afterLine? at h
  split at h <;> simp only [Option.some.injEq, reduceCtorEq] at h
  all_goals
    rename_i after heq
    subst h
    have := length_skipLines_le after
    simp only [heq, List.length_cons] at hle
    omega

/-- A text of one line up to its closing quote, and what is behind it. -/
def lineText? (quote : Char) (done : List Char) : List Char → Option (String × List Char)
  | [] => none
  | c :: rest =>
    if c = quote then some (String.ofList done.reverse, rest)
    else if c = '\\' ∧ quote = '"' then
      match h : escape? rest with
      | some (c, after) =>
        have := length_lt_of_escape? h
        lineText? quote (c :: done) after
      | none => none
    else if isControl c then none
    else lineText? quote (c :: done) rest
termination_by text => text.length

/-- A text of several lines up to its three closing quotes, and what is behind them; up to two
quotes before them belong to the text. A backslash at the end of a line joins it with the next
one. -/
def linesText? (quote : Char) (done : List Char) : List Char → Option (String × List Char)
  | [] => none
  | '\n' :: rest => linesText? quote ('\n' :: done) rest
  | '\r' :: '\n' :: rest => linesText? quote ('\n' :: done) rest
  | c :: rest =>
    if c = quote ∧ rest.take 2 = [quote, quote] then
      let quotes := ((rest.drop 2).takeWhile (· == quote)).take 2
      some (String.ofList (done.reverse ++ quotes), rest.drop (2 + quotes.length))
    else if c = '\\' ∧ quote = '"' then
      match h : afterLine? rest with
      | some after =>
        have := length_lt_of_afterLine? h
        linesText? quote done after
      | none =>
        match h : escape? rest with
        | some (c, after) =>
          have := length_lt_of_escape? h
          linesText? quote (c :: done) after
        | none => none
    else if isControl c then none
    else linesText? quote (c :: done) rest
termination_by text => text.length

/-- A text without the end of a line at its start. -/
def dropLineEnd : List Char → List Char
  | '\n' :: rest | '\r' :: '\n' :: rest => rest
  | text => text

/-- A quoted text of any form, and what is behind it. -/
def quoted? : List Char → Option (String × List Char)
  | '"' :: '"' :: '"' :: rest => linesText? '"' [] (dropLineEnd rest)
  | '\'' :: '\'' :: '\'' :: rest => linesText? '\'' [] (dropLineEnd rest)
  | '"' :: rest => lineText? '"' [] rest
  | '\'' :: rest => lineText? '\'' [] rest
  | _ => none

/-- A control character other than a tab or a line feed, which only an escape can write. -/
def needsEscape (c : Char) : Bool := isControl c && c != '\n'

/-- The greatest number of times that a character stands next to itself. -/
def longestRun (quote : Char) (text : List Char) : Nat :=
  (text.foldl (fun (run, longest) c =>
    let run := if c = quote then run + 1 else 0
    (run, max longest run)) (0, 0)).2

private def hexDigits (n : Nat) : List Char :=
  [n / 4096, n / 256, n / 16, n].map fun d => (Nat.digitChar (d % 16)).toUpper

/-- A character other than a quote between double quotes. -/
def escaped (lines : Bool) (c : Char) : List Char :=
  match c with
  | '\x08' => ['\\', 'b']
  | '\t' => ['\\', 't']
  | '\n' => if lines then ['\n'] else ['\\', 'n']
  | '\x0c' => ['\\', 'f']
  | '\r' => ['\\', 'r']
  | '\\' => ['\\', '\\']
  | c => if needsEscape c then '\\' :: 'u' :: hexDigits c.toNat else [c]

/-- The number of double quotes that may stand next to each other in a text in double quotes. -/
def bareQuotes (lines : Bool) : Nat := if lines then 2 else 0

/-- A text between double quotes, where the number of quotes just before it is given. -/
def escapedFrom (lines : Bool) : Nat → List Char → List Char
  | _, [] => []
  | run, c :: rest =>
    if c = '"' then
      if run < bareQuotes lines then '"' :: escapedFrom lines (run + 1) rest
      else '\\' :: '"' :: escapedFrom lines 0 rest
    else escaped lines c ++ escapedFrom lines 0 rest

/-- A text in double quotes. -/
def inDoubleQuotes (lines : Bool) (text : List Char) : List Char :=
  let marks := if lines then ['"', '"', '"'] else ['"']
  let start := if lines && text.contains '\n' then ['\n'] else []
  marks ++ start ++ escapedFrom lines 0 text ++ marks

/-- A text in single quotes. -/
def inSingleQuotes (lines : Bool) (text : List Char) : List Char :=
  let marks := if lines then ['\'', '\'', '\''] else ['\'']
  let start := if lines && text.contains '\n' then ['\n'] else []
  marks ++ start ++ text ++ marks

/-- A text in the first form that needs no escapes: in double quotes, in single quotes, in three
double quotes, in three single quotes. Where each of them does, it is put in double quotes, in
three of them if it has several lines. -/
def quote (s : String) : String :=
  let text := s.toList
  let literal := !text.any needsEscape
  let plain := literal && !text.contains '\\'
  let lines := text.contains '\n'
  String.ofList <|
    if plain && longestRun '"' text = 0 && !lines then inDoubleQuotes false text
    else if literal && longestRun '\'' text = 0 && !lines then inSingleQuotes false text
    else if plain && longestRun '"' text ≤ 2 then inDoubleQuotes true text
    else if literal && longestRun '\'' text ≤ 2 then inSingleQuotes true text
    else inDoubleQuotes lines text

end NodeScript.Toml
