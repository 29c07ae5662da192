import NodeScript.Decimal.Parse
import NodeScript.Settings.Basic
import NodeScript.Text.Blank
import NodeScript.Toml.Scalar

/-!
Settings from variables of the environment. A variable that looks like a value of another kind is
that value, and any other is its own text.
-/

set_option autoImplicit false
set_option relaxedAutoImplicit false

namespace NodeScript.Settings

/-- The names of variables that give settings begin with this, in any case of the letters. -/
def environmentMark : String := "WIREGRAPH_"

/-- White space around values: a space, a tab, a line feed, a form feed or a carriage return. -/
def isSpace (c : Char) : Bool := " \t\n\x0c\r".toList.contains c

/-- Whether a character ends a word. -/
def isSeparator (c : Char) : Bool := ",[]\x7b\x7d".toList.contains c

/-- Whether an integer fits into 64 bits, with or without sign. -/
def isMachineWord (i : Int) : Bool := Toml.fits i || (0 ≤ i && i < 0x10000000000000000)

/-- The value of a word: a number if it looks like one, and else a text. -/
def ofWord (word : List Char) : Given :=
  match (Decimal.int? word).filter isMachineWord with
  | some i => .integer i
  | none =>
    if word.contains '.' && (Decimal.parse? (String.ofList word)).isSome then .other
    else .text (String.ofList word)

/-- The characters at the start of a text that take up the given count of bytes. -/
def firstBytes? : Nat → List Char → Option (List Char)
  | 0, _ => some []
  | _, [] => none
  | n, c :: rest =>
    if c.utf8Size ≤ n then (firstBytes? (n - c.utf8Size) rest).map (c :: ·) else none

/-- A text up to its closing double quote, and what is behind it. What stands before the first
escape is kept for as many bytes as it has characters, so characters of several bytes cut it short;
it is no text where that would cut a character in two. -/
def quoted? (text : List Char) : Option (String × List Char) :=
  let plain := text.takeWhile fun c => c != '"' && c != '\\'
  match text.drop plain.length with
  | '\\' :: rest => do
    let kept ← firstBytes? plain.length plain
    if plain.any Toml.isControl then none
    else Toml.lineText? '"' kept.reverse ('\\' :: rest)
  | _ => Toml.lineText? '"' [] text

/-- A value, and what is behind it and the white space after it. -/
abbrev Reader := List Char → Option (Given × List Char)

/-- What is behind a list of items, fewer than the given bound, each followed by a comma or by the
end of the list. -/
def afterList? (close : Char) (item : List Char → Option (List Char)) :
    Nat → List Char → Option (List Char)
  | 0, _ => none
  | bound + 1, text =>
    if text.head? = some close then some text.tail
    else do
      match ← item text with
      | ',' :: rest => afterList? close item bound rest
      | c :: rest => if c = close then some rest else none
      | [] => none

/-- What is behind a key: a text in quotes or a word. -/
def afterKey? : List Char → Option (List Char)
  | '"' :: rest => (quoted? rest).map (·.2)
  | text =>
    let (word, rest) := text.span fun c => c.isAlphanum || c == '_' || c == '-'
    if word.isEmpty then none else some rest

/-- What is behind a key and its value. -/
def afterMember? (value : Reader) (text : List Char) : Option (List Char) := do
  match (← afterKey? (text.dropWhile isSpace)).dropWhile isSpace with
  | '=' :: rest => (value rest).map (·.2)
  | _ => none

/-- A value that begins with no white space, and what is behind it; lists and tables are read if
there is a way to read what is in them. -/
def bareValue? (inner : Option Reader) : Reader
  | 't' :: 'r' :: 'u' :: 'e' :: rest => some (.truth true, rest)
  | 'f' :: 'a' :: 'l' :: 's' :: 'e' :: rest => some (.truth false, rest)
  | '[' :: rest => do
    let value ← inner
    return (.other, ← afterList? ']' (fun text => (value text).map (·.2)) (rest.length + 1) rest)
  | '\x7b' :: rest => do
    let value ← inner
    return (.other, ← afterList? '\x7d' (afterMember? value) (rest.length + 1) rest)
  | '"' :: rest => (quoted? rest).map fun (s, rest) => (.text s, rest)
  | '\'' :: c :: '\'' :: rest => some (.text (String.singleton c), rest)
  | '\'' :: _ => none
  | text =>
    let (word, rest) := text.span (!isSeparator ·)
    some (ofWord (Text.trim word), rest)

/-- A value with lists and tables in one another up to the given depth. -/
def value? : Nat → Reader
  | 0, text => trimmed (bareValue? none) text
  | depth + 1, text => trimmed (bareValue? (some (value? depth))) text
where
  trimmed (value : Reader) (text : List Char) : Option (Given × List Char) :=
    (value (text.dropWhile isSpace)).map fun (v, rest) => (v, rest.dropWhile isSpace)

/-- The value that a variable gives. -/
def ofVariable (text : String) : Given :=
  match value? text.length text.toList with
  | some (value, []) => value
  | _ => .text text

/-- The parts of the key that the name of a variable gives, if it gives one: what is behind the
mark, in lower case, with points between its parts. -/
def keyOfName? (name : String) : Option (List String) :=
  let name := Text.trim name.toList
  let mark := environmentMark.toList
  if (name.take mark.length).map Char.toUpper = mark then
    let key := (Text.trim (name.drop mark.length)).map Char.toLower
    let parts := (String.ofList key).splitOn "."
    if parts.contains "" then none else some parts
  else none

/-- The setting that a variable gives. A key of several parts gives a table. -/
def ofNamed? (name text : String) : Option (String × Given) :=
  match keyOfName? name with
  | some [key] => some (key, ofVariable text)
  | some (key :: _) => some (key, .other)
  | _ => none

/-- The settings that variables of the environment give; of two of one setting the later counts. -/
def ofEnvironment (environment : List (String × String)) : List (String × Given) :=
  (environment.filterMap fun (name, text) => ofNamed? name text).reverse

end NodeScript.Settings
