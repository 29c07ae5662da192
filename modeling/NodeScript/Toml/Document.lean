import NodeScript.Toml.Table

/-!
Documents: lines of pairs, under headers of tables, with comments behind and between them. A
document that is malformed anywhere has no entries at all.
-/

set_option autoImplicit false
set_option relaxedAutoImplicit false

namespace NodeScript.Toml

/-- The greatest count of parts of a key, and of values in one another. -/
def depthLimit : Nat := 79

/-- What is behind the rest of a line, where that is blank or a comment. -/
def lineEnd? (inComment : Bool) : List Char → Option (List Char)
  | [] => some []
  | '\n' :: rest | '\r' :: '\n' :: rest => some rest
  | c :: rest =>
    if isControl c then none
    else if inComment || isGap c then lineEnd? inComment rest
    else if c == '#' then lineEnd? true rest
    else none

/-- A text without the blanks, the ends of lines and the comments at its start. -/
def skipBlanks? (inComment : Bool) : List Char → Option (List Char)
  | [] => some []
  | '\n' :: rest | '\r' :: '\n' :: rest => skipBlanks? false rest
  | c :: rest =>
    if inComment then if isControl c then none else skipBlanks? true rest
    else if c == '#' then skipBlanks? true rest
    else if isGap c then skipBlanks? false rest
    else some (c :: rest)

def isKeyChar (c : Char) : Bool := c.isAlphanum || c == '_' || c == '-'

/-- One part of a key: a word, or a text in quotes. -/
def keyPart? (text : List Char) : Option (String × List Char) :=
  match text with
  | '"' :: rest => lineText? '"' [] rest
  | '\'' :: rest => lineText? '\'' [] rest
  | _ =>
    let (word, rest) := text.span isKeyChar
    if word.isEmpty then none else some (String.ofList word, rest)

/-- A key of at most the given count of parts with dots between them, and what is behind it. -/
def key? : Nat → List Char → Option (List String × List Char)
  | 0, _ => none
  | limit + 1, text => do
    let (part, rest) ← keyPart? (text.dropWhile isGap)
    match rest.dropWhile isGap with
    | '.' :: rest => do
      let (parts, rest) ← key? limit rest
      return (part :: parts, rest)
    | rest => return ([part], rest)

/-- The way to read something, and what is behind it. -/
abbrev Reader (α : Type) := List Char → Option (α × List Char)

/-- A pair, whose value is read in the given way. -/
def pair? (value : Reader Value) : Reader Pair := fun text => do
  let (keys, rest) ← key? depthLimit text
  match rest with
  | '=' :: rest => do
    let (v, rest) ← value (rest.dropWhile isGap)
    return ((keys, v), rest)
  | _ => none

/-- The items of an array, of which there are fewer than the given bound, behind those that have
been read, the last one first; and what is behind them. -/
def items? (value : Reader Value) : Nat → List Value → Reader (List Value)
  | 0, _, _ => none
  | bound + 1, read, text => do
    match ← skipBlanks? false text with
    | ']' :: rest => some (read.reverse, rest)
    | text => do
      let (v, rest) ← value text
      match ← skipBlanks? false rest with
      | ',' :: rest => items? value bound (v :: read) rest
      | ']' :: rest => some ((v :: read).reverse, rest)
      | _ => none

/-- The pairs of a table within a line, of which there are fewer than the given bound, and what is
behind them. -/
def inlinePairs? (value : Reader Value) : Nat → Reader (List Pair)
  | 0, _ => none
  | bound + 1, text => do
    let (pair, rest) ← pair? value text
    match rest.dropWhile isGap with
    | ',' :: rest => do
      let (pairs, rest) ← inlinePairs? value bound rest
      return (pair :: pairs, rest)
    | '\x7d' :: rest => return ([pair], rest)
    | _ => none

/-- A table within a line, of fewer pairs than the given bound. -/
def inlineTable? (value : Reader Value) (bound : Nat) : Reader Value := fun text =>
  match text.dropWhile isGap with
  | '\x7d' :: rest => some (.table [], rest)
  | text => do
    let (pairs, rest) ← inlinePairs? value bound text
    return (.table (valuesOf (← addPairs [] pairs)), rest)

/-- A value in which at most the given count of values are in one another, and each has fewer items
than the given bound. -/
def value? (bound : Nat) : Nat → Reader Value
  | _, '"' :: rest => (quoted? ('"' :: rest)).map fun (s, rest) => (.text s, rest)
  | _, '\'' :: rest => (quoted? ('\'' :: rest)).map fun (s, rest) => (.text s, rest)
  | depth + 1, '[' :: rest =>
    (items? (value? bound depth) bound [] rest).map fun (items, rest) => (.array items, rest)
  | depth + 1, '\x7b' :: rest => inlineTable? (value? bound depth) bound rest
  | _, text =>
    let (word, rest) := takeWord text
    (ofWord? word).map (·, rest)

/-- A line with something on it. -/
inductive Line where
  | pair (p : Pair)
  | header (path : List String)
  | arrayHeader (path : List String)

/-- What a line holds, and what is behind that. Values on it have fewer items than the given
bound. -/
def line? (bound : Nat) (text : List Char) : Option (Line × List Char) :=
  match text.dropWhile isGap with
  | '[' :: '[' :: rest => do
    match ← key? depthLimit rest with
    | (path, ']' :: ']' :: rest) => return (.arrayHeader path, rest)
    | _ => none
  | '[' :: rest => do
    match ← key? depthLimit rest with
    | (path, ']' :: rest) => return (.header path, rest)
    | _ => none
  | text => do
    let (p, rest) ← pair? (value? bound depthLimit) text
    return (.pair p, rest)

/-- The lines of a document that hold something, fewer than the given bound, which is more than
the length of the text. -/
def lines? : Nat → List Char → Option (List Line)
  | 0, _ => none
  | _, [] => some []
  | bound + 1, text =>
    match lineEnd? false text with
    | some rest => lines? bound rest
    | none => do
      let (line, rest) ← line? (bound + 1) text
      return line :: (← lines? bound (← lineEnd? false rest))

/-- The pairs at the start of some lines. -/
def leadingPairs : List Line → List Pair
  | .pair p :: rest => p :: leadingPairs rest
  | _ => []

/-- The entries of a document whose first lines have been entered. A header opens a table of the
pairs on the lines up to the next one. -/
def addLines (entries : Entries) : List Line → Option Entries
  | [] => some entries
  | .pair _ :: rest => addLines entries rest
  | .header path :: rest => do addLines (← addTable entries path (leadingPairs rest)) rest
  | .arrayHeader path :: rest => do addLines (← addToArray entries path (leadingPairs rest)) rest

/-- The values of a document by their keys, or nothing where it is malformed. -/
def read? (text : String) : Option (List (String × Value)) := do
  let text := match text.toList with
    | '\ufeff' :: rest => rest
    | text => text
  let lines ← lines? (text.length + 1) text
  return valuesOf (← addLines (← addPairs [] (leadingPairs lines)) lines)

end NodeScript.Toml
