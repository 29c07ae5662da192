import NodeScript.Dict
import NodeScript.Toml.Scalar

/-!
Tables under construction: each pair of a key and a value has its place, and a key that is set
once is set for good. A table grows as long as nothing has closed it.
-/

set_option autoImplicit false
set_option relaxedAutoImplicit false

namespace NodeScript.Toml

/-- How a table came to be. -/
inductive Origin where
  /-- By its own header, or as the whole file. -/
  | header
  /-- By the header of a table in it. -/
  | inner
  /-- By a key with dots. -/
  | dots
deriving DecidableEq, Repr

/-- What is under a key. -/
inductive Item where
  | value (v : Value)
  | table (origin : Origin) (entries : List (String × Item))
  /-- An array of tables, of which the last one can still grow; the latest of the earlier ones
  comes first. -/
  | tables (last : List (String × Item)) (earlier : List (List (String × Item)))

abbrev Entries := List (String × Item)

mutual

/-- The value that has come to be under a key. -/
def Item.toValue : Item → Value
  | .value v => v
  | .table _ entries => .table (valuesOf entries)
  | .tables last earlier => .array (.table (valuesOf last) :: tablesOf earlier).reverse

/-- The values of a table by their keys. -/
def valuesOf : List (String × Item) → List (String × Value)
  | [] => []
  | (key, item) :: entries => (key, item.toValue) :: valuesOf entries

def tablesOf : List (List (String × Item)) → List Value
  | [] => []
  | entries :: rest => .table (valuesOf entries) :: tablesOf rest

end

/-- A pair as it is written: a key, which may have several parts, and a value. -/
abbrev Pair := List String × Value

/-- Changes the table at the end of a path, and makes those that are not there. Values cannot be
entered, and keys with dots do not enter tables that have a header. -/
def changeAt (dots : Bool) (change : Origin → Entries → Option Entries) :
    List String → Origin → Entries → Option Entries
  | [], origin, entries => change origin entries
  | key :: path, _, entries =>
    match entries.lookup key with
    | none => do
      let origin := if dots then .dots else .inner
      return Assoc.put key (.table origin (← changeAt dots change path origin [])) entries
    | some (.table origin inner) =>
      if dots && origin = .header then none
      else do
        let inner ← changeAt dots change path origin inner
        return Assoc.put key (.table origin inner) entries
    | some (.tables last earlier) => do
      let last ← changeAt dots change path .header last
      return Assoc.put key (.tables last earlier) entries
    | some (.value _) => none

/-- Adds a pair to a table. The table that the parts of the key before the last one lead to is one
that keys with dots have made, and has no such key yet. -/
def addPair (entries : Entries) : Pair → Option Entries
  | (keys, value) => do
    let key ← keys.getLast?
    let path := keys.dropLast
    changeAt (!path.isEmpty) (fun origin inner =>
      if (origin == .dots) == path.isEmpty || (inner.lookup key).isSome then none
      else some (inner ++ [(key, .value value)])) path .header entries

def addPairs (entries : Entries) (pairs : List Pair) : Option Entries :=
  pairs.foldlM addPair entries

/-- Adds the table under a header. Only a table that nothing but the headers of tables in it has
made can be there before. -/
def addTable (entries : Entries) (path : List String) (pairs : List Pair) : Option Entries := do
  let key ← path.getLast?
  changeAt false (fun _ inner => do
    let before ← match inner.lookup key with
      | none => some []
      | some (.table .inner before) => some before
      | some _ => none
    return Assoc.put key (.table .header (← addPairs before pairs)) inner) path.dropLast .header
    entries

/-- Adds a table to an array of tables. -/
def addToArray (entries : Entries) (path : List String) (pairs : List Pair) : Option Entries := do
  let key ← path.getLast?
  changeAt false (fun _ inner => do
    let earlier ← match inner.lookup key with
      | none => some []
      | some (.tables last earlier) => some (last :: earlier)
      | some _ => none
    return Assoc.put key (.tables (← addPairs [] pairs) earlier) inner) path.dropLast .header
    entries

end NodeScript.Toml
