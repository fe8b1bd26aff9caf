import DebugHost.Decimal

/-! # TOML tables

The values of a document, and how its parts are put together. Tables remember how they came about,
which decides whether a later part of the document may add to them, and their members stand in the
order in which they were first named. A table can be defined once: by a header, by dotted keys in one
place, or between braces. Tables that were only named on the way to others can still get a header. The
functions fail where a part of the document does not go with what stands in front of it. -/

namespace DebugHost.Toml

open DebugHost.Decimal

/-! ### Values -/

/-- How a table came about. -/
inductive Origin where
  /-- Its members were written between braces. -/
  | inline
  /-- It was named on the way to another table. -/
  | implicit
  /-- It was named on the way to a dotted key. -/
  | dotted
  /-- It has a header of its own. -/
  | header
deriving DecidableEq, Repr

/-- A value. -/
inductive Value where
  | str (s : String)
  | int (n : Int)
  | real (x : Binary64)
  | bool (b : Bool)
  /-- A date, a time of day, or both, as it is written. -/
  | moment (text : String)
  | arr (items : List Value)
  | table (origin : Origin) (members : List (String × Value))
  /-- Tables with the same header; the last one stands in front. -/
  | tables (last : List (String × Value)) (before : List (List (String × Value)))
deriving Inhabited

/-- The members of a table. -/
abbrev Members := List (String × Value)

/-! ### Putting a document together -/

/-- The value of a name. -/
def lookup? (name : String) (ms : Members) : Option Value := (ms.find? (·.1 == name)).map (·.2)

/-- Sets the value of a name, at its place if it has one, at the end otherwise. -/
def assign (name : String) (v : Value) : Members → Members
  | [] => [(name, v)]
  | (n, w) :: rest => if n = name then (n, v) :: rest else (n, w) :: assign name v rest

/-- Sets the value of a key, of which `path` are the parts but the last. The tables on the way are made
by dotted keys, if they are not there. -/
def insertPair (v : Value) (last : String) : List String → Members → Option Members
  | [], ms => if (lookup? last ms).isSome then none else some (ms ++ [(last, v)])
  | name :: path, ms =>
    match lookup? name ms with
    | none => do some (ms ++ [(name, .table .dotted (← insertPair v last path []))])
    | some (.table .dotted inner) => do
      some (assign name (.table .dotted (← insertPair v last path inner)) ms)
    | some (.table .implicit inner) =>
      if path.isEmpty then none
      else do some (assign name (.table .implicit (← insertPair v last path inner)) ms)
    | some (.tables inner before) =>
      if path.isEmpty then none
      else do some (assign name (.tables (← insertPair v last path inner) before) ms)
    | some _ => none

/-- Changes the table with the given header. Tables on the way that are not there are made; of tables
with the same header the last one is meant. -/
def within (f : Members → Option Members) : List String → Members → Option Members
  | [], ms => f ms
  | name :: path, ms =>
    match lookup? name ms with
    | none => do some (ms ++ [(name, .table .implicit (← within f path []))])
    | some (.table .inline _) => none
    | some (.table o inner) => do some (assign name (.table o (← within f path inner)) ms)
    | some (.tables inner before) => do
      some (assign name (.tables (← within f path inner) before) ms)
    | some _ => none

/-- Begins the table `name` with a header. A table that was only named so far stands where its header
does from now on. -/
def beginTable (name : String) (ms : Members) : Option Members :=
  match lookup? name ms with
  | none => some (ms ++ [(name, .table .header [])])
  | some (.table .implicit inner) =>
    some (ms.filter (·.1 ≠ name) ++ [(name, .table .header inner)])
  | some _ => none

/-- Begins one more table of those that share the header `name`. -/
def beginTables (name : String) (ms : Members) : Option Members :=
  match lookup? name ms with
  | none => some (ms ++ [(name, .tables [] [])])
  | some (.tables last before) => some (assign name (.tables [] (last :: before)) ms)
  | some _ => none

/-- A part of a document. -/
inductive Statement where
  /-- A key with its value. -/
  | pair (key : List String) (v : Value)
  /-- The header of a table. -/
  | table (key : List String)
  /-- The header of one of several tables. -/
  | tables (key : List String)

/-- The parts of a key but the last, and the last. -/
def splitKey? (key : List String) : Option (List String × String) :=
  key.getLast?.map fun last => (key.dropLast, last)

/-- Puts a statement into a document in which `header` is the header of the table at hand. -/
def Statement.apply (header : List String) (ms : Members) :
    Statement → Option (List String × Members)
  | .pair key v => do
    let (path, last) ← splitKey? key
    some (header, ← within (insertPair v last path) header ms)
  | .table key => do
    let (path, last) ← splitKey? key
    some (key, ← within (beginTable last) path ms)
  | .tables key => do
    let (path, last) ← splitKey? key
    some (key, ← within (beginTables last) path ms)

/-- Puts the statements of a document together. -/
def document? (statements : List Statement) : Option Members :=
  go [] [] statements
where
  /-- Puts the remaining statements into what there is. -/
  go (header : List String) (ms : Members) : List Statement → Option Members
    | [] => some ms
    | s :: rest => do
      let (header, ms) ← s.apply header ms
      go header ms rest

/-- The table that pairs between braces make. -/
def inlineTable? (pairs : List (List String × Value)) : Option Value := do
  let ms ← pairs.foldlM (fun ms (key, v) => do
    let (path, last) ← splitKey? key
    insertPair v last path ms) []
  some (.table .inline ms)

end DebugHost.Toml
