/-! # File paths

A path is a text; its components say which file it means. Two paths with the same components are the
same path, and paths are ordered by their components. `insert` and `erase` work on lists of values
that are sorted by path and hold one value for each path. -/

namespace DebugHost

/-- A path as it is spelled. -/
structure Path where
  /-- The spelling. -/
  text : String
deriving DecidableEq, Repr, Inhabited

namespace Path

/-- A part of a path. -/
inductive Component where
  /-- The root directory. -/
  | root
  /-- The directory at hand; only in front. -/
  | here
  /-- The directory above. -/
  | parent
  /-- A name in the directory so far. -/
  | name (s : String)
deriving DecidableEq, Repr

/-- The place of a kind of component in the order. -/
def Component.rank : Component → Nat
  | .root => 0
  | .here => 1
  | .parent => 2
  | .name _ => 3

/-- Components are ordered by kind; names by their characters. -/
def Component.compare : Component → Component → Ordering
  | .name a, .name b => Ord.compare a b
  | a, b => Ord.compare a.rank b.rank

/-- Cuts a text at every `/`. -/
def pieces : List Char → List (List Char)
  | [] => [[]]
  | c :: cs =>
    if c = '/' then [] :: pieces cs
    else
      match pieces cs with
      | [] => [[c]]
      | p :: ps => (c :: p) :: ps

/-- The component that a piece between slashes stands for, if it is not in front. -/
def pieceComponent (p : List Char) : Option Component :=
  if p = [] ∨ p = ['.'] then none
  else if p = ['.', '.'] then some .parent
  else some (.name (String.ofList p))

/-- Whether a path starts at the root directory. -/
def isAbsolute (p : Path) : Bool := p.text.toList.head? = some '/'

/-- The components of a path: repeated slashes, slashes at the end, and every `.` that is not in front
make no difference. -/
def components (p : Path) : List Component :=
  let ps := pieces p.text.toList
  let rest := ps.filterMap pieceComponent
  match ps with
  | [] :: _ :: _ => .root :: rest
  | ['.'] :: _ => .here :: rest
  | _ => rest

/-- Whether two paths have the same components. -/
def same (p q : Path) : Bool := p.components = q.components

/-- The order of lists of components: by the first difference, a beginning before its continuation. -/
def compareComponents : List Component → List Component → Ordering
  | [], [] => .eq
  | [], _ :: _ => .lt
  | _ :: _, [] => .gt
  | a :: as, b :: bs => (a.compare b).then (compareComponents as bs)

/-- The order of paths. -/
def compare (p q : Path) : Ordering := compareComponents p.components q.components

/-- The last component, if it is a name. -/
def fileName? (p : Path) : Option String :=
  match p.components.getLast? with
  | some (.name s) => some s
  | _ => none

/-- The path `q` seen from the directory `p`: an absolute path stays what it is. -/
def join (p q : Path) : Path :=
  if q.isAbsolute then q
  else if p.text = "" ∨ p.text.toList.getLast? = some '/' then ⟨p.text ++ q.text⟩
  else ⟨p.text ++ "/" ++ q.text⟩

example : (Path.mk "./a").same ⟨"a"⟩ = false ∧ (Path.mk "/./a//").same ⟨"/a"⟩ = true := by decide +kernel

/-! ### Values by path -/

/-- The value for a path. -/
def find? {α : Type} (p : Path) (entries : List (Path × α)) : Option α :=
  (entries.find? (·.1.same p)).map (·.2)

/-- Puts a value in its place by path order. An entry for the same path keeps its spelling. -/
def insert {α : Type} (p : Path) (a : α) : List (Path × α) → List (Path × α)
  | [] => [(p, a)]
  | (q, b) :: rest =>
    match compare p q with
    | .lt => (p, a) :: (q, b) :: rest
    | .eq => (q, a) :: rest
    | .gt => (q, b) :: insert p a rest

/-- Takes the entry for a path away. -/
def erase {α : Type} (p : Path) (entries : List (Path × α)) : List (Path × α) :=
  entries.filter fun e => !e.1.same p

end Path
end DebugHost
