import DebugHost.FileSystem
import DebugHost.Shell.Arithmetic
import DebugHost.Shell.Pattern
import DebugHost.Shell.Scope

/-! # Expansion

What words stand for. A word becomes a row of fragments: characters that know whether they are quoted
and whether fields may be split at them. Fragments are then split into fields, and fields with open
patterns become the names of files. A command in a word must have run beforehand: what it has written
stands in its place. -/

namespace DebugHost.Shell

/-! ### Fragments -/

/-- A part of an expanded word. -/
inductive Fragment where
  | char (c : Char) (quoted splits : Bool)
  /-- There is a field here, even if it has no characters. -/
  | edge
  /-- A field ends here. -/
  | gap
deriving Repr, DecidableEq

/-- Why a word cannot be expanded. -/
inductive ExpansionFault where
  | notSet (name text : String)
  | calculation (f : Arithmetic.Fault) (text : String)
  /-- The use of a parameter has no meaning. -/
  | badUse
  /-- The variable cannot be set. -/
  | fixed (name : String)
deriving Repr, DecidableEq

/-- The wording of a fault. -/
def ExpansionFault.message : ExpansionFault → String
  | .notSet name text => name ++ ": " ++ text
  | .calculation f t => f.message t
  | .badUse => "Bad substitution"
  | .fixed name => name ++ ": is read only"

/-- What is said of a parameter that is not set. -/
def unsetText : String := "parameter not set"

/-- Expanding something: variables may be set on the way. -/
abbrev Expanding (α : Type) := StateT Scope (Except ExpansionFault) α

/-- The fragments of a text. -/
def fragments (s : String) (quoted splits : Bool) : List Fragment :=
  let cs := s.toList.map fun c => Fragment.char c quoted splits
  if quoted then .edge :: cs else cs

/-- The text of fragments. -/
def fragmentText (fs : List Fragment) : String :=
  String.ofList (fs.filterMap fun
    | .char c _ _ => some c
    | .gap => some ' '
    | .edge => none)

/-- The pattern that fragments are. -/
def fragmentGlob (fs : List Fragment) : List Glob :=
  let marked := fs.filterMap fun
    | .char c quoted _ => some (c, quoted)
    | .gap => some (' ', true)
    | .edge => none
  Glob.ofMarked (marked.length + 1) marked

/-- What is made of pieces. -/
structure Mode where
  /-- Whether the pieces are the word of a use, where even a text may be split. -/
  inUse : Bool := false
  /-- Whether all of it becomes one text. -/
  isSingle : Bool := false

/-- Whether a parameter stands for all arguments one by one, rather than for a text. -/
def isList (m : Mode) (name : String) (quoted : Bool) : Bool :=
  !m.isSingle && (name = "@" || (name = "*" && !quoted))

/-- The fragments of a list of arguments. -/
def listFragments (args : List String) (quoted : Bool) : List Fragment :=
  (args.map fun a => fragments a quoted true).intersperse [.gap] |>.flatten

/-- Users and the directories where they are at home. -/
def homes : List (String × String) := [("root", "/root"), ("nobody", "/nonexistent")]

/-- The fragments of the directory where a user is at home. A user who is not known leaves the text as
it stands. -/
def homeFragments (s : Scope) (user : String) : List Fragment :=
  match if user = "" then s.lookup "HOME" else homes.lookup user with
  | some path => path.toList.map fun c => .char c true false
  | none => fragments ("~" ++ user) false false

/-- All arguments as one text. -/
def joined (s : Scope) : String :=
  String.intercalate (match s.lookup "IFS" with
    | some i => String.ofList (i.toList.take 1)
    | none => " ") s.args

/-- The text of a parameter for a use that asks whether it is there; with `orEmpty` an empty one is not.
-/
def presentText (s : Scope) (name : String) (orEmpty : Bool) : Option String :=
  (if name = "@" || name = "*" then some (joined s) else s.parameter name).filter
    fun v => !(orEmpty && v = "")

/-- The text of a parameter that has to be set if the option for that is on. -/
def setText (name : String) : Expanding String := do
  let scope ← get
  match presentText scope name false with
  | some v => return v
  | none => if 'u' ∈ scope.flags then throw (.notSet name unsetText) else return ""

/-- Takes what a pattern matches away from the front of a list: from its first text only, but if the
longest match is asked for and that is all of this text, nothing is left. -/
def dropListFront (longest : Bool) (pattern : List Glob) : List String → List String
  | [] => []
  | a :: as =>
    if longest && Glob.fits pattern a.toList then [""]
    else String.ofList (Glob.dropFront longest pattern a.toList) :: as

/-- Takes what a pattern matches away from the end of a list, with all that follows: the shortest match
at the end of the last text that has one, or the longest at the end of the first text. -/
def dropListBack (longest : Bool) (pattern : List Glob) (as : List String) : List String :=
  let ends (a : String) : Bool :=
    (List.range (a.length + 1)).any fun n => Glob.fits pattern (a.toList.drop n)
  let places := (List.range (if longest then min 1 as.length else as.length)).filter fun n =>
    ((as[n]?).map ends).getD false
  match places.getLast? with
  | some n => as.take n ++ ((as[n]?).map fun a =>
      String.ofList (Glob.dropBack longest pattern a.toList)).toList
  | none => as

mutual

/-- Expands pieces. -/
def expandPieces (m : Mode) : List Piece → Expanding (List Fragment)
  | [] => return []
  | p :: ps => do
    let front ← expandPiece m p
    return front ++ (← expandPieces m ps)

/-- Expands a piece. -/
def expandPiece (m : Mode) : Piece → Expanding (List Fragment)
  | .text s quoted => return fragments s quoted m.inUse
  | .home user => return homeFragments (← get) user
  | .output _ quoted | .awaited quoted => return fragments "" quoted true
  | .written s quoted => return fragments s quoted true
  | .number ps quoted => do
    let text := fragmentText (← expandPieces { isSingle := true } ps)
    let scope ← get
    match Arithmetic.eval scope.lookup (Arithmetic.read text) [] with
    | .ok (n, set) =>
      if let some (fixed, _) := set.find? fun v => scope.isFixed v.1 then throw (.fixed fixed)
      MonadStateOf.set (set.reverse.foldl (fun s (name, v) => s.assign name v) scope)
      return fragments (toString n) quoted true
    | .error e => throw (.calculation e text)
  | .parameter name use quoted => expandUse m name quoted use

/-- Expands the use of a parameter. -/
def expandUse (m : Mode) (name : String) (quoted : Bool) : Use → Expanding (List Fragment)
  | .value => do
    let scope ← get
    if isList m name quoted then return listFragments scope.args quoted
    else if name = "@" || name = "*" then return fragments (joined scope) quoted true
    else return fragments (← setText name) quoted true
  | .length => do
    return fragments (toString (← setText name).utf8ByteSize) quoted true
  | .otherwise orEmpty word => do
    match present (← get) orEmpty with
    | some fs => return fs
    | none => expandPieces { m with inUse := !quoted } word
  | .assign orEmpty word => do
    match present (← get) orEmpty with
    | some fs => return fs
    | none =>
      let v := fragmentText (← expandPieces { isSingle := true } word)
      if (← get).isFixed name then throw (.fixed name)
      modify fun s => s.assign name v
      return fragments v quoted true
  | .instead orEmpty word => do
    match present (← get) orEmpty with
    | some _ => expandPieces { m with inUse := !quoted } word
    | none => return fragments "" quoted true
  | .require orEmpty word => do
    match present (← get) orEmpty with
    | some fs => return fs
    | none =>
      let text ← if word.isEmpty then pure (unsetText ++ if orEmpty then " or null" else "")
        else do pure (fragmentText (← expandPieces { isSingle := true } word))
      throw (.notSet name text)
  | .dropFront longest word => do
    let v ← setText name
    if (presentText (← get) name false).isNone then return fragments "" quoted true
    let pattern := fragmentGlob (← expandPieces { isSingle := true } word)
    if isList m name quoted then
      return listFragments (dropListFront longest pattern (← get).args) quoted
    else return fragments (String.ofList (Glob.dropFront longest pattern v.toList)) quoted true
  | .dropBack longest word => do
    let v ← setText name
    if (presentText (← get) name false).isNone then return fragments "" quoted true
    let pattern := fragmentGlob (← expandPieces { isSingle := true } word)
    if isList m name quoted then
      return listFragments (dropListBack longest pattern (← get).args) quoted
    else return fragments (String.ofList (Glob.dropBack longest pattern v.toList)) quoted true
  | .malformed => throw .badUse
where
  present (scope : Scope) (orEmpty : Bool) : Option (List Fragment) :=
    (presentText scope name orEmpty).map fun v =>
      if isList m name quoted then listFragments scope.args quoted else fragments v quoted true

end

/-! ### Fields -/

/-- A field: characters, with a mark on the quoted ones. -/
abbrev Field := List (Char × Bool)

/-- Splits fragments into fields. Blanks between fields are skipped; any other separator ends a field.
-/
def splitFields (separators : List Char) : List Fragment → Option Field → List Field
  | [], none => []
  | [], some f => [f.reverse]
  | .edge :: fs, cur => splitFields separators fs (some (cur.getD []))
  | .gap :: fs, cur => cur.toList.map List.reverse ++ splitFields separators fs none
  | .char c quoted splits :: fs, cur =>
    if !quoted && splits && c ∈ separators then
      if c.isWhitespace then
        match cur with
        | some f => f.reverse :: splitFields separators fs none
        | none => splitFields separators fs none
      else (cur.getD []).reverse :: splitFields separators fs none
    else splitFields separators fs (some ((c, quoted) :: cur.getD []))

/-- The text of a field. -/
def fieldText (f : Field) : String := String.ofList (f.map (·.1))

/-- The names of files that a pattern matches, as they are written: part by part between slashes. -/
def matchingNames (fs : FileSystem) (cwd : List String) :
    Nat → String → List String → List Field → List String
  | 0, _, _, _ => []
  | _, _, _, [] => []
  | fuel + 1, front, trail, part :: parts =>
    let pattern := Glob.ofMarked (part.length + 1) part
    let below := (fs.entries.filterMap fun (t, _) =>
      if trail.isPrefixOf t then (t.drop trail.length).head? else none).eraseDups
    let isDot := (part.head?.map (·.1)) = some '.'
    let hits := if Glob.isOpen pattern then
        (below.filter fun n => (isDot || !n.startsWith ".") && Glob.fits pattern n.toList).mergeSort
          fun a b => !decide (b < a)
      else [fieldText part]
    hits.flatMap fun n =>
      let name := front ++ n
      if parts.isEmpty then
        if fs.isThere cwd ⟨name⟩ then [name] else []
      else matchingNames fs cwd fuel (name ++ "/") (trail ++ if n = "" then [] else [n]) parts

/-- Cuts a field at its slashes. -/
def fieldParts : Field → List Field
  | [] => [[]]
  | (c, q) :: rest =>
    if c = '/' then [] :: fieldParts rest
    else
      match fieldParts rest with
      | p :: ps => ((c, q) :: p) :: ps
      | [] => [[(c, q)]]

/-- What a field stands for: itself, or the names of the files it matches. -/
def fileNames (fs : FileSystem) (cwd : List String) (f : Field) : List String :=
  if Glob.isOpen (Glob.ofMarked (f.length + 1) f) then
    let parts := fieldParts f
    let names := match parts with
      | [] :: rest => matchingNames fs cwd parts.length "/" [] rest
      | parts => matchingNames fs cwd parts.length "" cwd parts
    if names.isEmpty then [fieldText f] else names
  else [fieldText f]

/-- The texts that a word stands for. -/
def expandWord (fs : FileSystem) (cwd : List String) (w : Word) : Expanding (List String) := do
  let found ← expandPieces {} w
  let scope ← get
  let fields := splitFields scope.separators found none
  return if 'f' ∈ scope.flags then fields.map fieldText else fields.flatMap (fileNames fs cwd)

/-- The single text that a word stands for where it is not split. -/
def expandText (w : Word) : Expanding String :=
  return fragmentText (← expandPieces { isSingle := true } w)

end DebugHost.Shell
