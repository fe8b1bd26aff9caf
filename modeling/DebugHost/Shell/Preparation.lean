import DebugHost.Shell.Expansion

/-! # Preparing commands

The words of a command are expanded one after another before it runs, and so are its assignments. A
command within a word has to run when its turn comes: `dig` takes it out of the word, the rest is kept,
and `fill` puts in what it has written. -/

namespace DebugHost.Shell

/-! ### Commands in words -/

mutual

/-- Takes out the first command in pieces that is going to be run. -/
def dig (scope : Scope) : List Piece → Option (Command × List Piece)
  | [] => none
  | p :: ps =>
    match digPiece scope p with
    | some (c, p) => some (c, p :: ps)
    | none => (dig scope ps).map fun (c, ps) => (c, p :: ps)

/-- Takes out the first command in a piece. -/
def digPiece (scope : Scope) : Piece → Option (Command × Piece)
  | .output c quoted => some (c, .awaited quoted)
  | .number ps quoted => (dig scope ps).map fun (c, ps) => (c, .number ps quoted)
  | .parameter name u quoted => (digUse scope name u).map fun (c, u) => (c, .parameter name u quoted)
  | .text .. | .home .. | .awaited .. | .written .. => none

/-- Takes out the first command in the use of a parameter. A word that is not needed is not looked at.
-/
def digUse (scope : Scope) (name : String) : Use → Option (Command × Use)
  | .otherwise e w =>
    if (presentText scope name e).isSome then none
    else (dig scope w).map fun (c, w) => (c, .otherwise e w)
  | .assign e w =>
    if (presentText scope name e).isSome then none
    else (dig scope w).map fun (c, w) => (c, .assign e w)
  | .require e w =>
    if (presentText scope name e).isSome then none
    else (dig scope w).map fun (c, w) => (c, .require e w)
  | .instead e w =>
    if (presentText scope name e).isSome then (dig scope w).map fun (c, w) => (c, .instead e w)
    else none
  | .dropFront l w =>
    if (presentText scope name false).isSome then (dig scope w).map fun (c, w) => (c, .dropFront l w)
    else none
  | .dropBack l w =>
    if (presentText scope name false).isSome then (dig scope w).map fun (c, w) => (c, .dropBack l w)
    else none
  | .value | .length | .malformed => none

end

mutual

/-- Puts what a command has written where it has been taken out of pieces. -/
def fill (s : String) : List Piece → List Piece
  | [] => []
  | p :: ps => fillPiece s p :: fill s ps

/-- Puts what a command has written where it has been taken out of a piece. -/
def fillPiece (s : String) : Piece → Piece
  | .awaited quoted => .written s quoted
  | .number ps quoted => .number (fill s ps) quoted
  | .parameter n u quoted => .parameter n (fillUse s u) quoted
  | .output c quoted => .output c quoted
  | .text t quoted => .text t quoted
  | .home u => .home u
  | .written t quoted => .written t quoted

/-- Puts what a command has written where it has been taken out of the use of a parameter. -/
def fillUse (s : String) : Use → Use
  | .otherwise e w => .otherwise e (fill s w)
  | .assign e w => .assign e (fill s w)
  | .instead e w => .instead e (fill s w)
  | .require e w => .require e (fill s w)
  | .dropFront l w => .dropFront l (fill s w)
  | .dropBack l w => .dropBack l (fill s w)
  | .value => .value
  | .length => .length
  | .malformed => .malformed

end

/-! ### Words and assignments in their order -/

/-- What has been done of a row, up to a word with a command that has to run first. -/
inductive Progress (α β : Type) where
  /-- All is done. -/
  | all (done : α)
  /-- A command has been taken out of what is left. -/
  | held (done : α) (inner : Command) (left : β)

/-- A word that stands for a text and nothing else. -/
def literal (s : String) : Word := [.text s true]

/-- Whether words begin a command that takes assignments as its arguments. -/
def takesAssignments (args : List String) : Bool :=
  (args.dropWhile (· = "command")).head?.any (["export", "readonly", "local"].contains ·)

/-- Expands words behind those that are done. In a command an assignment that is an argument is not
split into fields. -/
def expandWords (isCommand : Bool) (fs : FileSystem) (cwd : List String) (done : List String) :
    List Word → Expanding (Progress (List String) (List Word))
  | [] => return .all done
  | w :: ws => do
    match dig (← get) w with
    | some (inner, w) => return .held done inner (w :: ws)
    | none =>
      let texts ← match if isCommand && takesAssignments done then Reading.assignment? w else none with
        | some (name, value) => do pure [name ++ "=" ++ (← expandText value)]
        | none => expandWord fs cwd w
      expandWords isCommand fs cwd (done ++ texts) ws

/-- Makes assignments behind those that are done. -/
def assignAll (done : List (String × String)) :
    List (String × Word) → Expanding (Progress (List (String × String)) (List (String × Word)))
  | [] => return .all done
  | (n, w) :: rest => do
    match dig (← get) w with
    | some (inner, w) => return .held done inner ((n, w) :: rest)
    | none =>
      let v ← expandText w
      if (← get).isFixed n then throw (.fixed n)
      modify fun s => if 'a' ∈ s.flags then (s.assign n v).exportName n else s.assign n v
      assignAll (done ++ [(n, v)]) rest

/-- Takes the first command out of redirections. -/
def digRedirections (scope : Scope) : List Redirection → Option (Command × List Redirection)
  | [] => none
  | r :: rs =>
    match dig scope r.word with
    | some (c, w) => some (c, { r with word := w } :: rs)
    | none => (digRedirections scope rs).map fun (c, rs) => (c, r :: rs)

/-- The branches of a choice from the first one on that a text fits, or that has a command in a pattern
which has to run first: it is given in front, with the word as the choice has to go on. -/
def choose (text : String) :
    List (List Word × Command) → Expanding (Progress (Option Command) (List (List Word × Command)))
  | [] => return .all none
  | (ps, c) :: rest => do
    match ← fitsAny ps with
    | .all true => return .all (some c)
    | .all false => choose text rest
    | .held _ inner ps => return .held none inner ((ps, c) :: rest)
where
  fitsAny : List Word → Expanding (Progress Bool (List Word))
    | [] => return .all false
    | w :: ws => do
      match dig (← get) w with
      | some (inner, w) => return .held false inner (w :: ws)
      | none =>
        if Glob.fits (fragmentGlob (← expandPieces { isSingle := true } w)) text.toList then
          return .all true
        else fitsAny ws

/-- Puts what a command has written where it has been taken out of the words of a command. -/
def Command.fill (s : String) : Command → Command
  | .simple line as ws rs =>
    .simple line (as.map fun a => (a.1, Shell.fill s a.2)) (ws.map (Shell.fill s)) (filled rs)
  | .each name words body => .each name (words.map (·.map (Shell.fill s))) body
  | .choice word branches =>
    .choice (Shell.fill s word) (branches.map fun b => (b.1.map (Shell.fill s), b.2))
  | .redirected c rs => .redirected c (filled rs)
  | c => c
where
  filled (rs : List Redirection) : List Redirection :=
    rs.map fun r => { r with word := Shell.fill s r.word }

end DebugHost.Shell
