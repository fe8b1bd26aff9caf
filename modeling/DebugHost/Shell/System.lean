import DebugHost.Process.Command
import DebugHost.Shell.Process
import DebugHost.Shell.Tool

/-! # The system

All processes with the files and pipes they share, and the clock. Whether a pipe has ended is not kept
anywhere: it has as soon as no living process can write to it. -/

namespace DebugHost.Shell

/-- The state of the system. -/
structure System where
  /-- The time, in milliseconds. -/
  now : Nat := 0
  files : FileSystem := {}
  processes : List Process := []
  /-- Open files. -/
  opened : List (Nat × Channel) := []
  pipes : List Pipe := []
  /-- The number for the next process, open file or pipe. -/
  next : Nat := 100
  /-- The variables that programs are started with. -/
  environment : List (String × String) := []
deriving Inhabited

namespace System

/-- The process that is nobody's child here: the one that starts programs. -/
def host : Nat := 0

/-- The parent of processes whose parent has ended. -/
def orphanage : Nat := 1

/-- A process by its number. -/
def process? (s : System) (id : Nat) : Option Process := s.processes.find? (·.id = id)

/-- Changes a process. -/
def modify (s : System) (id : Nat) (f : Process → Process) : System :=
  { s with processes := s.processes.map fun p => if p.id = id then f p else p }

/-- Changes what a process does. -/
def setWork (s : System) (id : Nat) (w : Work) : System := s.modify id fun p => { p with work := w }

/-- Changes the state of a shell. -/
def setInterpreter (s : System) (id : Nat) (i : Interpreter) : System := s.setWork id (.interpret i)

/-- Takes a number that is not in use. -/
def fresh (s : System) : Nat × System := (s.next, { s with next := s.next + 1 })

/-! ### Open files and pipes -/

/-- What an open file is. -/
def channel? (s : System) (number : Nat) : Option Channel :=
  (s.opened.find? (·.1 = number)).map (·.2)

/-- What a descriptor of a process leads to. -/
def channelOf (s : System) (p : Process) (descriptor : Nat) : Option Channel :=
  (p.files.find? (·.1 = descriptor)).bind fun (_, n) => s.channel? n

/-- Opens something. -/
def openChannel (s : System) (c : Channel) : Nat × System :=
  let (n, s) := s.fresh
  (n, { s with opened := (n, c) :: s.opened })

/-- Makes a pipe: its number, and its two ends. -/
def makePipe (s : System) (isWatched : Bool) : Nat × Nat × Nat × System :=
  let (n, s) := s.fresh
  let s := { s with pipes := { number := n, isWatched } :: s.pipes }
  let (r, s) := s.openChannel (.readEnd n)
  let (w, s) := s.openChannel (.writeEnd n)
  (n, r, w, s)

/-- Whether some living process holds a descriptor for a channel. -/
def isHeld (s : System) (c : Channel) : Bool :=
  let numbers := s.opened.filterMap fun (n, d) => if d = c then some n else none
  s.processes.any fun p => p.files.any fun (_, n) => n ∈ numbers

/-- What a pipe holds. -/
def content (s : System) (pipe : Nat) : List UInt8 :=
  ((s.pipes.find? (·.number = pipe)).map (·.content)).getD []

/-- Changes what a pipe holds. -/
def setContent (s : System) (pipe : Nat) (bs : List UInt8) : System :=
  { s with pipes := s.pipes.map fun p => if p.number = pipe then { p with content := bs } else p }

/-- Whether nothing can come out of a pipe any more. -/
def hasEnded (s : System) (pipe : Nat) : Bool :=
  (s.content pipe).isEmpty && !s.isHeld (.writeEnd pipe)

/-- Whether somebody may read from a pipe. -/
def isRead (s : System) (pipe : Nat) : Bool :=
  (s.pipes.any fun p => p.number = pipe && p.isWatched) || s.isHeld (.readEnd pipe)

/-- Takes everything out of a pipe. -/
def drain (s : System) (pipe : Nat) : List UInt8 × System :=
  (s.content pipe, s.setContent pipe [])

/-- Forgets open files and pipes that nobody holds. -/
def sweep (s : System) : System :=
  let held := s.processes.flatMap fun p => p.files.map (·.2)
  let opened := s.opened.filter fun (n, _) => n ∈ held
  { s with
    opened := opened
    pipes := s.pipes.filter fun p => p.isWatched || opened.any fun (_, c) =>
      c = .readEnd p.number || c = .writeEnd p.number }

/-- What can be read from a descriptor: octets, the end if they are none, or nothing yet. -/
def readable (s : System) (p : Process) (descriptor : Nat) : Option (List UInt8) :=
  match s.channelOf p descriptor with
  | some (.readEnd pipe) =>
    if (s.content pipe).isEmpty then if s.isHeld (.writeEnd pipe) then none else some []
    else some (s.content pipe)
  | some (.file trail offset _) =>
    match s.files.at? trail with
    | some (.file bs _) => some (bs.drop offset)
    | _ => some []
  | _ => some []

/-- Takes octets from a descriptor. -/
def consume (s : System) (p : Process) (descriptor count : Nat) : System :=
  match s.channelOf p descriptor with
  | some (.readEnd pipe) => s.setContent pipe ((s.content pipe).drop count)
  | some (.file trail offset atEnd) =>
    match p.files.find? (·.1 = descriptor) with
    | some (_, n) =>
      { s with opened := s.opened.map fun (m, c) =>
          if m = n then (m, .file trail (offset + count) atEnd) else (m, c) }
    | none => s
  | _ => s

/-- Writes to a descriptor; `none` where nobody reads. What is written to a descriptor that is not open
is lost. -/
def write (s : System) (p : Process) (descriptor : Nat) (bs : List UInt8) : Option System :=
  if bs.isEmpty then some s
  else
    match s.channelOf p descriptor with
    | some (.writeEnd pipe) =>
      if s.isRead pipe then some (s.setContent pipe (s.content pipe ++ bs)) else none
    | some (.file trail _ _) =>
      match s.files.at? trail with
      | some (.file old x) => some { s with files := s.files.put trail (.file (old ++ bs) x) }
      | _ => some s
    | _ => some s

/-! ### The end of processes -/

/-- Ends a process: its descriptors are closed, and its children become orphans. -/
def finish (s : System) (id : Nat) (status : WaitStatus) : System :=
  let parent := (s.process? id).map (·.parent)
  let s := s.modify id fun p => { p with work := .ended status, files := [], pending := [] }
  let s := match parent with
    | some n => s.modify n fun p =>
        if p.hasAction sigchld then { p with pending := p.pending ++ [sigchld] } else p
    | none => s
  let processes := s.processes.map fun p =>
    if p.parent = id then { p with parent := orphanage } else p
  sweep { s with processes := processes.filter fun p => p.isAlive || p.parent ≠ orphanage }

/-- Forgets a process whose end has been noticed. -/
def reap (s : System) (id : Nat) : System :=
  { s with processes := s.processes.filter fun p => p.id ≠ id || p.isAlive }

/-- The status of a process that has ended. -/
def status? (s : System) (id : Nat) : Option WaitStatus := (s.process? id).bind Process.status?

/-- Lets a process that is not stopped have a signal: it is ignored, waits for its action, stops the
process or ends it. -/
def deliver (s : System) (id n : Nat) : System :=
  match s.process? id with
  | none => s
  | some p =>
    if !p.isAlive || n ∈ p.ignored then s
    else if p.hasAction n then s.modify id fun p => { p with pending := p.pending ++ [n] }
    else if isHarmless n then s
    else if isStopping n then s.modify id fun p => { p with isStopped := true }
    else s.finish id (.signal n)

/-- Sends a signal to a process. A stopped process gets it later, unless it is one that nothing
withstands; it goes on with the signal for that. -/
def send (s : System) (id n : Nat) : System :=
  match s.process? id with
  | none => s
  | some p =>
    if !p.isAlive then s
    else if n = sigkill then s.finish id (.signal n)
    else if n = sigstop then s.modify id fun p => { p with isStopped := true }
    else if n = sigcont then
      let s := s.modify id fun p => { p with isStopped := false, held := [] }
      (n :: p.held).foldl (fun s m => s.deliver id m) s
    else if p.isStopped then s.modify id fun p => { p with held := p.held ++ [n] }
    else s.deliver id n

/-- Sends a signal to all processes of a group. -/
def sendGroup (s : System) (group n : Nat) : System :=
  (s.processes.filter (·.group = group)).foldl (fun s p => s.send p.id n) s

/-- Whether a process of a group is alive. -/
def groupLives (s : System) (group : Nat) : Bool :=
  s.processes.any fun p => p.group = group && p.isAlive

/-! ### Programs -/

/-- A program that is ready to run. -/
inductive Program where
  /-- The shell, with its arguments. -/
  | shell (zero : String) (args : List String)
  | tool (call : ToolCall)

/-- Directories in which the system keeps its programs. -/
def systemDirectories : List (List String) := [["bin"], ["usr", "bin"]]

/-- The names of the shell. -/
def shells : List String := ["sh", "dash", "bash"]

/-- Files of the system that scripts may look for. -/
def systemFiles : List (List String × Entry) :=
  FileSystem.standard ++ systemDirectories.flatMap fun d =>
    (shells ++ ["env"]).map fun n => (d ++ [n], .file [] true)

/-- The program of the system with a name. -/
def systemProgram? (zero name : String) (args : List String) : Option Program :=
  if name ∈ shells then some (.shell zero args)
  else if name ∈ Tool.all || name = "setsid" || name = "nohup" then
    some (.tool ⟨zero, name, args⟩)
  else none

/-- Number of octets of a file in which the system looks for the name of its interpreter. -/
def lineLimit : Nat := 256

/-- The interpreter that the first line of a script names, and its argument. A line that does not end
within the octets that the system looks at is cut there, unless that would cut the name. Behind the end
of a short file the system sees zeros. -/
def interpreterLine (bs : List UInt8) : Option (String × List String) :=
  let isBlank (b : UInt8) : Bool := b = 32 || b = 9
  let isEnd (b : UInt8) : Bool := isBlank b || b = 0
  let trimmed (bs : List UInt8) : List UInt8 := (bs.reverse.dropWhile isBlank).reverse
  match (bs ++ List.replicate lineLimit 0).take lineLimit with
  | 35 :: 33 :: buffer =>
    let isWhole := buffer.contains 10
    let front := (if isWhole then buffer.takeWhile (· ≠ 10) else buffer).dropWhile isBlank
    if if isWhole then front.isEmpty else !front.any isEnd then none
    else
      let text := trimmed (if isWhole then front else front.dropLast)
      let name := text.takeWhile (!isEnd ·)
      let behind := text.drop name.length
      some (Text.Utf8.decodeLossy name, if behind.head?.any isBlank then
        [Text.Utf8.decodeLossy ((behind.dropWhile isBlank).takeWhile (· ≠ 0))] else [])
  | _ => none

/-- The program at a path, or `none` for a file that does not tell how it is run. Scripts name their
interpreter, which may itself be a script; `fuel` tells how often. -/
def loadAt (fs : FileSystem) (cwd : List String) : Nat → Path → List String →
    Except OsError (Option Program)
  | fuel, path, args =>
    match fs.locate cwd path with
    | .error e => .error e
    | .ok trail =>
      match if trail.dropLast ∈ systemDirectories then
          trail.getLast?.bind fun name => systemProgram? path.text name args
        else none with
      | some p => if fuel = 0 then .error .tooManyLinks else .ok (some p)
      | none =>
        match fs.at? trail with
        | none => .error .notFound
        | some .directory => .error .permissionDenied
        | some (.file bs executable) =>
          if !executable then .error .permissionDenied
          else
            match fuel with
            | 0 => .error .tooManyLinks
            | fuel + 1 =>
              match interpreterLine bs with
              | some (name, more) => loadAt fs cwd fuel ⟨name⟩ (more ++ path.text :: args)
              | none => .ok none

/-- Number of programs that the system looks at to run one: interpreters of interpreters. -/
def interpreterLimit : Nat := 6

/-- Who runs files that do not tell how they are run. -/
inductive Fallback where
  | shell
  | nobody
deriving DecidableEq, Repr

/-- The program at a path. -/
def programAt (fs : FileSystem) (cwd : List String) (fallback : Fallback) (path : Path)
    (args : List String) : Except OsError Program :=
  match loadAt fs cwd interpreterLimit path args with
  | .error e => .error e
  | .ok (some p) => .ok p
  | .ok none =>
    if fallback = .shell then .ok (.shell path.text (path.text :: args)) else .error .badFormat

/-- The directories in which programs are looked for. -/
def searchPath (environment : List (String × String)) : List String :=
  match environment.find? (·.1 = "PATH") with
  | some (_, v) => v.splitOn ":"
  | none => ["/bin", "/usr/bin"]

/-- Looks for a program in directories. Where it is not there, the search goes on, and also where it
must not be run; `failure` is why it has not been found so far. -/
def searchProgram (fs : FileSystem) (cwd : List String) (fallback : Fallback) (name : String)
    (args : List String) : List String → OsError → Except OsError Program
  | [], failure => .error failure
  | d :: ds, failure =>
    match programAt fs cwd fallback ((Path.mk (if d = "" then "." else d)).join ⟨name⟩) args with
    | .ok (.shell zero more) => .ok (.shell (if more = args then name else zero) more)
    | .ok (.tool c) => .ok (.tool (if c.args = args then { c with zero := name } else c))
    | .error .permissionDenied => searchProgram fs cwd fallback name args ds .permissionDenied
    | .error e =>
      if e = .notFound || e = .notDirectory then
        searchProgram fs cwd fallback name args ds (if failure = .permissionDenied then failure else e)
      else .error e

/-- Finds a program: a name with a slash is a path, any other is looked for in directories. -/
def findProgram (fs : FileSystem) (cwd : List String) (directories : List String)
    (fallback : Fallback) (name : String) (args : List String) : Except OsError Program :=
  if '/' ∈ name.toList then programAt fs cwd fallback ⟨name⟩ args
  else searchProgram fs cwd fallback name args directories .notFound

/-- Splits settings of variables off from arguments. -/
def splitSettings : List String → List (String × String) × List String
  | [] => ([], [])
  | a :: rest =>
    let name := a.toList.takeWhile (· ≠ '=')
    if name.length < a.length && !name.isEmpty then
      let (settings, args) := splitSettings rest
      ((String.ofList name, String.ofList (a.toList.drop (name.length + 1))) :: settings, args)
    else ([], a :: rest)

/-- Sets variables; later settings take the place of earlier ones. -/
def withSettings (environment settings : List (String × String)) : List (String × String) :=
  settings.foldl (fun e (n, v) =>
    if e.any (·.1 = n) then e.map fun (m, w) => if m = n then (n, v) else (m, w)
    else e ++ [(n, v)]) environment

/-- What `env` is told to do. -/
structure EnvironmentCall where
  /-- Whether the environment is emptied first. -/
  isFresh : Bool := false
  /-- The variables that are taken away. -/
  without : List String := []
  settings : List (String × String) := []
  /-- The program and its arguments. -/
  words : List String := []
deriving DecidableEq, Repr

namespace EnvironmentCall

/-- Reads settings and words. -/
def withWords (c : EnvironmentCall) (args : List String) : EnvironmentCall :=
  let (settings, words) := splitSettings args
  { c with settings, words }

/-- Reads options of single letters, settings and words, in at most `fuel` steps. The option `S` cuts
its value into arguments at blanks. -/
def readFrom (c : EnvironmentCall) : Nat → List String → Except (List String) EnvironmentCall
  | 0, _ => .ok c
  | _, [] => .ok c
  | fuel + 1, a :: rest =>
    match a.toList with
    | ['-', '-'] => .ok (c.withWords rest)
    | ['-'] => readFrom { c with isFresh := true } fuel rest
    | ['-', 'i'] => readFrom { c with isFresh := true } fuel rest
    | ['-', 'u'] =>
      match rest with
      | n :: rest => readFrom { c with without := c.without ++ [n] } fuel rest
      | [] => .error ["option requires an argument -- 'u'"]
    | '-' :: 'u' :: n => readFrom { c with without := c.without ++ [String.ofList n] } fuel rest
    | ['-', 'S'] =>
      match rest with
      | t :: rest => readFrom c fuel (cut none none t.toList ++ rest)
      | [] => .error ["option requires an argument -- 'S'"]
    | '-' :: 'S' :: t => readFrom c fuel (cut none none t ++ rest)
    | '-' :: 'i' :: more =>
      readFrom { c with isFresh := true } fuel (String.ofList ('-' :: more) :: rest)
    | '-' :: letter :: _ =>
      .error (("invalid option -- '" ++ letter.toString ++ "'") ::
        if letter.isWhitespace then ["use -[v]S to pass options in shebang lines"] else [])
    | _ => .ok (c.withWords (a :: rest))
where
  /-- Cuts a text at blanks that are not quoted: `quote` is the mark that is open, `word` holds what
  there is of a word. -/
  cut (quote : Option Char) (word : Option (List Char)) : List Char → List String
    | [] => (word.map fun w => String.ofList w.reverse).toList
    | c :: cs =>
      match quote with
      | some q =>
        if c = q then cut none (some (word.getD [])) cs else cut quote (some (c :: word.getD [])) cs
      | none =>
        if c = '"' || c = '\'' then cut (some c) (some (word.getD [])) cs
        else if c.isWhitespace then
          (word.map fun w => String.ofList w.reverse).toList ++ cut none none cs
        else cut none (some (c :: word.getD [])) cs

/-- Reads the arguments of `env`, or tells what is wrong with them. -/
def read (args : List String) : Except (List String) EnvironmentCall :=
  readFrom {} (args.foldl (fun n a => n + a.length + 1) 2) args

/-- The environment of the program. -/
def apply (c : EnvironmentCall) (environment : List (String × String)) : List (String × String) :=
  withSettings (if c.isFresh then [] else environment.filter fun v => v.1 ∉ c.without) c.settings

end EnvironmentCall

/-! ### Starting the shell -/

/-- Whether a variable can have a name. -/
def isVariableName (name : String) : Bool :=
  name.toList.head?.any (fun c => c.isAlpha || c = '_') &&
    name.toList.all fun c => c.isAlphanum || c = '_'

/-- The variables of a shell: those it is given, and those that it always has. -/
def shellVariables (p : Process) : List Variable :=
  let given := withSettings p.environment [("PWD", "/" ++ String.intercalate "/" p.cwd)]
  let own : List (String × String) :=
    [("IFS", " \t\n"), ("OPTIND", "1"), ("PS1", "# "), ("PS2", "> "), ("PS4", "+ "),
      ("PPID", toString (max p.parent orphanage))] ++
    if given.any (·.1 = "PATH") then [] else
      [("PATH", "/usr/local/sbin:/usr/local/bin:/usr/sbin:/usr/bin:/sbin:/bin")]
  ((given.filter fun (n, _) => isVariableName n && !own.any (·.1 = n)).map fun (n, v) =>
      ⟨n, some v, true, false⟩) ++
    own.map fun (n, v) => ⟨n, some v, false, false⟩

/-- What the shell says where it is told to control jobs: there is no terminal. -/
def noTerminal : String := "can't access tty; job control turned off"

/-- A shell that begins its work, and what it writes before. -/
structure Beginning where
  shell : Interpreter
  out : String := ""
  err : String := ""

/-- What the shell does when it is started, or what it says before it ends at once. -/
def startShell (s : System) (p : Process) (zero : String) (args : List String) :
    Except String Beginning := do
  let failure (text : String) : String := zero ++ ": 0: " ++ text
  let o ← (Options.read true [] args).mapError failure
  let on := o.on.filter (· ≠ 'm')
  let scope : Scope := { bindings := shellVariables p, zero, flags := on, process := p.id }
  let begins (scope : Scope) (frames : List Frame) : Beginning :=
    { shell := { scope, frames, isReplaceable := o.isCommand }
      out := String.join (o.lists.map o.list)
      err := if 'm' ∈ o.on then scope.zero ++ ": 0: " ++ noTerminal ++ "\n" else "" }
  match o.rest with
  | [] =>
    if o.isCommand then throw (failure "-c requires an argument")
    else return begins { scope with flags := 's' :: on } [.input []]
  | a :: rest =>
    if o.isCommand then
      return begins { scope with zero := rest.head?.getD zero, args := rest.drop 1 }
        [.text a.toList 1]
    else if 's' ∈ on then return begins { scope with args := o.rest } [.input []]
    else
      let scope := { scope with zero := a, args := rest }
      match s.files.read p.cwd ⟨a⟩ with
      | .ok bs => return begins scope [.text (Text.Utf8.decodeLossy bs).toList 1]
      | .error .isDirectory => return begins scope []
      | .error e =>
        let why := if e = .notFound || e = .notDirectory then "No such file" else e.text
        throw (failure ("cannot open " ++ a ++ ": " ++ why))

/-- How long `sleep` sleeps, in milliseconds, if its arguments are numbers. -/
def sleepTime (args : List String) : Option Nat :=
  if args.isEmpty then none else
  args.foldl (fun total a => do
    let total ← total
    let cs := a.toList
    let (cs, unit) := match cs.getLast? with
      | some 's' => (cs.dropLast, 1)
      | some 'm' => (cs.dropLast, 60)
      | some 'h' => (cs.dropLast, 3600)
      | some 'd' => (cs.dropLast, 86400)
      | _ => (cs, 1)
    if String.ofList cs = "infinity" then some (total + 1000000000)
    else
      let whole := cs.takeWhile Char.isDigit
      let point := (cs.drop whole.length).take 1
      let decimals := cs.drop (whole.length + 1)
      if (whole ++ decimals).isEmpty || !decimals.all Char.isDigit || !(point = [] || point = ['.']) then
        none
      else
        let n := (String.ofList whole).toNat?.getD 0
        let d := (String.ofList ((decimals ++ ['0', '0', '0']).take 3)).toNat?.getD 0
        some (total + (n * 1000 + d) * unit)) (some 0)

/-- Makes a process run a program in place of what it did. The program does not get the descriptors
that only the shell itself uses. -/
def execute (s : System) (id : Nat) : Nat → Program → System
  | 0, _ => s.finish id (.code 126)
  | fuel + 1, program =>
    let s := s.modify id fun p => { p with files := p.files.filter (·.1 < firstReserved) }
    match s.process? id with
    | none => s
    | some p =>
      let fails (text : String) (status : Nat) : System :=
        ((s.write p 2 (Tool.octets (text ++ "\n"))).getD s).finish id (.code status)
      let runs (s : System) (zero : String) (environment : List (String × String))
          (words : List String) : System :=
        match words with
        | [] => s
        | name :: args =>
          match if name = "" then .error .notFound
            else findProgram s.files p.cwd (searchPath environment) .shell name args with
          | .ok program => execute (s.modify id fun p => { p with environment }) id fuel program
          | .error e =>
            fails (zero ++ ": '" ++ name ++ "': " ++ e.text) (if e = .notFound then 127 else 126)
      match program with
      | .shell zero args =>
        match s.startShell p zero args with
        | .ok b =>
          let s := (s.write p 1 (Tool.octets b.out)).getD s
          let s := (s.write p 2 (Tool.octets b.err)).getD s
          s.setInterpreter id b.shell
        | .error text => fails text 2
      | .tool ⟨zero, "sleep", args⟩ =>
        match sleepTime args with
        | some ms => s.setWork id (.sleep (s.now + ms))
        | none =>
          let bad := (args.filter fun a => (sleepTime [a]).isNone).map fun a =>
            "invalid time interval '" ++ a ++ "'"
          fails (String.join ((if args.isEmpty then ["missing operand"] else bad).map fun t =>
              zero ++ ": " ++ t ++ "\n") ++
            "Try '" ++ zero ++ " --help' for more information.") 1
      | .tool ⟨zero, "env", args⟩ =>
        match EnvironmentCall.read args with
        | .ok c =>
          let environment := c.apply p.environment
          if c.words.isEmpty then
            (s.modify id fun p => { p with environment }).setWork id (.tool ⟨zero, "env", []⟩ [])
          else runs s zero environment c.words
        | .error lines =>
          fails (String.join (lines.map fun t => zero ++ ": " ++ t ++ "\n") ++
            "Try '" ++ zero ++ " --help' for more information.") 125
      | .tool ⟨zero, "setsid", args⟩ =>
        runs (s.modify id fun p => { p with group := id }) zero p.environment args
      | .tool ⟨zero, "nohup", args⟩ =>
        runs (s.modify id fun p => { p with ignored := 1 :: p.ignored }) zero p.environment args
      | .tool c => s.setWork id (.tool c [])

/-- A setting as programs see it: the name ends at the first `=`, wherever it stands. -/
def effectiveSetting (setting : String × String) : String × String :=
  let cs := setting.1.toList ++ '=' :: setting.2.toList
  let name := cs.takeWhile (· ≠ '=')
  (String.ofList name, String.ofList (cs.drop (name.length + 1)))

/-- Starts a command as a child of the one who starts programs: the number of the process and of the
pipes on which it writes. The directory is taken first, and the program is found from there. The process
leads a group of its own, or belongs to the group of the one who starts it. -/
def spawn (s : System) (cwd : List String) (c : DebugHost.Command) (fallback : Fallback)
    (ownGroup : Bool) : Except OsError (Nat × Nat × Nat × System) := do
  let texts := c.program.text :: c.cwd.text :: c.arguments ++ c.settings.flatMap fun (n, v) => [n, v]
  if texts.any FileSystem.hasNul then throw .nulInCommand
  let trail ← s.files.locate cwd c.cwd
  s.files.enter trail
  if c.program.text = "" then throw .notFound
  let environment := withSettings s.environment (c.settings.map effectiveSetting)
  let program ← findProgram s.files trail (searchPath environment) fallback c.program.text c.arguments
  let (out, _, outEnd, s) := s.makePipe true
  let (err, _, errEnd, s) := s.makePipe true
  let (input, s) := s.openChannel .null
  let (id, s) := s.fresh
  let p : Process :=
    { id, parent := host, group := if ownGroup then id else host, cwd := trail, environment,
      files := [(0, input), (1, outEnd), (2, errEnd)], work := .tool ⟨"true", "true", []⟩ [] }
  return (id, out, err, (execute { s with processes := s.processes ++ [p] } id 8 program).sweep)

end System
end DebugHost.Shell
