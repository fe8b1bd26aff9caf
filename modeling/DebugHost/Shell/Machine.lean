import DebugHost.Shell.Builtin
import DebugHost.Shell.Preparation

/-! # Running processes

`System.step` lets one process do one thing, and gives `none` if it has to wait or has ended.
`System.round` lets every process do one thing. -/

namespace DebugHost.Shell

/-! ### Descriptors -/

/-- Points a descriptor to an open file, or closes it. -/
def point (files : List (Nat × Nat)) (descriptor : Nat) (target : Option Nat) : List (Nat × Nat) :=
  let rest := files.filter (·.1 ≠ descriptor)
  match target with
  | some n => (descriptor, n) :: rest
  | none => rest

/-- Descriptors `files` together with those that have to come back later, which are kept open at
reserved places. -/
def reserve (saved files : List (Nat × Nat)) : List (Nat × Nat) :=
  files ++ saved.filterMap fun (_, n) =>
    if files.any (·.2 = n) then none else some (firstReserved + n, n)

namespace System

/-- The descriptor that a place stands for. -/
def descriptorNamed? : List String → Option Nat
  | ["dev", "stdin"] => some 0
  | ["dev", "stdout"] => some 1
  | ["dev", "stderr"] => some 2
  | ["dev", "fd", n] => n.toNat?
  | _ => none

/-- Opens a path for a redirection. -/
def openPath (s : System) (p : Process) (files : List (Nat × Nat)) (d : Direction) (path : String) :
    Except String (Option Nat × System) :=
  let trail := FileSystem.trail p.cwd ⟨path⟩
  let opened (c : Channel) (s : System) : Except String (Option Nat × System) :=
    let (n, s) := s.openChannel c
    .ok (some n, s)
  if trail = FileSystem.nullDevice then opened .null s
  else if let some n := descriptorNamed? trail then
    match files.find? (·.1 = n) with
    | some (_, file) => .ok (some file, s)
    | none => .error (if d = .read then cannotOpen .notFound else cannotCreate .notFound)
  else if d = .read then
    match s.files.read p.cwd ⟨path⟩ with
    | .ok _ => opened (.file trail 0 false) s
    | .error .isDirectory => opened .null s
    | .error e => .error (cannotOpen e)
  else
    let written := if d = .write || d = .overwrite then s.files.write p.cwd ⟨path⟩ false []
      else s.files.write p.cwd ⟨path⟩ true []
    match written with
    | .ok fs => opened (.file trail 0 (d = .append)) { s with files := fs }
    | .error e => .error (cannotCreate e)
where
  cannotOpen (e : OsError) : String :=
    "cannot open " ++ path ++ ": " ++
      if e = .notFound || e = .notDirectory then "No such file" else e.text
  cannotCreate (e : OsError) : String :=
    "cannot create " ++ path ++ ": " ++
      if e = .notFound || e = .notDirectory then "Directory nonexistent" else e.text

/-- Applies redirections one after the other: the descriptors afterwards. -/
def redirect (p : Process) : List Redirection → List (Nat × Nat) → System → Scope →
    Except String (List (Nat × Nat) × System × Scope)
  | [], files, s, scope => .ok (files, s, scope)
  | r :: rs, files, s, scope =>
    match (expandText r.word).run scope with
    | .error e => .error e.message
    | .ok (text, scope) =>
      match r.direction with
      | .copy =>
        if text = "-" then redirect p rs (point files r.descriptor none) s scope
        else
          match text.toNat?.bind fun n => files.find? (·.1 = n) with
          | some (_, target) => redirect p rs (point files r.descriptor (some target)) s scope
          | none => .error (text ++ ": Bad file descriptor")
      | .here =>
        let (pipe, readEnd, _, s) := s.makePipe false
        redirect p rs (point files r.descriptor (some readEnd))
          (s.setContent pipe (Tool.octets text)) scope
      | d =>
        if d = .write && 'C' ∈ scope.flags && s.files.isFile p.cwd ⟨text⟩ &&
            FileSystem.trail p.cwd ⟨text⟩ ≠ FileSystem.nullDevice then
          .error ("cannot create " ++ text ++ ": File exists")
        else
        match s.openPath p files d text with
        | .ok (target, s) => redirect p rs (point files r.descriptor target) s scope
        | .error e => .error e

/-! ### Copies of a shell -/

/-- Makes a copy of a shell that runs frames of its own. Actions for signals are not taken over. -/
def fork (s : System) (p : Process) (i : Interpreter) (frames : List Frame)
    (files : List (Nat × Nat)) : Nat × System :=
  let (id, s) := s.fresh
  let frames := if i.isTested then frames ++ [.lenient] else frames
  let child : Process :=
    { p with
      id := id
      parent := p.id
      files := files
      pending := []
      work := .interpret { i with
        frames := frames, traps := [], jobs := [], gathered := none, isReplaceable := true,
        caller := i.reads } }
  (id, { s with processes := s.processes ++ [child] })

/-- Puts the state of a shell in place, unless its process has ended. -/
def keep (s : System) (id : Nat) (i : Interpreter) : System :=
  match s.process? id with
  | some p => if p.isAlive then s.setInterpreter id i else s
  | none => s

/-- Starts the commands of a pipeline: each reads what the one before it writes. -/
def startStages (p : Process) (i : Interpreter) : List Command → Option Nat → System →
    List Nat × System
  | [], _, s => ([], s)
  | c :: cs, input, s =>
    let files := match input with
      | some n => point p.files 0 (some n)
      | none => p.files
    match cs with
    | [] =>
      let (id, s) := s.fork p i [.command c] files
      ([id], s)
    | _ =>
      let (_, readEnd, writeEnd, s) := s.makePipe false
      let (id, s) := s.fork p i [.command c] (point files 1 (some writeEnd))
      let (ids, s) := startStages p i cs (some readEnd) s
      (id :: ids, s)

/-! ### Simple commands -/

/-- Ends a shell because of an error in the command at hand. -/
def abort (s : System) (p : Process) (i : Interpreter) (text : String) : System :=
  let s := s.blame p.id i text
  s.keep p.id (i.leave 2)

/-- Gives variables back the values they had before. -/
def restoreVariables (before after : Scope) (names : List String) : Scope :=
  names.foldl (fun sc n =>
    match before.bindings.find? (·.name = n) with
    | some v => { sc with bindings := sc.bindings.map fun w => if w.name = n then v else w }
    | none => sc.unset n) after

/-- The environment of a program that a command starts with assignments in front. -/
def commandEnvironment (scope : Scope) (names : List String) : List (String × String) :=
  withSettings scope.environment (names.filterMap fun n => (scope.lookup n).map (n, ·))

/-- What the shell says when a program cannot be run, and the status. -/
def noProgram : OsError → String × Nat
  | .notFound | .notDirectory => ("not found", 127)
  | .nameTooLong => (OsError.nameTooLong.text, 127)
  | .tooManyLinks => (OsError.tooManyLinks.text, 127)
  | e => (e.text, 126)

/-- The words of the command that `command` runs, and whether there is one: then no function is meant.
-/
def calledBy : List String → List String × Bool
  | "command" :: args =>
    match Operands.called args with
    | some words => called args.length words
    | none => ("command" :: args, false)
  | args => (args, false)
where
  called : Nat → List String → List String × Bool
    | fuel + 1, "command" :: args =>
      match Operands.called args with
      | some words => called fuel words
      | none => ("command" :: args, true)
    | _, words => (words, true)

/-- Starts a command whose output belongs into a word of the command `c`; `scope` is what it looks at.
-/
def startGathering (s : System) (p : Process) (i : Interpreter) (scope : Scope) (inner c : Command) :
    System :=
  let (pipe, readEnd, writeEnd, s) := s.makePipe false
  let (id, s) := s.fork p { i with scope } [.command inner] (point p.files 1 (some writeEnd))
  let s := s.modify p.id fun p => { p with files := (pipe, readEnd) :: p.files }
  s.keep p.id (i.push [.gather pipe id [] c])

/-- Writes a command that is run, if the option for that is on. -/
def trace (s : System) (p : Process) (scope : Scope) (settings : List (String × String))
    (args : List String) : System :=
  let words := settings.map (fun (n, v) => n ++ "=" ++ v) ++ args
  if 'x' ∈ scope.flags && !words.isEmpty then
    s.say p.id 2 (Tool.octets ((scope.lookup "PS4").getD "" ++ String.intercalate " " words ++ "\n"))
  else s

/-- Runs the words `args` with the variables `names` set for them; `before` is the scope without them.
The process `p` has the descriptors it had before, and gets `files` for the command. -/
def runWords (s : System) (p : Process) (i : Interpreter) (before : Scope) (names args : List String)
    (files : List (Nat × Nat)) (isRedirected : Bool) : Option System :=
  let isSpecial := (args.head?.map (specialNames.contains ·)).getD false
  let (args, isPlain) := calledBy args
  match args with
  | [] => none
  | name :: rest =>
    let restoring : List Frame := if isRedirected then [.restore p.files] else []
    let kept := if name = "exec" then files else reserve p.files files
    let there := s.modify p.id fun p => { p with files := kept }
    let p' := { p with files := kept }
    match i.functions.find? fun f => f.1 = name && !isPlain with
    | some (_, body) =>
      let own := names.map fun n => (n, before.bindings.find? (·.name = n))
      let back : Frame := .returned i.scope.args i.scope.optionPlace own
      let scope := names.foldl (·.exportName ·) i.scope
      let i := { i with scope := { scope with args := rest, optionPlace := {} } }
      some (there.keep p.id (i.push (.command body :: back :: restoring)))
    | none =>
      if name = "exec" then
        match rest with
        | [] => some (there.keep p.id (i.complete 0))
        | program :: rest =>
          let environment := commandEnvironment i.scope names
          match findProgram s.files p.cwd i.scope.directories .shell program rest with
          | .ok found =>
            some ((there.modify p.id fun p => { p with environment }).execute p.id 8 found)
          | .error e =>
            let (text, status) := noProgram e
            let there := there.complain p.id i ("exec: " ++ program ++ ": " ++ text)
            some (there.keep p.id (i.leave status))
      else if name ∈ specialNames || name ∈ Builtin.regular then
        let put (r : Builtin.Result) : System :=
          let scope := if isSpecial then r.shell.scope
            else restoreVariables before r.shell.scope names
          let shell := { r.shell with scope }
          r.system.keep p.id (if r.isPending then shell else shell.complete r.status)
        (Builtin.run there p' (i.push restoring) isSpecial name rest).map put
      else
        let environment := commandEnvironment i.scope names
        let directories := i.scope.directories
        let i := { i with scope := restoreVariables before i.scope names }
        match findProgram s.files p.cwd directories .shell name rest with
        | .error e =>
          let (text, status) := if name = "" then (e.text, 127) else noProgram e
          let there := there.blame p.id i (name ++ ": " ++ text)
          let there := there.modify p.id fun q => { q with files := p.files }
          some (there.keep p.id (i.complete status))
        | .ok found =>
          if i.endsHere then
            some ((s.modify p.id fun q => { q with environment, files }).execute p.id 8 found)
          else
          let (id, s) := s.fork p i [] files
          let s := (s.modify id fun q => { q with environment }).execute id 8 found
          some (s.keep p.id (i.push [.await [id]]))

/-- Runs a simple command: its words are expanded, then it is redirected, and then the assignments are
made. A command in a word comes first, and the rest of the simple command is kept for later. -/
def runSimple (s : System) (p : Process) (i : Interpreter) (line : Nat)
    (assignments : List (String × Word)) (words : List Word) (redirections : List Redirection) :
    Option System :=
  let i := { i with line }
  let status := i.gathered.getD 0
  let i := { i with gathered := none }
  match (expandWords true s.files p.cwd [] words).run i.scope with
  | .error e => some (s.abort p i e.message)
  | .ok (.held done inner left, scope) =>
    some (s.startGathering p { i with scope } scope inner
      (.simple line assignments (done.map literal ++ left) redirections))
  | .ok (.all args, scope) =>
    let i := { i with scope }
    match digRedirections scope redirections with
    | some (inner, left) =>
      some (s.startGathering p i scope inner (.simple line assignments (args.map literal) left))
    | none =>
      match redirect p redirections p.files s scope with
      | .error e =>
        if (args.head?.map (specialNames.contains ·)).getD false then some (s.abort p i e)
        else some ((s.blame p.id i e).keep p.id (i.complete 2))
      | .ok (files, s, before) =>
        let kept := reserve p.files files
        let there := s.modify p.id fun p => { p with files := kept }
        let p' := { p with files := kept }
        match (assignAll [] assignments).run before with
        | .error e => some (there.abort p' i e.message)
        | .ok (.held done inner left, scope) =>
          -- The redirections stay while the command in the assignment runs.
          let left := done.map (fun (n, v) => (n, literal v)) ++ left
          let restoring : List Frame :=
            if redirections.isEmpty || args.head? = some "exec" then [] else [.restore p.files]
          let i := { i with scope := if args.isEmpty then scope else before }.push restoring
          some (there.startGathering p' i scope inner (.simple line left (args.map literal) []))
        | .ok (.all settings, scope) =>
          let i := { i with scope }
          let s := s.trace p scope settings args
          if args.isEmpty then some (s.keep p.id (i.complete status))
          else s.runWords p i before (settings.map (·.1)) args files (!redirections.isEmpty)

/-! ### Commands -/

/-- Runs a command. A command in one of its words comes first. -/
def runCommand (s : System) (p : Process) (i : Interpreter) (c : Command) : Option System :=
  let goesOn (i : Interpreter) : Option System := some (s.keep p.id i)
  match c, { i with gathered := none } with
  | .simple line as ws rs, _ => s.runSimple p i line as ws rs
  | .pipeline cs, i =>
    let (ids, s) := startStages p i cs none s
    some (s.keep p.id (i.push [.await ids]))
  | .negation c, i => goesOn (i.push [.command c, .negate])
  | .both a b, i => goesOn (i.push [.command a, .ifSuccess b])
  | .either a b, i => goesOn (i.push [.command a, .ifFailure b])
  | .sequence cs, i =>
    if cs.isEmpty then goesOn (i.setStatus 0) else goesOn (i.push (cs.map .command))
  | .background c, i =>
    let (input, s) := s.openChannel .null
    let (id, s) := s.fork { p with ignored := 2 :: 3 :: p.ignored } i [.command c]
      (point p.files 0 (some input))
    let i := i.setStatus 0
    some (s.keep p.id
      { i with jobs := i.jobs ++ [id], scope := { i.scope with lastBackground := some id } })
  | .conditional test yes no, i => goesOn (i.push [.command test, .branch yes no])
  | .loop isUntil test body, i => goesOn (i.push [.command test, .tested isUntil test body])
  | .each name words body, i =>
    match words with
    | none => goesOn ((i.setStatus 0).push [.each name i.scope.args body])
    | some ws =>
      match (expandWords false s.files p.cwd [] ws).run i.scope with
      | .error e => some (s.abort p i e.message)
      | .ok (.all values, scope) =>
        goesOn (({ i with scope }.setStatus 0).push [.each name values body])
      | .ok (.held done inner left, scope) =>
        some (s.startGathering p { i with scope } scope inner
          (.each name (some (done.map literal ++ left)) body))
  | .choice word branches, i =>
    match dig i.scope word with
    | some (inner, word) => some (s.startGathering p i i.scope inner (.choice word branches))
    | none =>
      match (do
          let text ← expandText word
          return (text, ← choose text branches)).run i.scope with
      | .error e => some (s.abort p i e.message)
      | .ok ((_, .all (some c)), scope) => goesOn ({ i with scope }.push [.command c])
      | .ok ((_, .all none), scope) => goesOn ({ i with scope }.setStatus 0)
      | .ok ((text, .held _ inner left), scope) =>
        some (s.startGathering p { i with scope } scope inner (.choice (literal text) left))
  | .subshell c, i =>
    if i.endsHere then goesOn (i.push [.command c])
    else
      let (id, s) := s.fork p i [.command c] p.files
      some (s.keep p.id (i.push [.await [id]]))
  | .redirected c rs, i =>
    match digRedirections i.scope rs with
    | some (inner, rs) => some (s.startGathering p i i.scope inner (.redirected c rs))
    | none =>
      match redirect p rs p.files s i.scope with
      | .error e => some ((s.blame p.id i e).keep p.id (i.complete 2))
      | .ok (files, s, scope) =>
        let i := { i with scope }
        match c, i.endsHere with
        | .subshell c, true =>
          some ((s.modify p.id fun q => { q with files }).keep p.id (i.push [.command c]))
        | c, _ =>
          some ((s.modify p.id fun q => { q with files := reserve p.files files }).keep p.id
            (i.push [.command c, .restore p.files]))
  | .placed line c, i => goesOn ({ i with line }.push [.command c])
  | .definition name body, i =>
    goesOn ({ i with functions := (name, body) :: i.functions.filter (·.1 ≠ name) }.setStatus 0)

/-- The text that output stands for in a word: without line feeds at the end. -/
def gatheredText (bs : List UInt8) : String :=
  Text.Utf8.decodeLossy (bs.reverse.dropWhile (· = 10)).reverse

/-! ### Frames -/

/-- Says which signal has ended a process that was waited for. Two signals are not worth a word. -/
def tellSignal (s : System) (id : Nat) : WaitStatus → System
  | .signal n =>
    if n = 2 || n = sigpipe then s else s.say id 2 (Tool.octets (signalText n.toNat ++ "\n"))
  | _ => s

/-- Does what a frame says. The frame has been taken from the shell. -/
def runFrame (s : System) (p : Process) (i : Interpreter) (f : Frame) : Option System :=
  let goesOn (i : Interpreter) : Option System := some (s.keep p.id i)
  let succeeded : Bool := i.scope.status = 0
  match f with
  | .text rest line =>
    match readLine rest line with
    | .error (fault, at') =>
      let s := s.blame p.id { i with line := at' } fault.message
      some (s.keep p.id (i.leave 2))
    | .ok (none, _, _) => goesOn i
    | .ok (some c, rest, next) => goesOn (i.push [.command c, .text rest next])
  | .command c =>
    if 'n' ∈ i.scope.flags then goesOn (i.setStatus 0) else s.runCommand p i c
  | .ifSuccess c => goesOn (if succeeded then i.push [.command c] else i)
  | .ifFailure c => goesOn (if succeeded then i else i.push [.command c])
  | .negate => goesOn (i.setStatus (if succeeded then 1 else 0))
  | .tested isUntil test body =>
    if succeeded ≠ isUntil then goesOn (i.push [.command body, .again isUntil test body])
    else goesOn (i.setStatus 0)
  | .again isUntil test body => goesOn (i.push [.command test, .tested isUntil test body])
  | .each name words body =>
    match words with
    | [] => goesOn i
    | w :: ws =>
      if i.scope.isFixed name then some (s.abort p i (ExpansionFault.message (.fixed name)))
      else goesOn ({ i with scope := i.scope.assign name w }.push [.command body, .each name ws body])
  | .branch yes no =>
    if succeeded then goesOn (i.push [.command yes])
    else
      match no with
      | some c => goesOn (i.push [.command c])
      | none => goesOn (i.setStatus 0)
  | .restore files => some ((s.modify p.id fun p => { p with files }).keep p.id i)
  | .await ids =>
    if ids.any fun n => (s.process? n).any Process.isAlive then none
    else
      let status := (ids.getLast?.bind s.status?).getD (.code 0)
      let statuses := ids.filterMap s.status?
      let s := statuses.foldl (fun s w => s.tellSignal p.id w) (ids.foldl reap s)
      some (s.keep p.id (i.complete (statusNumber status)))
  | .waiting ids last =>
    if ids.any fun n => (s.process? n).any Process.isAlive then none
    else
      let status := match last with
        | some n => ((s.status? n).map statusNumber).getD 127
        | none => 0
      let s := match last.bind s.status? with
        | some status => s.tellSignal p.id status
        | none => s
      let s := ids.foldl reap s
      some (s.keep p.id ({ i with jobs := i.jobs.filter (!ids.contains ·) }.complete status))
  | .gather pipe id bs c =>
    let (more, s') := s.drain pipe
    if !more.isEmpty then some (s'.keep p.id (i.push [.gather pipe id (bs ++ more) c]))
    else
      match s.hasEnded pipe, s.status? id with
      | true, some status =>
        let s := ((s.reap id).tellSignal p.id status).modify p.id fun p =>
          { p with files := point p.files pipe none }
        some (s.keep p.id ({ i with gathered := some (statusNumber status) }.push
          [.command (c.fill (gatheredText bs))]))
      | _, _ => none
  | .returned args optionPlace own =>
    let scope := own.foldl (fun sc (n, old) => sc.putBack n old) { i.scope with args, optionPlace }
    goesOn { i with scope }
  | .handled status => goesOn (i.setStatus status)
  | .inside .. | .lenient => goesOn i
  | .input read =>
    match s.readable p 0 with
    | none => none
    | some [] => goesOn (i.push [.text (Text.Utf8.decodeLossy read).toList 1])
    | some bs => some ((s.consume p 0 bs.length).keep p.id (i.push [.input (read ++ bs)]))
  | .exit status => some (s.finish p.id (.code status))

/-- Whether a shell waits for something that no signal interrupts. -/
def isBusy (i : Interpreter) : Bool :=
  match i.frames with
  | .await _ :: _ | .gather .. :: _ => true
  | _ => false

/-- Begins the action for a signal. It interrupts waiting for processes in the background. -/
def handle (s : System) (p : Process) (i : Interpreter) (n : Nat) (rest : List Nat) : System :=
  let s := s.modify p.id fun p => { p with pending := rest }
  let i := match i.frames with
    | .waiting .. :: fs => { i.setStatus (128 + n) with frames := fs }
    | _ => i
  match i.traps.find? (·.1 = n) with
  | some (_, action) =>
    s.keep p.id (i.push [.text action.toList 1, .handled i.scope.status])
  | none => s.keep p.id i

/-- Lets a shell do one thing. -/
def stepShell (s : System) (p : Process) (i : Interpreter) : Option System :=
  match p.pending, isBusy i with
  | n :: rest, false => some (s.handle p i n rest)
  | _, _ =>
    match i.frames with
    | [] => some (s.keep p.id (i.leave i.scope.status))
    | f :: fs => s.runFrame p { i with frames := fs } f

/-! ### All processes -/

/-- The words for a descriptor that is not open. -/
def noDescriptor : String := "Bad file descriptor"

/-- Writes what a tool has to say, and ends it. -/
def conclude (s : System) (p : Process) (c : ToolCall) (o : Outcome) : System :=
  let s := { s with files := o.files.getD s.files }
  let isLost := (s.channelOf p 1).isNone
  let o := if isLost && c.name = "cat" then
      { o with
        err := Tool.octets (c.zero ++ ": standard output: " ++ noDescriptor ++ "\n"), status := 1 }
    else if isLost && !o.out.isEmpty then
      { o with err := o.err ++ Tool.octets (c.zero ++ ": write error: " ++ noDescriptor ++ "\n"),
               status := 1 }
    else o
  let s := (s.say p.id 1 o.out).say p.id 2 o.err
  match s.process? p.id with
  | some q => if q.isAlive then s.finish p.id (.code o.status) else s
  | none => s

/-- Whether `head` has read enough. -/
def hasEnough (name : String) (args : List String) (read : List UInt8) : Bool :=
  name = "head" &&
    match (Tool.optionsOf ['n', 'c'] args).1 with
    | [('c', n)] => (n.toNat?.getD 0) ≤ read.length
    | _ => (((Tool.countOf args 'n').1.getD "10").toNat?.getD 10) ≤
        (read.filter (· = 10)).length

/-- Lets a tool do one thing: read, or do its work. -/
def stepTool (s : System) (p : Process) (c : ToolCall) (read : List UInt8) : Option System :=
  let place : Place := ⟨s.files, p.cwd, p.environment, c.zero⟩
  let works (read : List UInt8) : Option System :=
    some (s.conclude p c (Tool.run c.name place c.args read))
  if Tool.readsInput c.name c.args then
    if hasEnough c.name c.args read then works read
    else
      match s.readable p 0 with
      | none => none
      | some [] => works read
      | some bs =>
        let s := s.consume p 0 bs.length
        if c.name = "cat" && c.args.isEmpty then some (s.say p.id 1 bs)
        else some (s.setWork p.id (.tool c (read ++ bs)))
  else works []

/-- Lets a process do one thing; `none` if it has to wait, or has ended. -/
def step (s : System) (id : Nat) : Option System :=
  match s.process? id with
  | none => none
  | some p =>
    if p.isStopped then none else
    match p.work with
    | .interpret i => s.stepShell p i
    | .tool c read => s.stepTool p c read
    | .sleep until' => if until' ≤ s.now then some (s.finish id (.code 0)) else none
    | .ended _ => none

/-- Lets every process do one thing, and tells whether one of them has. -/
def round (s : System) : Bool × System :=
  s.processes.foldl (fun (moved, s) p =>
    match s.step p.id with
    | some s => (true, s)
    | none => (moved, s)) (false, s)

/-- The time at which the first sleeper wakes up. -/
def nextWake? (s : System) : Option Nat :=
  (s.processes.filterMap fun p =>
    match p.work with
    | .sleep u => if p.isStopped then none else some u
    | _ => none).min?

end System
end DebugHost.Shell
