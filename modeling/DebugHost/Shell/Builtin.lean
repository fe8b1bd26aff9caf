import DebugHost.Shell.Expansion
import DebugHost.Shell.System

/-! # The commands of the shell itself

Commands that the shell runs without another process. `Builtin.run` gives the system afterwards, with
the shell's new state and status in it; a command that has to wait gives `none`, and is run again later.
-/

namespace DebugHost.Shell

/-! ### Frames -/

namespace Interpreter

/-- Puts frames in front. -/
def push (i : Interpreter) (fs : List Frame) : Interpreter := { i with frames := fs ++ i.frames }

/-- Sets the status of the last command. -/
def setStatus (i : Interpreter) (n : Nat) : Interpreter :=
  { i with scope := { i.scope with status := n } }

/-- Whether a failure of the command at hand is being tested. -/
def isTested (i : Interpreter) : Bool := i.frames.any fun
  | .ifSuccess _ | .ifFailure _ | .negate | .tested .. | .branch .. | .lenient => true
  | _ => false

/-- Begins to leave the shell: the action for the exit comes first. -/
def leave (i : Interpreter) (status : Nat) : Interpreter :=
  match i.traps.find? (·.1 = 0) with
  | some (_, action) =>
    { i.setStatus status with
      traps := i.traps.filter (·.1 ≠ 0), frames := [.text action.toList 1, .exit status] }
  | none => { i with frames := [.exit status] }

/-- A command has ended with a status. With the option `e` a failure that nobody tests ends the
shell. -/
def complete (i : Interpreter) (status : Nat) : Interpreter :=
  let i := i.setStatus status
  if status ≠ 0 && 'e' ∈ i.scope.flags && !i.isTested then i.leave status else i

end Interpreter

/-- Drops frames down to a loop, the number `n` from the inside: the loop itself goes on or ends. The
descriptors that the frames in between would give back are given back. -/
def unwindLoop (goesOn : Bool) : Nat → List Frame → Option (List (Nat × Nat)) →
    Option (List Frame × Option (List (Nat × Nat)))
  | _, [], _ => none
  | n, f :: fs, files =>
    match f with
    | .again .. | .each .. =>
      if n ≤ 1 then some (if goesOn then f :: fs else fs, files)
      else unwindLoop goesOn (n - 1) fs files
    | .tested u t b =>
      if n ≤ 1 then some (if goesOn then .again u t b :: fs else fs, files)
      else unwindLoop goesOn (n - 1) fs files
    | .restore saved => unwindLoop goesOn n fs (some saved)
    | .returned .. => none
    | _ => unwindLoop goesOn n fs files

/-- Drops frames down to the end of a function, or of a script that is read in. -/
def unwindCall : List Frame → Option (List (Nat × Nat)) →
    Option (List Frame × Option (List (Nat × Nat)))
  | [], _ => none
  | .returned args place own :: fs, files => some (.returned args place own :: fs, files)
  | .inside n true :: fs, files => some (.inside n true :: fs, files)
  | .restore saved :: fs, _ => unwindCall fs (some saved)
  | _ :: fs, files => unwindCall fs files

/-- Makes a variable the function's own: it gets its value back at the end of the function. `none`
outside of functions. -/
def keepOwn (name : String) (old : Option Variable) : List Frame → Option (List Frame)
  | [] => none
  | .returned args place own :: fs =>
    some (.returned args place (if own.any (·.1 = name) then own else (name, old) :: own) :: fs)
  | f :: fs => (keepOwn name old fs).map (f :: ·)

namespace Interpreter

/-- The name of a script and the line of the command at hand, as messages start. -/
def here (i : Interpreter) : String := i.scope.zero ++ ": " ++ toString i.line ++ ": "

/-- What the shell is reading in, other than its script. -/
def reads (i : Interpreter) : Option String :=
  (i.frames.findSome? fun
    | .inside name _ => some name
    | _ => none).or i.caller

end Interpreter

namespace System

/-- Writes to a descriptor of a process; the process ends if nobody reads. -/
def say (s : System) (id descriptor : Nat) (bs : List UInt8) : System :=
  match s.process? id with
  | none => s
  | some p =>
    match s.write p descriptor bs with
    | some s => s
    | none => s.send id sigpipe

/-- Writes a message of a command of the shell. -/
def complain (s : System) (id : Nat) (i : Interpreter) (text : String) : System :=
  s.say id 2 (Tool.octets (i.here ++ text ++ "\n"))

/-- Writes a message of the shell about what it reads. -/
def blame (s : System) (id : Nat) (i : Interpreter) (text : String) : System :=
  s.complain id i (((i.reads.map (· ++ ": ")).getD "") ++ text)

end System

namespace Builtin

/-- All other builtins. -/
def regular : List String :=
  ["[", "test", "echo", "printf", "cd", "pwd", "read", "kill", "wait", "true", "false", "umask",
    "ulimit", "command", "type", "jobs", "hash", "alias", "unalias", "getopts", "bg", "fg"]

/-- The letters that a builtin knows, if it looks for options. -/
def letters? : String → Option (List Char)
  | "cd" | "pwd" => some ['L', 'P']
  | "command" => some ['p', 'v', 'V']
  | "export" | "readonly" => some ['p']
  | "hash" => some ['r']
  | "jobs" => some ['l', 'p']
  | "read" => some ['p', ':', 'r']
  | "umask" => some ['S']
  | "unset" => some ['v', 'f']
  | "." | "trap" | "wait" | "printf" | "getopts" => some []
  | _ => none

/-- What a builtin does with the state of the shell. -/
structure Result where
  system : System
  shell : Interpreter
  status : Nat := 0
  /-- Whether the status is set by what has been put in front instead. -/
  isPending : Bool := false

/-- The number an argument is, if it is one with a sign of 32 bits that is not below zero. -/
def number? (s : String) : Option Nat :=
  match Condition.numberOf s with
  | .ok n => if 0 ≤ n ∧ n < 2147483648 then some n.toNat else none
  | .error _ => none

/-- The line that `read` reads: its octets, with a mark at those that a backslash protects, how many
octets it takes, and whether its end is there. A backslash at the end of a line joins the next line to
it. -/
def inputLine (raw : Bool) : List UInt8 → List (UInt8 × Bool) × Nat × Bool
  | [] => ([], 0, false)
  | b :: bs =>
    if b = 10 then ([], 1, true)
    else if b = 92 && !raw then
      match bs with
      | [] => ([], 1, false)
      | c :: cs =>
        let (line, n, ended) := inputLine raw cs
        (if c = 10 then line else (c, true) :: line, n + 2, ended)
    else
      let (line, n, ended) := inputLine raw bs
      ((b, false) :: line, n + 1, ended)

/-- Whether a field may end at an octet of a line. -/
def parts (separators : List UInt8) (o : UInt8 × Bool) : Bool := !o.2 && separators.contains o.1

/-- Whether an octet of a line is a blank between fields. -/
def isGap (separators : List UInt8) (o : UInt8 × Bool) : Bool :=
  parts separators o && [32, 9, 10].contains o.1

/-- Goes over what stands between two fields: blanks, with at most one other separator among them. -/
def overGap (separators : List UInt8) (line : List (UInt8 × Bool)) : List (UInt8 × Bool) :=
  match line.dropWhile (isGap separators) with
  | o :: rest => if parts separators o then rest.dropWhile (isGap separators) else o :: rest
  | [] => []

/-- Gives a line to variables: each but the last takes a field. The last one takes all that is left, but
not the separator behind a single field. -/
def deal (separators : List UInt8) : List String → List (UInt8 × Bool) → List (String × String)
  | [], _ => []
  | n :: ns, line =>
    let line := line.dropWhile (isGap separators)
    let field := line.takeWhile fun o => !parts separators o
    let rest := overGap separators (line.drop field.length)
    let text (os : List (UInt8 × Bool)) : String := Text.Utf8.decodeLossy (os.map (·.1))
    if ns.isEmpty && !rest.isEmpty then
      [(n, text (line.reverse.dropWhile (isGap separators)).reverse)]
    else (n, text field) :: deal separators ns rest

/-- What is said of a name that no variable can have. -/
def badVariableName (n : String) : String := n ++ ": bad variable name"

/-- Sets variables one after another, up to one that cannot be set. -/
def setAll (scope : Scope) : List (String × String) → Scope × Option String
  | [] => (scope, none)
  | (n, v) :: rest =>
    if !Reading.isName n then (scope, some (badVariableName n))
    else if scope.isFixed n then (scope, some (ExpansionFault.message (.fixed n)))
    else setAll (scope.assign n v) rest

/-- The processes that an argument of `kill` means. Jobs have no groups of their own here, and `kill`
looks for their groups. -/
def targets (s : System) (p : Process) (i : Interpreter) (arg : String) : Except String (List Nat) :=
  let group (g : Nat) : List Nat := (s.processes.filter (·.group = g)).map (·.id)
  match arg.toList with
  | '%' :: _ => if i.jobs.isEmpty then .error ("No such job: " ++ arg) else .ok []
  | '-' :: ds =>
    match (String.ofList ds).toNat? with
    | some g => .ok (group g)
    | none => .error ("Illegal number: " ++ arg)
  | _ =>
    match arg.toNat? with
    | some 0 => .ok (group p.group)
    | some n => .ok (if (s.process? n).isSome then [n] else [])
    | none => .error ("Illegal number: " ++ arg)

/-- Sends a signal to what arguments of `kill` mean. The shell itself comes last. -/
def kill (s : System) (p : Process) (i : Interpreter) (n : Nat) (args : List String) :
    System × Nat :=
  match args.mapM (targets s p i) with
  | .error e => (s.complain p.id i ("kill: " ++ e), 2)
  | .ok found =>
    let missing := found.any List.isEmpty
    let s := if missing then s.complain p.id i "kill: No such process\n" else s
    let ids := found.flatten
    let others := ids.filter (· ≠ p.id)
    let s := if n = 0 then s else (others ++ ids.filter (· = p.id)).foldl (·.send · n) s
    (s, if missing then 1 else 0)

/-- How `kill` is used. -/
def killUsage : String :=
  "Usage: kill [-s sigspec | -signum | -sigspec] [pid | job]... or\nkill -l [exitstatus]"

/-- Reads the signal in front of the arguments of `kill`. -/
def killSignal : List String → Except String (Nat × List String)
  | ["-s"] => .error "No arg for -s option"
  | "-s" :: name :: rest =>
    match signal? name with
    | some n => .ok (n, rest)
    | none => .error ("invalid signal number or name: " ++ name)
  | "--" :: rest => .ok (sigterm, rest)
  | a :: rest =>
    match a.toList with
    | '-' :: cs =>
      match signal? (String.ofList cs) with
      | some n => .ok (n, if rest.head? = some "--" then rest.drop 1 else rest)
      | none => .error ("Illegal option -" ++ String.ofList (cs.take 1))
    | _ => .ok (sigterm, a :: rest)
  | [] => .error killUsage

/-- The name that `kill -l` tells for a number or for the status of a process that a signal has ended.
-/
def killName (a : String) : Except String String :=
  match a.toNat? with
  | some n =>
    let n := if 128 < n then n - 128 else n
    if 0 < n && n ≤ lastSignal then .ok (signalName n)
    else .error ("invalid signal number or exit status: " ++ a)
  | none => .error ("Illegal number: " ++ a)

/-- A text in quotes, as the shell would read it. -/
def quoted (s : String) : String :=
  "'" ++ String.intercalate "'\"'\"'" (s.splitOn "'") ++ "'"

/-- The actions for signals, in the form in which they can be set again. -/
def trapLines (p : Process) (i : Interpreter) : String :=
  String.join ((List.range 65).filterMap fun n =>
    let action := ((i.traps.find? (·.1 = n)).map (·.2)).or
      (if n ∈ p.ignored then some "" else none)
    action.map fun a => "trap -- " ++ quoted a ++ " " ++ signalName n ++ "\n")

/-- Sets what is done at signals. The last component is a signal that there is not. -/
def trap (p : Process) (i : Interpreter) (args : List String) :
    Process × Interpreter × Option String :=
  let args := if args.head? = some "--" then args.drop 1 else args
  let (action, names) := match args with
    | [] => (none, [])
    | [n] => (none, [n])
    | a :: ns =>
      if a = "-" then (none, ns) else if a.toNat?.isSome then (none, a :: ns) else (some a, ns)
  names.foldl (fun (p, i, bad) name =>
    match if bad.isSome then none else if name = "EXIT" then some 0 else signal? name with
    | none => (p, i, bad.or (some name))
    | some n =>
      let i := { i with traps := i.traps.filter (·.1 ≠ n) }
      let p := { p with ignored := p.ignored.filter (· ≠ n) }
      match action with
      | none => (p, i, bad)
      | some a =>
        if a = "" && !isUntouchable n then ({ p with ignored := n :: p.ignored }, i, bad)
        else (p, { i with traps := (n, a) :: i.traps }, bad)) (p, i, none)

/-- The variables among `vs` as lines that set them again, each behind `front`. -/
def variableLines (front : String) (vs : List Variable) : String :=
  String.join ((vs.mergeSort fun a b => a.name ≤ b.name).map fun v =>
    front ++ v.name ++ ((v.value.map fun x => "=" ++ quoted x).getD "") ++ "\n")

/-- What `export` and `readonly` do to a variable: they set it if there is a value, and mark it. -/
def mark (name : String) (scope : Scope) (setting : String) : Except String Scope := do
  let key := String.ofList (setting.toList.takeWhile (· ≠ '='))
  let value := setting.toList.drop key.length
  if !Reading.isName key then throw (badVariableName key)
  let scope ← match value with
    | [] => pure scope
    | _ :: cs =>
      if scope.isFixed key then throw (ExpansionFault.message (.fixed key))
      pure (scope.assign key (String.ofList cs))
  return if name = "export" then scope.exportName key else scope.fixName key

/-- What `local` does: it makes a variable the function's own, and sets it if there is a value. -/
def makeOwn (i : Interpreter) (setting : String) : Except String Interpreter := do
  let key := String.ofList (setting.toList.takeWhile (· ≠ '='))
  let old := i.scope.bindings.find? (·.name = key)
  match keepOwn key old i.frames, setting.toList.drop key.length with
  | none, _ => throw "not in a function"
  | some frames, [] =>
    if setting = "-" then return i
    if !Reading.isName key then throw (badVariableName key)
    return { i with frames }
  | some frames, _ :: cs =>
    if i.scope.isFixed key then throw (ExpansionFault.message (.fixed key))
    return { i with frames, scope := i.scope.assign key (String.ofList cs) }

/-- Takes a variable away. -/
def takeAway (scope : Scope) (n : String) : Except String Scope :=
  if !Reading.isName n then .error (badVariableName n)
  else if scope.isFixed n then .error (ExpansionFault.message (.fixed n))
  else .ok (scope.unset n)

/-- What a command without a job for it says. -/
def noJob (i : Interpreter) : List String → String
  | [] => if i.jobs.isEmpty then "No current job" else notControlled "(null)"
  | a :: _ =>
    match a.toList with
    | '%' :: ds =>
      match (String.ofList ds).toNat? with
      | some n => if 0 < n && n ≤ i.jobs.length then notControlled a else "No such job: " ++ a
      | none => "No such job: " ++ a
    | _ => "No such job: " ++ a
where
  notControlled (job : String) : String := "job " ++ job ++ " not created under job control"

/-- Changes the directory of a shell. -/
def changeDirectory (s : System) (p : Process) (i : Interpreter) (args : List String) : Result :=
  let target := match args with
    | a :: _ => if a = "-" then (i.scope.lookup "OLDPWD").getD "" else a
    | [] => (i.scope.lookup "HOME").getD ""
  let target := if target = "" then "." else target
  match s.files.lookup p.cwd ⟨target⟩ with
  | .ok .directory =>
    let trail := FileSystem.trail p.cwd ⟨target⟩
    let text (t : List String) : String := "/" ++ String.intercalate "/" t
    let scope := (i.scope.assign "OLDPWD" (text p.cwd)).assign "PWD" (text trail)
    let s := if args.contains "-" then s.say p.id 1 (Tool.octets (text trail ++ "\n")) else s
    { system := s.modify p.id fun p => { p with cwd := trail }, shell := { i with scope } }
  | _ =>
    { system := s.complain p.id i ("cd: can't cd to " ++ target), shell := i, status := 2 }

/-- What is told of a command by its name, and whether there is such a command. -/
def describe (s : System) (p : Process) (i : Interpreter) (verbose : Bool) (n : String) :
    String × Bool :=
  let tell (short long : String) : String × Bool :=
    ((if verbose then n ++ " is " ++ long else short) ++ "\n", true)
  if n ∈ Reading.reserved then tell n "a shell keyword"
  else if i.functions.any (·.1 = n) then tell n "a shell function"
  else if n ∈ specialNames then tell n "a special shell builtin"
  else if n ∈ regular then tell n "a shell builtin"
  else
    let paths := if '/' ∈ n.toList then [n] else
      i.scope.directories.map fun d => ((Path.mk (if d = "" then "." else d)).join ⟨n⟩).text
    match paths.find? fun path => (System.programAt s.files p.cwd .shell ⟨path⟩ []).isOk with
    | some path => tell path path
    | none => (if verbose then n ++ ": not found\n" else "", false)

/-- Runs a builtin. Some faults end the shell if the builtin is called as a special one. -/
def run (s : System) (p : Process) (i : Interpreter) (isSpecial : Bool) (name : String)
    (args : List String) : Option Result :=
  let done (status : Nat) : Option Result := some { system := s, shell := i, status }
  let writes (s : System) (bs : List UInt8) (status : Nat) : Option Result :=
    if !bs.isEmpty && (s.channelOf p 1).isNone then
      some { system := s.complain p.id i (name ++ ": " ++ name ++ ": I/O error"), shell := i,
             status := 1 }
    else some { system := s.say p.id 1 bs, shell := i, status }
  let said (bs : List UInt8) : Option Result := writes s bs 0
  let fails (text : String) (status : Nat) : Option Result :=
    some { system := s.complain p.id i (name ++ ": " ++ text), shell := i, status }
  let leaves (i : Interpreter) : Option Result :=
    some { system := s, shell := i, isPending := true }
  let ends (text : String) : Option Result :=
    if isSpecial then
      some { system := s.complain p.id i (name ++ ": " ++ text), shell := i.leave 2, isPending := true }
    else fails text 2
  let withNumber (least default : Nat) (f : Nat → Option Result) : Option Result :=
    match args with
    | [] => f default
    | a :: _ =>
      match (number? a).filter (least ≤ ·) with
      | some n => f n
      | none => ends ("Illegal number: " ++ a)
  match match letters? name with
    | some known => Operands.read known args
    | none => .ok { rest := args } with
  | .error e => ends e
  | .ok { options, rest := args } =>
  match name with
  | "umask" =>
    if !args.isEmpty then done 0
    else said (Tool.octets (if 'S' ∈ options then "u=rwx,g=rx,o=rx\n" else "0022\n"))
  | ":" | "true" | "ulimit" | "times" | "jobs" | "hash" | "alias" | "unalias" => done 0
  | "bg" | "fg" => fails (noJob i args) 2
  | "false" => done 1
  | "echo" => said (Format.echo args)
  | "printf" =>
    match args with
    | [] => fails "usage: printf format [arg ...]" 2
    | f :: rest =>
      let (bs, faults, status) := Format.printf f rest
      let s := faults.foldl (fun s a => s.complain p.id i ("printf: " ++ a)) s
      writes s bs status
  | "[" | "test" =>
    if name = "[" && args.getLast? ≠ some "]" then fails "missing ]" 2
    else
      match Condition.holds s.files p.cwd (if name = "[" then args.dropLast else args) with
      | .ok b => done (if b then 0 else 1)
      | .error e => fails e.message 2
  | "pwd" => said (Tool.octets ("/" ++ String.intercalate "/" p.cwd ++ "\n"))
  | "cd" => some (changeDirectory s p i args)
  | "exit" =>
    let trapped := i.frames.findSome? fun
      | .exit n | .handled n => some n
      | _ => none
    withNumber 0 (trapped.getD i.scope.status) fun n => leaves (i.leave (n % 256))
  | "return" =>
    withNumber 0 i.scope.status fun status =>
    match unwindCall i.frames none with
    | some (frames, files) =>
      let s := match files with
        | some fs => s.modify p.id fun p => { p with files := fs }
        | none => s
      some { system := s, shell := { i with frames }, status }
    | none => leaves (i.leave status)
  | "break" | "continue" =>
    withNumber 1 1 fun n =>
    match unwindLoop (name = "continue") n i.frames none with
    | some (frames, files) =>
      let s := match files with
        | some fs => s.modify p.id fun p => { p with files := fs }
        | none => s
      some { system := s, shell := { i with frames } }
    | none => done 0
  | "shift" =>
    withNumber 0 1 fun n =>
    if i.scope.args.length < n then ends "can't shift that many"
    else
      some { system := s,
             shell := { i with
               scope := { i.scope with args := i.scope.args.drop n, optionPlace := {} } } }
  | "set" =>
    if args.isEmpty then
      said (Tool.octets (variableLines "" (i.scope.bindings.filter (·.value.isSome))))
    else
    match Options.read false i.scope.flags args with
    | .error e => ends e
    | .ok o =>
      let s := s.say p.id 1 (Tool.octets (String.join (o.lists.map o.list)))
      let s := if 'm' ∈ o.on then s.complain p.id i ("set: " ++ System.noTerminal) else s
      let scope := { i.scope with flags := o.on.filter (· ≠ 'm') }
      let scope := if o.rest.isEmpty && !o.isClosed then scope
        else { scope with args := o.rest, optionPlace := {} }
      some { system := s, shell := { i with scope } }
  | "export" | "readonly" =>
    if args.isEmpty || !options.isEmpty then
      said (Tool.octets (variableLines (name ++ " ") (i.scope.bindings.filter fun v =>
        if name = "export" then v.isExported else v.isFixed)))
    else
      match args.foldlM (mark name) i.scope with
      | .ok scope => some { system := s, shell := { i with scope } }
      | .error e => ends e
  | "local" =>
    match args.foldlM makeOwn i with
    | .ok i => some { system := s, shell := i }
    | .error e => ends e
  | "unset" =>
    if options.getLast? = some 'f' then
      some { system := s,
             shell := { i with functions := i.functions.filter fun f => !args.contains f.1 } }
    else
      match args.foldlM takeAway i.scope with
      | .ok scope => some { system := s, shell := { i with scope } }
      | .error e => ends e
  | "eval" => leaves (i.push [.text (String.intercalate " " args).toList 1, .inside name false])
  | "." =>
    match args with
    | [] => done 0
    | f :: _ =>
      let paths : List Path := if '/' ∈ f.toList then [⟨f⟩] else
        i.scope.directories.map fun d => (Path.mk (if d = "" then "." else d)).join ⟨f⟩
      match paths.findSome? fun n => (s.files.read p.cwd n).toOption.map (n, ·) with
      | some (n, bs) =>
        leaves (i.push [.text (Text.Utf8.decodeLossy bs).toList 1, .inside n.text true])
      | none =>
        let text := if '/' ∈ f.toList then "cannot open " ++ f ++ ": No such file"
          else f ++ ": not found"
        ends text
  | "trap" =>
    if args.isEmpty then said (Tool.octets (trapLines p i))
    else
      let (p, i, bad) := trap p i args
      let s := s.modify p.id fun _ => p
      match bad with
      | none => some { system := s, shell := i }
      | some name =>
        some { system := s.say p.id 2 (Tool.octets ("trap: " ++ name ++ ": bad trap\n")), shell := i,
               status := 1 }
  | "kill" =>
    match args with
    | ["-l"] =>
      said (Tool.octets (String.join ((List.range (lastSignal + 1)).map fun n =>
        (if n = 0 then "0" else signalName n) ++ "\n")))
    | "-l" :: a :: _ =>
      match killName a with
      | .ok name => said (Tool.octets (name ++ "\n"))
      | .error e => fails e 2
    | _ =>
      match killSignal args with
      | .error e => fails e 2
      | .ok (_, []) => fails killUsage 2
      | .ok (n, targets) =>
        let (s, status) := kill s p i n targets
        some { system := s, shell := i, status }
  | "wait" =>
    let jobs := if args.isEmpty then i.jobs else args.filterMap fun a =>
      match a.toList with
      | '%' :: _ => i.jobs.getLast?
      | _ => a.toNat?
    match args.find? fun a => !a.startsWith "%" && a.toNat?.isNone with
    | some a => fails ("Illegal number: " ++ a) 2
    | none =>
    if args.isEmpty then leaves (i.push [.waiting jobs none])
    else
      match jobs.getLast? with
      | none => done 127
      | some last =>
        if last ∈ i.jobs then leaves (i.push [.waiting jobs (some last)]) else done 127
  | "read" =>
    if args.isEmpty then fails "arg count" 2
    else
      match s.readable p 0 with
      | none => none
      | some bs =>
        let (line, n, ended) := inputLine ('r' ∈ options) bs
        let open' : Bool :=
          match s.channelOf p 0 with
          | some (.readEnd pipe) => s.isHeld (.writeEnd pipe)
          | _ => false
        if !ended && open' then none
        else
          let separators := Tool.octets (String.ofList i.scope.separators)
          let (scope, fault) := setAll i.scope (deal separators args line)
          let s := s.consume p 0 n
          let i := { i with scope }
          match fault with
          | none => some { system := s, shell := i, status := if ended then 0 else 1 }
          | some e =>
            some { system := s.complain p.id i (name ++ ": " ++ e), shell := i, status := 2 }
  | "getopts" =>
    match args with
    | letters :: variable' :: given =>
      let given := if given.isEmpty then i.scope.args else given
      let place := if given.length + 1 < i.scope.optionPlace.next then {} else i.scope.optionPlace
      let (step, place) := place.step letters.toList given
      let value := "OPTARG"
      let (sign, scope, told) : Char × Scope × Option String :=
        match step with
        | .ended => ('?', i.scope, none)
        | .found c v => (c, i.scope.assign value v, none)
        | .fault c (.ok v) => (c, i.scope.assign value v, none)
        | .fault c (.error e) => (c, i.scope.unset value, some e)
      let s := match told with
        | some e => s.say p.id 2 (Tool.octets (e ++ "\n"))
        | none => s
      let scope := scope.assign Scope.optionIndex (toString place.next)
      let (scope, fault) := setAll scope [(variable', String.ofList [sign])]
      let i := { i with scope := { scope with optionPlace := place } }
      match fault with
      | none =>
        some { system := s, shell := i, status := match step with
          | .ended => 1
          | _ => 0 }
      | some e => some { system := s.complain p.id i (name ++ ": " ++ e), shell := i, status := 2 }
    | _ => fails "Usage: getopts optstring var [arg...]" 2
  | "command" | "type" =>
    let asked := if name = "type" then args else args.take 1
    let verbose := name = "type" || 'V' ∈ options
    let answers := asked.map (describe s p i verbose)
    some { system := s.say p.id 1 (Tool.octets (String.join (answers.map (·.1)))), shell := i,
           status := if answers.all (·.2) then 0 else 127 }
  | _ => done 0

end Builtin
end DebugHost.Shell
