import DebugHost.CommandLine.Arguments
import DebugHost.Config.Source
import DebugHost.Launch
import DebugHost.Log.Sink
import DebugHost.Router

/-! # The program

What the program does from its command line to its exit code: it reads the configuration, opens the log,
and runs or debugs a script. -/

namespace DebugHost

/-- What the program is started with. -/
structure Invocation where
  /-- The words of the command line behind the name of the program. -/
  words : List String
  environment : List (String × String)
  files : FileSystem
  cwd : List String

/-- How the program ends. -/
structure Ending where
  code : Nat
  /-- The lines of its output. -/
  out : List String := []
  /-- The lines of its error output. -/
  err : List String := []
  files : FileSystem

namespace Program

/-- A variable of the environment. -/
def setting? (environment : List (String × String)) (name : String) : Option String :=
  (environment.find? (·.1 = name)).map (·.2)

/-! ### Configuration -/

/-- The warning about a configuration that cannot be used. -/
def warning (e : ConfigError) : String :=
  "pyra-dap: failed to load config: " ++ e.message ++ "; continuing with defaults"

/-- The configuration, and a warning if the defaults had to be taken. -/
def loadConfig (fs : FileSystem) (cwd : List String) (explicit : Option Path)
    (environment : Option String) : Config × List String :=
  match Config.load fs cwd explicit environment with
  | .ok c => (c, [])
  | .error e => ({}, [warning e])

/-! ### Failures -/

/-- The texts of a failure to start a run: what failed, and why. -/
def runCauses : RunError → List String
  | .alreadyRunning id pid => [(RunError.alreadyRunning id pid).message]
  | .spawn command detail => [(RunError.spawn command detail).message, detail]

/-- The texts of a failed launch. -/
def launchCauses : DebugError → List String
  | .run e => runCauses e
  | e => [e.message]

/-- What is said first about a failed launch. -/
def launchFailed : String := "failed to start debug session"

/-- The texts of a failure in a row. -/
def causesLine (causes : List String) : String := String.intercalate ": " causes

/-- The lines of a cause: its number if it has one, and every line behind the first one further in. -/
def causeLines (number : Option Nat) (cause : String) : List String :=
  let front := match number with
    | some n =>
      let digits := toString n
      String.ofList (List.replicate (5 - digits.length) ' ') ++ digits ++ ": "
    | none => "    "
  let further := if number.isSome then "       " else "    "
  match cause.splitOn "\n" with
  | [] => [front]
  | l :: ls => (front ++ l) :: ls.map (further ++ ·)

/-- The lines about a failure: what failed, and the causes, numbered if there are several. -/
def failureLines : List String → List String
  | [] => []
  | message :: causes =>
    let head := ("Error: " ++ message).splitOn "\n"
    match causes with
    | [] => head
    | [c] => head ++ ["", "Caused by:"] ++ causeLines none c
    | cs => head ++ ["", "Caused by:"] ++ (cs.zipIdx.flatMap fun (c, n) => causeLines (some n) c)

/-! ### Running a script -/

/-- The exit code for the exit of a script: its own, or one if that is none for a program. -/
def exitCode (e : Exit) : Nat :=
  match e.code with
  | some n => if 0 ≤ n ∧ n < 256 then n.toNat else 1
  | none => 1

/-- The lines of a stream among events. -/
def linesOf (s : Stream) (events : List ProcessEvent) : List String :=
  events.filterMap fun e =>
    match s, e with
    | .out, .stdout l | .err, .stderr l => some l
    | _, _ => none

/-- The exit among events. -/
def exitOf (events : List ProcessEvent) : Exit :=
  (events.findSome? fun
    | .completed e => some e
    | _ => none).getD ⟨none, .waitFailed⟩

/-- What a script has done. -/
structure Performance where
  exit : Exit
  out : List String
  err : List String

/-- Runs a script to its end. -/
def run (r : Runner) (request : RunRequest) : Except RunError Performance × Runner :=
  match r.start request with
  | (.error e, r) => (.error e, r)
  | (.ok id, r) =>
    let (events, r) := r.collect id
    (.ok ⟨exitOf events, linesOf .out events, linesOf .err events⟩, r)

/-! ### The whole program -/

/-- The request for debugging a script. Breakpoints are in files seen from its directory. -/
def launchRequest (run : RunRequest) (breakpoints : List (Path × Int)) (stopOnEntry : Bool) :
    LaunchRequest :=
  breakpoints.foldl (fun r (file, line) =>
    r.withBreakpoint (if file.isAbsolute then file else run.cwd.join file) line)
    { run, stopOnEntry }

/-- What is printed when a session has begun. -/
def greeting : String := "debugging; commands: c, n, s, o, bt, vars <ref>, q"

/-- The path of a directory. -/
def pathOf (trail : List String) : Path := ⟨"/" ++ String.intercalate "/" trail⟩

/-- The program at work: what it has written, its log, and where its programs run. -/
structure Progress where
  runner : Runner
  sink : Log.Sink
  out : List String := []
  err : List String := []

/-- Writes the records that are waiting. -/
def Progress.flush (p : Progress) : Progress :=
  let (lines, files) := p.sink.write p.runner.system.files p.runner.cwd p.runner.log
  { p with
    runner := { p.runner with log := [], system := { p.runner.system with files } }
    err := p.err ++ lines }

/-- Writes lines. -/
def Progress.print (p : Progress) (out err : List String) : Progress :=
  { p with out := p.out ++ out, err := p.err ++ err }

/-- The end of the program. -/
def Progress.ending (p : Progress) (code : Nat) : Ending :=
  ⟨code, p.out, p.err, p.runner.system.files⟩

/-- The subcommand that runs a script. The records of its start come before its lines. -/
def runScript (p : Progress) (request : RunRequest) : Ending :=
  match p.runner.start request with
  | (.error e, r) =>
    ({ p with runner := r }.flush.print [] (failureLines (runCauses e))).ending 1
  | (.ok id, r) =>
    let p := { p with runner := r }.flush
    let (events, r) := p.runner.collect id
    let p := ({ p with runner := r }.print (linesOf .out events) (linesOf .err events)).flush
    p.ending (exitCode (exitOf events))

/-- The subcommand that debugs a script, as far as the connection to its adapter. -/
def debugScript (network : Network) (freePort : Nat) (p : Progress) (debug : DebugConfig)
    (request : LaunchRequest) : Ending :=
  let (result, m) := Manager.launch network freePort { runner := p.runner, debug } request
  let p := { p with runner := m.runner }.flush
  match result with
  | .error e => (p.print [] (failureLines (launchFailed :: launchCauses e))).ending 1
  | .ok _ => (p.print [greeting] []).ending 0

/-- Runs the program. -/
def main (network : Network) (freePort : Nat) (i : Invocation) :
    Except CommandLine.UsageFault Ending := do
  let arguments ← CommandLine.parse i.words
  let (config, warnings) :=
    loadConfig i.files i.cwd arguments.config (setting? i.environment Config.variable)
  let (sink, files, records) :=
    Log.Sink.start config.logging (setting? i.environment "RUST_LOG") i.files i.cwd
  let runner := (Runner.idle config.interpreter files i.cwd i.environment).logs records
  let p := { runner, sink, err := warnings : Progress }.flush
  match arguments.subcommand with
  | .run target => return runScript p (target.request (pathOf i.cwd))
  | .debug target breakpoints stopOnEntry =>
    return debugScript network freePort p config.debug
      (launchRequest (target.request (pathOf i.cwd)) breakpoints stopOnEntry)

end Program
end DebugHost
