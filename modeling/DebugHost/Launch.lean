import DebugHost.Breakpoints
import DebugHost.Process.Runner
import DebugHost.Text.Character

/-! # Launching a program under the debug adapter

The interpreter is first asked for the version of the adapter, so that a missing adapter is told apart
from one that does not answer. Then the script is started behind the adapter, and connections to the
adapter are tried until one is accepted, the attempts run out, or the program exits. When the launch
fails, the program it has started is stopped before the failure is reported. -/

namespace DebugHost

open DebugHost.Text

/-- A request to debug a script. -/
structure LaunchRequest where
  run : RunRequest
  /-- The lines of breakpoints by file. -/
  breakpoints : List (Path × Lines) := []
  stopOnEntry : Bool := false

/-- Adds a breakpoint. -/
def LaunchRequest.withBreakpoint (r : LaunchRequest) (file : Path) (line : Int) : LaunchRequest :=
  let lines := (Path.find? file r.breakpoints).getD Lines.empty
  { r with breakpoints := Path.insert file (lines.insert line) r.breakpoints }

/-- What a connection to an address is tried with: whether attempt `n`, counted from one, is
accepted. -/
abbrev Network := Nat → Except OsError Unit

/-- The network of a system that has none. -/
def Network.none : Network := fun _ => .error .networkUnreachable

namespace Launch

/-- The name under which a launch speaks in the log. -/
def target : String := "pyra.launch"

/-- How long the interpreter may take to tell the version of the adapter. -/
def checkLimit : Duration := ⟨10000⟩

/-- Number of lines of the program's error output that a failure shows. -/
def shownLines : Nat := 20

/-- The address on which the adapter listens. -/
def address (host : String) (port : Nat) : String := host ++ ":" ++ toString port

/-! ### The version of the adapter -/

/-- The names of the signals that end processes. -/
def signalName (n : Int) : String :=
  match (("STKFLT", 16) :: Shell.signals).find? fun s => (s.2 : Int) = n with
  | some (name, _) => " (SIG" ++ name ++ ")"
  | none => ""

/-- The status of a process in words. -/
def statusText : WaitStatus → String
  | .code n => "exit status: " ++ toString n
  | .signal n => "signal: " ++ toString n ++ signalName n
  | .failed => "unknown status"

/-- The command that asks for the version of the adapter. -/
def versionCommand (r : Runner) (c : DebugConfig) (request : RunRequest) : Command :=
  let (program, front) := r.interpreter.programFor r.system.files r.cwd request
  ⟨request.cwd, program, front ++ ["-m", c.adapterModule, "--version"], []⟩

/-- What is wrong with an adapter whose version cannot be told: the last line of the error output that
is not blank, or else the status. -/
def checkDetail (status : WaitStatus) (errors : List UInt8) : String :=
  let lines := ((Utf8.decodeLossy errors).splitOn "\n").map trimBlanks
  ((lines.filter (· ≠ "")).getLast?).getD ("version check exited with " ++ statusText status)

/-- Asks for the version of the adapter. An interpreter that cannot be started passes: starting the
program itself will tell. -/
def checkAdapter (r : Runner) (c : DebugConfig) (request : RunRequest) :
    Except DebugError Unit × Runner :=
  let command := versionCommand r c request
  let unavailable (detail : String) : DebugError :=
    .adapterUnavailable c.adapterModule command.program.text detail
  match r.consult command checkLimit with
  | (.error e, r) =>
    (.ok (), r.logs [⟨.debug, target, "skipping adapter check",
      [("python", .shown command.program.text), ("error", .shown e.message)]⟩])
  | (.ok none, r) =>
    (.error (unavailable ("no answer to `--version` within " ++ checkLimit.text)), r)
  | (.ok (some (status, out, err)), r) =>
    if status = .code 0 then
      (.ok (), r.logs [⟨.debug, target, "debug adapter available",
        [("module", .shown c.adapterModule),
          ("version", .shown (trimBlanks (Utf8.decodeLossy out)))]⟩])
    else (.error (unavailable (checkDetail status err)), r)

/-! ### Connecting -/

/-- What a run has reported. -/
def reported (s : Supervisor) (id : RunId) : List ProcessEvent :=
  ((s.find? id).map (·.events)).getD []

/-- The exit among reports. -/
def reportedExit? (events : List ProcessEvent) : Option Exit :=
  events.findSome? fun
    | .completed e => some e
    | _ => none

/-- The last lines of the error output among reports. -/
def errorTail (events : List ProcessEvent) : String :=
  let lines := events.filterMap fun
    | .stderr l => some l
    | _ => none
  String.intercalate "\n" (lines.drop (lines.length - shownLines))

/-- Why a connection is given up when the program has exited. -/
def exitedDetail (e : Exit) (tail : String) : String :=
  "debuggee exited (" ++ e.cause.label ++ ", code " ++ optionText e.code ++
    ") before the adapter accepted a connection; stderr:\n" ++ tail

/-- Why a connection is given up when no attempt was accepted. -/
def refusedDetail (last tail : String) : String :=
  if tail = "" then last else last ++ "; stderr:\n" ++ tail

/-- Tries to connect, `left` more times. Attempt `n` is next; `last` is why the one before it failed.
Before every attempt it is seen whether the program has exited, and no time passes after the last
one. -/
def connect (network : Network) (c : DebugConfig) (addr : String) (id : RunId) :
    Nat → Nat → String → Runner → Except DebugError Unit × Runner
  | 0, n, last, r =>
    (.error (.connect addr (n - 1) (refusedDetail last (errorTail (reported r.supervisor id)))), r)
  | left + 1, n, _, r =>
    let events := reported r.supervisor id
    match reportedExit? events with
    | some e => (.error (.connect addr (n - 1) (exitedDetail e (errorTail events))), r)
    | none =>
      match network n with
      | .ok () =>
        (.ok (), r.logs [⟨.debug, target, "connected to debug adapter",
          [("addr", .shown addr), ("attempt", .int n)]⟩])
      | .error e =>
        let r := r.logs [⟨.trace, target, "adapter not ready",
          [("addr", .shown addr), ("attempt", .int n), ("error", .shown e.message)]⟩]
        connect network c addr id left (n + 1) e.message
          (if left = 0 then r else r.sleep c.connectInterval)

/-! ### Launching -/

/-- The request by which the script is started behind the adapter. -/
def debuggeeRequest (c : DebugConfig) (addr : String) (request : RunRequest) : RunRequest :=
  { request with interpreterArguments :=
      ["-m", c.adapterModule, "--listen", addr, "--wait-for-client"] ++
        request.interpreterArguments }

/-- Starts a script under the adapter and connects to it. `freePort` is the port to listen on if none is
configured. -/
def start (network : Network) (c : DebugConfig) (freePort : Nat) (r : Runner)
    (request : RunRequest) : Except DebugError RunId × Runner :=
  let addr := address c.host (c.port.getD freePort)
  match checkAdapter r c request with
  | (.error e, r) => (.error e, r)
  | (.ok (), r) =>
    match r.start (debuggeeRequest c addr request) with
    | (.error e, r) => (.error (.run e), r)
    | (.ok id, r) =>
      let r := r.logs [⟨.info, target, "debuggee started; waiting for adapter",
        [("run", .shown id.text), ("adapter", .shown addr)]⟩]
      match connect network c addr id (max c.connectAttempts 1) 1 "" r with
      | (.ok (), r) => (.ok id, r)
      | (.error e, r) => (.error e, (r.stop id).2)

end Launch

/-! ### The front door -/

/-- Runs and debugs programs, one at a time. -/
structure Manager where
  runner : Runner
  debug : DebugConfig
  /-- The run of the last debug session. -/
  session : Option RunId := none

/-- Debugs a script. Only a launch that succeeds takes the place of the session before. -/
def Manager.launch (network : Network) (freePort : Nat) (m : Manager) (request : LaunchRequest) :
    Except DebugError RunId × Manager :=
  match Launch.start network m.debug freePort m.runner request.run with
  | (.ok id, runner) => (.ok id, { m with runner, session := some id })
  | (.error e, runner) => (.error e, { m with runner })

end DebugHost
