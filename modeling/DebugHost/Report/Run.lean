import DebugHost.Json.Reader
import DebugHost.Program
import DebugHost.Report.Config
import DebugHost.Report.Session

/-! # Reports of runs

Requests to run scripts as they can be given from outside, what runs have written, and lines of the log
without the numbers that differ from one run to the next. -/

namespace DebugHost

open DebugHost.Json

/-! ### Requests and settings -/

/-- The items of a member that is a list. -/
def itemsOf (v : Value) (name : String) : List Value :=
  match v.member name with
  | .arr items => items
  | _ => []

/-- The texts of a member that is a list. -/
def textsOf (v : Value) (name : String) : List String :=
  (itemsOf v name).filterMap fun
    | .str s => some s
    | _ => none

/-- The pairs of texts of a member that is a list. -/
def pairsOf (v : Value) (name : String) : List (String × String) :=
  (itemsOf v name).filterMap fun
    | .arr [.str a, .str b] => some (a, b)
    | _ => none

/-- A member that is a number without a sign, or a default. -/
def naturalOf (v : Value) (name : String) (default : Nat) : Nat :=
  ((numberMember? v name).map Int.toNat).getD default

/-- The request that is reported. -/
def RunRequest.ofReport (v : Value) : RunRequest :=
  { mode := if textMember v "mode" = "package_runner" then .packageRunner else .direct
    script := ⟨textMember v "script"⟩
    cwd := ⟨textMember v "cwd"⟩
    interpreterArguments := textsOf v "interpreter_args"
    settings := pairsOf v "env" }

/-- The report of a command. -/
def Command.report (c : Command) : List (String × Value) :=
  [("program", .str c.program.text), ("args", listReport .str c.arguments),
    ("env", listReport (fun (k, x) => .arr [.str k, .str x]) c.settings), ("cwd", .str c.cwd.text),
    ("text", .str c.text)]

/-- The settings of the interpreter that are reported; what is missing is as in the defaults. -/
def InterpreterConfig.ofReport (v : Value) : InterpreterConfig :=
  let d : InterpreterConfig := {}
  let path (name : String) (default : Path) : Path := ((textMember? v name).map Path.mk).getD default
  { python := (textMember? v "python").map Path.mk
    fallbackPython := path "fallback_python" d.fallbackPython
    venvDir := path "venv_dir" d.venvDir
    packageRunner := path "package_runner" d.packageRunner
    stopGraceMs := naturalOf v "stop_grace_ms" d.stopGraceMs }

/-- The settings of the adapter that are reported; what is missing is as in `d`. -/
def DebugConfig.ofReport (d : DebugConfig) (v : Value) : DebugConfig :=
  { adapterModule := (textMember? v "adapter_module").getD d.adapterModule
    host := (textMember? v "host").getD d.host
    port := ((numberMember? v "port").map Int.toNat).or d.port
    connectAttempts := naturalOf v "connect_attempts" d.connectAttempts
    connectIntervalMs := naturalOf v "connect_interval_ms" d.connectIntervalMs
    requestTimeoutMs := naturalOf v "request_timeout_ms" d.requestTimeoutMs }

/-! ### Runs -/

/-- The lines of both streams among events. -/
def streamsReport (events : List ProcessEvent) : List (String × Value) :=
  [("stdout", listReport .str (Program.linesOf .out events)),
    ("stderr", listReport .str (Program.linesOf .err events))]

/-- The report of all events of a run: its lines, its exits, and the number of events behind the
first exit. -/
def eventsReport (events : List ProcessEvent) : List (String × Value) :=
  let isExit : ProcessEvent → Bool
    | .completed _ => true
    | _ => false
  let exits := events.filterMap fun
    | .completed e => some e
    | _ => none
  streamsReport events ++ [("completed", listReport Exit.report exits),
    ("after_completed", .int ((events.dropWhile (!isExit ·)).length - 1 : Nat))]

/-- The report of what a supervisor is doing. -/
def Supervisor.report (s : Supervisor) : List (String × Value) :=
  [("running", .bool s.isRunning), ("current", orNull (fun (i : RunId) => .int i.number) s.place)]

/-- The report of the start of a run. -/
def startReport (command : String) : Except RunError RunId → List (String × Value)
  | .ok id => [("run", .int id.number), ("run_text", .str id.text), ("has_pid", .bool true),
      ("command", .str command)]
  | .error (.alreadyRunning id _) => [("error", .str "AlreadyRunning"), ("run", .int id.number)]
  | .error e => [("error", .str "Spawn"), ("command", .str command), ("message", .str e.message)]

/-- The report of a launch. -/
def launchReport : Except DebugError RunId → List (String × Value)
  | .ok _ => [("ok", .bool true)]
  | .error (.connect _ _ detail) => [("error", .str "Connect"), ("detail", .str detail)]
  | .error (.run (.spawn command detail)) => startReport command (.error (.spawn command detail))
  | .error e => e.members

/-! ### Texts that stay the same -/

mutual

/-- Applies a function to all texts in a value. -/
def mapTexts (f : String → String) : Value → Value
  | .str s => .str (f s)
  | .arr vs => .arr (mapItems f vs)
  | .obj ms => .obj (mapMembers f ms)
  | v => v

/-- Applies a function to all texts in items. -/
def mapItems (f : String → String) : List Value → List Value
  | [] => []
  | v :: vs => mapTexts f v :: mapItems f vs

/-- Applies a function to all texts in members. -/
def mapMembers (f : String → String) : List (String × Value) → List (String × Value)
  | [] => []
  | (n, v) :: ms => (n, mapTexts f v) :: mapMembers f ms

end

/-- Puts `word` in place of the digits behind every `front` in a text. -/
def hideDigits (front word s : String) : String :=
  match s.splitOn front with
  | [] => s
  | first :: rest => first ++ String.join (rest.map fun t =>
      let after := String.ofList (t.toList.dropWhile Char.isDigit)
      front ++ (if after.length < t.length then word else "") ++ after)

/-- Hides the numbers of sessions, processes and ports, and the place of a failure. -/
def stableText (s : String) : String :=
  let s := match s.splitOn " location=" with
    | [] | [_] => s
    | first :: _ => first ++ " location=LOCATION"
  hideDigits "127.0.0.1:" "PORT"
    (hideDigits "pid=" "PID" (hideDigits "pid=Some(" "PID" (hideDigits "session-" "N" s)))

/-- A line of a log without what differs from run to run. A line that is an object stays one. -/
def stableLine (line : String) : Value :=
  let shown (name s : String) : String :=
    if name = "pid" then hideDigits "Some(" "PID" s else hideDigits "127.0.0.1:" "PORT" s
  match readDocument (Text.Utf8.encode line) with
  | .ok (.obj ms) => .obj (ms.map fun (n, v) =>
      match n, v with
      | "timestamp", _ => (n, .null)
      | "fields", .obj fields => (n, .obj (fields.map fun (m, w) =>
          match m, w with
          | "pid", .int _ => (m, .str "PID")
          | _, w => (m, mapTexts (shown m) w)))
      | _, v => (n, v))
  | _ => .str (stableText line)

end DebugHost
