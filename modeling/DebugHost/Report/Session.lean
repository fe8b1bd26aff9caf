import DebugHost.Breakpoints
import DebugHost.Inspection.Tree
import DebugHost.Report.Process
import DebugHost.Router
import DebugHost.Session.State

/-! # Reports of sessions

What a session shows, as JSON values, and the reading of what can be given from outside. -/

namespace DebugHost

open DebugHost.Json

/-- The report of a list. -/
def listReport {α : Type} (f : α → Value) (xs : List α) : Value := .arr (xs.map f)

/-- The word for a reason, and its message if it has one. -/
def CloseReason.words : CloseReason → String × Option String
  | .eof => ("eof", none)
  | .decode m => ("decode", some m)
  | .io m => ("io", some m)
  | .shutdown => ("shutdown", none)

/-- The report of the end of a connection. -/
def CloseReason.report (c : CloseReason) : Value :=
  .obj [("reason", .str c.words.1), ("message", optionalText c.words.2), ("text", .str c.text)]

/-- The end of a connection that is reported. -/
def CloseReason.ofReport (v : Value) : CloseReason :=
  match textMember v "reason" with
  | "decode" => .decode (textMember v "message")
  | "io" => .io (textMember v "message")
  | "shutdown" => .shutdown
  | _ => .eof

/-- The report of the end of a session. -/
def Termination.report (t : Termination) : Value :=
  .obj ((match t with
    | .exited c => [("cause", .str "exited"), ("exit_code", optionalNumber c)]
    | .signaled n => [("cause", .str "signaled"), ("signal", .int n)]
    | .connectionLost c => [("cause", .str "connection_lost"), ("close", c.report)]
    | .userStopped => [("cause", .str "user_stopped")]) ++ [("text", .str t.text)])

/-- The end of a session that is reported. -/
def Termination.ofReport (v : Value) : Termination :=
  match textMember v "cause" with
  | "exited" => .exited (numberMember? v "exit_code")
  | "signaled" => .signaled ((numberMember? v "signal").getD 0)
  | "connection_lost" => .connectionLost (.ofReport (v.member "close"))
  | _ => .userStopped

/-- The report of a generation. -/
def Generation.report (g : Generation) : Value := .int g.number

/-- The report of a status. -/
def Status.report (s : Status) : Value :=
  .obj [("state", .str s.state.text), ("generation", s.generation.report),
    ("active_thread", optionalNumber s.activeThread), ("stop_reason", optionalText s.stopReason),
    ("termination", orNull Termination.report s.termination)]

/-- The state that a word stands for. -/
def RunState.ofText? (s : String) : Option RunState :=
  [.launching, .configuring, .running, .paused, .terminated].find? (·.text = s)

/-- The report of an event of a session. -/
def DebugEvent.report : DebugEvent → Value
  | .stopped reason t g =>
    .obj [("event", .str "stopped"), ("reason", .str reason), ("thread", optionalNumber t),
      ("generation", g.report)]
  | .continued t => .obj [("event", .str "continued"), ("thread", optionalNumber t)]
  | .output category text =>
    .obj [("event", .str "output"), ("category", optionalText category), ("output", .str text)]
  | .thread reason t =>
    .obj [("event", .str "thread"), ("reason", .str reason), ("thread", .int t)]
  | .terminated cause => .obj [("event", .str "terminated"), ("termination", cause.report)]

/-- The event of a session that is reported. -/
def DebugEvent.ofReport (v : Value) : DebugEvent :=
  match textMember v "event" with
  | "stopped" =>
    .stopped (textMember v "reason") (numberMember? v "thread")
      ⟨((numberMember? v "generation").getD 0).toNat⟩
  | "continued" => .continued (numberMember? v "thread")
  | "output" => .output (textMember? v "category") (textMember v "output")
  | "thread" => .thread (textMember v "reason") ((numberMember? v "thread").getD 0)
  | _ => .terminated (.ofReport (v.member "termination"))

/-- The report of a routed event. -/
def RoutedEvent.report : RoutedEvent → Value
  | .process run e =>
    .obj [("run", .int run.number), ("run_text", .str run.text), ("process", e.report)]
  | .debug session e =>
    .obj [("session", .int session.number), ("session_text", .str session.text),
      ("debug", e.report)]

/-- The routed event that is reported. -/
def RoutedEvent.ofReport (v : Value) : RoutedEvent :=
  let number (name : String) : Nat := ((numberMember? v name).getD 0).toNat
  match v.member "process" with
  | .null => .debug ⟨number "session"⟩ (.ofReport (v.member "debug"))
  | e => .process ⟨number "run"⟩ (.ofReport e)

/-- The report of a set of lines. -/
def Lines.report (l : Lines) : Value := listReport .int l.toList

/-- The report of all breakpoints. -/
def BreakpointSet.report (s : BreakpointSet) : Value :=
  listReport (fun p => .obj [("path", .str p.text), ("requested", orNull Lines.report (s.requested p)),
    ("verified", (s.verified p).report)]) s.sources

/-- The report of a table of threads. -/
def ThreadTable.report (t : ThreadTable) : Value :=
  listReport (fun (n, name) => .arr [.int n, .str name]) t.entries

/-- The name of an error in reports. -/
def DebugError.label : DebugError → String
  | .notPaused => "NotPaused"
  | .staleGeneration .. => "StaleGeneration"
  | .sessionTerminated => "SessionTerminated"
  | .timeout .. => "Timeout"
  | .adapterRejected .. => "AdapterRejected"
  | .adapterUnavailable .. => "AdapterUnavailable"
  | .connect .. => "Connect"
  | .io _ => "Io"
  | .invalidResponse .. => "InvalidResponse"
  | .run (.alreadyRunning ..) => "AlreadyRunning"
  | .run (.spawn ..) => "Spawn"

/-- The members of the report of an error. -/
def DebugError.members (e : DebugError) : List (String × Value) :=
  [("error", .str e.label), ("message", .str e.message)]

namespace Inspection

/-- The report of a handle to a group of variables. -/
def VarRef.report (r : VarRef) : Value :=
  .obj [("generation", r.generation.report), ("ref", .int r.raw)]

/-- The report of a frame. -/
def Frame.report (f : Frame) : Value :=
  .obj [("generation", f.ref.generation.report), ("id", .int f.ref.id), ("name", .str f.name),
    ("source", optionalText f.source), ("line", .int f.line), ("column", .int f.column)]

/-- The report of a scope. -/
def Scope.report (s : Scope) : Value :=
  .obj [("name", .str s.name), ("variables", orNull VarRef.report s.values),
    ("expensive", .bool s.expensive)]

/-- The report of a variable. -/
def Variable.report (v : Variable) : Value :=
  .obj [("name", .str v.name), ("value", .str v.value), ("type", optionalText v.type),
    ("children", orNull VarRef.report v.children)]

/-- The report of a view. -/
def View.report : View → Value
  | .frames fs => listReport Frame.report fs
  | .scopes ss => listReport Scope.report ss
  | .values vs => listReport Variable.report vs

/-- The request that puts a question. -/
def Key.command : Key → String
  | .stack _ => "stackTrace"
  | .scopes _ => "scopes"
  | .values _ => "variables"

/-- The number that a question is about. -/
def Key.number : Key → Int
  | .stack t => t
  | .scopes f => f
  | .values r => r

/-- Reads the answer to a question from a list of what it asks for. -/
def Key.readAnswer (k : Key) (items : List Value) : Except Mismatch Answer :=
  match k with
  | .stack _ => (Field.all Typed.read items).map .frames
  | .scopes _ => (Field.all Typed.read items).map .scopes
  | .values _ => (Field.all Typed.read items).map .values

end Inspection
end DebugHost
