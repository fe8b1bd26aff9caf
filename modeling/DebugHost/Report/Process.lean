import DebugHost.Json.Field
import DebugHost.Process.Exit

/-! # Reports of processes

Exits and process events as JSON values, and back. -/

namespace DebugHost

open DebugHost.Json

/-- A text that may be missing. -/
def optionalText : Option String → Value := orNull .str

/-- A number that may be missing. -/
def optionalNumber : Option Int → Value := orNull .int

/-- The number of a member, if it is one. -/
def numberMember? (v : Value) (name : String) : Option Int :=
  match v.member name with
  | .int n => some n
  | _ => none

/-- The text of a member, if it is one. -/
def textMember? (v : Value) (name : String) : Option String :=
  match v.member name with
  | .str s => some s
  | _ => none

/-- The text of a member, empty if there is none. -/
def textMember (v : Value) (name : String) : String := (textMember? v name).getD ""

/-- The word for a cause, and the signal if there is one. -/
def ExitCause.words : ExitCause → String × Option Int
  | .exited => ("exited", none)
  | .signaled n => ("signaled", some n)
  | .stopped => ("stopped", none)
  | .waitFailed => ("wait_failed", none)

/-- The cause that a word stands for. -/
def ExitCause.ofWords (word : String) (signal : Int) : ExitCause :=
  match word with
  | "signaled" => .signaled signal
  | "stopped" => .stopped
  | "wait_failed" => .waitFailed
  | _ => .exited

/-- The report of an exit. -/
def Exit.report (e : Exit) : Value :=
  .obj [("code", optionalNumber e.code), ("cause", .str e.cause.words.1),
    ("signal", optionalNumber e.cause.words.2)]

/-- The exit that is reported. -/
def Exit.ofReport (v : Value) : Exit :=
  ⟨numberMember? v "code", .ofWords (textMember v "cause") ((numberMember? v "signal").getD 0)⟩

/-- The report of a process event. -/
def ProcessEvent.report : ProcessEvent → Value
  | .stdout l => .obj [("event", .str "stdout"), ("line", .str l)]
  | .stderr l => .obj [("event", .str "stderr"), ("line", .str l)]
  | .completed e => .obj [("event", .str "completed"), ("exit", e.report)]

/-- The process event that is reported. -/
def ProcessEvent.ofReport (v : Value) : ProcessEvent :=
  match textMember v "event" with
  | "stdout" => .stdout (textMember v "line")
  | "stderr" => .stderr (textMember v "line")
  | _ => .completed (.ofReport (v.member "exit"))

end DebugHost
