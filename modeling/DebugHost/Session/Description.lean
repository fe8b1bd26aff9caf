import DebugHost.Connection
import DebugHost.Session.Status

/-! # Descriptions

Connections and sessions as they are described to developers: the name of the thing, and its parts
with their names. -/

namespace DebugHost

open DebugHost.Text

/-- The description of a thing from those of its parts. -/
def describe (name : String) (parts : List (String × String)) : String :=
  name ++ " \x7b " ++ String.intercalate ", " (parts.map fun (n, t) => n ++ ": " ++ t) ++ " \x7d"

/-- The description of a thing that wraps another one. -/
def describeOne (name part : String) : String := name ++ "(" ++ part ++ ")"

/-- The description of something that may be missing. -/
def describeOption {α : Type} (f : α → String) : Option α → String
  | none => "None"
  | some a => describeOne "Some" (f a)

/-- The description of the end of a connection. -/
def CloseReason.description : CloseReason → String
  | .eof => "Eof"
  | .decode m => describeOne "Decode" (Quoted.quote m)
  | .io m => describeOne "Io" (Quoted.quote m)
  | .shutdown => "Shutdown"

/-- The description of the end of a session. -/
def Termination.description : Termination → String
  | .exited code => describe "Exited" [("exit_code", describeOption toString code)]
  | .signaled n => describe "Signaled" [("signal", toString n)]
  | .connectionLost r => describe "ConnectionLost" [("reason", r.description)]
  | .userStopped => "UserStopped"

/-- The description of a status. -/
def Status.description (s : Status) : String :=
  describe "SessionStatus" [("state", s.state.label),
    ("generation", describeOne "Generation" (toString s.generation.number)),
    ("active_thread", describeOption toString s.activeThread),
    ("stop_reason", describeOption Quoted.quote s.stopReason),
    ("termination", describeOption Termination.description s.termination)]

/-- The description of a session. -/
def SessionId.description (id : SessionId) (s : Status) : String :=
  describe "DebugSession" [("id", describeOne "SessionId" (toString id.number)),
    ("status", s.description)]

/-- The description of a connection. -/
def Connection.description (c : Connection) : String :=
  describe "DapConnection" [("closed", if c.isClosed then "true" else "false"),
    ("pending", toString c.pending.length)]

end DebugHost
