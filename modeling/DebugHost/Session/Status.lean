import DebugHost.Process.Exit

/-! # The state of a session

What the program is doing, and why the connection and the session ended. -/

namespace DebugHost

/-- Why a connection to an adapter ended. -/
inductive CloseReason where
  /-- The adapter closed the stream between two messages. -/
  | eof
  /-- A frame could not be read; the stream cannot be trusted any more. -/
  | decode (message : String)
  /-- The stream failed. -/
  | io (message : String)
  /-- It was closed here. -/
  | shutdown
deriving DecidableEq, Repr

/-- The wording of a reason. -/
def CloseReason.text : CloseReason → String
  | .eof => "adapter closed the connection"
  | .decode m => "protocol decode error: " ++ m
  | .io m => "connection error: " ++ m
  | .shutdown => "connection shut down"

/-- What the program is doing. -/
inductive RunState where
  | launching
  | configuring
  | running
  | paused
  | terminated
deriving DecidableEq, Repr

/-- The word for a state. -/
def RunState.text : RunState → String
  | .launching => "launching"
  | .configuring => "configuring"
  | .running => "running"
  | .paused => "paused"
  | .terminated => "terminated"

/-- The name of a state in reports. -/
def RunState.label : RunState → String
  | .launching => "Launching"
  | .configuring => "Configuring"
  | .running => "Running"
  | .paused => "Paused"
  | .terminated => "Terminated"

/-- Why a session ended. -/
inductive Termination where
  /-- The program exited, or the adapter said that it is gone. -/
  | exited (code : Option Int)
  /-- The program was killed by a signal that nobody here sent. -/
  | signaled (signal : Int)
  /-- The connection to the adapter ended. -/
  | connectionLost (reason : CloseReason)
  /-- The user stopped it. -/
  | userStopped
deriving DecidableEq, Repr

/-- The wording of a cause. -/
def Termination.text : Termination → String
  | .exited (some c) => "program exited with code " ++ toString c
  | .exited none => "program exited"
  | .signaled n => "program killed by signal " ++ toString n
  | .connectionLost r => "debug adapter connection lost: " ++ r.text
  | .userStopped => "stopped by user"

/-- How the exit of the program ends its session. -/
def Termination.ofExit (e : Exit) : Termination :=
  match e.cause with
  | .stopped => .userStopped
  | .signaled n => .signaled n
  | .exited => .exited e.code
  | .waitFailed => .exited e.code

/-- The stretch of a session between two changes of its state. -/
structure Generation where
  number : Nat
deriving DecidableEq, Repr, Inhabited

/-- The first generation. -/
def Generation.first : Generation := ⟨0⟩

/-- The generation that follows. -/
def Generation.next (g : Generation) : Generation := ⟨g.number + 1⟩

/-- What a session shows of itself. -/
structure Status where
  state : RunState := .launching
  generation : Generation := .first
  /-- The thread that stopped last. -/
  activeThread : Option Int := none
  stopReason : Option String := none
  termination : Option Termination := none
deriving DecidableEq, Repr, Inhabited

/-- What a session reports. -/
inductive DebugEvent where
  | stopped (reason : String) (thread : Option Int) (generation : Generation)
  | continued (thread : Option Int)
  | output (category : Option String) (text : String)
  | thread (reason : String) (thread : Int)
  | terminated (cause : Termination)
deriving DecidableEq, Repr

/-- The number of a session of the program. -/
structure SessionId where
  number : Nat
deriving DecidableEq, Repr, Inhabited

/-- The text of a session number. -/
def SessionId.text (s : SessionId) : String := "session-" ++ toString s.number

end DebugHost
