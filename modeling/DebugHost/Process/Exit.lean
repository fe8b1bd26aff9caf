/-! # Exits

How a run of a program ended. -/

namespace DebugHost

/-- The text of an optional number as log lines and messages show it. -/
def optionText : Option Int → String
  | none => "None"
  | some n => "Some(" ++ toString n ++ ")"

/-- Why a program ended. -/
inductive ExitCause where
  /-- It exited by itself. -/
  | exited
  /-- It was killed by a signal that nobody here sent. -/
  | signaled (signal : Int)
  /-- It was stopped on request. -/
  | stopped
  /-- Its exit could not be learned. -/
  | waitFailed
deriving DecidableEq, Repr

/-- The name of a cause in reports. -/
def ExitCause.label : ExitCause → String
  | .exited => "Exited"
  | .signaled n => "Signaled(" ++ toString n ++ ")"
  | .stopped => "Stopped"
  | .waitFailed => "WaitFailed"

/-- How a run ended: its exit code, if there is one, and the cause. -/
structure Exit where
  code : Option Int
  cause : ExitCause
deriving DecidableEq, Repr

/-- Whether the program exited by itself without reporting a failure. -/
def Exit.isSuccess (e : Exit) : Bool := e.cause = .exited ∧ e.code = some 0

/-- The wording of an exit. -/
def Exit.text (e : Exit) : String :=
  match e.cause, e.code with
  | .exited, some c => "exited with code " ++ toString c
  | .exited, none => "exited"
  | .signaled n, _ => "killed by signal " ++ toString n
  | .stopped, _ => "stopped"
  | .waitFailed, _ => "exit status unavailable"

/-- The status with which a process ended, as the system tells it. -/
inductive WaitStatus where
  | code (n : Int)
  | signal (n : Int)
  /-- The system could not tell. -/
  | failed
deriving DecidableEq, Repr

/-- The exit that a status stands for, of a run that was stopped on request or not. -/
def Exit.ofStatus (status : WaitStatus) (stopped : Bool) : Exit :=
  match status with
  | .code n => ⟨some n, if stopped then .stopped else .exited⟩
  | .signal n => ⟨none, if stopped then .stopped else .signaled n⟩
  | .failed => ⟨none, if stopped then .stopped else .waitFailed⟩

/-- What a run reports: lines of its two streams, and its end. -/
inductive ProcessEvent where
  | stdout (line : String)
  | stderr (line : String)
  | completed (exit : Exit)
deriving DecidableEq, Repr

/-- The number of a run of one supervisor. -/
structure RunId where
  number : Nat
deriving DecidableEq, Repr, Inhabited

/-- The text of a run number. -/
def RunId.text (r : RunId) : String := "#" ++ toString r.number

end DebugHost
