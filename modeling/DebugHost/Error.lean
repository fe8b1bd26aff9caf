import DebugHost.Duration
import DebugHost.Process.Exit
import DebugHost.Session.Status

/-! # Errors

Why a call fails, and the wording. -/

namespace DebugHost

/-- Why a run could not be started. -/
inductive RunError where
  /-- The run `run` is not over. -/
  | alreadyRunning (run : RunId) (pid : Option Int)
  /-- The system refused to start the command. -/
  | spawn (command : String) (detail : String)
deriving DecidableEq, Repr

/-- The wording of an error. -/
def RunError.message : RunError → String
  | .alreadyRunning run pid =>
    "a process is already running (run " ++ run.text ++ ", pid " ++ optionText pid ++
      "); stop it first"
  | .spawn command detail => "failed to start `" ++ command ++ "`: " ++ detail

/-- Why a call of the debugger fails. -/
inductive DebugError where
  | notPaused
  | staleGeneration (requested current : Generation)
  | sessionTerminated
  | timeout (command : String) (after : Duration)
  | adapterRejected (command message : String)
  | adapterUnavailable (module interpreter detail : String)
  | connect (address : String) (attempts : Nat) (detail : String)
  | io (detail : String)
  | invalidResponse (command reason : String)
  | run (e : RunError)
deriving DecidableEq, Repr

/-- The wording of an error. -/
def DebugError.message : DebugError → String
  | .notPaused => "the debuggee is not paused"
  | .staleGeneration requested current =>
    "reference from generation " ++ toString requested.number ++
      " is stale (current generation is " ++ toString current.number ++ ")"
  | .sessionTerminated => "the debug session has terminated"
  | .timeout command after => "`" ++ command ++ "` request timed out after " ++ after.text
  | .adapterRejected command message => "debug adapter rejected `" ++ command ++ "`: " ++ message
  | .adapterUnavailable module interpreter detail =>
    "`" ++ module ++ "` is not usable with " ++ interpreter ++ " (install it with `pip install " ++
      module ++ "`): " ++ detail
  | .connect address attempts detail =>
    "could not connect to the debug adapter at " ++ address ++ " after " ++ toString attempts ++
      " attempts: " ++ detail
  | .io detail => detail
  | .invalidResponse command reason => "unexpected `" ++ command ++ "` response: " ++ reason
  | .run e => e.message

end DebugHost
