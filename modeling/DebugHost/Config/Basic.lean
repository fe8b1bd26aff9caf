import DebugHost.Duration
import DebugHost.Path

/-! # The configuration

The settings of the program, in three sections. Every setting has a default. -/

namespace DebugHost

/-- Settings of the log. -/
structure LoggingConfig where
  /-- A level, or directives for several parts of the program. -/
  level : String := "info"
  /-- Whether log lines are objects instead of plain text. -/
  json : Bool := false
  /-- Whether log lines also go to the error stream. -/
  stderr : Bool := true
  /-- A file to which log lines are appended. -/
  file : Option Path := none
  /-- Whether the report of a failure of the program shows the calls that led to it. -/
  includeBacktrace : Bool := false
  /-- Number of log lines that are kept for reports. -/
  bufferLines : Nat := 2000
deriving DecidableEq, Repr, Inhabited

/-- Settings of the way in which programs are started. -/
structure InterpreterConfig where
  /-- The interpreter. Without it, the one of the virtual environment is taken if there is one. -/
  python : Option Path := none
  /-- The interpreter that is taken if there is no other. -/
  fallbackPython : Path := ⟨"python3"⟩
  /-- The directory of the virtual environment. -/
  venvDir : Path := ⟨".venv"⟩
  /-- The program that runs programs in their environments. -/
  packageRunner : Path := ⟨"uv"⟩
  /-- Milliseconds from asking a program to stop to killing it. -/
  stopGraceMs : Nat := 2000
deriving DecidableEq, Repr, Inhabited

/-- Settings of the debug adapter. -/
structure DebugConfig where
  /-- The module that is the adapter. -/
  adapterModule : String := "debugpy"
  /-- The host on which the adapter listens. -/
  host : String := "127.0.0.1"
  /-- The port on which the adapter listens; a free one if it is not given. -/
  port : Option Nat := none
  /-- Number of attempts to connect. -/
  connectAttempts : Nat := 10
  /-- Milliseconds between two attempts. -/
  connectIntervalMs : Nat := 500
  /-- Milliseconds after which a request fails. -/
  requestTimeoutMs : Nat := 5000
  /-- Whether the debugger keeps out of libraries. -/
  justMyCode : Bool := true
deriving DecidableEq, Repr, Inhabited

/-- All settings. -/
structure Config where
  logging : LoggingConfig := {}
  interpreter : InterpreterConfig := {}
  debug : DebugConfig := {}
deriving DecidableEq, Repr, Inhabited

/-- The time from asking a program to stop to killing it. -/
def InterpreterConfig.stopGrace (c : InterpreterConfig) : Duration := ⟨c.stopGraceMs⟩

/-- The time between two attempts to connect. -/
def DebugConfig.connectInterval (c : DebugConfig) : Duration := ⟨c.connectIntervalMs⟩

/-- The time after which a request fails. -/
def DebugConfig.requestTimeout (c : DebugConfig) : Duration := ⟨c.requestTimeoutMs⟩

end DebugHost
