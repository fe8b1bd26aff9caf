import DebugHost.Config.Basic
import DebugHost.Report.Process

/-! # Reports of configurations -/

namespace DebugHost

open DebugHost.Json

/-- A path that may be missing. -/
def optionalPath : Option Path → Value := orNull fun p => .str p.text

/-- The report of the settings of the log. -/
def LoggingConfig.report (c : LoggingConfig) : Value :=
  .obj [("level", .str c.level), ("json", .bool c.json), ("stderr", .bool c.stderr),
    ("file", optionalPath c.file), ("include_backtrace", .bool c.includeBacktrace),
    ("buffer_lines", .int c.bufferLines)]

/-- The report of the settings of the interpreter. -/
def InterpreterConfig.report (c : InterpreterConfig) : Value :=
  .obj [("python", optionalPath c.python), ("fallback_python", .str c.fallbackPython.text),
    ("venv_dir", .str c.venvDir.text), ("package_runner", .str c.packageRunner.text),
    ("stop_grace_ms", .int c.stopGraceMs)]

/-- The report of the settings of the debug adapter. -/
def DebugConfig.report (c : DebugConfig) : Value :=
  .obj [("adapter_module", .str c.adapterModule), ("host", .str c.host),
    ("port", orNull (fun (n : Nat) => .int n) c.port), ("connect_attempts", .int c.connectAttempts),
    ("connect_interval_ms", .int c.connectIntervalMs),
    ("request_timeout_ms", .int c.requestTimeoutMs), ("just_my_code", .bool c.justMyCode)]

/-- The report of a configuration: its settings, and its times as texts. -/
def Config.report (c : Config) : Value :=
  .obj [("logging", c.logging.report), ("interpreter", c.interpreter.report),
    ("debug", c.debug.report),
    ("text", .obj [("stop_grace", .str c.interpreter.stopGrace.text),
      ("connect_interval", .str c.debug.connectInterval.text),
      ("request_timeout", .str c.debug.requestTimeout.text)])]

end DebugHost
