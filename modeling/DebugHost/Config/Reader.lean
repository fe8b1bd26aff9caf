import DebugHost.Config.Basic
import DebugHost.Record
import DebugHost.Text.Quoted
import DebugHost.Toml.Reader

/-! # Reading the configuration

Settings that are not given keep their defaults; names that are no settings are faults. A section may
also be given as an array of its settings in their order. -/

namespace DebugHost

open DebugHost.Text

namespace Toml

/-- The description of a value in an error message. -/
def Value.described : Value → String
  | .str s => "string " ++ Quoted.quote s
  | .int n => "integer " ++ ticked (toString n)
  | .real x => "floating point " ++ ticked x.positional
  | .bool b => "boolean " ++ ticked (if b then "true" else "false")
  | .moment _ => "map"
  | .arr _ => "sequence"
  | .table .. => "map"
  | .tables .. => "sequence"

/-- A reader of an `α` from a value. -/
abbrev Field (α : Type) := Value → Except Mismatch α

/-- The mismatch of a value of another kind. -/
def Value.mismatch {α : Type} (v : Value) (expected : String) : Except Mismatch α :=
  .error (.wrongType v.described expected)

namespace Field

/-- A text. -/
def string : Field String
  | .str s => .ok s
  | v => v.mismatch "a string"

/-- A path. -/
def path : Field Path
  | .str s => .ok ⟨s⟩
  | v => v.mismatch "path string"

/-- A truth value. -/
def bool : Field Bool
  | .bool b => .ok b
  | v => v.mismatch "a boolean"

/-- A whole number from zero to below two to the `bits`-th. -/
def word (name : String) (bits : Nat) : Field Nat
  | .int n => if 0 ≤ n ∧ n < (Nat.pow 2 bits : Nat) then .ok n.toNat else .error (.outOfRange n name)
  | v => v.mismatch name

/-- A value that is there. -/
def given {α : Type} (read : Field α) : Field (Option α) := fun v => (read v).map some

/-- The name of the only part of a date or a time. -/
def momentPart : String := "$__toml_private_datetime"

/-- A structure, given as a table, or as an array of its fields in their order. -/
def record {α : Type} (name : String) (r : Record Value α) : Field α
  | .table _ members => r.ofMembers true members
  | .moment text => r.ofMembers true [(momentPart, .str text)]
  | .arr items => r.ofItems name none items
  | .tables last before => r.ofItems name none ((last :: before).reverse.map (.table .header))
  | v => v.mismatch ("struct " ++ name)

end Field
end Toml

open Toml

namespace Config

/-- The settings of the log. -/
def loggingSection : Record Value LoggingConfig :=
  let d : LoggingConfig := {}
  LoggingConfig.mk <$> .defaulted "level" d.level Field.string <*>
    .defaulted "json" d.json Field.bool <*> .defaulted "stderr" d.stderr Field.bool <*>
    .defaulted "file" d.file (Field.given Field.path) <*>
    .defaulted "include_backtrace" d.includeBacktrace Field.bool <*>
    .defaulted "buffer_lines" d.bufferLines (Field.word "usize" 64)

/-- The settings of the interpreter. -/
def interpreterSection : Record Value InterpreterConfig :=
  let d : InterpreterConfig := {}
  InterpreterConfig.mk <$> .defaulted "python" d.python (Field.given Field.path) <*>
    .defaulted "fallback_python" d.fallbackPython Field.path <*>
    .defaulted "venv_dir" d.venvDir Field.path <*>
    .defaulted "package_runner" d.packageRunner Field.path <*>
    .defaulted "stop_grace_ms" d.stopGraceMs (Field.word "u64" 64)

/-- The settings of the debug adapter. -/
def debugSection : Record Value DebugConfig :=
  let d : DebugConfig := {}
  DebugConfig.mk <$> .defaulted "adapter_module" d.adapterModule Field.string <*>
    .defaulted "host" d.host Field.string <*>
    .defaulted "port" d.port (Field.given (Field.word "u16" 16)) <*>
    .defaulted "connect_attempts" d.connectAttempts (Field.word "u32" 32) <*>
    .defaulted "connect_interval_ms" d.connectIntervalMs (Field.word "u64" 64) <*>
    .defaulted "request_timeout_ms" d.requestTimeoutMs (Field.word "u64" 64) <*>
    .defaulted "just_my_code" d.justMyCode Field.bool

/-- All settings. -/
def record : Record Value Config :=
  Config.mk <$> .defaulted "logging" {} (Field.record "LoggingConfig" loggingSection) <*>
    .defaulted "interpreter" {} (Field.record "InterpreterConfig" interpreterSection) <*>
    .defaulted "debug" {} (Field.record "DebugConfig" debugSection)

/-- The settings that a table gives. -/
def ofTable (ms : Members) : Except Mismatch Config := record.ofMembers true ms

end Config

/-- Why there is no configuration. -/
inductive ConfigError where
  /-- The file could not be read. -/
  | unreadable (path : Path) (detail : String)
  /-- The text is no document. -/
  | malformed
  /-- The document is no configuration. -/
  | mismatch (m : Mismatch)
deriving DecidableEq, Repr

/-- The wording of an error. -/
def ConfigError.message : ConfigError → String
  | .unreadable path detail => "failed to read config file " ++ path.text ++ ": " ++ detail
  | .malformed => "failed to parse toml config: invalid document"
  | .mismatch m => "failed to parse toml config: " ++ m.message

/-- Reads a configuration. -/
def Config.read (text : String) : Except ConfigError Config :=
  match Toml.read? text with
  | none => .error .malformed
  | some ms => (Config.ofTable ms).mapError .mismatch

end DebugHost
