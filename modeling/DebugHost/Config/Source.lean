import DebugHost.Config.Reader
import DebugHost.FileSystem

/-! # Where the configuration comes from

A path that is given explicitly wins, then the one that the environment names; without either the
defaults are taken. -/

namespace DebugHost

/-- The variable of the environment that names a configuration file. -/
def Config.variable : String := "PYRA_CONFIG"

/-- Why a file is no text. -/
def Config.notText : String := "stream did not contain valid UTF-8"

/-- Reads a configuration file. -/
def Config.readFile (fs : FileSystem) (cwd : List String) (p : Path) : Except ConfigError Config :=
  match fs.read cwd p with
  | .error e => .error (.unreadable p e.message)
  | .ok octets =>
    match Text.Utf8.decode? octets with
    | .error _ => .error (.unreadable p Config.notText)
    | .ok text => Config.read text

/-- The configuration: from the explicit path, from the path in the environment unless that is empty,
or the defaults. -/
def Config.load (fs : FileSystem) (cwd : List String) (explicit : Option Path)
    (environment : Option String) : Except ConfigError Config :=
  match explicit, environment.filter (· ≠ "") with
  | some p, _ => Config.readFile fs cwd p
  | none, some p => Config.readFile fs cwd ⟨p⟩
  | none, none => .ok {}

end DebugHost
