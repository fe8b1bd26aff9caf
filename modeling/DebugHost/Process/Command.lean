import DebugHost.Config.Basic
import DebugHost.FileSystem

/-! # Commands

The command line that a request to run a script turns into: which interpreter is taken, what stands in
front of the script, and which variables are set. -/

namespace DebugHost

/-- The ways to run a script. -/
inductive RunMode where
  /-- By an interpreter. -/
  | direct
  /-- By the program that prepares the environment of a project first. -/
  | packageRunner
deriving DecidableEq, Repr

/-- The name of a way in reports. -/
def RunMode.label : RunMode → String
  | .direct => "Direct"
  | .packageRunner => "PackageRunner"

/-- A request to run a script. -/
structure RunRequest where
  mode : RunMode := .direct
  script : Path
  cwd : Path
  /-- Arguments between the interpreter and the script. -/
  interpreterArguments : List String := []
  /-- Variables to be set. -/
  settings : List (String × String) := []
deriving DecidableEq, Repr

/-- A command. -/
structure Command where
  cwd : Path
  program : Path
  arguments : List String
  /-- Variables to be set, in order; of several settings of one variable the last counts. -/
  settings : List (String × String)
deriving DecidableEq, Repr

/-- The variable that keeps programs from holding back their output. -/
def Command.unbuffered : String × String := ("PYTHONUNBUFFERED", "1")

/-- Whether an argument is shown in quotes. -/
def Command.needsQuotes (s : String) : Bool := s.toList.any fun c => c = ' ' || c = '\t'

/-- An argument as it is shown. -/
def Command.shown (s : String) : String :=
  if Command.needsQuotes s then
    "\"" ++ String.ofList (s.toList.flatMap fun c => if c = '"' then ['\\', '"'] else [c]) ++ "\""
  else s

/-- The text of a command, for people to read. -/
def Command.text (c : Command) : String :=
  String.join (c.program.text :: c.arguments.map fun a => " " ++ Command.shown a)

namespace InterpreterConfig

/-- Where the interpreter of a virtual environment is. -/
def candidate (c : InterpreterConfig) (cwd : Path) : Path :=
  ((cwd.join c.venvDir).join ⟨"bin"⟩).join ⟨"python"⟩

/-- The interpreter for scripts in the directory `cwd`, as seen from the directory `home`: the one that
is configured, or else the one of the virtual environment if it is there, or else the fallback. -/
def resolve (c : InterpreterConfig) (fs : FileSystem) (home : List String) (cwd : Path) : Path :=
  match c.python with
  | some p => p
  | none => if fs.isThere home (c.candidate cwd) then c.candidate cwd else c.fallbackPython

/-- The program for a request, and its arguments in front of those of the interpreter. -/
def programFor (c : InterpreterConfig) (fs : FileSystem) (home : List String) (r : RunRequest) :
    Path × List String :=
  match r.mode with
  | .direct => (c.resolve fs home r.cwd, [])
  | .packageRunner => (c.packageRunner, ["run", "python"])

/-- The command for a request. -/
def commandFor (c : InterpreterConfig) (fs : FileSystem) (home : List String) (r : RunRequest) :
    Command :=
  let (program, arguments) := c.programFor fs home r
  ⟨r.cwd, program, arguments ++ r.interpreterArguments ++ [r.script.text],
    Command.unbuffered :: r.settings⟩

end InterpreterConfig
end DebugHost
