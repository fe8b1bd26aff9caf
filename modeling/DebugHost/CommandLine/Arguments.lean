import DebugHost.CommandLine.Usage
import DebugHost.Path
import DebugHost.Process.Command
import DebugHost.Text.Integer

/-! # The command line of the program

Two subcommands: one runs a script, the other debugs it. The option for the configuration may stand in
front of the subcommand and behind it; the one behind it wins. A breakpoint is given as the path of a
file, a colon and the number of a line. The last colon counts, so that the path may hold colons too. -/

namespace DebugHost.CommandLine

open DebugHost.Text

/-! ### Breakpoints -/

/-- Why a text is no breakpoint. -/
inductive BreakpointFault where
  /-- The text has not the form of a file, a colon and a line from one on. -/
  | malformed
  /-- What stands for the line is no number. -/
  | line (fault : Integer.Fault)
deriving DecidableEq, Repr

/-- The wording of a fault in the text `value`. -/
def BreakpointFault.message (value : String) : BreakpointFault → String
  | .malformed => "expected FILE:LINE, got `" ++ value ++ "`"
  | .line f => "invalid line in `" ++ value ++ "`: " ++ f.message

/-- Splits a text at the last colon. -/
def splitLastColon (cs : List Char) : Option (List Char × List Char) :=
  match cs.reverse.dropWhile (· != ':') with
  | [] => none
  | _ :: front => some (front.reverse, (cs.reverse.takeWhile (· != ':')).reverse)

/-- Reads a breakpoint. -/
def parseBreakpoint (value : String) : Except BreakpointFault (Path × Int) :=
  match splitLastColon value.toList with
  | none => .error .malformed
  | some (file, line) =>
    match Integer.parse .int64 (String.ofList line) with
    | .error f => .error (.line f)
    | .ok n => if file = [] ∨ n < 1 then .error .malformed else .ok (⟨String.ofList file⟩, n)

/-! ### Subcommands -/

/-- The script that a subcommand is about. -/
structure Target where
  script : Path
  /-- The directory in which it runs. -/
  cwd : Option Path
  /-- Whether the package runner is to run it. -/
  uv : Bool
deriving DecidableEq, Repr

/-- A subcommand. -/
inductive Subcommand where
  | run (target : Target)
  | debug (target : Target) (breakpoints : List (Path × Int)) (stopOnEntry : Bool)
deriving DecidableEq, Repr

/-- A command line. -/
structure Arguments where
  /-- The configuration file. -/
  config : Option Path
  subcommand : Subcommand
deriving DecidableEq, Repr

/-- The request for a script; without a directory it runs in `current`. -/
def Target.request (t : Target) (current : Path) : RunRequest :=
  let cwd := t.cwd.getD current
  { mode := if t.uv then .packageRunner else .direct,
    script := if t.script.isAbsolute then t.script else cwd.join t.script, cwd := cwd }

/-- Refuses empty paths and texts that are no breakpoints. -/
def checkValue (name value : String) : Except UsageFault Unit :=
  if name = "break" then
    match parseBreakpoint value with
    | .ok _ => .ok ()
    | .error _ => .error .refusedValue
  else if value = "" then .error .invalidValue
  else .ok ()

/-- The option that shows help. -/
def helpOption : OptionSpec := ⟨"help", some 'h', .help⟩

/-- The option for the configuration. -/
def configOption : OptionSpec := ⟨"config", none, .single⟩

/-- The words in front of the subcommand. -/
def programLevel : Level where
  options := [configOption, helpOption, ⟨"version", some 'V', .version⟩]
  subcommands := ["run", "debug", "help"]
  check := checkValue

/-- The options of both subcommands. -/
def targetOptions : List OptionSpec :=
  [configOption, helpOption, ⟨"cwd", none, .single⟩, ⟨"uv", none, .flag⟩]

/-- The words behind `run`. -/
def runLevel : Level where
  options := targetOptions
  positions := ["script"]
  check := checkValue

/-- The words behind `debug`. -/
def debugLevel : Level where
  options := targetOptions ++ [⟨"break", none, .repeated⟩, ⟨"stop-on-entry", none, .flag⟩]
  positions := ["script"]
  check := checkValue

/-- The values of a name. -/
def valuesOf (given : List (String × String)) (name : String) : List String :=
  (given.filter (·.1 == name)).map (·.2)

/-- The path that is the value of a name. -/
def pathOf? (given : List (String × String)) (name : String) : Option Path :=
  (valuesOf given name).head?.map Path.mk

/-- The script that the words behind a subcommand are about. -/
def targetOf (given : List (String × String)) : Target :=
  ⟨(pathOf? given "script").getD ⟨""⟩, pathOf? given "cwd", !(valuesOf given "uv").isEmpty⟩

/-- What the words behind `help` ask for: help on the program, or on a subcommand. -/
def helpOn : List String → UsageFault
  | [] => .displayHelp
  | [w] => if w ∈ programLevel.subcommands then .displayHelp else .invalidSubcommand
  | _ :: _ => .invalidSubcommand

/-- Reads the words of a subcommand. -/
def readLevel (l : Level) (words : List String) : Except UsageFault (List (String × String)) := do
  match ← l.read {} words with
  | .done p => l.finish p false
  | .subcommand p _ _ => l.finish p false

/-- Reads a command line, without the name of the program. -/
def parse (words : List String) : Except UsageFault Arguments := do
  match ← programLevel.read {} words with
  | .done p =>
    let _ ← programLevel.finish p false
    throw .missingSubcommand
  | .subcommand p name rest =>
    if name = "help" then throw (helpOn rest)
    let given ← readLevel (if name = "run" then runLevel else debugLevel) rest
    let front ← programLevel.finish p true
    let subcommand := if name = "run" then .run (targetOf given)
      else .debug (targetOf given)
        ((valuesOf given "break").filterMap fun v => (parseBreakpoint v).toOption)
        (!(valuesOf given "stop-on-entry").isEmpty)
    return ⟨(pathOf? given "config").or (pathOf? front "config"), subcommand⟩

end DebugHost.CommandLine
