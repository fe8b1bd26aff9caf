import DebugHost.Config.Basic
import DebugHost.FileSystem
import DebugHost.Json.Printer
import DebugHost.Log.Filter

/-! # Where log records go

Records that the filter lets through are written to the error stream, to the end of a file, or to both,
as lines of text or as objects. The time of a record is put in front by whoever writes it out. -/

namespace DebugHost.Log

open DebugHost.Json

/-- A value of a record in an object: numbers stay numbers. -/
def Datum.toValue : Datum → Value
  | .shown s | .text s => .str s
  | .int n => .int n

/-- A record as an object. -/
def Record.toValue (r : Record) : Value :=
  .obj [("level", .str r.level.text),
    ("fields", .obj (("message", .str r.message) :: r.fields.map fun (n, d) => (n, d.toValue))),
    ("target", .str r.target)]

/-- The sink of a program. -/
structure Sink where
  filter : Filter
  /-- Whether records are written as objects. -/
  asObjects : Bool
  /-- Whether records go to the error stream. -/
  toErrors : Bool
  /-- The file to which records go. -/
  file : Option Path
deriving DecidableEq, Repr

namespace Sink

/-- The name under which the configuration speaks in the log. -/
def target : String := "pyra.config"

/-- The record of a file that cannot be opened. -/
def noFile (p : Path) : Record :=
  ⟨.warn, target, "failed to open log file; file logging disabled", [("path", .shown p.text)]⟩

/-- Opens the sink for a configuration. A file that cannot be opened is left out, and a record of that
is the first. -/
def start (c : LoggingConfig) (environment : Option String) (fs : FileSystem) (cwd : List String) :
    Sink × FileSystem × List Record :=
  let sink : Sink := ⟨Filter.effective c.level environment, c.json, c.stderr, c.file⟩
  match c.file with
  | none => (sink, fs, [])
  | some p =>
    match fs.write cwd p true [] with
    | .ok fs => (sink, fs, [])
    | .error _ => ({ sink with file := none }, fs, [noFile p])

/-- The line for a record. -/
def line (s : Sink) (r : Record) : String := if s.asObjects then Json.text r.toValue else r.line

/-- The lines for the records that the filter lets through. -/
def lines (s : Sink) (rs : List Record) : List String :=
  (rs.filter s.filter.allows).map s.line

/-- Writes records: what goes to the error stream, and the files afterwards. -/
def write (s : Sink) (fs : FileSystem) (cwd : List String) (rs : List Record) :
    List String × FileSystem :=
  let ls := s.lines rs
  let fs := match s.file with
    | none => fs
    | some p =>
      match fs.write cwd p true (Text.Utf8.encode (String.join (ls.map (· ++ "\n")))) with
      | .ok fs => fs
      | .error _ => fs
  (if s.toErrors then ls else [], fs)

end Sink
end DebugHost.Log
