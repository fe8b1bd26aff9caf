import DebugHost.Text.Quoted

/-! # Log records

What the program logs: a level, the part of the program that speaks, a message, and named values.
`Record.text` is the line of text without its time. -/

namespace DebugHost.Log

open DebugHost.Text

/-- How much a record matters. -/
inductive Level where
  | error
  | warn
  | info
  | debug
  | trace
deriving DecidableEq, Repr

/-- The name of a level in a log line. -/
def Level.text : Level → String
  | .error => "ERROR"
  | .warn => "WARN"
  | .info => "INFO"
  | .debug => "DEBUG"
  | .trace => "TRACE"

/-- How talkative a level is: a filter that lets a level through lets all quieter ones through. -/
def Level.rank : Level → Nat
  | .error => 1
  | .warn => 2
  | .info => 3
  | .debug => 4
  | .trace => 5

/-- A value in a record. -/
inductive Datum where
  /-- A text that stands as it is. -/
  | shown (s : String)
  /-- A text that stands in quotes in a log line. -/
  | text (s : String)
  /-- A number. -/
  | int (n : Int)
deriving DecidableEq, Repr

/-- A value in a log line. -/
def Datum.line : Datum → String
  | .shown s => s
  | .text s => Quoted.quote s
  | .int n => toString n

/-- A record. -/
structure Record where
  level : Level
  target : String
  message : String
  fields : List (String × Datum)
deriving DecidableEq, Repr

/-- The log line of a record, without its time. -/
def Record.line (r : Record) : String :=
  r.level.text ++ " " ++ r.target ++ ": " ++
    String.intercalate " " (r.message :: r.fields.map fun (n, d) => n ++ "=" ++ d.line)

end DebugHost.Log
