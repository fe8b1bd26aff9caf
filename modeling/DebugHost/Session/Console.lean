import DebugHost.Session.Calls
import DebugHost.Text.Character
import DebugHost.Text.Integer

/-! # The debug console

The commands that a user types while a program is debugged, and what is shown of the events of the
session. -/

namespace DebugHost.Session.Console

open DebugHost.Text

/-- Prints a line. -/
def say (s : String) : Script Unit := .perform (.print (s ++ "\n"))

/-- Prints lines. -/
def sayAll : List String → Script Unit
  | [] => return ()
  | l :: rest => do
    say l
    sayAll rest

/-- Where a frame stands in the source. -/
def place (f : Inspection.Frame) : String :=
  " at " ++ f.source.getD "<unknown>" ++ ":" ++ toString f.line

/-- The lines for the frames of a stack, of which `depth` stood further up. -/
def frameLines (depth : Nat) : List Inspection.Frame → List String
  | [] => []
  | f :: rest => ("#" ++ toString depth ++ " " ++ f.name ++ place f) :: frameLines (depth + 1) rest

/-- What tells that a thing has parts. -/
def partsMark : Option Inspection.VarRef → String
  | some r => " (vars " ++ toString r.raw ++ ")"
  | none => ""

/-- The line for a scope. -/
def scopeLine (s : Inspection.Scope) : String := "  " ++ s.name ++ partsMark s.values

/-- The line for a variable. -/
def variableLine (v : Inspection.Variable) : String :=
  v.name ++ (match v.type with
    | some t => ": " ++ t
    | none => "") ++ " = " ++ v.value ++ partsMark v.children

/-- Shows the stack of a thread and the scopes of its top frame. -/
def backtrace (thread : Int) : Script (Except DebugError Unit) :=
  (stackTrace thread).andThen fun frames => do
    sayAll (frameLines 0 frames)
    match frames with
    | [] => return .ok ()
    | top :: _ =>
      (scopes top.ref).andThen fun ss => do
        sayAll (ss.map scopeLine)
        return .ok ()

/-- Shows a group of variables. -/
def showVariables (reference : Inspection.VarRef) : Script (Except DebugError Unit) :=
  (values reference).andThen fun vs => do
    sayAll (vs.map variableLine)
    return .ok ()

/-- Splits a line at its first space. -/
def splitCommand (line : String) : String × String :=
  let cs := line.toList
  (String.ofList (cs.takeWhile (· != ' ')), String.ofList ((cs.dropWhile (· != ' ')).drop 1))

/-- Carries out a line of the user, and tells whether the console goes on. Commands are about the
thread that stopped last. -/
def command (line : String) : Script Bool := do
  let s ← .perform .status
  let thread := s.activeThread.getD 1
  let (name, argument) := splitCommand line
  if name = "q" then return false
  let r : Except DebugError Unit ← match name with
    | "" => pure (.ok ())
    | "c" => resume .continue thread
    | "n" => resume .next thread
    | "s" => resume .stepIn thread
    | "o" => resume .stepOut thread
    | "bt" => backtrace thread
    | "vars" =>
      match Integer.parse .int64 (trimBlanks argument) with
      | .ok raw => showVariables ⟨s.generation, raw⟩
      | .error _ => do
        say "usage: vars <ref>"
        pure (.ok ())
    | other => do
      say ("unknown command `" ++ other ++ "`")
      pure (.ok ())
  match r with
  | .ok () => pure ()
  | .error e => say ("error: " ++ e.message)
  return true

/-- Shows an event of the program's process. -/
def showProcess : ProcessEvent → Script Unit
  | .stdout line => say line
  | .stderr line => .perform (.printError (line ++ "\n"))
  | .completed _ => return ()

/-- Shows an event of the session, and tells whether the session is over. -/
def showEvent : DebugEvent → Script Bool
  | .stopped reason thread _ => do
    let thread := thread.getD 1
    let location := match ← stackTrace thread with
      | .ok (top :: _) => place top
      | _ => ""
    say ("stopped (" ++ reason ++ ") on thread " ++ toString thread ++ location)
    return false
  | .continued _ => return false
  | .thread .. => return false
  | .output _ text => do
    .perform (.print text)
    return false
  | .terminated cause => do
    say ("session ended: " ++ cause.text)
    return true

end DebugHost.Session.Console
