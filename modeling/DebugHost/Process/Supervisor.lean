import DebugHost.Error
import DebugHost.Log.Record
import DebugHost.Process.Command
import DebugHost.Process.Lines

/-! # The supervisor

A supervisor owns one place for a running program. Every run has a reader for each of its two streams
and a watcher, which waits for the program to exit or for a stop, ends the program's process group if
it is to be stopped, waits for the readers, and then does four things one after the other: it records
the exit, frees the place, tells those who wait for the stop, and reports the exit as the last event of
the run. A `Move` is one such thing; between two moves anything else may happen. `Run.due?` says which
move is due, `Supervisor.move` makes it. -/

namespace DebugHost

/-- The streams on which a program writes. -/
inductive Stream where
  | out
  | err
deriving DecidableEq, Repr

/-- The event for a line of a stream. -/
def Stream.event : Stream → String → ProcessEvent
  | .out, l => .stdout l
  | .err, l => .stderr l

/-- The reader of one stream of a run. -/
structure StreamReader where
  buffer : LineBuffer := {}
  /-- Whether it has ended, by itself or not. -/
  isOver : Bool := false
deriving DecidableEq, Repr, Inhabited

/-- How far the watcher of a run is. -/
inductive Watch where
  /-- It waits for the exit of the program, or for a stop. -/
  | waiting
  /-- It has asked the process group to end, and waits for the exit until the deadline. -/
  | terminating (deadline : Nat)
  /-- It has killed the process group, and waits for the exit. -/
  | killing
  /-- It waits for the reader of a stream until the deadline. -/
  | joining (exit : Exit) (stream : Stream) (deadline : Nat)
  /-- The readers have ended. -/
  | joined (exit : Exit)
  /-- The exit is recorded. -/
  | recorded (exit : Exit)
  /-- The place is free. -/
  | released (exit : Exit)
  /-- Those who wait for the stop have been told. -/
  | told (exit : Exit)
  /-- The run is over. -/
  | over (exit : Exit)
deriving DecidableEq, Repr, Inhabited

/-- A run of a program. -/
structure Run where
  id : RunId
  /-- The number of the process, which is that of its group as well. -/
  process : Nat
  /-- The text of its command. -/
  command : String
  /-- Whether it is to be stopped. -/
  stopAsked : Bool := false
  watch : Watch := .waiting
  out : StreamReader := {}
  err : StreamReader := {}
  /-- What has been reported, oldest first. -/
  events : List ProcessEvent := []
deriving DecidableEq, Repr

namespace Run

/-- The reader of a stream. -/
def reader (r : Run) : Stream → StreamReader
  | .out => r.out
  | .err => r.err

/-- Puts the reader of a stream in place. -/
def setReader (r : Run) : Stream → StreamReader → Run
  | .out, x => { r with out := x }
  | .err, x => { r with err := x }

/-- Reports lines of a stream. -/
def report (r : Run) (s : Stream) (lines : List String) : Run :=
  { r with events := r.events ++ lines.map s.event }

/-- A reader takes in a chunk of its stream, unless it has ended. -/
def feed (r : Run) (s : Stream) (chunk : List UInt8) : Run :=
  if (r.reader s).isOver then r
  else
    let (lines, buffer) := (r.reader s).buffer.push chunk
    (r.setReader s { buffer }).report s lines

/-- A reader comes to the end of its stream: what is pending is its last line. -/
def finish (r : Run) (s : Stream) : Run :=
  if (r.reader s).isOver then r
  else
    let (line, buffer) := (r.reader s).buffer.finish
    (r.setReader s { buffer, isOver := true }).report s line.toList

/-- A reader is made to end. What is pending is lost. -/
def abandon (r : Run) (s : Stream) : Run := r.setReader s { r.reader s with isOver := true }

/-- The exit of a run that those who wait for its stop have been told. -/
def toldExit? (r : Run) : Option Exit :=
  match r.watch with
  | .told e | .over e => some e
  | _ => none

/-- Whether the run is over: its last event has been reported. -/
def isOver (r : Run) : Bool :=
  match r.watch with
  | .over _ => true
  | _ => false

/-- The time at which the watcher stops waiting for what it waits for. -/
def deadline? (r : Run) : Option Nat :=
  match r.watch with
  | .terminating d | .joining _ _ d => some d
  | _ => none

end Run

/-- The things that the watcher of a run does. -/
inductive Move where
  /-- The program has exited. -/
  | exited (status : WaitStatus)
  /-- The run is to be stopped: the process group is asked to end. -/
  | terminate
  /-- The deadline has passed: the process group is killed. -/
  | kill
  /-- The reader it waits for has ended. -/
  | join
  /-- The deadline has passed: the reader is made to end. -/
  | abandon
  /-- The exit is recorded. -/
  | record
  /-- The place is freed. -/
  | release
  /-- Those who wait for the stop are told. -/
  | tell
  /-- The exit is reported. -/
  | complete
deriving DecidableEq, Repr

/-- The move that is due, given the time and the status of the program if it has exited. An exit comes
before a stop, and before a deadline. -/
def Run.due? (r : Run) (now : Nat) (status : Option WaitStatus) : Option Move :=
  match r.watch, status with
  | .waiting, some s | .terminating _, some s | .killing, some s => some (.exited s)
  | .waiting, none => if r.stopAsked then some .terminate else none
  | .terminating d, none => if d ≤ now then some .kill else none
  | .killing, none => none
  | .joining _ s d, _ =>
    if (r.reader s).isOver then some .join else if d ≤ now then some .abandon else none
  | .joined _, _ => some .record
  | .recorded _, _ => some .release
  | .released _, _ => some .tell
  | .told _, _ => some .complete
  | .over _, _ => none

/-- What is done to a process group. -/
inductive GroupSignal where
  | terminate (group : Nat)
  | kill (group : Nat)
deriving DecidableEq, Repr

/-- A supervisor. -/
structure Supervisor where
  /-- How long a program may take to end after it was asked to, and a reader after the program. -/
  grace : Duration
  /-- The run in the place. -/
  place : Option RunId := none
  /-- The run that was recorded last, and its exit. -/
  lastExit : Option (RunId × Exit) := none
  /-- The number for the next run. -/
  next : Nat := 1
  /-- All runs, oldest first. -/
  runs : List Run := []
deriving Inhabited

namespace Supervisor

/-- The name under which a supervisor speaks in the log. -/
def target : String := "pyra.process"

/-- A run by its number. -/
def find? (s : Supervisor) (id : RunId) : Option Run := s.runs.find? (·.id = id)

/-- Changes a run. -/
def modify (s : Supervisor) (id : RunId) (f : Run → Run) : Supervisor :=
  { s with runs := s.runs.map fun r => if r.id = id then f r else r }

/-- The run in the place. -/
def current? (s : Supervisor) : Option Run := s.place.bind s.find?

/-- Whether the place is taken. -/
def isRunning (s : Supervisor) : Bool := s.place.isSome

/-! ### Starting -/

/-- Starts a command. `spawned` is the number of its process, or why the system refuses to start it; it
does not count while the place is taken. -/
def start (s : Supervisor) (c : Command) (spawned : Except OsError Nat) :
    Except RunError RunId × Supervisor × List Log.Record :=
  match s.current?, spawned with
  | some r, _ => (.error (.alreadyRunning r.id (some r.process)), s, [])
  | none, .error e => (.error (.spawn c.text e.message), s, [])
  | none, .ok process =>
    let id : RunId := ⟨s.next⟩
    (.ok id, { s with
        place := some id
        next := s.next + 1
        runs := s.runs ++ [{ id, process, command := c.text }] },
      [⟨.info, target, "started process",
        [("run", .shown id.text), ("pid", .shown (optionText (some process))),
          ("command", .shown c.text)]⟩])

/-! ### Stopping -/

/-- The exit that is recorded for a run, if it is the last one. -/
def recordedExit (s : Supervisor) (id : RunId) : Option Exit :=
  (s.lastExit.filter (·.1 = id)).map (·.2)

/-- How a stop goes on. -/
inductive Stopping where
  /-- The run is not in the place: the stop ends with what is recorded. -/
  | ended (exit : Option Exit)
  /-- The run is to be stopped; the stop waits until it is told, or until the bound has passed. -/
  | pending (id : RunId)
deriving DecidableEq, Repr

/-- Lets the watcher of a run know that the run is to be stopped. -/
def cancel (s : Supervisor) (id : RunId) : Supervisor :=
  s.modify id fun r => { r with stopAsked := true }

/-- Asks for the stop of a run. -/
def askStop (s : Supervisor) (id : RunId) : Stopping × Supervisor × List Log.Record :=
  if s.place = some id then
    (.pending id, s.cancel id,
      [⟨.debug, target, "stopping process", [("run", .shown id.text)]⟩])
  else (.ended (s.recordedExit id), s, [])

/-- How long a stop waits beyond two grace periods, in milliseconds. -/
def slack : Nat := 2000

/-- How long a stop waits, in milliseconds: the program may take a grace period to end, and the readers
another. -/
def stopBound (s : Supervisor) : Nat := s.grace.millis * 2 + slack

/-- The exit that those who wait for the stop of a run have been told. -/
def toldExit? (s : Supervisor) (id : RunId) : Option Exit := (s.find? id).bind Run.toldExit?

/-- The exit with which a pending stop ends, unless it has to wait; `expired` tells that the bound has
passed. -/
def stopAnswer? (s : Supervisor) (id : RunId) (expired : Bool) :
    Option (Option Exit × List Log.Record) :=
  match s.toldExit? id with
  | some e => some (some e, [])
  | none =>
    if expired then
      some (s.recordedExit id,
        [⟨.warn, target, "process did not report an exit after stop", [("run", .shown id.text)]⟩])
    else none

/-! ### Watching -/

/-- Makes a move of the watcher of a run: the supervisor afterwards, what is done to the process group,
and what is logged. A move that does not fit changes nothing. -/
def move (s : Supervisor) (id : RunId) (now : Nat) (m : Move) :
    Supervisor × Option GroupSignal × List Log.Record :=
  let put (w : Watch) : Supervisor := s.modify id fun r => { r with watch := w }
  match s.find? id with
  | none => (s, none, [])
  | some r =>
    match r.watch, m with
    | .waiting, .exited status =>
      (put (.joining (.ofStatus status false) .out (now + s.grace.millis)), none, [])
    | .waiting, .terminate =>
      (put (.terminating (now + s.grace.millis)), some (.terminate r.process), [])
    | .terminating _, .exited status | .killing, .exited status =>
      (put (.joining (.ofStatus status true) .out (now + s.grace.millis)), none, [])
    | .terminating _, .kill =>
      (put .killing, some (.kill r.process),
        [⟨.debug, target, "grace period elapsed; killing process group",
          [("pid", .int r.process)]⟩])
    | .joining e .out _, .join => (put (.joining e .err (now + s.grace.millis)), none, [])
    | .joining e .out _, .abandon =>
      (s.modify id fun r =>
        { r.abandon .out with watch := .joining e .err (now + s.grace.millis) }, none, [])
    | .joining e .err _, .join => (put (.joined e), none, [])
    | .joining e .err _, .abandon =>
      (s.modify id fun r => { r.abandon .err with watch := .joined e }, none, [])
    | .joined e, .record => ({ put (.recorded e) with lastExit := some (id, e) }, none, [])
    | .recorded e, .release =>
      ({ put (.released e) with place := if s.place = some id then none else s.place }, none, [])
    | .released e, .tell =>
      (put (.told e), none,
        [⟨.info, target, "process completed", [("run", .shown id.text), ("exit", .shown e.text)]⟩])
    | .told e, .complete =>
      (s.modify id fun r =>
        { r with watch := .over e, events := r.events ++ [.completed e] }, none, [])
    | _, _ => (s, none, [])

end Supervisor
end DebugHost
