import DebugHost.Process.Supervisor
import DebugHost.Shell.Machine

/-! # Running programs

A supervisor together with the system in which its programs run. `Runner.step` does the next thing that
can be done: the readers and watchers of the supervisor come first, then every process does one thing,
and when all of them wait the clock goes on to the next time that somebody waits for. `Runner.await`
does such things until something holds. -/

namespace DebugHost

open DebugHost.Shell

/-- A supervisor at work. -/
structure Runner where
  system : System
  supervisor : Supervisor
  interpreter : InterpreterConfig
  /-- The directory in which all this takes place. -/
  cwd : List String
  /-- The pipes on which runs write. -/
  pipes : List (RunId × Nat × Nat) := []
  /-- Rounds of the system since the clock was moved. -/
  rounds : Nat := 0
  log : List Log.Record := []
deriving Inhabited

namespace Runner

/-- A runner with nothing to do. -/
def idle (interpreter : InterpreterConfig) (files : FileSystem) (cwd : List String)
    (environment : List (String × String)) : Runner where
  system := { files := ⟨files.entries ++ System.systemFiles⟩, environment }
  supervisor := { grace := interpreter.stopGrace }
  interpreter := interpreter
  cwd := cwd

/-- Rounds in which the processes get as much done as they do in a millisecond. -/
def roundsPerMilli : Nat := 200

/-- Adds records to the log. -/
def logs (r : Runner) (records : List Log.Record) : Runner := { r with log := r.log ++ records }

/-! ### Supervision -/

/-- The pipe on which a run writes a stream. -/
def pipe? (r : Runner) (id : RunId) (s : Stream) : Option Nat :=
  (r.pipes.find? (·.1 = id)).map fun (_, out, err) =>
    match s with
    | .out => out
    | .err => err

/-- Lets the reader of a stream read what is there, or come to its end. -/
def read (r : Runner) (id : RunId) (s : Stream) : Option Runner := do
  let run ← r.supervisor.find? id
  let pipe ← r.pipe? id s
  if (run.reader s).isOver then none
  else
    let (chunk, system) := r.system.drain pipe
    if !chunk.isEmpty then
      some { r with system, supervisor := r.supervisor.modify id (·.feed s chunk) }
    else if r.system.hasEnded pipe then
      some { r with supervisor := r.supervisor.modify id (·.finish s) }
    else none

/-- Lets the watcher of a run do what is due. -/
def watch (r : Runner) (id : RunId) : Option Runner := do
  let run ← r.supervisor.find? id
  let m ← run.due? r.system.now (r.system.status? run.process)
  let (supervisor, signal, records) := r.supervisor.move id r.system.now m
  let system := match signal with
    | some (.terminate group) => r.system.sendGroup group sigterm
    | some (.kill group) => r.system.sendGroup group sigkill
    | none => r.system
  some ({ r with supervisor, system }.logs records)

/-- Does something for a run. -/
def attend (r : Runner) (id : RunId) : Option Runner :=
  (r.read id .out).orElse fun _ => (r.read id .err).orElse fun _ => r.watch id

/-- The runs that are not over. -/
def attended (r : Runner) : List RunId :=
  (r.supervisor.runs.filter fun run => !run.isOver).map (·.id)

/-! ### Time -/

/-- The next time that somebody waits for. -/
def nextTime? (r : Runner) (limit : Option Nat) : Option Nat :=
  let later := (r.supervisor.runs.filterMap Run.deadline?) ++ r.system.nextWake?.toList ++
    limit.toList
  (later.filter (r.system.now < ·)).min?

/-- Moves the clock. -/
def setTime (r : Runner) (t : Nat) : Runner :=
  { r with system := { r.system with now := t }, rounds := 0 }

/-- Does the next thing that can be done; `none` if nothing will ever be. The limit is a time that the
caller waits for. -/
def step (r : Runner) (limit : Option Nat) : Option Runner :=
  match r.attended.findSome? r.attend with
  | some r => some r
  | none =>
    match r.system.round with
    | (true, system) =>
      let r := { r with system, rounds := r.rounds + 1 }
      some (if r.rounds < roundsPerMilli then r else r.setTime (r.system.now + 1))
    | (false, _) => (r.nextTime? limit).map r.setTime

/-- Goes on until there is an answer, at most until the limit, and at most for `fuel` steps. -/
def await {α : Type} (answer? : Runner → Option α) (limit : Option Nat) :
    Nat → Runner → Option α × Runner
  | 0, r => (none, r)
  | fuel + 1, r =>
    match answer? r with
    | some a => (some a, r)
    | none =>
      if limit.any (· ≤ r.system.now) then (none, r)
      else
        match r.step limit with
        | some r => await answer? limit fuel r
        | none => (none, r)

/-- Steps that are enough for everything programs do between two calls. -/
def patience : Nat := 20000000

/-- Lets a time pass. A timer is no more exact than a millisecond, and is never early. -/
def sleep (r : Runner) (d : Duration) : Runner :=
  (r.await (fun _ => (none : Option Unit)) (some (r.system.now + d.millis + 1)) patience).2

/-! ### Calls -/

/-- Starts a program for a request. -/
def start (r : Runner) (request : RunRequest) : Except RunError RunId × Runner :=
  let command := r.interpreter.commandFor r.system.files r.cwd request
  match r.supervisor.isRunning, r.system.spawn r.cwd command .shell true with
  | false, .ok (process, out, err, system) =>
    let (result, supervisor, records) := r.supervisor.start command (.ok process)
    let pipes := match result with
      | .ok id => (id, out, err) :: r.pipes
      | .error _ => r.pipes
    (result, { r with supervisor, system, pipes }.logs records)
  | _, spawned =>
    let (result, supervisor, records) :=
      r.supervisor.start command (spawned.map fun (process, _) => process)
    (result, { r with supervisor }.logs records)

/-- Stops a run, and waits for its exit. -/
def stop (r : Runner) (id : RunId) : Option Exit × Runner :=
  match r.supervisor.askStop id with
  | (.ended exit, supervisor, records) => (exit, { r with supervisor }.logs records)
  | (.pending id, supervisor, records) =>
    let r := { r with supervisor }.logs records
    let bound := r.system.now + r.supervisor.stopBound
    match r.await (fun r => r.supervisor.stopAnswer? id (bound ≤ r.system.now)) (some bound)
        patience with
    | (some (exit, records), r) => (exit, r.logs records)
    | (none, r) => (none, r)

/-- Stops whatever runs. -/
def stopCurrent (r : Runner) : Option Exit × Runner :=
  match r.supervisor.place with
  | some id => r.stop id
  | none => (none, r)

/-- Waits until a run has reported its exit, and gives everything that it has reported. -/
def collect (r : Runner) (id : RunId) : List ProcessEvent × Runner :=
  let (_, r) := r.await (fun r =>
    if (r.supervisor.find? id).any Run.isOver then some () else none) none patience
  (((r.supervisor.find? id).map (·.events)).getD [], r)

/-- Waits until a run has written a line to its output, of which the first `seen` events do not count.
It gives the number of events up to the line, or of all if it never comes. -/
def waitLine (r : Runner) (id : RunId) (seen : Nat) (line : String) : Bool × Nat × Runner :=
  let place (run : Run) : Option Nat :=
    ((run.events.drop seen).findIdx? (· = .stdout line)).map (seen + · + 1)
  let answer? (r : Runner) : Option (Option Nat) := do
    let run ← r.supervisor.find? id
    match place run with
    | some n => some (some n)
    | none => if run.isOver then some none else none
  let (found, r) := r.await answer? none patience
  let all := ((r.supervisor.find? id).map (·.events.length)).getD 0
  match found.join with
  | some n => (true, n, r)
  | none => (false, all, r)

/-- The status of a program once it has ended and nothing can write for it any more. -/
def settled? (process out err : Nat) (r : Runner) : Option WaitStatus :=
  let quiet (p : Nat) : Bool := !r.system.isHeld (.writeEnd p)
  if quiet out && quiet err then r.system.status? process else none

/-- What a program has come to that was waited for: its status and what it has written, or nothing if it
took too long. -/
def settle (process out err : Nat) : Option WaitStatus × Runner →
    Option (WaitStatus × List UInt8 × List UInt8) × Runner
  | (some status, r) =>
    let (outText, system) := r.system.drain out
    let (errText, system) := system.drain err
    (some (status, outText, errText), { r with system := system.reap process })
  | (none, r) => (none, { r with system := r.system.send process sigkill })

/-- Runs a program that is no run of the supervisor, until it has ended and nothing can write for it any
more: its status, and what it has written. `none` if it takes longer than the limit; it is killed then.
-/
def consult (r : Runner) (command : Command) (limit : Duration) :
    Except OsError (Option (WaitStatus × List UInt8 × List UInt8)) × Runner :=
  match r.system.spawn r.cwd command .nobody false with
  | .error e => (.error e, r)
  | .ok (process, out, err, system) =>
    let (answer, r) := settle process out err
      (({ r with system } : Runner).await (settled? process out err) (some (system.now + limit.millis))
        patience)
    (.ok answer, r)

end Runner
end DebugHost
