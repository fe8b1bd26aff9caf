import DebugHost.Connection
import DebugHost.Inspection.Tree
import DebugHost.Message.Bodies
import DebugHost.Redaction

/-! # The state machine of a session

What a session does with events of the adapter, with the end of the connection and with the commands
of its users. `State.step` takes them one at a time, so that no command can fall between the parts of
an event. It gives the state and the connection afterwards, and as effects what others are to learn of
it. -/

namespace DebugHost

open DebugHost.Json

/-! ### The threads of the program -/

/-- The known threads of a program with their names, by number. -/
structure ThreadTable where
  /-- One entry for each thread, in rising order. -/
  entries : List (Int × String) := []
deriving DecidableEq, Repr, Inhabited

namespace ThreadTable

/-- Puts an entry in its place, instead of the one of the same thread. -/
def insertEntry (id : Int) (name : String) : List (Int × String) → List (Int × String)
  | [] => [(id, name)]
  | (i, n) :: rest =>
    if id < i then (id, name) :: (i, n) :: rest
    else if id = i then (id, name) :: rest
    else (i, n) :: insertEntry id name rest

/-- Sets the name of a thread. -/
def insert (t : ThreadTable) (id : Int) (name : String) : ThreadTable :=
  ⟨insertEntry id name t.entries⟩

/-- Whether a thread is known. -/
def contains (t : ThreadTable) (id : Int) : Bool := t.entries.any (·.1 == id)

/-- Removes a thread. -/
def erase (t : ThreadTable) (id : Int) : ThreadTable := ⟨t.entries.filter (·.1 != id)⟩

/-- The table of the given threads; of threads with one number the last counts. -/
def ofList (ts : List ProgramThread) : ThreadTable :=
  ts.foldl (fun t p => t.insert p.id p.name) {}

/-- What an event about a thread does to the table: a thread that has exited goes, any other one is
there from now on, with a name of its own making if it has none. -/
def apply (t : ThreadTable) (e : ThreadBody) : ThreadTable :=
  if e.reason = "exited" then t.erase e.threadId
  else if t.contains e.threadId then t
  else t.insert e.threadId ("Thread " ++ toString e.threadId)

end ThreadTable

/-! ### Commands and effects -/

/-- The ways to let a paused program go on. -/
inductive StepKind where
  | continue
  | next
  | stepIn
  | stepOut
deriving DecidableEq, Repr

/-- The request for a way to go on. -/
def StepKind.command : StepKind → String
  | .continue => "continue"
  | .next => "next"
  | .stepIn => "stepIn"
  | .stepOut => "stepOut"

namespace Session

/-- The name under which a session speaks in the log. -/
def target : String := "pyra.session"

/-- Commands whose outcome is told to the one who gives them. -/
inductive Order where
  /-- Let a thread go on. -/
  | resume (kind : StepKind) (thread : Int)
  /-- Whatever ends the session from now on is the user's doing. -/
  | stopping
  /-- End the session. -/
  | terminate (cause : Termination)
deriving DecidableEq, Repr

/-- The commands of a session. A ticket names the one who waits for the outcome. -/
inductive Command where
  | order (o : Order) (ticket : Nat)
  /-- The adapter refused a resume that was accepted at `epoch`, or did not answer. -/
  | resumeFailed (epoch : Nat) (error : DebugError) (ticket : Nat)
  /-- The configuration has been sent. -/
  | configured
  /-- The program has exited. -/
  | exited (e : Exit)
deriving DecidableEq, Repr

/-- Everything that a session takes in. -/
inductive Input where
  | event (e : Event)
  | closed (reason : CloseReason)
  | command (c : Command)

/-- What others learn of a step. -/
inductive Effect where
  /-- The published status is new. -/
  | published
  /-- A report to the users. -/
  | emit (e : DebugEvent)
  /-- The outcome of a command. -/
  | reply (ticket : Nat) (r : Except DebugError Unit)
  /-- A resume has been sent, and its answer is to be waited for. -/
  | sent (x : Exchange) (epoch ticket : Nat)
  /-- The connection has been closed. -/
  | closed
  | log (r : Log.Record)

/-- The state of a session. -/
structure State where
  id : SessionId
  status : Status := {}
  /-- The status that is shown to others. -/
  published : Status := {}
  /-- Number of events and changes of state so far. -/
  epoch : Nat := 0
  /-- Whether the user has asked to stop. -/
  stopping : Bool := false
  tree : Inspection.Tree := {}
  threads : ThreadTable := {}

/-- The outcome of a step. -/
structure Outcome where
  state : State
  connection : Connection
  effects : List Effect := []

namespace State

/-- A log record of the session. -/
def record (s : State) (level : Log.Level) (message : String) (fields : List (String × Log.Datum)) :
    Log.Record :=
  ⟨level, target, message, ("session", .shown s.id.text) :: fields⟩

/-- The record of the beginning. -/
def startRecord (s : State) : Log.Record := s.record .debug "debug session started" []

/-- The record of the end. -/
def exitRecord (s : State) : Log.Record := s.record .trace "session actor exiting" []

/-- Shows the status to others. -/
def publish (s : State) : State := { s with published := s.status }

/-- Enters a state, which starts a new generation. -/
def enter (s : State) (state : RunState) (paused : Bool) : State :=
  let tree := s.tree.advance paused
  publish { s with
    epoch := s.epoch + 1, tree := tree,
    status := { s.status with state := state, generation := tree.generation } }

/-- Ends the session, unless it has ended. -/
def terminate (s : State) (c : Connection) (cause : Termination) : Outcome :=
  if s.status.state = .terminated then ⟨s, c, []⟩
  else
    let cause := if s.stopping then .userStopped else cause
    let tree := s.tree.close
    let s := publish { s with
      epoch := s.epoch + 1, tree := tree,
      status := { s.status with
        state := .terminated, generation := tree.generation, termination := some cause } }
    ⟨s, c.close .shutdown, [.published, .closed,
      .log (s.record .info "debug session terminated" [("cause", .shown cause.text)]),
      .emit (.terminated cause)]⟩

/-- Why a body could not be read, with what was sent redacted. -/
def bodyError (command : String) (m : Mismatch) : DebugError :=
  .invalidResponse command (Redaction.redact m.message)

/-- Reads the body of an event. A body that cannot be read is as good as none, and is logged. -/
def eventBody {α : Type} [Typed α] [Inhabited α] (e : Event) : α × List Effect :=
  match readBody e.body with
  | .ok a => (a, [])
  | .error m =>
    (default, [.log ⟨.warn, target, "malformed event body",
      [("event", .text e.event), ("error", .shown (bodyError e.event m).message)]⟩])

/-- Takes in an event that tells that the program has stopped. -/
def stopped (s : State) (c : Connection) (b : StoppedBody) : Outcome :=
  let s := { s with
    status := { s.status with
      activeThread := b.threadId.or s.status.activeThread, stopReason := some b.reason } }
  let s := s.enter .paused true
  ⟨s, c, [.published,
    .log (s.record .debug "debuggee stopped" [("reason", .shown b.reason),
      ("thread_id", .shown (optionText b.threadId)),
      ("generation", .shown (toString s.status.generation.number))]),
    .emit (.stopped b.reason b.threadId s.status.generation)]⟩

/-- An outcome with further effects in front. -/
def before (es : List Effect) (o : Outcome) : Outcome := { o with effects := es ++ o.effects }

/-- Takes in an event of the adapter. -/
def onEvent (s : State) (c : Connection) (e : Event) : Outcome :=
  let s := { s with epoch := s.epoch + 1 }
  match e.event with
  | "initialized" =>
    if s.status.state = .launching then ⟨s.enter .configuring false, c, [.published]⟩ else ⟨s, c, []⟩
  | "stopped" =>
    let (b, es) := eventBody (α := StoppedBody) e
    before es (s.stopped c b)
  | "continued" =>
    let (b, es) := eventBody (α := ContinuedBody) e
    let running := s.status.state = .paused ∨ s.status.state = .running
    before es
      (if running then ⟨s.enter .running false, c, [.published, .emit (.continued b.threadId)]⟩
       else ⟨s, c, [.emit (.continued b.threadId)]⟩)
  | "exited" =>
    let (b, es) := eventBody (α := ExitedBody) e
    before es (s.terminate c (.exited b.exitCode))
  | "terminated" => s.terminate c (.exited none)
  | "output" =>
    let (b, es) := eventBody (α := OutputBody) e
    ⟨s, c, es ++ [.emit (.output b.category b.output)]⟩
  | "thread" =>
    let (b, es) := eventBody (α := ThreadBody) e
    ⟨{ s with threads := s.threads.apply b }, c, es ++ [.emit (.thread b.reason b.threadId)]⟩
  | name =>
    ⟨s, c, [.log (s.record .trace "ignoring adapter event" [("event", .text name)])]⟩

/-- Lets a thread go on. The request is sent before the state changes, and the state changes before
the adapter answers. -/
def resume (s : State) (c : Connection) (kind : StepKind) (thread : Int) (ticket : Nat) : Outcome :=
  match s.status.state with
  | .terminated => ⟨s, c, [.reply ticket (.ok ())]⟩
  | .paused =>
    match c.send kind.command (Typed.write (ThreadArguments.mk thread)).canonical with
    | .error e => ⟨s, c, [.reply ticket (.error e)]⟩
    | .ok (seq, c) =>
      let s := s.enter .running false
      ⟨s, c, [.log (Connection.sendRecord seq kind.command), .published,
        .sent ⟨seq, kind.command, none⟩ s.epoch ticket]⟩
  | _ => ⟨s, c, [.reply ticket (.error .notPaused)]⟩

/-- Takes in a command. -/
def onCommand (s : State) (c : Connection) : Command → Outcome
  | .order (.resume kind thread) ticket => s.resume c kind thread ticket
  | .order .stopping ticket => ⟨{ s with stopping := true }, c, [.reply ticket (.ok ())]⟩
  | .order (.terminate cause) ticket =>
    let o := s.terminate c cause
    { o with effects := o.effects ++ [.reply ticket (.ok ())] }
  | .resumeFailed epoch error ticket =>
    if epoch = s.epoch ∧ s.status.state = .running then
      ⟨s.enter .paused true, c,
        [.log (s.record .debug "resume failed; back to paused" [("error", .shown error.message)]),
          .published, .reply ticket (.error error)]⟩
    else ⟨s, c, [.reply ticket (.error error)]⟩
  | .configured =>
    if s.status.state = .configuring then ⟨s.enter .running false, c, [.published]⟩ else ⟨s, c, []⟩
  | .exited e => s.terminate c (.ofExit e)

/-- Takes in one input. -/
def step (s : State) (c : Connection) : Input → Outcome
  | .event e => s.onEvent c e
  | .closed reason => s.terminate c (.connectionLost reason)
  | .command cmd => s.onCommand c cmd

end State
end Session
end DebugHost
