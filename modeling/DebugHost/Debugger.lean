import DebugHost.Connection.Link
import DebugHost.Schedule
import DebugHost.Session.Calls
import DebugHost.Session.Room

/-! # Debuggers

The side of a debug connection that is not the adapter: the link, a session, and the scripts of the
session's users. The reader and the writer of the link, the session and every script are tasks that
take turns (`Debugger.turn`); `Debugger.settle` lets them take turns until all of them wait for the
adapter or for time to pass. Time is a number of milliseconds and passes only from outside. -/

namespace DebugHost

open DebugHost.Json DebugHost.Session

/-- What tasks wait for. -/
inductive Signal where
  /-- Something has arrived from the adapter. -/
  | arrival
  /-- There is a message to write. -/
  | toWrite
  /-- The answer to a request has arrived. -/
  | answer (seq : Int)
  /-- The connection is closed. -/
  | closed
  /-- The session has an input. -/
  | input
  /-- The outcome of a command is settled. -/
  | outcome (ticket : Nat)
  /-- The published status is new. -/
  | status
  /-- The record of breakpoints goes to a task. -/
  | lock (task : Nat)
  /-- The slot for which a task waits has changed. -/
  | slot (task : Nat)
deriving DecidableEq, Repr

/-- A task. The results of calls are of type `ρ`. -/
inductive Task (ρ : Type) where
  | reader
  | writer
  | session
  /-- Waits for the answer to a resume. -/
  | watch (s : Script Unit)
  /-- The call `id` of a user. -/
  | call (id : Nat) (s : Script ρ)

/-- A debugger. -/
structure Debugger (ρ : Type) where
  /-- The time. -/
  now : Nat := 0
  link : Link
  room : Room := .vacant
  tasks : List (Nat × Task ρ) := []
  /-- The number of the next task. -/
  nextTask : Nat := 0
  schedule : Schedule Signal := {}
  /-- What was logged, oldest first. -/
  log : List Log.Record := []
  /-- What was printed. -/
  stdout : String := ""
  /-- What was printed as error text. -/
  stderr : String := ""
  /-- The calls that are over, oldest first. -/
  finished : List (Nat × ρ) := []

namespace Debugger

variable {ρ : Type}

/-! ### Parts -/

/-- Wakes the tasks that wait for a signal. -/
def signal (d : Debugger ρ) (s : Signal) : Debugger ρ := { d with schedule := d.schedule.wake s }

/-- Adds records to the log. -/
def record (d : Debugger ρ) (rs : List Log.Record) : Debugger ρ := { d with log := d.log ++ rs }

/-- Adds a task, which gets a turn after those that are ready. -/
def spawn (d : Debugger ρ) (t : Task ρ) : Debugger ρ :=
  { d with
    tasks := d.tasks ++ [(d.nextTask, t)], nextTask := d.nextTask + 1,
    schedule := d.schedule.enqueue d.nextTask }

/-- Replaces the connection. -/
def withConnection (d : Debugger ρ) (c : Connection) : Debugger ρ :=
  { d with link := { d.link with connection := c } }

/-- Sends a request. -/
def send (d : Debugger ρ) (command : String) (arguments : Value) :
    Except DebugError Exchange × Debugger ρ :=
  match d.link.connection.send command arguments with
  | .error e => (.error e, d)
  | .ok (seq, c) =>
    (.ok ⟨seq, command, none⟩,
      ((d.withConnection c).record [Connection.sendRecord seq command]).signal .toWrite)

/-- Closes the connection. -/
def shutdown (d : Debugger ρ) : Debugger ρ :=
  (d.withConnection (d.link.connection.close .shutdown)).signal .closed

/-- Gives the session a command; the first component tells whether it is there to take it. -/
def post (d : Debugger ρ) (c : Command) : Bool × Debugger ρ :=
  if d.room.listening then (true, { d with room := d.room.post c }.signal .input) else (false, d)

/-- Puts something into the inbox of the session; the first component tells whether it is there to
take it. -/
def feed (d : Debugger ρ) (e : ConnectionEvent) : Bool × Debugger ρ :=
  if d.room.listening then
    (true, { d with room := { d.room with inbox := d.room.inbox ++ [e] } }.signal .input)
  else (false, d)

/-- Ends the inbox of the session. -/
def endFeed (d : Debugger ρ) : Debugger ρ :=
  { d with room := { d.room with inboxEnded := true } }.signal .input

/-- Settles the outcome of a ticket. -/
def reply (d : Debugger ρ) (ticket : Nat) (r : Option (Except DebugError Unit)) : Debugger ρ :=
  { d with room := d.room.settle ticket r }.signal (.outcome ticket)

/-- Replaces the tree of the session. -/
def withTree (d : Debugger ρ) (t : Inspection.Tree) : Debugger ρ :=
  { d with room := { d.room with state := { d.room.state with tree := t } } }

/-! ### Actions -/

/-- An attempt to do something: it was done, or it has to wait for one of some signals, at most until
a deadline. -/
inductive Attempt (α : Type) where
  | got (a : α)
  | wait (signals : List Signal) (deadline : Option Nat)

/-- The task `me` attempts an action. -/
def attempt (me : Nat) (d : Debugger ρ) : (a : Action) → Debugger ρ × Attempt a.Reply
  | .status => (d, .got d.room.state.published)
  | .limit =>
    let timeout := d.link.connection.timeout
    (d, .got (d.now + timeout.millis, timeout))
  | .send command arguments =>
    let (r, d) := d.send command arguments
    (d, .got r)
  | .response x =>
    let c := d.link.connection
    match x.standing c d.now with
    | .waiting => (d, .wait [.answer x.seq, .closed] x.deadline)
    | .over r => (d.withConnection (x.settle c), .got r)
    | .late =>
      ((d.withConnection (x.settle c)).record [x.timeoutRecord c.timeout],
        .got (.error (.timeout x.command c.timeout)))
  | .post c =>
    let (b, d) := d.post c
    (d, .got b)
  | .order o =>
    if d.room.listening then
      let (ticket, room) := d.room.order o
      ({ d with room := room }.signal .input, .got (some ticket))
    else (d, .got none)
  | .outcome ticket =>
    match d.room.outcome? ticket with
    | some r => (d, .got r)
    | none => (d, .wait [.outcome ticket] none)
  | .reply ticket r => (d.reply ticket (some r), .got ())
  | .await states deadline =>
    let s := d.room.state.published
    if s.state ∈ states then (d, .got (some s))
    else if deadline.any (· ≤ d.now) then (d, .got none)
    else (d, .wait [.status] deadline)
  | .lock =>
    match d.room.lock me with
    | (room, true) => ({ d with room := room }, .got room.breakpoints)
    | (room, false) => ({ d with room := room }, .wait [.lock me] none)
  | .unlock s =>
    match d.room.unlock s with
    | (room, none) => ({ d with room := room }, .got ())
    | (room, some t) => ({ d with room := room }.signal (.lock t), .got ())
  | .join q =>
    let (r, tree) := d.room.state.tree.join q
    (d.withTree tree, .got r)
  | .acquire k =>
    match d.room.state.tree.acquire me k with
    | (.known v, tree) => (d.withTree tree, .got (some v))
    | (.mine, tree) => (d.withTree tree, .got none)
    | (.waiting, tree) => (d.withTree tree, .wait [.slot me] none)
  | .deliver k r =>
    let (v, tree, woken) := d.room.state.tree.deliver k r
    (woken.foldl (fun d t => d.signal (.slot t)) (d.withTree tree), .got v)
  | .confirm g v => (d, .got (d.room.state.tree.confirm g v))
  | .keepThreads t =>
    ({ d with room := { d.room with state := { d.room.state with threads := t } } }, .got ())
  | .log level message fields => (d.record [d.room.state.record level message fields], .got ())
  | .print s => ({ d with stdout := d.stdout ++ s }, .got ())
  | .printError s => ({ d with stderr := d.stderr ++ s }, .got ())

/-- What a turn leads to: the task is over, or it waits. -/
inductive Halt (α β : Type) where
  | over (a : α)
  | waiting (rest : β) (signals : List Signal) (deadline : Option Nat)

/-- The task `me` goes through a script until it has to wait. -/
def follow (me : Nat) {α : Type} : Script α → Debugger ρ → Debugger ρ × Halt α (Script α)
  | .done a, d => (d, .over a)
  | .act a next, d =>
    match d.attempt me a with
    | (d, .got r) => follow me (next r) d
    | (d, .wait signals deadline) => (d, .waiting (.act a next) signals deadline)

/-! ### Reader, writer and session -/

/-- Takes over what a step of the reader or the writer led to. -/
def afterStep (d : Debugger ρ) (s : Link.Step) : Debugger ρ :=
  let d := { d with link := s.link }.record s.log
  match s.sight with
  | .nothing => d
  | .answer seq => d.signal (.answer seq)
  | .other => d
  | .toWrite => d.signal .toWrite
  | .report => d
  | .ended => d.signal .closed

/-- Takes reports of the connection to the session. -/
def passReports (d : Debugger ρ) : Debugger ρ :=
  if d.room.attached then
    match d.link.reports with
    | [] => d
    | reports =>
      let d := { d with link := { d.link with reports := [] } }
      if d.room.listening then
        { d with room := { d.room with inbox := d.room.inbox ++ reports } }.signal .input
      else d
  else d

/-- The reader takes messages until there is none. The second component tells whether it waits for
more. -/
def readAll : Nat → Debugger ρ → Debugger ρ × Bool
  | 0, d => (d, true)
  | fuel + 1, d =>
    let s := d.link.read
    let d := (d.afterStep s).passReports
    match s.sight with
    | .nothing => (d, true)
    | .ended => (d, false)
    | _ => readAll fuel d

/-- The writer takes messages until there is none. The second component tells whether it waits for
more. -/
def writeAll : Nat → Debugger ρ → Debugger ρ × Bool
  | 0, d => (d, true)
  | fuel + 1, d =>
    let s := d.link.write
    let d := d.afterStep s
    match s.sight with
    | .nothing => (d, true)
    | .ended => (d, false)
    | _ => writeAll fuel d

/-- Carries out an effect of a step of the session. -/
def effect (d : Debugger ρ) : Effect → Debugger ρ
  | .published => d.signal .status
  | .emit e => { d with room := { d.room with events := d.room.events ++ [e] } }
  | .reply ticket r => d.reply ticket (some r)
  | .sent x epoch ticket => (d.signal .toWrite).spawn (.watch (watchResume x epoch ticket))
  | .closed => d.signal .closed
  | .log r => d.record [r]

/-- The session takes one input. -/
def takeInput (d : Debugger ρ) (i : Input) : Debugger ρ :=
  let o := d.room.state.step d.link.connection i
  let d := { d with room := { d.room with state := o.state } }.withConnection o.connection
  o.effects.foldl effect d

/-- The session is over: it leaves, and commands that it has not taken have no outcome. -/
def leave (d : Debugger ρ) : Debugger ρ :=
  let d := d.record [d.room.state.exitRecord]
  let (room, tickets) := d.room.leave
  tickets.foldl (fun d t => d.signal (.outcome t)) { d with room := room }

/-- The session takes inputs until there is none or it has ended. The second component tells whether it
waits for more. -/
def takeAll : Nat → Debugger ρ → Debugger ρ × Bool
  | 0, d => (d, true)
  | fuel + 1, d =>
    if d.room.state.status.state = .terminated then (d.leave, false)
    else
      match d.room.next with
      | none => (d, true)
      | some (i, room) => takeAll fuel ({ d with room := room }.takeInput i)

/-! ### Turns -/

/-- Lets a task wait. -/
def park (d : Debugger ρ) (me : Nat) (t : Task ρ) (signals : List Signal) (deadline : Option Nat) :
    Debugger ρ :=
  { d with
    tasks := d.tasks ++ [(me, t)], schedule := d.schedule.block ⟨me, signals, deadline⟩ }

/-- The task `me` takes a turn: it goes on until it has to wait or is over. -/
def turn (d : Debugger ρ) (me : Nat) : Debugger ρ :=
  match d.tasks.find? (·.1 == me) with
  | none => d
  | some (_, t) =>
    let d := { d with tasks := d.tasks.filter (·.1 != me) }
    match t with
    | .reader =>
      match d.readAll (d.link.inbound.source.size + 2) with
      | (d, true) => d.park me t [.arrival, .closed] none
      | (d, false) => d
    | .writer =>
      match d.writeAll (d.link.connection.queue.length + 2) with
      | (d, true) => d.park me t [.toWrite, .closed] none
      | (d, false) => d
    | .session =>
      match d.takeAll (d.room.inbox.length + d.room.commands.length + 2) with
      | (d, true) => d.park me t [.input] none
      | (d, false) => d
    | .watch s =>
      match d.follow me s with
      | (d, .over ()) => d
      | (d, .waiting s signals deadline) => d.park me (.watch s) signals deadline
    | .call id s =>
      match d.follow me s with
      | (d, .over r) => { d with finished := d.finished ++ [(id, r)] }
      | (d, .waiting s signals deadline) => d.park me (.call id s) signals deadline

/-- Lets tasks take turns until none is ready. -/
def settleWithin : Nat → Debugger ρ → Debugger ρ
  | 0, d => d
  | fuel + 1, d =>
    match d.schedule.ready with
    | [] => d
    | me :: rest => settleWithin fuel ({ d with schedule := { d.schedule with ready := rest } }.turn me)

/-- Most turns that the tasks take before something new comes from outside. -/
def turnLimit : Nat := 1000000

/-- Lets tasks take turns until none is ready. -/
def settle (d : Debugger ρ) : Debugger ρ := settleWithin turnLimit d

/-! ### What comes from outside -/

/-- A debugger with a connection and no session. -/
def connect (timeout : Duration) : Debugger ρ :=
  let d : Debugger ρ := { link := .start timeout }
  ((d.spawn .writer).spawn .reader).settle

/-- Starts a session, which takes what the connection reports or what it is fed. -/
def startSession (d : Debugger ρ) (id : SessionId) (attached : Bool) : Debugger ρ :=
  let room := Room.open_ id attached
  (({ d with room := room }.record [room.state.startRecord]).spawn .session).settle

/-- Octets arrive from the adapter. -/
def arrive (d : Debugger ρ) (octets : List UInt8) : Debugger ρ :=
  { d with link := { d.link with inbound := d.link.inbound.push octets } }.signal .arrival

/-- The adapter will send nothing more. -/
def arriveEnd (d : Debugger ρ) : Debugger ρ :=
  { d with link := { d.link with inbound := d.link.inbound.finish } }.signal .arrival

/-- The adapter does not read any more. -/
def stopPeer (d : Debugger ρ) : Debugger ρ := { d with link := { d.link with peerReads := false } }

/-- The clock moves to a time, and the tasks whose deadline has come go on. -/
def setTime (d : Debugger ρ) (now : Nat) : Debugger ρ :=
  { d with now := now, schedule := d.schedule.expire now }.settle

/-- The clock moves on to `goal`, and stops at every deadline on the way, of which there are at most
`fuel`. -/
def advanceTo (goal : Nat) : Nat → Debugger ρ → Debugger ρ
  | 0, d => d.setTime goal
  | fuel + 1, d =>
    match d.schedule.nextDeadline? with
    | none => d.setTime goal
    | some t =>
      if t < goal then advanceTo goal fuel (d.setTime (max d.now t)) else d.setTime goal

/-- Time passes. Every wait ends later than it begins, so that the clock stops at most once in a
millisecond. -/
def advance (d : Debugger ρ) (millis : Nat) : Debugger ρ := d.advanceTo (d.now + millis) millis

/-- A user begins a call. -/
def call (d : Debugger ρ) (id : Nat) (s : Script ρ) : Debugger ρ := d.spawn (.call id s)

end Debugger
end DebugHost
