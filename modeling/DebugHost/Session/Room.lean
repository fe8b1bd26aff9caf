import DebugHost.Breakpoints
import DebugHost.Session.State

/-! # Where a session and its users meet

The session's inputs that it has not taken yet, the outcomes of commands, the reports to its users, and
the record of breakpoints, which one user has at a time. -/

namespace DebugHost.Session

/-- A session with everything that passes between it and its users. -/
structure Room where
  state : State
  /-- Whether the session takes what the connection reports. -/
  attached : Bool := true
  /-- Whether the session still takes inputs. -/
  listening : Bool := true
  /-- What the session has not taken yet from the connection. -/
  inbox : List ConnectionEvent := []
  /-- Whether nothing more will come into the inbox. -/
  inboxEnded : Bool := false
  /-- The commands that the session has not taken yet. -/
  commands : List Command := []
  /-- The number of the next ticket. -/
  nextTicket : Nat := 0
  /-- The tickets whose outcome is settled; `none` stands for a command that was never taken. -/
  outcomes : List (Nat × Option (Except DebugError Unit)) := []
  /-- The reports of the session, oldest first. -/
  events : List DebugEvent := []
  /-- The record of breakpoints. -/
  breakpoints : BreakpointSet := {}
  /-- Who has the record of breakpoints. -/
  holder : Option Nat := none
  /-- Who waits for the record of breakpoints, in order. -/
  queue : List Nat := []

namespace Room

/-- The room of a session that does not exist. -/
def vacant : Room := { state := { id := ⟨0⟩ }, attached := false, listening := false }

/-- The room of a new session. -/
def open_ (id : SessionId) (attached : Bool) : Room := { state := { id := id }, attached := attached }

/-- Puts a command at the end of the queue. -/
def post (r : Room) (c : Command) : Room := { r with commands := r.commands ++ [c] }

/-- Gives a command a ticket and puts it at the end of the queue. -/
def order (r : Room) (o : Order) : Nat × Room :=
  (r.nextTicket, { r.post (.order o r.nextTicket) with nextTicket := r.nextTicket + 1 })

/-- Settles the outcome of a ticket. -/
def settle (r : Room) (ticket : Nat) (outcome : Option (Except DebugError Unit)) : Room :=
  { r with outcomes := r.outcomes ++ [(ticket, outcome)] }

/-- The outcome of a ticket, once it is settled. -/
def outcome? (r : Room) (ticket : Nat) : Option (Option (Except DebugError Unit)) :=
  (r.outcomes.find? (·.1 == ticket)).map (·.2)

/-- The next input of the session: what comes from the connection goes before commands. The end of the
inbox counts as the end of the connection. -/
def next (r : Room) : Option (Input × Room) :=
  match r.inbox, r.commands with
  | .event e :: rest, _ => some (.event e, { r with inbox := rest })
  | .closed reason :: rest, _ => some (.closed reason, { r with inbox := rest })
  | [], commands =>
    if r.inboxEnded then some (.closed .eof, { r with inboxEnded := false })
    else
      match commands with
      | [] => none
      | c :: rest => some (.command c, { r with commands := rest })

/-- The ticket of a command. -/
def ticket? : Command → Option Nat
  | .order _ t => some t
  | .resumeFailed _ _ t => some t
  | .configured => none
  | .exited _ => none

/-- The room after the session is over, and the tickets of the commands that it has not taken. -/
def leave (r : Room) : Room × List Nat :=
  let tickets := r.commands.filterMap ticket?
  (tickets.foldl (fun r t => r.settle t none) { r with listening := false, commands := [], inbox := [] },
    tickets)

/-- The user `me` asks for the record of breakpoints; the second component tells whether it has it. -/
def lock (r : Room) (me : Nat) : Room × Bool :=
  match r.holder with
  | none => ({ r with holder := some me }, true)
  | some h =>
    if h = me then (r, true)
    else if me ∈ r.queue then (r, false)
    else ({ r with queue := r.queue ++ [me] }, false)

/-- The holder leaves the record of breakpoints to the first that waits, who is the second
component. -/
def unlock (r : Room) (s : BreakpointSet) : Room × Option Nat :=
  match r.queue with
  | [] => ({ r with breakpoints := s, holder := none }, none)
  | t :: rest => ({ r with breakpoints := s, holder := some t, queue := rest }, some t)

end Room
end DebugHost.Session
