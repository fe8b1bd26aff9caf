import DebugHost.Log.Record
import DebugHost.Process.Exit
import DebugHost.Session.Status

/-! # The event router

Events of runs and of sessions come in through one queue and are copied, one event after the other,
into the queue of every subscription whose topic they belong to. What a subscription gets depends
neither on other subscriptions nor on how fast it is read. A subscription that is dropped is removed
when the next event for it comes. -/

namespace DebugHost

/-- What a subscription is about. -/
inductive Topic where
  /-- What the program prints, and its end. -/
  | console
  /-- Everything that a session reports. -/
  | debugPanel
  | all
deriving DecidableEq, Repr

/-- The name of a topic in reports. -/
def Topic.label : Topic → String
  | .console => "Console"
  | .debugPanel => "DebugPanel"
  | .all => "All"

/-- An event with its source. -/
inductive RoutedEvent where
  | process (run : RunId) (e : ProcessEvent)
  | debug (session : SessionId) (e : DebugEvent)
deriving DecidableEq, Repr

/-- Whether an event belongs to a topic. -/
def RoutedEvent.isAbout : RoutedEvent → Topic → Bool
  | _, .all => true
  | .process .., .console => true
  | .debug _ (.output ..), .console => true
  | .debug .., .console => false
  | .debug .., .debugPanel => true
  | .process .., .debugPanel => false

/-- A subscription. -/
structure Subscription where
  topic : Topic
  /-- The events that have not been read. -/
  queue : List RoutedEvent := []
  /-- Whether the reader is still there. -/
  live : Bool := true
  /-- Whether the router still serves it. -/
  served : Bool := true
deriving DecidableEq, Repr

/-- A router. -/
structure Router where
  /-- The events that came in and have not been copied, oldest first. -/
  inbound : List RoutedEvent := []
  /-- All subscriptions that were made, in order. -/
  subscriptions : List Subscription := []
  /-- Whether the router itself is still there. -/
  present : Bool := true
  /-- Number of senders apart from the router itself. -/
  senders : Nat := 0
  /-- Whether events are still copied. -/
  running : Bool := true
deriving Inhabited

namespace Router

/-- The name under which the router speaks in the log. -/
def target : String := "pyra.router"

/-- Whether anyone can publish. -/
def isOpen (r : Router) : Bool := r.present || 0 < r.senders

/-- Number of subscriptions that are served. -/
def served (r : Router) : Nat := (r.subscriptions.filter (·.served)).length

/-- Publishes an event; the first component tells whether it is accepted. -/
def publish (r : Router) (e : RoutedEvent) : Bool × Router :=
  if r.isOpen then (true, { r with inbound := r.inbound ++ [e] }) else (false, r)

/-- Makes a subscription to the events that are published from now on, and gives its number. Events
that are still on their way count as published from now on. -/
def subscribe (r : Router) (topic : Topic) : Nat × Router :=
  (r.subscriptions.length,
    { r with subscriptions := r.subscriptions ++ [{ topic := topic, served := r.running }] })

/-- Changes the subscription numbered `n`. -/
def modify (r : Router) (n : Nat) (f : Subscription → Subscription) : Router :=
  { r with subscriptions := r.subscriptions.modify n f }

/-- Drops a subscription. -/
def drop (r : Router) (n : Nat) : Router := r.modify n fun s => { s with live := false, queue := [] }

/-- What becomes of a subscription when an event is copied. -/
def deliver (e : RoutedEvent) (s : Subscription) : Subscription :=
  if s.served && e.isAbout s.topic then
    if s.live then { s with queue := s.queue ++ [e] } else { s with served := false }
  else s

/-- Copies the event that came in first. -/
def dispatch (r : Router) : Router × List Log.Record :=
  match r.inbound with
  | [] => (r, [])
  | e :: rest =>
    let after := { r with inbound := rest, subscriptions := r.subscriptions.map (deliver e) }
    let pruned := r.served - after.served
    (after,
      if pruned = 0 then []
      else [⟨.trace, target, "dropped closed subscribers", [("pruned", .int pruned)]⟩])

/-- Copies all events that came in. -/
def dispatchAll : Nat → Router → Router × List Log.Record
  | 0, r => (r, [])
  | fuel + 1, r =>
    match r.inbound with
    | [] => (r, [])
    | _ =>
      let (r, log) := r.dispatch
      let (r, more) := dispatchAll fuel r
      (r, log ++ more)

/-- Copies all events that came in, and ends if nobody can publish any more. -/
def settle (r : Router) : Router × List Log.Record :=
  let (r, log) := r.dispatchAll r.inbound.length
  if r.running && !r.isOpen then
    ({ r with running := false },
      log ++ [⟨.debug, target, "event router stopped", []⟩])
  else (r, log)

/-- How reading a subscription stands. -/
inductive Reading where
  | event (e : RoutedEvent)
  /-- There is no event at the moment. -/
  | empty
  /-- There will be no event any more. -/
  | ended

/-- Reads the next event of a subscription. -/
def read (r : Router) (n : Nat) : Reading × Router :=
  match r.subscriptions[n]? with
  | none => (.ended, r)
  | some s =>
    match s.queue with
    | e :: rest => (.event e, r.modify n fun s => { s with queue := rest })
    | [] => (if r.running then .empty else .ended, r)

/-- All events of a subscription that have not been read. -/
def readAll (r : Router) (n : Nat) : List RoutedEvent × Router :=
  (((r.subscriptions[n]?).map (·.queue)).getD [], r.modify n fun s => { s with queue := [] })

/-- Another sender. -/
def addSender (r : Router) : Router := { r with senders := r.senders + 1 }

/-- A sender goes. -/
def dropSender (r : Router) : Router := { r with senders := r.senders - 1 }

/-- The router goes; events are copied as long as there are senders. -/
def dropRouter (r : Router) : Router := { r with present := false }

end Router
end DebugHost
