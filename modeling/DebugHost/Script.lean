import DebugHost.Breakpoints
import DebugHost.Inspection.Call
import DebugHost.Session.State

/-! # Scripts

What the users of a session do, as scripts: trees of actions, each of which has an answer on which the
rest depends. An action is one step that nothing can come between; some of them wait until they can be
done. What the actions do is said elsewhere, so that a script can be run against any behaviour of the
adapter and among any other scripts. -/

namespace DebugHost

open DebugHost.Json

/-- An action. -/
inductive Action where
  /-- Looks at the published status. -/
  | status
  /-- Takes the time at which a wait that begins now ends. -/
  | limit
  /-- Sends a request. -/
  | send (command : String) (arguments : Value)
  /-- Waits for the answer to a request, at most until the deadline of the exchange. -/
  | response (x : Exchange)
  /-- Gives the session a command; fails if the session has ended. -/
  | post (c : Session.Command)
  /-- Gives the session a command and takes a ticket for its outcome, unless the session has ended. -/
  | order (o : Session.Order)
  /-- Waits for the outcome of a command; there is none if the session ends before it. -/
  | outcome (ticket : Nat)
  /-- Tells the outcome of a command to the one who gave it. -/
  | reply (ticket : Nat) (r : Except DebugError Unit)
  /-- Waits until the session is in one of some states, at most until a deadline. -/
  | await (states : List RunState) (deadline : Option Nat)
  /-- Waits for the breakpoints, and keeps others from them. -/
  | lock
  /-- Leaves the breakpoints to others, in this form. -/
  | unlock (s : BreakpointSet)
  /-- Takes the slot of a query. -/
  | join (q : Inspection.Query)
  /-- Waits until the slot is filled, or until it is this call's turn to ask. -/
  | acquire (k : Inspection.Ticket)
  /-- Puts the adapter's answer into the slot. -/
  | deliver (k : Inspection.Ticket) (r : Except DebugError Inspection.Answer)
  /-- Checks that a view still holds. -/
  | confirm (g : Generation) (v : Inspection.View)
  /-- Replaces the table of threads. -/
  | keepThreads (t : ThreadTable)
  /-- Logs a record of the session. -/
  | log (level : Log.Level) (message : String) (fields : List (String × Log.Datum))
  /-- Prints a text. -/
  | print (s : String)
  /-- Prints an error text. -/
  | printError (s : String)

/-- What an action answers. -/
abbrev Action.Reply : Action → Type
  | .status => Status
  | .limit => Nat × Duration
  | .send .. => Except DebugError Exchange
  | .response _ => Except DebugError Response
  | .post _ => Bool
  | .order _ => Option Nat
  | .outcome _ => Option (Except DebugError Unit)
  | .reply .. => Unit
  | .await .. => Option Status
  | .lock => BreakpointSet
  | .unlock _ => Unit
  | .join _ => Except DebugError Inspection.Ticket
  | .acquire _ => Option Inspection.View
  | .deliver .. => Except DebugError Inspection.View
  | .confirm .. => Except DebugError Inspection.View
  | .keepThreads _ => Unit
  | .log .. => Unit
  | .print _ => Unit
  | .printError _ => Unit

/-- A script that comes to an `α`. -/
inductive Script (α : Type) where
  | done (a : α)
  | act (a : Action) (next : a.Reply → Script α)

namespace Script

variable {α β : Type}

/-- One script after the other. -/
def bind : Script α → (α → Script β) → Script β
  | .done a, f => f a
  | .act a next, f => .act a fun r => bind (next r) f

instance : Monad Script where
  pure := .done
  bind := bind

/-- A script of one action. -/
def perform (a : Action) : Script a.Reply := .act a .done

/-- Goes on only with a success. -/
def andThen {ε : Type} (s : Script (Except ε α)) (f : α → Script (Except ε β)) :
    Script (Except ε β) := do
  match ← s with
  | .error e => return .error e
  | .ok a => f a

/-! ### Requests -/

/-- Waits for the answer to a request that was sent; the wait is bounded from now on. -/
def answerOf (x : Exchange) : Script (Except DebugError Response) := do
  let (deadline, _) ← perform .limit
  perform (.response { x with deadline := some deadline })

/-- Sends a request and waits for its answer. -/
def request (command : String) (arguments : Value) : Script (Except DebugError Response) := do
  match ← perform (.send command arguments) with
  | .error e => return .error e
  | .ok x => answerOf x

/-- Reads the body of an answer. -/
def bodyOf {α : Type} [Typed α] [Inhabited α] (command : String) (r : Response) :
    Except DebugError α :=
  (readBody r.body).mapError (Session.State.bodyError command)

/-- Sends a request and waits for the body of its answer. -/
def requestBody {α : Type} [Typed α] [Inhabited α] (command : String) (arguments : Value) :
    Script (Except DebugError α) := do
  return (← request command arguments).bind (bodyOf command)

/-- The arguments of a request. -/
def written {α : Type} [Typed α] (a : α) : Value := (Typed.write a).canonical

end Script
end DebugHost
