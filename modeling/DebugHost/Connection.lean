import DebugHost.Error
import DebugHost.Log.Record
import DebugHost.Message.Basic
import DebugHost.Session.Status

/-! # Connections

The requests that are under way to a debug adapter. Every message that is sent takes the next number;
an answer is matched to the request whose number it names. Answers that match no request are counted
and dropped, requests of the adapter are refused. A connection is closed once, for the first reason
that is given, and from then on takes no request. -/

namespace DebugHost

open DebugHost.Json

/-- A connection as its users see it. -/
structure Connection where
  /-- How long a request waits for its answer. -/
  timeout : Duration
  /-- The number of the next message. -/
  nextSeq : Int := 1
  /-- Messages that wait to be written. -/
  queue : List Message := []
  /-- Numbers of the requests that have no answer. -/
  pending : List Int := []
  /-- Answers that have not been taken. -/
  answers : List (Int × Response) := []
  /-- Number of answers that matched no request. -/
  orphans : Nat := 0
  /-- Why the connection is closed, if it is. -/
  closed : Option CloseReason := none

namespace Connection

/-- The name under which a connection speaks in the log. -/
def target : String := "pyra.dap"

/-- Whether the connection is closed. -/
def isClosed (c : Connection) : Bool := c.closed.isSome

/-- Takes the next number. -/
def takeSeq (c : Connection) : Int × Connection := (c.nextSeq, { c with nextSeq := c.nextSeq + 1 })

/-- Waits for the answer to the request numbered `seq`. -/
def expect (c : Connection) (seq : Int) : Connection := { c with pending := c.pending ++ [seq] }

/-- Hands a message to the writer. -/
def post (c : Connection) (m : Message) : Connection := { c with queue := c.queue ++ [m] }

/-- Sends a request and gives its number. -/
def send (c : Connection) (command : String) (arguments : Value) :
    Except DebugError (Int × Connection) :=
  if c.isClosed then .error .sessionTerminated
  else
    let (seq, c) := c.takeSeq
    .ok (seq, (c.expect seq).post (.request ⟨seq, command, arguments⟩))

/-- The log record of a request that is sent. -/
def sendRecord (seq : Int) (command : String) : Log.Record :=
  ⟨.trace, target, "sending request", [("seq", .int seq), ("command", .text command)]⟩

/-- No longer waits for the answer to a request. -/
def forget (c : Connection) (seq : Int) : Connection :=
  { c with pending := c.pending.filter (· != seq) }

/-- Takes in an answer: it completes the request it names, or counts as an orphan. The second
component tells which. -/
def complete (c : Connection) (r : Response) : Connection × Bool :=
  if r.requestSeq ∈ c.pending then
    ({ c.forget r.requestSeq with answers := c.answers ++ [(r.requestSeq, r)] }, true)
  else ({ c with orphans := c.orphans + 1 }, false)

/-- The log record of an orphan. -/
def orphanRecord (r : Response) (count : Nat) : Log.Record :=
  ⟨.warn, target, "OrphanResponse: no pending request for adapter response; dropping it",
    [("request_seq", .int r.requestSeq), ("command", .shown r.command), ("orphans", .int count)]⟩

/-- The text with which requests of the adapter are refused. -/
def refusal (r : Request) : String := "reverse request `" ++ r.command ++ "` is not supported"

/-- Refuses a request of the adapter. -/
def refuse (c : Connection) (r : Request) : Connection :=
  let (seq, c) := c.takeSeq
  c.post (.response (.refusing seq r (refusal r)))

/-- The log record of a request that is refused. -/
def refuseRecord (r : Request) : Log.Record :=
  ⟨.debug, target, "rejecting reverse request",
    [("command", .shown r.command), ("seq", .int r.seq)]⟩

/-- Closes the connection. The first reason stays. -/
def close (c : Connection) (reason : CloseReason) : Connection :=
  { c with closed := c.closed.or (some reason) }

/-- Gives up all requests that have no answer. -/
def abandon (c : Connection) : Connection := { c with pending := [] }

/-- The answer to a request, if it has arrived. -/
def answer? (c : Connection) (seq : Int) : Option Response :=
  (c.answers.find? (·.1 == seq)).map (·.2)

/-- Drops the answer to a request. -/
def dropAnswer (c : Connection) (seq : Int) : Connection :=
  { c with answers := c.answers.filter (·.1 != seq) }

end Connection

/-- A request whose answer is waited for. -/
structure Exchange where
  seq : Int
  command : String
  /-- When waiting ends; set when it begins. -/
  deadline : Option Nat := none
deriving DecidableEq, Repr

namespace Exchange

/-- What an answer means to the one who asked. -/
def outcome (command : String) (r : Response) : Except DebugError Response :=
  if r.success then .ok r
  else .error (.adapterRejected command (r.message.getD "request failed"))

/-- The log record of a request that was not answered in time. -/
def timeoutRecord (x : Exchange) (timeout : Duration) : Log.Record :=
  ⟨.debug, Connection.target, "request timed out",
    [("seq", .int x.seq), ("command", .shown x.command), ("timeout", .shown timeout.text)]⟩

/-- How an exchange stands. -/
inductive Standing where
  /-- There is no answer yet. -/
  | waiting
  /-- It is over. -/
  | over (r : Except DebugError Response)
  /-- The answer did not come in time. -/
  | late

/-- How an exchange stands at the time `now`: an answer counts also when the time is over or the
connection is closed. -/
def standing (x : Exchange) (c : Connection) (now : Nat) : Standing :=
  match c.answer? x.seq with
  | some r => .over (outcome x.command r)
  | none =>
    if x.seq ∉ c.pending then .over (.error .sessionTerminated)
    else if x.deadline.any (· ≤ now) then .late
    else if c.isClosed then .over (.error .sessionTerminated)
    else .waiting

/-- The connection after an exchange is over. -/
def settle (x : Exchange) (c : Connection) : Connection := (c.forget x.seq).dropAnswer x.seq

end Exchange

/-- What a connection reports: events of the adapter, and at last its end. -/
inductive ConnectionEvent where
  | event (e : Event)
  | closed (reason : CloseReason)

/-- The log record of an event of the adapter. -/
def Connection.eventRecord (e : Event) : Log.Record :=
  ⟨.trace, target, "adapter event", [("event", .shown e.event)]⟩

/-- The log record of the end of a connection. -/
def Connection.closeRecord : CloseReason → Log.Record
  | .decode message =>
    ⟨.warn, target, "closing adapter connection after decode error", [("error", .shown message)]⟩
  | r => ⟨.debug, target, "adapter connection closed", [("reason", .shown r.text)]⟩

/-- The log record of a message that could not be written. -/
def Connection.writeRecord (error : String) : Log.Record :=
  ⟨.warn, target, "failed to write to debug adapter", [("error", .shown error)]⟩

end DebugHost
