import DebugHost.Connection
import DebugHost.Frame.Reader

/-! # The two directions of a connection

A link is a connection together with the streams it uses. A reader takes the messages that arrive,
one at a time: answers complete requests, events are reported, requests of the adapter are refused. A
writer takes the messages that wait. Both end when the connection is closed; the reader's end is the
last thing that is reported. -/

namespace DebugHost

/-- A connection and its streams. -/
structure Link where
  connection : Connection
  /-- What arrives from the adapter. -/
  inbound : Frame.Reader := {}
  /-- Whether the adapter still reads. -/
  peerReads : Bool := true
  /-- Whether the reader has not ended. -/
  reading : Bool := true
  /-- Whether the writer has not ended. -/
  writing : Bool := true
  /-- The messages that were written. -/
  written : List Message := []
  /-- What the reader has to report, oldest first. -/
  reports : List ConnectionEvent := []

namespace Link

/-- A link with nothing under way. -/
def start (timeout : Duration) : Link := { connection := { timeout := timeout } }

/-- What a step of the reader or the writer came upon. -/
inductive Sight where
  /-- There is nothing to do until something arrives or the connection is closed. -/
  | nothing
  /-- The answer to the request `seq` has arrived. -/
  | answer (seq : Int)
  /-- A message of no consequence to others has been handled. -/
  | other
  /-- There is something new to write. -/
  | toWrite
  /-- There is something new to report. -/
  | report
  /-- The direction has ended. -/
  | ended

/-- A step of the reader or the writer: the link, what was seen, and the log records. -/
structure Step where
  link : Link
  sight : Sight
  log : List Log.Record := []

/-- Adds a report. -/
def report (l : Link) (e : ConnectionEvent) : Link := { l with reports := l.reports ++ [e] }

/-- Ends the reader: closes the connection for the given reason, unless it is closed already, gives
up the requests that have no answer, and reports the end. -/
def endReading (l : Link) (reason : CloseReason) : Step :=
  let c := (l.connection.close reason).abandon
  let recorded := c.closed.getD reason
  ⟨{ l with connection := c, reading := false }.report (.closed recorded), .ended,
    [Connection.closeRecord recorded]⟩

/-- Takes in a message. -/
def receive (l : Link) : Message → Step
  | .response r =>
    let (c, matched) := l.connection.complete r
    let l := { l with connection := c }
    if matched then ⟨l, .answer r.requestSeq, []⟩
    else ⟨l, .other, [Connection.orphanRecord r c.orphans]⟩
  | .event e => ⟨l.report (.event e), .report, [Connection.eventRecord e]⟩
  | .request r =>
    ⟨{ l with connection := l.connection.refuse r }, .toWrite, [Connection.refuseRecord r]⟩

/-- The reason for which a faulty stream closes the connection. -/
def faultReason (f : Frame.Fault) : CloseReason :=
  if f.isStream then .io f.detail else .decode f.message

/-- A step of the reader. -/
def read (l : Link) : Step :=
  if l.connection.isClosed then l.endReading .shutdown
  else
    match l.inbound.next with
    | (none, r) => ⟨{ l with inbound := r }, .nothing, []⟩
    | (some (.message m), r) => { l with inbound := r }.receive m
    | (some .ended, r) => { l with inbound := r }.endReading .eof
    | (some (.fault f), r) => { l with inbound := r }.endReading (faultReason f)

/-- The error of a write to an adapter that does not read any more. -/
def brokenPipe : String := "io error: broken pipe"

/-- A step of the writer. -/
def write (l : Link) : Step :=
  if l.connection.isClosed then ⟨{ l with writing := false }, .ended, []⟩
  else
    match l.connection.queue with
    | [] => ⟨l, .nothing, []⟩
    | m :: rest =>
      let c := { l.connection with queue := rest }
      if l.peerReads then ⟨{ l with connection := c, written := l.written ++ [m] }, .other, []⟩
      else
        ⟨{ l with connection := c.close (.io brokenPipe), writing := false }, .ended,
          [Connection.writeRecord brokenPipe]⟩

end Link
end DebugHost
