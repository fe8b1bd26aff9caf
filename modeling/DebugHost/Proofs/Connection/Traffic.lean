import DebugHost.Connection.Link
import DebugHost.Proofs.Frame.Chunks
import DebugHost.Proofs.Orders
import Mathlib.Logic.Function.Basic
import Mathlib.Tactic.SplitIfs

/-! # Everything that may happen on a connection, in any order

The traffic on a connection is its link with those who use it: the calls that send requests and wait for
answers, the reader, the writer, the one who takes the reports, the adapter, and whoever shuts the
connection down. It changes by moves. A move is what nothing can come between: one look at the table of
pending requests, one look at the token that tells that the connection is shut down, one message handed
over. So closing is two moves, the recording of the reason and the shutting down, and between them other
moves may come; a look for an answer is three, at the answer, at the clock and at the token.

A schedule gives the moves one after the other, and `Traffic.after` the traffic that they lead to; a
move that cannot be made changes nothing, so that every order of moves is a schedule. What has happened
is kept in lists that no move reads: the octets that have arrived, the messages that the reader has
taken in, the answers that completed a request, the messages that were handed to the writer. -/

namespace DebugHost

open DebugHost.Json

namespace Traffic

/-! ### The parties -/

/-- How far a call has come that sends a request and waits for its answer. -/
inductive Call where
  /-- It has been made. -/
  | asked (command : String) (arguments : Value)
  /-- It has found the connection open. -/
  | admitted (command : String) (arguments : Value)
  /-- It has its number. -/
  | numbered (seq : Int) (command : String) (arguments : Value)
  /-- Its number is in the table. -/
  | entered (seq : Int) (command : String) (arguments : Value)
  /-- The request is handed to the writer. The call waits once there is a deadline. -/
  | sent (e : Exchange)
  /-- It has looked for an answer, and there is none. -/
  | looked (e : Exchange)
  /-- It has also looked at the clock, and there is time left. -/
  | patient (e : Exchange)
  /-- It is to fail, and its number is still in the table. -/
  | leaving (e : Exchange) (error : DebugError)
  /-- It has its answer. -/
  | answered (e : Exchange) (r : Response)
  /-- It has failed; `e` tells what was sent, if anything was. -/
  | failed (e : Option Exchange) (error : DebugError)
  /-- Nobody waits for its answer any more. -/
  | dropped (e : Exchange)

/-- Where the reader is. -/
inductive Intake where
  | reading
  /-- It has taken an answer in, and the request it names out of the table. -/
  | holding (r : Response)
  /-- It has left its loop for a reason. -/
  | leaving (reason : CloseReason)
  /-- It has a reason recorded; `reason` is the one that stands. -/
  | recorded (reason : CloseReason)
  /-- It has emptied the table. -/
  | abandoned (reason : CloseReason)
  | ended

/-- Where the writer is. -/
inductive Outlet where
  | writing
  /-- A message could not be written. -/
  | failed (text : String)
  /-- It has this recorded as a reason. -/
  | recorded
  | ended
deriving DecidableEq

/-- Whether the reader holds the answer to the request `seq`. -/
def Intake.holds : Intake → Int → Bool
  | .holding r, seq => r.requestSeq = seq
  | _, _ => false

/-- What may happen next. -/
inductive Move where
  /-- A call is made, under a name that no other call has had. -/
  | ask (me : Nat) (command : String) (arguments : Value)
  /-- A call goes on. -/
  | step (me : Nat)
  /-- A call begins to wait for its answer. -/
  | wait (me : Nat)
  /-- Nobody wants the answer to a call any more. -/
  | drop (me : Nat)
  /-- Somebody records that the connection is to be shut down. -/
  | shutdown
  /-- Somebody who has recorded a reason shuts the connection down. -/
  | cancel
  /-- The writer writes a message. -/
  | write
  /-- The writer fails to write a message. -/
  | failWrite (text : String)
  /-- The writer goes on with its end. -/
  | stopWrite
  /-- The reader reads. -/
  | read
  /-- The reader fails to read. -/
  | failRead (text : String)
  /-- The reader finds the connection shut down. -/
  | stopRead
  /-- The reader goes on with what it has begun. -/
  | goOn
  /-- Octets arrive. -/
  | arrive (chunk : List UInt8)
  /-- The adapter ends the stream. -/
  | arriveEnd
  /-- The reports are taken. -/
  | take
  /-- Time passes. -/
  | pass (millis : Nat)

end Traffic

/-- A connection with all that use it. -/
structure Traffic where
  link : Link
  /-- Whether the connection is shut down, as calls and tasks see it. -/
  cancelled : Bool := false
  intake : Traffic.Intake := .reading
  outlet : Traffic.Outlet := .writing
  /-- The calls by name. -/
  calls : Nat → Option Traffic.Call := fun _ => none
  now : Nat := 0
  /-- The reports that were taken, oldest first. -/
  told : List ConnectionEvent := []
  /-- The octets that have arrived. -/
  arrived : List UInt8 := []
  /-- The messages that the reader has taken in, oldest first. -/
  received : List Message := []
  /-- The answers that were matched to a request, oldest first. -/
  completed : List Response := []
  /-- The messages that were handed to the writer, oldest first. -/
  posted : List Message := []

namespace Traffic

/-- The connection. -/
abbrev connection (x : Traffic) : Connection := x.link.connection

/-- Replaces the connection. -/
def withConnection (x : Traffic) (c : Connection) : Traffic :=
  { x with link := { x.link with connection := c } }

/-- Replaces what the reader has of the stream. -/
def withInbound (x : Traffic) (r : Frame.Reader) : Traffic :=
  { x with link := { x.link with inbound := r } }

/-- Takes over what a move of the call `me` led to. -/
def put (x : Traffic) (me : Nat) (c : Call) (conn : Connection) (ms : List Message) : Traffic :=
  { x.withConnection conn with
    calls := Function.update x.calls me (some c), posted := x.posted ++ ms }

/-! ### Moves of calls -/

/-- A step of a call: where it leads, the connection afterwards, and the messages that were handed to
the writer. -/
def step (x : Traffic) : Call → Call × Connection × List Message
  | .asked command arguments =>
    if x.cancelled then (.failed none .sessionTerminated, x.connection, [])
    else (.admitted command arguments, x.connection, [])
  | .admitted command arguments =>
    (.numbered x.connection.takeSeq.1 command arguments, x.connection.takeSeq.2, [])
  | .numbered seq command arguments => (.entered seq command arguments, x.connection.expect seq, [])
  | .entered seq command arguments =>
    if x.outlet = .ended then (.leaving ⟨seq, command, none⟩ .sessionTerminated, x.connection, [])
    else
      let m := Message.request ⟨seq, command, arguments⟩
      (.sent ⟨seq, command, none⟩, x.connection.post m, [m])
  | .sent e =>
    if e.deadline.isNone then (.sent e, x.connection, [])
    else
      match x.connection.answer? e.seq with
      | some r => (.answered e r, e.settle x.connection, [])
      | none =>
        if e.seq ∈ x.connection.pending ∨ x.intake.holds e.seq = true then
          (.looked e, x.connection, [])
        else (.failed (some e) .sessionTerminated, e.settle x.connection, [])
  | .looked e =>
    if e.deadline.any (· ≤ x.now) then
      (.leaving e (.timeout e.command x.connection.timeout), x.connection, [])
    else (.patient e, x.connection, [])
  | .patient e =>
    if x.cancelled then (.leaving e .sessionTerminated, x.connection, [])
    else (.sent e, x.connection, [])
  | .leaving e error => (.failed (some e) error, e.settle x.connection, [])
  | .answered e r => (.answered e r, x.connection, [])
  | .failed e error => (.failed e error, x.connection, [])
  | .dropped e => (.dropped e, x.connection, [])

/-! ### Moves of the reader -/

/-- The reader takes in a message. -/
def receive (x : Traffic) (m : Message) : Traffic :=
  let x := { x with received := x.received ++ [m] }
  match m with
  | .response r =>
    if r.requestSeq ∈ x.connection.pending then
      { x.withConnection (x.connection.forget r.requestSeq) with
        intake := .holding r, completed := x.completed ++ [r] }
    else x.withConnection { x.connection with orphans := x.connection.orphans + 1 }
  | .event e => { x with link := x.link.report (.event e) }
  | .request q =>
    if x.outlet = .ended then x.withConnection x.connection.takeSeq.2
    else
      { x.withConnection (x.connection.refuse q) with
        posted := x.posted ++
          [.response (.refusing x.connection.nextSeq q (Connection.refusal q))] }

/-- The reader reads. -/
def read (x : Traffic) : Traffic :=
  match x.intake with
  | .reading =>
    match x.link.inbound.next with
    | (none, r) => x.withInbound r
    | (some (.message m), r) => (x.withInbound r).receive m
    | (some .ended, r) => { x.withInbound r with intake := .leaving .eof }
    | (some (.fault f), r) => { x.withInbound r with intake := .leaving (Link.faultReason f) }
  | _ => x

/-- The reader goes on with what it has begun. -/
def goOn (x : Traffic) : Traffic :=
  match x.intake with
  | .reading => x
  | .holding r =>
    { x.withConnection { x.connection with answers := x.connection.answers ++ [(r.requestSeq, r)] } with
      intake := .reading }
  | .leaving reason =>
    { x.withConnection (x.connection.close reason) with
      intake := .recorded ((x.connection.close reason).closed.getD reason) }
  | .recorded reason =>
    if x.cancelled then { x.withConnection x.connection.abandon with intake := .abandoned reason }
    else { x with cancelled := true }
  | .abandoned reason =>
    { x with link := { x.link with reading := false }.report (.closed reason), intake := .ended }
  | .ended => x

/-! ### Moves of the writer -/

/-- The writer writes the next message, or fails to. -/
def write (x : Traffic) (failure : Option String) : Traffic :=
  match x.outlet, x.connection.queue with
  | .writing, m :: rest =>
    let x := x.withConnection { x.connection with queue := rest }
    match failure with
    | none => { x with link := { x.link with written := x.link.written ++ [m] } }
    | some text => { x with outlet := .failed text }
  | _, _ => x

/-- The writer ends. -/
def endWriting (x : Traffic) : Traffic :=
  { x with link := { x.link with writing := false }, outlet := .ended }

/-- The writer goes on with its end. -/
def stopWrite (x : Traffic) : Traffic :=
  match x.outlet with
  | .writing => if x.cancelled then x.endWriting else x
  | .failed text => { x.withConnection (x.connection.close (.io text)) with outlet := .recorded }
  | .recorded => if x.cancelled then x.endWriting else { x with cancelled := true }
  | .ended => x

/-! ### All moves -/

/-- A call is made. -/
def ask (x : Traffic) (me : Nat) (command : String) (arguments : Value) : Traffic :=
  match x.calls me with
  | none => x.put me (.asked command arguments) x.connection []
  | some _ => x

/-- A call goes on. -/
def advance (x : Traffic) (me : Nat) : Traffic :=
  match x.calls me with
  | none => x
  | some c => x.put me (x.step c).1 (x.step c).2.1 (x.step c).2.2

/-- A call begins to wait for its answer, as long as the connection allows. -/
def await (x : Traffic) (me : Nat) : Traffic :=
  match x.calls me with
  | some (.sent ⟨seq, command, none⟩) =>
    x.put me (.sent ⟨seq, command, some (x.now + x.connection.timeout.millis)⟩) x.connection []
  | _ => x

/-- Nobody wants the answer to a call any more. -/
def drop (x : Traffic) (me : Nat) : Traffic :=
  match x.calls me with
  | some (.sent e) => x.put me (.dropped e) x.connection []
  | _ => x

/-- The connection is shut down, if there is a reason. -/
def cancel (x : Traffic) : Traffic :=
  if x.connection.isClosed then { x with cancelled := true } else x

/-- The reader fails to read. -/
def failRead (x : Traffic) (text : String) : Traffic :=
  match x.intake with
  | .reading => { x with intake := .leaving (.io text) }
  | _ => x

/-- The reader finds the connection shut down. -/
def stopRead (x : Traffic) : Traffic :=
  match x.intake with
  | .reading => if x.cancelled then { x with intake := .leaving .shutdown } else x
  | _ => x

/-- Octets arrive, unless the stream has ended. -/
def arrive (x : Traffic) (chunk : List UInt8) : Traffic :=
  if x.link.inbound.source.ended then x
  else { x.withInbound (x.link.inbound.push chunk) with arrived := x.arrived ++ chunk }

/-- The traffic after a move. -/
def move (x : Traffic) : Move → Traffic
  | .ask me command arguments => x.ask me command arguments
  | .step me => x.advance me
  | .wait me => x.await me
  | .drop me => x.drop me
  | .shutdown => x.withConnection (x.connection.close .shutdown)
  | .cancel => x.cancel
  | .write => x.write none
  | .failWrite text => x.write (some text)
  | .stopWrite => x.stopWrite
  | .read => x.read
  | .failRead text => x.failRead text
  | .stopRead => x.stopRead
  | .goOn => x.goOn
  | .arrive chunk => x.arrive chunk
  | .arriveEnd => x.withInbound x.link.inbound.finish
  | .take => { x with link := { x.link with reports := [] }, told := x.told ++ x.link.reports }
  | .pass millis => { x with now := x.now + millis }

/-- A connection that nobody has used. -/
def start (timeout : Duration) : Traffic := { link := .start timeout }

/-- The traffic after the first `n` moves of a schedule, on a new connection. -/
def after (timeout : Duration) (σ : Nat → Move) (n : Nat) : Traffic := reached move (start timeout) σ n

/-- The reports of the reader, oldest first, taken or not. -/
def reported (x : Traffic) : List ConnectionEvent := x.told ++ x.link.reports

theorem after_succ (timeout : Duration) (σ : Nat → Move) (n : Nat) :
    after timeout σ (n + 1) = (after timeout σ n).move (σ n) := rfl

/-- The calls after a move of the call `me`. -/
theorem put_calls (x : Traffic) (me i : Nat) (c : Call) (conn : Connection) (ms : List Message) :
    (x.put me c conn ms).calls i = if i = me then some c else x.calls i :=
  Function.update_apply ..

/-! ### What a move of a call does -/

/-- All that a step of a call can do: where it leads, the connection afterwards, and the messages that
were handed to the writer. -/
inductive Steps (x : Traffic) : Call → Call → Connection → List Message → Prop where
  | refused {command : String} {arguments : Value} (hc : x.cancelled = true) :
    Steps x (.asked command arguments) (.failed none .sessionTerminated) x.connection []
  | admitted {command : String} {arguments : Value} (hc : x.cancelled = false) :
    Steps x (.asked command arguments) (.admitted command arguments) x.connection []
  | numbered {command : String} {arguments : Value} :
    Steps x (.admitted command arguments) (.numbered x.connection.nextSeq command arguments)
      x.connection.takeSeq.2 []
  | entered {seq : Int} {command : String} {arguments : Value} :
    Steps x (.numbered seq command arguments) (.entered seq command arguments)
      (x.connection.expect seq) []
  | unsent {seq : Int} {command : String} {arguments : Value} (ho : x.outlet = .ended) :
    Steps x (.entered seq command arguments) (.leaving ⟨seq, command, none⟩ .sessionTerminated)
      x.connection []
  | sent {seq : Int} {command : String} {arguments : Value} (ho : x.outlet ≠ .ended) :
    Steps x (.entered seq command arguments) (.sent ⟨seq, command, none⟩)
      (x.connection.post (.request ⟨seq, command, arguments⟩)) [.request ⟨seq, command, arguments⟩]
  | answered {e : Exchange} {r : Response} (hd : e.deadline ≠ none)
    (ha : x.connection.answer? e.seq = some r) :
    Steps x (.sent e) (.answered e r) (e.settle x.connection) []
  | cut {e : Exchange} (hd : e.deadline ≠ none) (ha : x.connection.answer? e.seq = none)
    (hp : e.seq ∉ x.connection.pending) (hi : x.intake.holds e.seq = false) :
    Steps x (.sent e) (.failed (some e) .sessionTerminated) (e.settle x.connection) []
  | looked {e : Exchange} (hd : e.deadline ≠ none) (ha : x.connection.answer? e.seq = none) :
    Steps x (.sent e) (.looked e) x.connection []
  | late {e : Exchange} (hl : ∃ d, e.deadline = some d ∧ d ≤ x.now) :
    Steps x (.looked e) (.leaving e (.timeout e.command x.connection.timeout)) x.connection []
  | patient {e : Exchange} : Steps x (.looked e) (.patient e) x.connection []
  | closed {e : Exchange} (hc : x.cancelled = true) :
    Steps x (.patient e) (.leaving e .sessionTerminated) x.connection []
  | parked {e : Exchange} (hc : x.cancelled = false) : Steps x (.patient e) (.sent e) x.connection []
  | left {e : Exchange} {error : DebugError} :
    Steps x (.leaving e error) (.failed (some e) error) (e.settle x.connection) []
  | stays (c : Call) : Steps x c c x.connection []

theorem steps_step (x : Traffic) (c : Call) :
    Steps x c (x.step c).1 (x.step c).2.1 (x.step c).2.2 := by
  cases c with
  | asked command arguments =>
    unfold step
    by_cases hc : x.cancelled = true
    · simp only [if_pos hc]
      exact .refused hc
    · simp only [if_neg hc]
      exact .admitted (Bool.eq_false_iff.mpr hc)
  | admitted command arguments => exact .numbered
  | numbered seq command arguments => exact .entered
  | entered seq command arguments =>
    unfold step
    by_cases ho : x.outlet = .ended
    · simp only [if_pos ho]
      exact .unsent ho
    · simp only [if_neg ho]
      exact .sent ho
  | sent e =>
    unfold step
    by_cases hd : e.deadline = none
    · simp only [hd, Option.isNone_none, if_true]
      exact .stays _
    · have hd' : ¬ e.deadline.isNone = true := fun h => hd (Option.isNone_iff_eq_none.mp h)
      simp only [if_neg hd']
      cases ha : x.connection.answer? e.seq with
      | some r => exact .answered hd ha
      | none =>
        by_cases hp : e.seq ∈ x.connection.pending ∨ x.intake.holds e.seq = true
        · simp only [if_pos hp]
          exact .looked hd ha
        · simp only [if_neg hp]
          rw [not_or] at hp
          exact .cut hd ha hp.1 (Bool.eq_false_iff.mpr hp.2)
  | looked e =>
    unfold step
    by_cases hl : e.deadline.any (· ≤ x.now) = true
    · simp only [if_pos hl]
      obtain ⟨d, hd, hle⟩ := (Option.any_eq_true ..).mp hl
      exact .late ⟨d, hd, of_decide_eq_true hle⟩
    · simp only [if_neg hl]
      exact .patient
  | patient e =>
    unfold step
    by_cases hc : x.cancelled = true
    · simp only [if_pos hc]
      exact .closed hc
    · simp only [if_neg hc]
      exact .parked (Bool.eq_false_iff.mpr hc)
  | leaving e error => exact .left
  | answered e r => exact .stays _
  | failed e error => exact .stays _
  | dropped e => exact .stays _

/-- All that a move of a call can do. -/
inductive Goes (x : Traffic) : Option Call → Call → Connection → List Message → Prop where
  | asked {command : String} {arguments : Value} :
    Goes x none (.asked command arguments) x.connection []
  | steps {c c' : Call} {conn : Connection} {ms : List Message} (h : Steps x c c' conn ms) :
    Goes x (some c) c' conn ms
  | waits {seq : Int} {command : String} :
    Goes x (some (.sent ⟨seq, command, none⟩))
      (.sent ⟨seq, command, some (x.now + x.connection.timeout.millis)⟩) x.connection []
  | dropped {e : Exchange} : Goes x (some (.sent e)) (.dropped e) x.connection []

/-- A call does not close the connection, and does not count an orphan. -/
theorem Goes.rest {x : Traffic} {o : Option Call} {c' : Call} {conn : Connection} {ms : List Message}
    (h : Goes x o c' conn ms) : conn.closed = x.connection.closed ∧
      conn.orphans = x.connection.orphans ∧ conn.timeout = x.connection.timeout := by
  cases h with
  | steps h => cases h <;> exact ⟨rfl, rfl, rfl⟩
  | _ => exact ⟨rfl, rfl, rfl⟩

/-! ### What a move of the reader does -/

/-- What becomes of a message that is taken in. -/
inductive Handles (x y : Traffic) : Message → Prop where
  /-- An answer to a pending request completes it, and the reader goes on to hand it over. -/
  | completes (r : Response) (hin : r.requestSeq ∈ x.connection.pending)
    (hconn : y.connection = x.connection.forget r.requestSeq) (hi : y.intake = .holding r)
    (hcompleted : y.completed = x.completed ++ [r]) (hreported : y.reported = x.reported)
    (hposted : y.posted = x.posted) : Handles x y (.response r)
  /-- Any other answer counts as an orphan. -/
  | orphan (r : Response) (hout : r.requestSeq ∉ x.connection.pending)
    (hconn : y.connection = { x.connection with orphans := x.connection.orphans + 1 })
    (hi : y.intake = .reading) (hcompleted : y.completed = x.completed)
    (hreported : y.reported = x.reported) (hposted : y.posted = x.posted) : Handles x y (.response r)
  /-- An event is reported. -/
  | event (e : Event) (hconn : y.connection = x.connection) (hi : y.intake = .reading)
    (hcompleted : y.completed = x.completed) (hreported : y.reported = x.reported ++ [.event e])
    (hposted : y.posted = x.posted) : Handles x y (.event e)
  /-- A request is refused. -/
  | refused (q : Request) (ho : x.outlet ≠ .ended) (hconn : y.connection = x.connection.refuse q)
    (hi : y.intake = .reading) (hcompleted : y.completed = x.completed)
    (hreported : y.reported = x.reported)
    (hposted : y.posted = x.posted ++
      [.response (.refusing x.connection.nextSeq q (Connection.refusal q))]) : Handles x y (.request q)
  /-- If there is no writer any more, the refusal is lost, and its number with it. -/
  | unheard (q : Request) (ho : x.outlet = .ended) (hconn : y.connection = x.connection.takeSeq.2)
    (hi : y.intake = .reading) (hcompleted : y.completed = x.completed)
    (hreported : y.reported = x.reported) (hposted : y.posted = x.posted) : Handles x y (.request q)

/-- A message is taken in. -/
structure TakesIn (x y : Traffic) (m : Message) : Prop where
  reading : x.intake = .reading
  received : y.received = x.received ++ [m]
  handles : Handles x y m
  calls : y.calls = x.calls
  outlet : y.outlet = x.outlet
  cancelled : y.cancelled = x.cancelled
  now : y.now = x.now
  arrived : y.arrived = x.arrived
  written : y.link.written = x.link.written

theorem takesIn_receive {x : Traffic} (hi : x.intake = .reading) (r : Frame.Reader) (m : Message) :
    TakesIn x ((x.withInbound r).receive m) m ∧ ((x.withInbound r).receive m).link.inbound = r := by
  cases m with
  | event e =>
    have hreported : ((x.withInbound r).receive (.event e)).reported = x.reported ++ [.event e] :=
      (List.append_assoc ..).symm
    exact ⟨⟨hi, rfl, .event e rfl hi rfl hreported rfl, rfl, rfl, rfl, rfl, rfl, rfl⟩, rfl⟩
  | response a =>
    unfold receive
    simp only
    split
    · next hin =>
      exact ⟨⟨hi, rfl, .completes a hin rfl rfl rfl rfl rfl, rfl, rfl, rfl, rfl, rfl, rfl⟩, rfl⟩
    · next hout =>
      exact ⟨⟨hi, rfl, .orphan a hout rfl hi rfl rfl rfl, rfl, rfl, rfl, rfl, rfl, rfl⟩, rfl⟩
  | request q =>
    unfold receive
    simp only
    split
    · next ho =>
      exact ⟨⟨hi, rfl, .unheard q ho rfl hi rfl rfl rfl, rfl, rfl, rfl, rfl, rfl, rfl⟩, rfl⟩
    · next ho =>
      exact ⟨⟨hi, rfl, .refused q ho rfl hi rfl rfl rfl, rfl, rfl, rfl, rfl, rfl, rfl⟩, rfl⟩

/-- All that a move of the reader at its stream can do. -/
inductive Takes (x : Traffic) : Traffic → Prop where
  | nothing (r : Frame.Reader) (hn : x.link.inbound.next = (none, r)) : Takes x (x.withInbound r)
  | message {y : Traffic} (m : Message) (hn : x.link.inbound.next = (some (.message m), y.link.inbound))
    (h : TakesIn x y m) : Takes x y
  | last (o : Frame.Outcome) (r : Frame.Reader) (reason : CloseReason)
    (hn : x.link.inbound.next = (some o, r)) (ho : o.isStop = true) :
    Takes x { x.withInbound r with intake := .leaving reason }

theorem takes_read {x : Traffic} (h : x.intake = .reading) : Takes x x.read := by
  unfold read
  rw [h]
  rcases hn : x.link.inbound.next with ⟨_ | (m | f | _), r⟩
  · exact .nothing r hn
  · obtain ⟨htakes, hr⟩ := takesIn_receive h r m
    exact .message m (hr.symm ▸ hn) htakes
  · exact .last (.fault f) r _ hn rfl
  · exact .last .ended r _ hn rfl

/-- The reader does not close the connection by taking something in, and touches no call. -/
theorem Takes.rest {x y : Traffic} (h : Takes x y) : y.connection.closed = x.connection.closed ∧
    y.connection.timeout = x.connection.timeout ∧ y.connection.answers = x.connection.answers ∧
      y.cancelled = x.cancelled ∧ y.outlet = x.outlet ∧ y.calls = x.calls ∧ y.now = x.now := by
  cases h with
  | nothing r hn => exact ⟨rfl, rfl, rfl, rfl, rfl, rfl, rfl⟩
  | last o r reason hn ho => exact ⟨rfl, rfl, rfl, rfl, rfl, rfl, rfl⟩
  | message m hn h =>
    have hconn : y.connection.closed = x.connection.closed ∧
        y.connection.timeout = x.connection.timeout ∧
        y.connection.answers = x.connection.answers := by
      cases h.handles with
      | completes r hin hconn => rw [hconn]; exact ⟨rfl, rfl, rfl⟩
      | orphan r hout hconn => rw [hconn]; exact ⟨rfl, rfl, rfl⟩
      | event e hconn => rw [hconn]; exact ⟨rfl, rfl, rfl⟩
      | refused q ho hconn => rw [hconn]; exact ⟨rfl, rfl, rfl⟩
      | unheard q ho hconn => rw [hconn]; exact ⟨rfl, rfl, rfl⟩
    exact ⟨hconn.1, hconn.2.1, hconn.2.2, h.cancelled, h.outlet, h.calls, h.now⟩

/-- **All that a move can do.** -/
inductive Change (x : Traffic) : Traffic → Prop where
  | idle : Change x x
  | call {o : Option Call} {c' : Call} {conn : Connection} {ms : List Message} (me : Nat)
    (hme : x.calls me = o) (h : Goes x o c' conn ms) : Change x (x.put me c' conn ms)
  | shutdown : Change x (x.withConnection (x.connection.close .shutdown))
  | cancel (hc : x.connection.closed ≠ none ∨ (∃ reason, x.intake = .recorded reason) ∨
      x.outlet = .recorded) : Change x { x with cancelled := true }
  | wrote (m : Message) (rest : List Message) (hq : x.connection.queue = m :: rest) :
    Change x { x with
      link := { x.link with
        connection := { x.connection with queue := rest }, written := x.link.written ++ [m] } }
  | lost (m : Message) (rest : List Message) (text : String) (hq : x.connection.queue = m :: rest)
    (ho : x.outlet = .writing) :
    Change x { x.withConnection { x.connection with queue := rest } with outlet := .failed text }
  | blamed (text : String) (ho : x.outlet = .failed text) :
    Change x { x.withConnection (x.connection.close (.io text)) with outlet := .recorded }
  | endWriting (ho : x.outlet ≠ .ended) (hc : x.cancelled = true) : Change x x.endWriting
  | takes {y : Traffic} (hi : x.intake = .reading) (h : Takes x y) : Change x y
  | stops (reason : CloseReason) (hi : x.intake = .reading) :
    Change x { x with intake := .leaving reason }
  | hands (r : Response) (hi : x.intake = .holding r) :
    Change x { x.withConnection
        { x.connection with answers := x.connection.answers ++ [(r.requestSeq, r)] } with
      intake := .reading }
  | records (reason : CloseReason) (hi : x.intake = .leaving reason) :
    Change x { x.withConnection (x.connection.close reason) with
      intake := .recorded ((x.connection.close reason).closed.getD reason) }
  | abandons (reason : CloseReason) (hi : x.intake = .recorded reason) (hc : x.cancelled = true) :
    Change x { x.withConnection x.connection.abandon with intake := .abandoned reason }
  | ends (reason : CloseReason) (hi : x.intake = .abandoned reason) :
    Change x { x with
      link := { x.link with reading := false }.report (.closed reason), intake := .ended }
  | arrives (chunk : List UInt8) (he : x.link.inbound.source.ended = false) :
    Change x { x.withInbound (x.link.inbound.push chunk) with arrived := x.arrived ++ chunk }
  | arrivesEnd : Change x (x.withInbound x.link.inbound.finish)
  | told : Change x
      { x with link := { x.link with reports := [] }, told := x.told ++ x.link.reports }
  | passes (millis : Nat) : Change x { x with now := x.now + millis }

theorem change_write (x : Traffic) (failure : Option String) : Change x (x.write failure) := by
  unfold write
  split
  · next m rest ho hq =>
    cases failure with
    | none => exact .wrote m rest hq
    | some text => exact .lost m rest text hq ho
  · exact .idle

theorem change_stopWrite (x : Traffic) : Change x x.stopWrite := by
  unfold stopWrite
  split
  · next ho =>
    split
    · next hc => exact .endWriting (by rw [ho]; simp) hc
    · exact .idle
  · next text ho => exact .blamed text ho
  · next ho =>
    split
    · next hc => exact .endWriting (by rw [ho]; simp) hc
    · exact .cancel (Or.inr (Or.inr ho))
  · exact .idle

theorem change_read (x : Traffic) : Change x x.read := by
  cases hi : x.intake with
  | reading => exact .takes hi (takes_read hi)
  | _ =>
    unfold read
    rw [hi]
    exact .idle

theorem change_goOn (x : Traffic) : Change x x.goOn := by
  unfold goOn
  split
  · exact .idle
  · next r hi => exact .hands r hi
  · next reason hi => exact .records reason hi
  · next reason hi =>
    split
    · next hc => exact .abandons reason hi hc
    · exact .cancel (Or.inr (Or.inl ⟨reason, hi⟩))
  · next reason hi => exact .ends reason hi
  · exact .idle

theorem change_move (x : Traffic) (m : Move) : Change x (x.move m) := by
  cases m with
  | ask me command arguments =>
    show Change x (x.ask me command arguments)
    unfold ask
    split
    · next hme => exact .call me hme .asked
    · exact .idle
  | step me =>
    show Change x (x.advance me)
    unfold advance
    split
    · exact .idle
    · next c hme => exact .call me hme (.steps (steps_step x c))
  | wait me =>
    show Change x (x.await me)
    unfold await
    split
    · next hme => exact .call me hme .waits
    · exact .idle
  | drop me =>
    show Change x (x.drop me)
    unfold drop
    split
    · next hme => exact .call me hme .dropped
    · exact .idle
  | shutdown => exact .shutdown
  | cancel =>
    show Change x x.cancel
    unfold cancel
    split
    · next hc => exact .cancel (Or.inl (Option.isSome_iff_ne_none.mp hc))
    · exact .idle
  | write => exact change_write x none
  | failWrite text => exact change_write x (some text)
  | stopWrite => exact change_stopWrite x
  | read => exact change_read x
  | failRead text =>
    show Change x (x.failRead text)
    unfold failRead
    split
    · next hi => exact .stops _ hi
    · exact .idle
  | stopRead =>
    show Change x x.stopRead
    unfold stopRead
    split
    · next hi =>
      split
      · exact .stops _ hi
      · exact .idle
    · exact .idle
  | goOn => exact change_goOn x
  | arrive chunk =>
    show Change x (x.arrive chunk)
    unfold arrive
    split
    · exact .idle
    · next he => exact .arrives chunk (Bool.eq_false_iff.mpr he)
  | arriveEnd => exact .arrivesEnd
  | take => exact .told
  | pass millis => exact .passes millis

/-- What holds of a new connection and is kept by every change holds after every schedule. -/
theorem after_keeps {P : Traffic → Prop} (timeout : Duration) (hstart : P (start timeout))
    (hkeeps : ∀ x y, Change x y → P x → P y) (σ : Nat → Move) (n : Nat) : P (after timeout σ n) := by
  induction n with
  | zero => exact hstart
  | succ n ih => exact hkeeps _ _ (change_move _ (σ n)) ih

/-- What is kept by every change holds from the time on when it holds. -/
theorem after_stays {P : Traffic → Prop} {timeout : Duration} {σ : Nat → Move} {n m : Nat}
    (hkeeps : ∀ x y, Change x y → P x → P y) (hnm : n ≤ m) (h : P (after timeout σ n)) :
    P (after timeout σ m) := by
  induction hnm with
  | refl => exact h
  | step _ ih => exact hkeeps _ _ (change_move _ (σ _)) ih

end Traffic
end DebugHost
