import DebugHost.Debugger
import DebugHost.Proofs.Inspection.Tree
import DebugHost.Proofs.Orders
import DebugHost.Proofs.Session.Step

/-! # A debugger in any order

Everything that can happen to a debugger, as moves that nothing can come between: the session takes an
input, a task attempts an action, a message is read or written, something comes from outside. A
schedule gives the moves one after the other and `Debugger.after` the debugger that they lead to. A task
may attempt whatever it likes, and the session may be given any input, so that the schedules contain
every order in which any number of users, the adapter and the session can go on.

Only one of the moves changes the state of the session, the input that it takes; the others leave it as
it is (`Debugger.Beside`). -/

namespace DebugHost

open DebugHost.Session

namespace Debugger

/-- What may happen next. -/
inductive Move (ρ : Type) where
  /-- The task `me` attempts an action. -/
  | act (me : Nat) (a : Action)
  /-- The reader takes a message. -/
  | read
  /-- The reader's reports go to the session. -/
  | pass
  /-- The writer takes a message. -/
  | write
  /-- The next input leaves its queue. -/
  | pick
  /-- The session takes an input, unless it has ended. -/
  | input (i : Input)
  /-- The session leaves, if it has ended. -/
  | leave
  /-- Octets arrive from the adapter. -/
  | arrive (octets : List UInt8)
  | arriveEnd
  | stopPeer
  | shutdown
  | feed (e : ConnectionEvent)
  | endFeed
  /-- The clock stands at a time. -/
  | clock (now : Nat)
  /-- Tasks, log and output are from now on those of another debugger. -/
  | aside (e : Debugger ρ)

variable {ρ : Type}

/-- Whether the session has ended. -/
def Over (d : Debugger ρ) : Prop := d.room.state.status.state = .terminated

instance (d : Debugger ρ) : Decidable d.Over := by unfold Over; infer_instance

/-- The debugger after a move. -/
def move (d : Debugger ρ) : Move ρ → Debugger ρ
  | .act me a => (d.attempt me a).1
  | .read => d.afterStep d.link.read
  | .pass => d.passReports
  | .write => d.afterStep d.link.write
  | .pick =>
    match d.room.next with
    | none => d
    | some (_, room) => { d with room := room }
  | .input i => if d.Over then d else d.takeInput i
  | .leave => if d.Over then d.leave else d
  | .arrive octets => d.arrive octets
  | .arriveEnd => d.arriveEnd
  | .stopPeer => d.stopPeer
  | .shutdown => d.shutdown
  | .feed e => (d.feed e).2
  | .endFeed => d.endFeed
  | .clock now => { d with now := now }
  | .aside e => { e with now := d.now, link := d.link, room := d.room }

/-- The input that a move gives to the session. -/
def Move.offered? : Move ρ → Option Input
  | .input i => some i
  | _ => none

/-- The input that the session takes in a move, if it has not ended. -/
def taken? (d : Debugger ρ) (m : Move ρ) : Option Input := if d.Over then none else m.offered?

/-- A debugger whose session begins. -/
def fresh (d : Debugger ρ) (id : SessionId) (attached : Bool) : Debugger ρ :=
  { d with room := .open_ id attached }

/-- The debugger after the first `n` moves of a schedule. -/
def after (d : Debugger ρ) (σ : Nat → Move ρ) (n : Nat) : Debugger ρ := reached move d σ n

/-- The session after the first `n` moves. -/
def session (d : Debugger ρ) (σ : Nat → Move ρ) (n : Nat) : State := (d.after σ n).room.state

/-- The input that the session takes in move `n`. -/
def input? (d : Debugger ρ) (σ : Nat → Move ρ) (n : Nat) : Option Input := (d.after σ n).taken? (σ n)

/-! ### Beside the session -/

/-- Two debuggers between which the session has done nothing, and a closed connection is closed. -/
structure Beside (d d' : Debugger ρ) : Prop where
  status : d'.room.state.status = d.room.state.status
  published : d'.room.state.published = d.room.state.published
  epoch : d'.room.state.epoch = d.room.state.epoch
  stopping : d'.room.state.stopping = d.room.state.stopping
  tree : d.room.state.tree.Alike d'.room.state.tree
  events : d'.room.events = d.room.events
  closed : d.link.connection.isClosed = true → d'.link.connection.isClosed = true

theorem Beside.refl (d : Debugger ρ) : d.Beside d :=
  ⟨rfl, rfl, rfl, rfl, .refl _, rfl, fun h => h⟩

theorem Beside.trans {d d' d'' : Debugger ρ} (h : d.Beside d') (h' : d'.Beside d'') : d.Beside d'' :=
  ⟨h'.status.trans h.status, h'.published.trans h.published, h'.epoch.trans h.epoch,
    h'.stopping.trans h.stopping, h.tree.trans h'.tree, h'.events.trans h.events,
    fun hc => h'.closed (h.closed hc)⟩

/-- Nothing is done to the session where the room keeps its state and its reports. -/
theorem Beside.of_state {d d' : Debugger ρ} (hs : d'.room.state = d.room.state)
    (he : d'.room.events = d.room.events)
    (hc : d.link.connection.isClosed = true → d'.link.connection.isClosed = true) : d.Beside d' :=
  ⟨by rw [hs], by rw [hs], by rw [hs], by rw [hs], by rw [hs]; exact .refl _, he, hc⟩

theorem isClosed_close (c : Connection) (reason : CloseReason) : (c.close reason).isClosed = true := by
  unfold Connection.close Connection.isClosed
  cases c.closed <;> rfl

theorem isClosed_send {c c' : Connection} {command : String} {arguments : Json.Value} {seq : Int}
    (h : c.send command arguments = .ok (seq, c')) : c'.isClosed = c.isClosed := by
  unfold Connection.send at h
  split at h
  · cases h
  · cases h; rfl

/-- Signals change neither the room nor the link. -/
theorem foldl_signal (d : Debugger ρ) (f : Nat → Signal) (ts : List Nat) :
    (ts.foldl (fun d t => d.signal (f t)) d).room = d.room ∧
    (ts.foldl (fun d t => d.signal (f t)) d).link = d.link := by
  induction ts generalizing d with
  | nil => exact ⟨rfl, rfl⟩
  | cons t ts ih => exact ih (d.signal (f t))

/-- Who has the record of breakpoints is no matter of the session's state. -/
theorem lock_keeps (r : Room) (me : Nat) :
    (r.lock me).1.state = r.state ∧ (r.lock me).1.events = r.events := by
  unfold Room.lock
  split
  · exact ⟨rfl, rfl⟩
  · split
    · exact ⟨rfl, rfl⟩
    · split
      · exact ⟨rfl, rfl⟩
      · exact ⟨rfl, rfl⟩

theorem unlock_keeps (r : Room) (s : BreakpointSet) :
    (r.unlock s).1.state = r.state ∧ (r.unlock s).1.events = r.events := by
  unfold Room.unlock
  split
  · exact ⟨rfl, rfl⟩
  · exact ⟨rfl, rfl⟩

theorem beside_withTree {d : Debugger ρ} {t : Inspection.Tree} (h : d.room.state.tree.Alike t) :
    d.Beside (d.withTree t) :=
  ⟨rfl, rfl, rfl, rfl, h, rfl, fun h => h⟩

theorem beside_attempt (d : Debugger ρ) (me : Nat) (a : Action) : d.Beside (d.attempt me a).1 := by
  cases a with
  | status => exact .refl d
  | limit => exact .refl d
  | send command arguments =>
    simp only [attempt, send]
    cases h : d.link.connection.send command arguments with
    | error e => exact .refl d
    | ok r => exact .of_state rfl rfl fun hc => (isClosed_send h).trans hc
  | response x =>
    simp only [attempt]
    split
    · exact .refl d
    · exact .of_state rfl rfl fun hc => hc
    · exact .of_state rfl rfl fun hc => hc
  | post c =>
    simp only [attempt, post]
    split
    · exact .of_state rfl rfl fun hc => hc
    · exact .refl d
  | order o =>
    simp only [attempt]
    split
    · exact .of_state rfl rfl fun hc => hc
    · exact .refl d
  | outcome ticket =>
    simp only [attempt]
    split
    · exact .refl d
    · exact .refl d
  | reply ticket r => exact .of_state rfl rfl fun hc => hc
  | await states deadline =>
    simp only [attempt]
    split
    · exact .refl d
    · split
      · exact .refl d
      · exact .refl d
  | lock =>
    obtain ⟨hs, he⟩ := lock_keeps d.room me
    simp only [attempt]
    split
    · next hr => rw [hr] at hs he; exact .of_state hs he fun hc => hc
    · next hr => rw [hr] at hs he; exact .of_state hs he fun hc => hc
  | unlock s =>
    obtain ⟨hs, he⟩ := unlock_keeps d.room s
    simp only [attempt]
    split
    · next hr => rw [hr] at hs he; exact .of_state hs he fun hc => hc
    · next hr => rw [hr] at hs he; exact .of_state hs he fun hc => hc
  | join q => exact beside_withTree (d.room.state.tree.alike_join q)
  | acquire k =>
    have h := (d.room.state.tree.sameSlots_acquire me k).toAlike
    simp only [attempt]
    split
    · next ht => rw [ht] at h; exact beside_withTree h
    · next ht => rw [ht] at h; exact beside_withTree h
    · next ht => rw [ht] at h; exact beside_withTree h
  | deliver k r =>
    have h := (d.room.state.tree.sameSlots_deliver k r).toAlike
    simp only [attempt]
    rcases hd : d.room.state.tree.deliver k r with ⟨v, tree, woken⟩
    rw [hd] at h
    obtain ⟨hroom, hlink⟩ := foldl_signal (d.withTree tree) .slot woken
    refine (beside_withTree h).trans (.of_state ?_ ?_ fun hc => ?_)
    · rw [hroom]
    · rw [hroom]
    · rw [hlink]; exact hc
  | confirm g v => exact .refl d
  | keepThreads t => exact ⟨rfl, rfl, rfl, rfl, .refl _, rfl, fun h => h⟩
  | log level message fields => exact .of_state rfl rfl fun hc => hc
  | print s => exact .of_state rfl rfl fun hc => hc
  | printError s => exact .of_state rfl rfl fun hc => hc

/-! ### Reader and writer -/

theorem afterStep_room (d : Debugger ρ) (x : Link.Step) : (d.afterStep x).room = d.room := by
  unfold afterStep
  simp only
  cases x.sight <;> rfl

theorem afterStep_link (d : Debugger ρ) (x : Link.Step) : (d.afterStep x).link = x.link := by
  unfold afterStep
  simp only
  cases x.sight <;> rfl

theorem isClosed_endReading (l : Link) (reason : CloseReason) :
    (l.endReading reason).link.connection.isClosed = true :=
  isClosed_close l.connection reason

/-- A reader that finds the connection closed ends. -/
theorem isClosed_read {l : Link} (h : l.connection.isClosed = true) :
    l.read.link.connection.isClosed = true := by
  unfold Link.read
  rw [if_pos h]
  exact isClosed_endReading l .shutdown

theorem isClosed_write {l : Link} (h : l.connection.isClosed = true) :
    l.write.link.connection.isClosed = true := by
  unfold Link.write
  rw [if_pos h]
  exact h

/-- An input that leaves its queue changes nothing else. -/
theorem next_keeps {r room : Room} {i : Input} (h : r.next = some (i, room)) :
    room.state = r.state ∧ room.events = r.events := by
  unfold Room.next at h
  split at h
  · cases h; exact ⟨rfl, rfl⟩
  · cases h; exact ⟨rfl, rfl⟩
  · split at h
    · cases h; exact ⟨rfl, rfl⟩
    · split at h
      · cases h
      · cases h; exact ⟨rfl, rfl⟩

theorem passReports_keeps (d : Debugger ρ) :
    d.passReports.room.state = d.room.state ∧ d.passReports.room.events = d.room.events ∧
    d.passReports.link.connection = d.link.connection := by
  unfold passReports
  split
  · split
    · exact ⟨rfl, rfl, rfl⟩
    · simp only
      split
      · exact ⟨rfl, rfl, rfl⟩
      · exact ⟨rfl, rfl, rfl⟩
  · exact ⟨rfl, rfl, rfl⟩

theorem settle_keeps (r : Room) (ts : List Nat) :
    (ts.foldl (fun r t => r.settle t none) r).state = r.state ∧
    (ts.foldl (fun r t => r.settle t none) r).events = r.events := by
  induction ts generalizing r with
  | nil => exact ⟨rfl, rfl⟩
  | cons t ts ih => exact ih (r.settle t none)

/-- A session that leaves keeps its state and its reports. -/
theorem leave_keeps (d : Debugger ρ) :
    d.leave.room.state = d.room.state ∧ d.leave.link = d.link ∧
    d.leave.room.events = d.room.events := by
  unfold leave Room.leave
  simp only
  obtain ⟨hroom, hlink⟩ := foldl_signal
    { d.record [d.room.state.exitRecord] with
      room := (d.room.commands.filterMap Room.ticket?).foldl (fun r t => r.settle t none)
        { d.room with listening := false, commands := [], inbox := [] } } .outcome
    (d.room.commands.filterMap Room.ticket?)
  obtain ⟨hs, he⟩ := settle_keeps { d.room with listening := false, commands := [], inbox := [] }
    (d.room.commands.filterMap Room.ticket?)
  refine ⟨?_, hlink, ?_⟩
  · exact (congrArg Room.state hroom).trans hs
  · exact (congrArg Room.events hroom).trans he

/-- **Only an input changes the state of the session.** -/
theorem beside_move {d : Debugger ρ} {m : Move ρ} (h : d.taken? m = none) : d.Beside (d.move m) := by
  cases m with
  | act me a => exact beside_attempt d me a
  | read =>
    refine .of_state ?_ ?_ fun hc => ?_
    · simp only [move, afterStep_room]
    · simp only [move, afterStep_room]
    · simp only [move, afterStep_link]; exact isClosed_read hc
  | pass =>
    obtain ⟨hs, he, hl⟩ := passReports_keeps d
    exact .of_state hs he fun hc => by simp only [move, hl]; exact hc
  | write =>
    refine .of_state ?_ ?_ fun hc => ?_
    · simp only [move, afterStep_room]
    · simp only [move, afterStep_room]
    · simp only [move, afterStep_link]; exact isClosed_write hc
  | pick =>
    simp only [move]
    split
    · exact .refl d
    · next i room hr =>
      obtain ⟨hs, he⟩ := next_keeps hr
      exact .of_state hs he fun hc => hc
  | input i =>
    unfold taken? at h
    split at h
    · next ho => simp only [move, if_pos ho]; exact .refl d
    · cases h
  | leave =>
    obtain ⟨hs, hl, he⟩ := leave_keeps d
    simp only [move]
    split
    · exact .of_state hs he fun hc => by rw [hl]; exact hc
    · exact .refl d
  | arrive octets => exact .of_state rfl rfl fun hc => hc
  | arriveEnd => exact .of_state rfl rfl fun hc => hc
  | stopPeer => exact .of_state rfl rfl fun hc => hc
  | shutdown => exact .of_state rfl rfl fun _ => isClosed_close d.link.connection .shutdown
  | feed e =>
    simp only [move, feed]
    split
    · exact .of_state rfl rfl fun hc => hc
    · exact .refl d
  | endFeed => exact .of_state rfl rfl fun hc => hc
  | clock now => exact .of_state rfl rfl fun hc => hc
  | aside e => exact .of_state rfl rfl fun hc => hc

/-! ### The session -/

theorem effect_keeps (d : Debugger ρ) (x : Effect) :
    (d.effect x).room.state = d.room.state ∧ (d.effect x).link = d.link ∧
    (d.effect x).room.events = d.room.events ++ emitted [x] := by
  cases x <;> exact ⟨rfl, rfl, by first | rfl | exact (List.append_nil _).symm⟩

theorem effects_keep (d : Debugger ρ) (es : List Effect) :
    (es.foldl effect d).room.state = d.room.state ∧ (es.foldl effect d).link = d.link ∧
    (es.foldl effect d).room.events = d.room.events ++ emitted es := by
  induction es generalizing d with
  | nil => exact ⟨rfl, rfl, (List.append_nil _).symm⟩
  | cons x es ih =>
    obtain ⟨hs, hl, he⟩ := effect_keeps d x
    obtain ⟨hs', hl', he'⟩ := ih (d.effect x)
    refine ⟨hs'.trans hs, hl'.trans hl, ?_⟩
    have hx : emitted (x :: es) = emitted [x] ++ emitted es := emitted_append [x] es
    rw [List.foldl_cons, he', he, hx, List.append_assoc]

/-- What a session learns of an input is what `State.step` makes of it. -/
theorem takeInput_keeps (d : Debugger ρ) (i : Input) :
    (d.takeInput i).room.state = (d.room.state.step d.link.connection i).state ∧
    (d.takeInput i).link =
      { d.link with connection := (d.room.state.step d.link.connection i).connection } ∧
    (d.takeInput i).room.events =
      d.room.events ++ emitted (d.room.state.step d.link.connection i).effects :=
  effects_keep _ _

/-- **What a move does in which the session takes an input.** -/
theorem handles_move {d : Debugger ρ} {m : Move ρ} {i : Input} (h : d.taken? m = some i) :
    m = .input i ∧ ¬ d.Over ∧ ∃ es,
      Handles d.room.state d.link.connection i
        ⟨(d.move m).room.state, (d.move m).link.connection, es⟩ ∧
      (d.move m).room.events = d.room.events ++ emitted es ∧
      (d.move m).link = { d.link with connection := (d.move m).link.connection } := by
  unfold taken? at h
  split at h
  · cases h
  · next ho =>
    cases m with
    | input j =>
      cases h
      obtain ⟨hs, hl, he⟩ := takeInput_keeps d i
      have hm : d.move (.input i) = d.takeInput i := by simp only [move, if_neg ho]
      refine ⟨rfl, ho, (d.room.state.step d.link.connection i).effects, ?_, ?_, ?_⟩
      · rw [hm, hs, hl]
        exact State.handles_step _ ho i
      · rw [hm, he]
      · rw [hm, hl]
    | _ => cases h

/-! ### Inputs one after the other -/

/-- A debugger whose session has taken some inputs. -/
def takes (d : Debugger ρ) (is : List Input) : Debugger ρ := is.foldl (fun d i => d.move (.input i)) d

theorem takes_append (d : Debugger ρ) (is js : List Input) :
    d.takes (is ++ js) = (d.takes is).takes js := List.foldl_append ..

theorem takes_cons (d : Debugger ρ) (i : Input) (is : List Input) :
    d.takes (i :: is) = (d.move (.input i)).takes is := rfl

/-- A session that has ended takes nothing. -/
theorem input_over {d : Debugger ρ} (h : d.Over) (i : Input) : d.move (.input i) = d := if_pos h

/-! ### A beginning -/

/-- A session that has just begun. -/
def begun : Debugger Unit := fresh { link := .start ⟨5000⟩ } ⟨1⟩ true

/-- The event that the program has stopped in a thread. -/
def stoppedAt (thread : Int) : Input :=
  .event ⟨0, "stopped", some (.obj [("reason", .str "breakpoint"), ("threadId", .int thread)])⟩

end Debugger
end DebugHost
