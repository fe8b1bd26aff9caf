import DebugHost.Process.Supervisor
import DebugHost.Proofs.Orders
import Mathlib.Logic.Function.Basic
import Mathlib.Tactic.SplitIfs

/-! # A supervisor with all who use it, in any order

A supervision is a supervisor with everything that goes on around it: those who start programs, the calls
that stop runs, the watcher and the two readers of every run, the processes of its group, and the clock.
It changes by moves. A move is what nothing can come between: one look at the place, one look at the exit
that was recorded, one chunk that a reader takes in, one thing that a watcher does. So a stop is several
moves: it looks for its run in the place, and lets the watcher know or looks for the recorded exit, and
between them other moves may come.

A watcher does what is due (`Run.due?`). The status of its program is part of the move, so that a program
may exit at any time and with any status. A schedule gives the moves one after the other, and
`Supervision.after` the supervision that they lead to; a move that cannot be made changes nothing, so that
every order of moves is a schedule. What the readers have read is kept in fields that no move looks at.

Everything that can happen is a `Change`. What happens to one run is one of the few things that `Alters`
lists, and what happens to one call one of those that `Goes` lists; what is kept by these is kept in every
schedule. -/

namespace DebugHost

/-- The exit that a watcher has recorded. -/
def Watch.recorded? : Watch → Option Exit
  | .recorded e | .released e | .told e | .over e => some e
  | _ => none

/-- The exit that a watcher has made out, recorded or not. -/
def Watch.exit? : Watch → Option Exit
  | .joining e _ _ | .joined e | .recorded e | .released e | .told e | .over e => some e
  | _ => none

/-- Whether a watcher ends its run. -/
def Watch.isEnding : Watch → Bool
  | .terminating _ | .killing => true
  | _ => false

/-- Whether a watcher has freed the place. -/
def Watch.isReleased : Watch → Bool
  | .released _ | .told _ | .over _ => true
  | _ => false

/-- Whether the program that leads the group of a run may be alive. -/
def Watch.isLed : Watch → Bool
  | .waiting | .terminating _ => true
  | _ => false

namespace Supervision

/-- How far a call has come that stops a run. -/
inductive Call where
  /-- It is to stop whatever runs. -/
  | current
  /-- There was nothing to stop. -/
  | idle
  /-- It is to stop a run. -/
  | asked (id : RunId)
  /-- It has found its run in the place. -/
  | found (id : RunId)
  /-- It has not found its run in the place. -/
  | missed (id : RunId)
  /-- It has let the watcher know. -/
  | stopping (id : RunId)
  /-- It waits to be told the exit, at most until the deadline. -/
  | waiting (id : RunId) (deadline : Nat)
  /-- It has waited for too long. -/
  | expired (id : RunId)
  /-- It has come to its result. -/
  | ended (id : RunId) (exit : Option Exit)
  /-- It has come to its result after it had waited for too long. -/
  | gaveUp (id : RunId) (exit : Option Exit)
deriving DecidableEq

/-- The run that a call is to stop. -/
def Call.run? : Call → Option RunId
  | .current | .idle => none
  | .asked id | .found id | .missed id | .stopping id | .waiting id _ | .expired id | .ended id _
  | .gaveUp id _ => some id

/-- A process in the group of a run that does not lead the group. -/
structure Member where
  /-- Whether it was asked to end. -/
  asked : Bool := false
  /-- Whether it has ended by itself, asked or not. -/
  left : Bool := false
  killed : Bool := false
deriving DecidableEq

/-- Whether a process is alive. -/
def Member.isAlive (m : Member) : Bool := !m.left && !m.killed

/-- What may happen next. -/
inductive Move where
  /-- A command is started; `spawned` is what the system makes of it. -/
  | start (c : Command) (spawned : Except OsError Nat)
  /-- A call is made that stops a run, under a name that no other call has had. -/
  | stop (me : Nat) (id : RunId)
  /-- A call is made that stops whatever runs. -/
  | stopCurrent (me : Nat)
  /-- A call goes on. -/
  | step (me : Nat)
  /-- A call finds that its time is over. -/
  | expire (me : Nat)
  /-- The watcher of a run does what is due, given the status of the program if it has exited. -/
  | watch (id : RunId) (status : Option WaitStatus)
  /-- A reader takes in a chunk. -/
  | read (id : RunId) (s : Stream) (chunk : List UInt8)
  /-- A reader comes to the end of its stream, or fails to read. -/
  | finish (id : RunId) (s : Stream)
  /-- A process of the group of a run makes another one. -/
  | fork (id : RunId)
  /-- A process of the group of a run ends by itself. -/
  | leave (id : RunId) (k : Nat)
  /-- The clock shows another time. -/
  | clock (now : Nat)

end Supervision

/-- A supervisor with all who use it. -/
structure Supervision where
  supervisor : Supervisor
  now : Nat := 0
  /-- The calls by name. -/
  calls : Nat → Option Supervision.Call := fun _ => none
  /-- The processes of the group of a run, apart from the one that leads it. -/
  members : RunId → List Supervision.Member := fun _ => []
  /-- The octets that the readers of a run have read. -/
  octets : RunId → Stream → List UInt8 := fun _ _ => []
  /-- Whether a reader has come to its end by itself. -/
  isComplete : RunId → Stream → Bool := fun _ _ => false

namespace Supervision

/-! ### Moves of calls -/

/-- Takes over what a move of the call `me` led to. -/
def put (x : Supervision) (me : Nat) (c : Call) (s : Supervisor) : Supervision :=
  { x with supervisor := s, calls := Function.update x.calls me (some c) }

/-- A step of a call: where it leads, and the supervisor afterwards. -/
def step (x : Supervision) : Call → Call × Supervisor
  | .current =>
    match x.supervisor.place with
    | some id => (.asked id, x.supervisor)
    | none => (.idle, x.supervisor)
  | .asked id => (if x.supervisor.place = some id then .found id else .missed id, x.supervisor)
  | .found id => (.stopping id, x.supervisor.cancel id)
  | .missed id => (.ended id (x.supervisor.recordedExit id), x.supervisor)
  | .stopping id => (.waiting id (x.now + x.supervisor.stopBound), x.supervisor)
  | .waiting id deadline =>
    match x.supervisor.toldExit? id with
    | some e => (.ended id (some e), x.supervisor)
    | none => (.waiting id deadline, x.supervisor)
  | .expired id => (.gaveUp id (x.supervisor.recordedExit id), x.supervisor)
  | c => (c, x.supervisor)

/-- A call is made, under a name that is not taken. -/
def begin (x : Supervision) (me : Nat) (c : Call) : Supervision :=
  match x.calls me with
  | none => x.put me c x.supervisor
  | some _ => x

/-- A call goes on. -/
def advance (x : Supervision) (me : Nat) : Supervision :=
  match x.calls me with
  | none => x
  | some c => x.put me (x.step c).1 (x.step c).2

/-- The time of a call is over, unless it can be told its exit. -/
def expire (x : Supervision) (me : Nat) : Supervision :=
  match x.calls me with
  | some (.waiting id deadline) =>
    if deadline ≤ x.now ∧ x.supervisor.toldExit? id = none then x.put me (.expired id) x.supervisor
    else x
  | _ => x

/-! ### Moves of runs -/

/-- Whether a group has a process that is alive. -/
def isPeopled (x : Supervision) (id : RunId) : Bool :=
  (x.supervisor.find? id).any (·.watch.isLed) || (x.members id).any Member.isAlive

/-- Whether a number may be given to a process that leads a group: the system does not give a number
again as long as its group has a process that is alive. -/
def isFree (x : Supervision) (process : Nat) : Bool :=
  x.supervisor.runs.all fun r => r.process ≠ process || !x.isPeopled r.id

/-- Whether the system may answer like this to a start. -/
def mayAnswer (x : Supervision) : Except OsError Nat → Bool
  | .ok process => x.isFree process
  | .error _ => true

/-- A command is started. -/
def start (x : Supervision) (c : Command) (spawned : Except OsError Nat) : Supervision :=
  { x with supervisor := (x.supervisor.start c spawned).2.1 }

/-- What a signal does to a process. -/
def Member.receive (m : Member) : GroupSignal → Member
  | .terminate _ => { m with asked := true }
  | .kill _ => { m with killed := true }

/-- The number of the group to which a signal goes. -/
def group : GroupSignal → Nat
  | .terminate group | .kill group => group

/-- A signal goes to all processes of a group. -/
def deliver (x : Supervision) (signal : GroupSignal) (id : RunId) : List Member :=
  if (x.supervisor.find? id).any (·.process = group signal) then (x.members id).map (·.receive signal)
  else x.members id

/-- The watcher of a run does what is due. -/
def watch (x : Supervision) (id : RunId) (status : Option WaitStatus) : Supervision :=
  match (x.supervisor.find? id).bind (·.due? x.now status) with
  | none => x
  | some m =>
    let (s, signal, _) := x.supervisor.move id x.now m
    { x with supervisor := s, members := (signal.map x.deliver).getD x.members }

/-- A value of one stream of one run is replaced. -/
def note {α : Type} (f : RunId → Stream → α) (id : RunId) (s : Stream) (a : α) :
    RunId → Stream → α :=
  Function.update f id (Function.update (f id) s a)

/-- Whether a reader of a run is at work. -/
def isReading (x : Supervision) (id : RunId) (s : Stream) : Bool :=
  (x.supervisor.find? id).any fun r => !(r.reader s).isOver

/-- A reader takes in a chunk. -/
def read (x : Supervision) (id : RunId) (s : Stream) (chunk : List UInt8) : Supervision :=
  if x.isReading id s then
    { x with
      supervisor := x.supervisor.modify id (·.feed s chunk)
      octets := note x.octets id s (x.octets id s ++ chunk) }
  else x

/-- A reader comes to its end. -/
def finish (x : Supervision) (id : RunId) (s : Stream) : Supervision :=
  if x.isReading id s then
    { x with
      supervisor := x.supervisor.modify id (·.finish s)
      isComplete := note x.isComplete id s true }
  else x

/-! ### Moves of programs -/

/-- A process of a group makes another one. -/
def fork (x : Supervision) (id : RunId) : Supervision :=
  if x.isPeopled id then
    { x with members := Function.update x.members id (x.members id ++ [{}]) }
  else x

/-- A process that is alive ends. -/
def Member.leave (m : Member) : Member := { m with left := m.left || m.isAlive }

/-- A process of a group ends. -/
def leave (x : Supervision) (id : RunId) (k : Nat) : Supervision :=
  { x with members := Function.update x.members id ((x.members id).modify k Member.leave) }

/-! ### All moves -/

/-- The supervision after a move. -/
def move (x : Supervision) : Move → Supervision
  | .start c spawned => if x.mayAnswer spawned then x.start c spawned else x
  | .stop me id => if (x.supervisor.find? id).isSome then x.begin me (.asked id) else x
  | .stopCurrent me => x.begin me .current
  | .step me => x.advance me
  | .expire me => x.expire me
  | .watch id status => x.watch id status
  | .read id s chunk => x.read id s chunk
  | .finish id s => x.finish id s
  | .fork id => x.fork id
  | .leave id k => x.leave id k
  | .clock now => { x with now }

/-- A supervisor that has started nothing. -/
def new (grace : Duration) : Supervision := { supervisor := { grace } }

/-- The supervision after the first `n` moves of a schedule, of a new supervisor. -/
def after (grace : Duration) (σ : Nat → Move) (n : Nat) : Supervision := reached move (new grace) σ n

theorem after_succ (grace : Duration) (σ : Nat → Move) (n : Nat) :
    after grace σ (n + 1) = (after grace σ n).move (σ n) := rfl

/-- The calls after a move of the call `me`. -/
theorem put_calls (x : Supervision) (me i : Nat) (c : Call) (s : Supervisor) :
    (x.put me c s).calls i = if i = me then some c else x.calls i :=
  Function.update_apply ..

/-! ### Runs by their numbers -/

variable {s : Supervisor} {id : RunId} {r : Run}

theorem id_of_find? (h : s.find? id = some r) : r.id = id := by
  have hid := List.find?_some h
  exact of_decide_eq_true hid

theorem find?_modify (s : Supervisor) (id : RunId) {f : Run → Run} (hf : ∀ r, (f r).id = r.id)
    (j : RunId) : (s.modify id f).find? j = if j = id then (s.find? id).map f else s.find? j := by
  have hmap : (s.modify id f).find? j =
      (s.find? j).map fun r => if r.id = id then f r else r := by
    unfold Supervisor.modify Supervisor.find?
    rw [List.find?_map]
    congr 2
    funext r
    simp only [Function.comp_apply]
    split
    · rw [hf]
    · rfl
  rw [hmap]
  cases hj : s.find? j with
  | none =>
    split
    · next h => rw [← h, hj]; rfl
    · rfl
  | some r =>
    rw [Option.map_some, id_of_find? hj]
    split
    · next h => rw [← h, hj]; rfl
    · rfl

theorem find?_modified (hr : s.find? id = some r) {f : Run → Run} (hf : ∀ r, (f r).id = r.id)
    (j : RunId) : (s.modify id f).find? j = if j = id then some (f r) else s.find? j := by
  rw [find?_modify s id hf, hr]
  rfl

theorem find?_cancel (s : Supervisor) (id j : RunId) : (s.cancel id).find? j =
    if j = id then (s.find? id).map fun r => { r with stopAsked := true } else s.find? j :=
  find?_modify s id (f := fun r => { r with stopAsked := true }) (fun _ => rfl) j

/-- The supervisor after a command was started. -/
def enroll (s : Supervisor) (c : Command) (process : Nat) : Supervisor :=
  { s with
    place := some ⟨s.next⟩
    next := s.next + 1
    runs := s.runs ++ [{ id := ⟨s.next⟩, process, command := c.text }] }

theorem find?_enroll (s : Supervisor) (c : Command) (process : Nat) (j : RunId) :
    (enroll s c process).find? j =
      (s.find? j).or
        (if j = ⟨s.next⟩ then some { id := ⟨s.next⟩, process, command := c.text } else none) := by
  unfold enroll Supervisor.find?
  rw [List.find?_append]
  congr 1
  rw [List.find?_singleton]
  by_cases h : j = ⟨s.next⟩
  · rw [if_pos h, if_pos (decide_eq_true h.symm)]
  · rw [if_neg h, if_neg (by simpa using fun hj => h hj.symm)]

/-- A command is started only if nothing is in the place. -/
theorem start_eq (s : Supervisor) (c : Command) (spawned : Except OsError Nat) :
    (s.start c spawned).2.1 = s ∨
      ∃ process, spawned = .ok process ∧ s.current? = none ∧
        (s.start c spawned).2.1 = enroll s c process := by
  unfold Supervisor.start
  split
  · exact Or.inl rfl
  · exact Or.inl rfl
  · next process hfree => exact Or.inr ⟨process, rfl, hfree, rfl⟩

/-! ### What a watcher does -/

/-- Where a watcher goes when the reader it waits for has ended. -/
def behind (e : Exit) (deadline : Nat) : Stream → Watch
  | .out => .joining e .err deadline
  | .err => .joined e

/-- What a watcher does beyond its run. -/
inductive Deed where
  | nothing
  | signal (signal : GroupSignal)
  | record (exit : Exit)
  | release

/-- The signal that a watcher sends. -/
def Deed.signal? : Deed → Option GroupSignal
  | .signal g => some g
  | _ => none

/-- The place afterwards. -/
def Deed.place (id : RunId) (place : Option RunId) : Deed → Option RunId
  | .release => if place = some id then none else place
  | _ => place

/-- The last exit afterwards. -/
def Deed.lastExit (id : RunId) (last : Option (RunId × Exit)) : Deed → Option (RunId × Exit)
  | .record e => some (id, e)
  | _ => last

/-- All that a watcher can do to its run, and what it does beyond it. -/
inductive Attends (grace now : Nat) (r : Run) : Run → Deed → Prop where
  | exited (status : WaitStatus) (hw : r.watch = .waiting) :
    Attends grace now r { r with watch := .joining (.ofStatus status false) .out (now + grace) } .nothing
  | terminate (hw : r.watch = .waiting) (ha : r.stopAsked = true) :
    Attends grace now r { r with watch := .terminating (now + grace) } (.signal (.terminate r.process))
  | ended (status : WaitStatus) (hw : (∃ d, r.watch = .terminating d) ∨ r.watch = .killing) :
    Attends grace now r { r with watch := .joining (.ofStatus status true) .out (now + grace) } .nothing
  | kill {d : Nat} (hw : r.watch = .terminating d) (hd : d ≤ now) :
    Attends grace now r { r with watch := .killing } (.signal (.kill r.process))
  | join {e : Exit} {s : Stream} {d : Nat} (hw : r.watch = .joining e s d)
      (ho : (r.reader s).isOver = true) :
    Attends grace now r { r with watch := behind e (now + grace) s } .nothing
  | abandon {e : Exit} {s : Stream} {d : Nat} (hw : r.watch = .joining e s d) (hd : d ≤ now)
      (ho : (r.reader s).isOver = false) :
    Attends grace now r { r.abandon s with watch := behind e (now + grace) s } .nothing
  | record {e : Exit} (hw : r.watch = .joined e) :
    Attends grace now r { r with watch := .recorded e } (.record e)
  | release {e : Exit} (hw : r.watch = .recorded e) :
    Attends grace now r { r with watch := .released e } .release
  | tell {e : Exit} (hw : r.watch = .released e) :
    Attends grace now r { r with watch := .told e } .nothing
  | complete {e : Exit} (hw : r.watch = .told e) :
    Attends grace now r { r with watch := .over e, events := r.events ++ [.completed e] } .nothing

/-- A supervisor before and after a watcher has done something. -/
structure Done (s s' : Supervisor) (id : RunId) (r' : Run) (deed : Deed) : Prop where
  find : ∀ j, s'.find? j = if j = id then some r' else s.find? j
  place : s'.place = deed.place id s.place
  last : s'.lastExit = deed.lastExit id s.lastExit
  next : s'.next = s.next
  grace : s'.grace = s.grace

/-- **What is due is one of the things that a watcher can do**, and `Supervisor.move` does it. -/
theorem attends_move (hr : s.find? id = some r) {now : Nat} {status : Option WaitStatus}
    {m : DebugHost.Move} (hm : r.due? now status = some m) :
    ∃ r' deed, Attends s.grace.millis now r r' deed ∧
      Done s (s.move id now m).1 id r' deed ∧ (s.move id now m).2.1 = deed.signal? := by
  cases hw : r.watch with
  | waiting =>
    cases status with
    | some status =>
      obtain rfl : .exited status = m := by simpa [Run.due?, hw] using hm
      refine ⟨_, _, .exited status hw, ?_⟩
      simp only [Supervisor.move, hr, hw]
      exact ⟨⟨find?_modified hr fun _ => rfl, rfl, rfl, rfl, rfl⟩, rfl⟩
    | none =>
      obtain ⟨ha, rfl⟩ : r.stopAsked = true ∧ .terminate = m := by simpa [Run.due?, hw] using hm
      refine ⟨_, _, .terminate hw ha, ?_⟩
      simp only [Supervisor.move, hr, hw]
      exact ⟨⟨find?_modified hr fun _ => rfl, rfl, rfl, rfl, rfl⟩, rfl⟩
  | terminating d =>
    cases status with
    | some status =>
      obtain rfl : .exited status = m := by simpa [Run.due?, hw] using hm
      refine ⟨_, _, .ended status (Or.inl ⟨d, hw⟩), ?_⟩
      simp only [Supervisor.move, hr, hw]
      exact ⟨⟨find?_modified hr fun _ => rfl, rfl, rfl, rfl, rfl⟩, rfl⟩
    | none =>
      obtain ⟨hd, rfl⟩ : d ≤ now ∧ .kill = m := by simpa [Run.due?, hw] using hm
      refine ⟨_, _, .kill hw hd, ?_⟩
      simp only [Supervisor.move, hr, hw]
      exact ⟨⟨find?_modified hr fun _ => rfl, rfl, rfl, rfl, rfl⟩, rfl⟩
  | killing =>
    cases status with
    | some status =>
      obtain rfl : .exited status = m := by simpa [Run.due?, hw] using hm
      refine ⟨_, _, .ended status (Or.inr hw), ?_⟩
      simp only [Supervisor.move, hr, hw]
      exact ⟨⟨find?_modified hr fun _ => rfl, rfl, rfl, rfl, rfl⟩, rfl⟩
    | none => simp [Run.due?, hw] at hm
  | joining e t d =>
    simp only [Run.due?, hw] at hm
    split_ifs at hm with ho hd
    · cases hm
      refine ⟨_, _, .join hw ho, ?_⟩
      cases t <;> simp only [Supervisor.move, hr, hw] <;>
        exact ⟨⟨find?_modified hr fun _ => rfl, rfl, rfl, rfl, rfl⟩, rfl⟩
    · cases hm
      refine ⟨_, _, .abandon hw hd (Bool.eq_false_iff.mpr ho), ?_⟩
      cases t <;> simp only [Supervisor.move, hr, hw] <;>
        exact ⟨⟨find?_modified hr fun _ => rfl, rfl, rfl, rfl, rfl⟩, rfl⟩
  | joined e =>
    obtain rfl : .record = m := by simpa [Run.due?, hw] using hm
    refine ⟨_, _, .record hw, ?_⟩
    simp only [Supervisor.move, hr, hw]
    exact ⟨⟨find?_modified hr fun _ => rfl, rfl, rfl, rfl, rfl⟩, rfl⟩
  | recorded e =>
    obtain rfl : .release = m := by simpa [Run.due?, hw] using hm
    refine ⟨_, _, .release hw, ?_⟩
    simp only [Supervisor.move, hr, hw]
    exact ⟨⟨find?_modified hr fun _ => rfl, rfl, rfl, rfl, rfl⟩, rfl⟩
  | released e =>
    obtain rfl : .tell = m := by simpa [Run.due?, hw] using hm
    refine ⟨_, _, .tell hw, ?_⟩
    simp only [Supervisor.move, hr, hw]
    exact ⟨⟨find?_modified hr fun _ => rfl, rfl, rfl, rfl, rfl⟩, rfl⟩
  | told e =>
    obtain rfl : .complete = m := by simpa [Run.due?, hw] using hm
    refine ⟨_, _, .complete hw, ?_⟩
    simp only [Supervisor.move, hr, hw]
    exact ⟨⟨find?_modified hr fun _ => rfl, rfl, rfl, rfl, rfl⟩, rfl⟩
  | «over» e => simp [Run.due?, hw] at hm

/-! ### What a move does -/

/-- All that a step of a call can do: where it leads, and the supervisor afterwards. -/
inductive Steps (x : Supervision) : Call → Call → Supervisor → Prop where
  | asks {id : RunId} (hp : x.supervisor.place = some id) : Steps x .current (.asked id) x.supervisor
  | idles (hp : x.supervisor.place = none) : Steps x .current .idle x.supervisor
  | finds {id : RunId} (hp : x.supervisor.place = some id) : Steps x (.asked id) (.found id) x.supervisor
  | misses {id : RunId} (hp : x.supervisor.place ≠ some id) : Steps x (.asked id) (.missed id) x.supervisor
  | cancels {id : RunId} : Steps x (.found id) (.stopping id) (x.supervisor.cancel id)
  | remembers {id : RunId} :
    Steps x (.missed id) (.ended id (x.supervisor.recordedExit id)) x.supervisor
  | waits {id : RunId} :
    Steps x (.stopping id) (.waiting id (x.now + x.supervisor.stopBound)) x.supervisor
  | told {id : RunId} {deadline : Nat} {e : Exit} (ht : x.supervisor.toldExit? id = some e) :
    Steps x (.waiting id deadline) (.ended id (some e)) x.supervisor
  | givesUp {id : RunId} :
    Steps x (.expired id) (.gaveUp id (x.supervisor.recordedExit id)) x.supervisor
  | stays {c : Call} : Steps x c c x.supervisor

theorem steps_step (x : Supervision) (c : Call) : Steps x c (x.step c).1 (x.step c).2 := by
  cases c with
  | current =>
    simp only [step]
    split
    · next id hp => exact .asks hp
    · next hp => exact .idles hp
  | asked id =>
    simp only [step]
    split_ifs with hp
    · exact .finds hp
    · exact .misses hp
  | found id => exact .cancels
  | missed id => exact .remembers
  | stopping id => exact .waits
  | waiting id deadline =>
    simp only [step]
    split
    · next e ht => exact .told ht
    · exact .stays
  | expired id => exact .givesUp
  | _ => exact .stays

/-- All that a move can do. -/
inductive Change (x : Supervision) : Supervision → Prop where
  | idle : Change x x
  | starts (c : Command) {process : Nat} (hp : x.supervisor.current? = none)
    (hfree : x.isFree process = true) :
    Change x { x with supervisor := enroll x.supervisor c process }
  | begins (me : Nat) {c : Call} (hme : x.calls me = none)
    (hc : ∀ id, c.run? = some id → c = .asked id ∧ x.supervisor.find? id ≠ none)
    (hnew : c.run? = none → c = .current) :
    Change x (x.put me c x.supervisor)
  | steps (me : Nat) {c c' : Call} {s : Supervisor} (hme : x.calls me = some c)
    (hs : Steps x c c' s) : Change x (x.put me c' s)
  | expires (me : Nat) {id : RunId} {deadline : Nat} (hme : x.calls me = some (.waiting id deadline))
    (hd : deadline ≤ x.now) (ht : x.supervisor.toldExit? id = none) :
    Change x (x.put me (.expired id) x.supervisor)
  | attends {id : RunId} {r r' : Run} {deed : Deed} {s : Supervisor} (hr : x.supervisor.find? id = some r)
    (ha : Attends x.supervisor.grace.millis x.now r r' deed) (hs : Done x.supervisor s id r' deed) :
    Change x { x with supervisor := s, members := (deed.signal?.map x.deliver).getD x.members }
  | reads {id : RunId} {r : Run} {t : Stream} (chunk : List UInt8) (hr : x.supervisor.find? id = some r)
    (ho : (r.reader t).isOver = false) :
    Change x { x with
      supervisor := x.supervisor.modify id (·.feed t chunk)
      octets := note x.octets id t (x.octets id t ++ chunk) }
  | finishes {id : RunId} {r : Run} {t : Stream} (hr : x.supervisor.find? id = some r)
    (ho : (r.reader t).isOver = false) :
    Change x { x with
      supervisor := x.supervisor.modify id (·.finish t)
      isComplete := note x.isComplete id t true }
  | forks {id : RunId} (hp : x.isPeopled id = true) :
    Change x { x with members := Function.update x.members id (x.members id ++ [{}]) }
  | leaves (id : RunId) (k : Nat) :
    Change x { x with
      members := Function.update x.members id ((x.members id).modify k Member.leave) }
  | passes (now : Nat) : Change x { x with now }

theorem isReading_some {x : Supervision} {t : Stream} (h : x.isReading id t = true) :
    ∃ r, x.supervisor.find? id = some r ∧ (r.reader t).isOver = false := by
  unfold isReading at h
  cases hr : x.supervisor.find? id with
  | none =>
    rw [hr] at h
    cases h
  | some r =>
    rw [hr] at h
    exact ⟨r, rfl, by simpa using h⟩

theorem change_begin (x : Supervision) (me : Nat) {c : Call}
    (hc : ∀ id, c.run? = some id → c = .asked id ∧ x.supervisor.find? id ≠ none)
    (hnew : c.run? = none → c = .current) : Change x (x.begin me c) := by
  unfold begin
  split
  · next hme => exact .begins me hme hc hnew
  · exact .idle

/-- A watcher does what is due. -/
theorem watch_due {x : Supervision} (hr : x.supervisor.find? id = some r) {status : Option WaitStatus}
    {m : DebugHost.Move} (hm : r.due? x.now status = some m) :
    ∃ r' deed s, Attends x.supervisor.grace.millis x.now r r' deed ∧ Done x.supervisor s id r' deed ∧
      x.watch id status =
        { x with supervisor := s, members := (deed.signal?.map x.deliver).getD x.members } := by
  obtain ⟨r', deed, hattends, hdone, hsignal⟩ := attends_move hr hm
  refine ⟨r', deed, _, hattends, hdone, ?_⟩
  unfold watch
  rw [hr, Option.bind_some, hm, ← hsignal]

theorem change_watch (x : Supervision) (id : RunId) (status : Option WaitStatus) :
    Change x (x.watch id status) := by
  cases hm : (x.supervisor.find? id).bind (·.due? x.now status) with
  | none =>
    unfold watch
    rw [hm]
    exact .idle
  | some m =>
    obtain ⟨r, hr, hdue⟩ := Option.bind_eq_some_iff.mp hm
    obtain ⟨r', deed, s, hattends, hdone, hwatch⟩ := watch_due hr hdue
    rw [hwatch]
    exact .attends hr hattends hdone

/-- **Every move is a change.** -/
theorem change_move (x : Supervision) (m : Move) : Change x (x.move m) := by
  cases m with
  | start c spawned =>
    show Change x (if x.mayAnswer spawned then x.start c spawned else x)
    split_ifs with hmay
    · show Change x { x with supervisor := (x.supervisor.start c spawned).2.1 }
      rcases start_eq x.supervisor c spawned with h | ⟨process, rfl, hp, h⟩
      · rw [h]
        exact .idle
      · rw [h]
        exact .starts c hp hmay
    · exact .idle
  | stop me id =>
    show Change x (if (x.supervisor.find? id).isSome then x.begin me (.asked id) else x)
    split_ifs with hr
    · refine change_begin x me (fun j hj => ?_) (fun h => by cases h)
      cases hj
      exact ⟨rfl, Option.isSome_iff_ne_none.mp hr⟩
    · exact .idle
  | stopCurrent me => exact change_begin x me (fun j hj => by cases hj) fun _ => rfl
  | step me =>
    show Change x (x.advance me)
    unfold advance
    split
    · exact .idle
    · next c hme => exact .steps me hme (steps_step x c)
  | expire me =>
    show Change x (x.expire me)
    unfold expire
    split
    · next id deadline hme =>
      split_ifs with h
      · exact .expires me hme h.1 h.2
      · exact .idle
    · exact .idle
  | watch id status => exact change_watch x id status
  | read id t chunk =>
    show Change x (x.read id t chunk)
    unfold read
    split_ifs with h
    · obtain ⟨r, hr, ho⟩ := isReading_some h
      exact .reads chunk hr ho
    · exact .idle
  | finish id t =>
    show Change x (x.finish id t)
    unfold finish
    split_ifs with h
    · obtain ⟨r, hr, ho⟩ := isReading_some h
      exact .finishes hr ho
    · exact .idle
  | fork id =>
    show Change x (x.fork id)
    unfold fork
    split_ifs with h
    · exact .forks h
    · exact .idle
  | leave id k => exact .leaves id k
  | clock now => exact .passes now

theorem change_after (grace : Duration) (σ : Nat → Move) (n : Nat) :
    Change (after grace σ n) (after grace σ (n + 1)) := change_move _ (σ n)

/-- What holds of a new supervisor and is kept by every change holds after every schedule. -/
theorem after_keeps {P : Supervision → Prop} (grace : Duration) (hnew : P (new grace))
    (hkeeps : ∀ x y, Change x y → P x → P y) (σ : Nat → Move) (n : Nat) : P (after grace σ n) := by
  induction n with
  | zero => exact hnew
  | succ n ih => exact hkeeps _ _ (change_after grace σ n) ih

/-- What is kept by every change holds from the time on when it holds. -/
theorem after_stays {P : Supervision → Prop} {grace : Duration} {σ : Nat → Move} {n m : Nat}
    (hkeeps : ∀ x y, Change x y → P x → P y) (hnm : n ≤ m) (h : P (after grace σ n)) :
    P (after grace σ m) := by
  induction hnm with
  | refl => exact h
  | step _ ih => exact hkeeps _ _ (change_after grace σ _) ih

/-! ### What happens to a run -/

variable {x y : Supervision}

/-- What was read of a run is as before. -/
structure Unread (x y : Supervision) (id : RunId) : Prop where
  octets : y.octets id = x.octets id
  complete : y.isComplete id = x.isComplete id

theorem Unread.refl (x : Supervision) (id : RunId) : Unread x x id := ⟨rfl, rfl⟩

/-- All that can happen to a run. -/
inductive Alters (x y : Supervision) (id : RunId) (r : Run) : Run → Prop where
  | same (hu : Unread x y id) : Alters x y id r r
  | attends {r' : Run} {deed : Deed} (ha : Attends x.supervisor.grace.millis x.now r r' deed)
    (hu : Unread x y id) : Alters x y id r r'
  | cancelled {me : Nat} (hme : x.calls me = some (.found id)) (hu : Unread x y id) :
    Alters x y id r { r with stopAsked := true }
  | fed {t : Stream} (chunk : List UInt8) (ho : (r.reader t).isOver = false)
    (hoctets : y.octets id = Function.update (x.octets id) t (x.octets id t ++ chunk))
    (hcomplete : y.isComplete id = x.isComplete id) : Alters x y id r (r.feed t chunk)
  | finished {t : Stream} (ho : (r.reader t).isOver = false) (hoctets : y.octets id = x.octets id)
    (hcomplete : y.isComplete id = Function.update (x.isComplete id) t true) :
    Alters x y id r (r.finish t)

theorem feed_id (r : Run) (t : Stream) (chunk : List UInt8) : (r.feed t chunk).id = r.id := by
  unfold Run.feed
  split
  · rfl
  · cases t <;> rfl

theorem finish_id (r : Run) (t : Stream) : (r.finish t).id = r.id := by
  unfold Run.finish
  split
  · rfl
  · cases t <;> rfl

theorem note_same {α : Type} (f : RunId → Stream → α) (id : RunId) (t : Stream) (a : α) :
    note f id t a id = Function.update (f id) t a := Function.update_self ..

theorem note_other {α : Type} (f : RunId → Stream → α) {id j : RunId} (h : j ≠ id) (t : Stream)
    (a : α) : note f id t a j = f j := Function.update_of_ne h ..

/-- Where the run `id` changes into `r'`, all runs are altered as they should. -/
theorem alters_of_find (r' : Run) (hr : x.supervisor.find? id = some r) {j : RunId}
    (hfind : y.supervisor.find? j = if j = id then some r' else x.supervisor.find? j)
    (ha : Alters x y id r r') (hu : j ≠ id → Unread x y j) {q : Run}
    (hq : x.supervisor.find? j = some q) : ∃ q', y.supervisor.find? j = some q' ∧ Alters x y j q q' := by
  by_cases h : j = id
  · subst h
    rw [if_pos rfl] at hfind
    rw [hr] at hq
    cases hq
    exact ⟨r', hfind, ha⟩
  · rw [if_neg h] at hfind
    exact ⟨q, hfind.trans hq, .same (hu h)⟩

/-- **A run stays, and one of these things happens to it.** -/
theorem Change.alters (hc : Change x y) {j : RunId} {q : Run} (hq : x.supervisor.find? j = some q) :
    ∃ q', y.supervisor.find? j = some q' ∧ Alters x y j q q' := by
  cases hc with
  | starts c hp hfree =>
    refine ⟨q, (find?_enroll x.supervisor c _ j).trans ?_, .same ⟨rfl, rfl⟩⟩
    rw [hq]
    rfl
  | steps me hme hs =>
    cases hs with
    | @cancels id =>
      by_cases h : j = id
      · subst h
        refine ⟨_, ((find?_cancel x.supervisor j j).trans (if_pos rfl)).trans ?_,
          .cancelled hme ⟨rfl, rfl⟩⟩
        rw [hq]
        rfl
      · exact ⟨q, ((find?_cancel x.supervisor id j).trans (if_neg h)).trans hq, .same ⟨rfl, rfl⟩⟩
    | _ => exact ⟨q, hq, .same ⟨rfl, rfl⟩⟩
  | @attends id r r' deed s hr ha hs =>
    refine alters_of_find r' hr ?_ ?_ ?_ hq
    · exact hs.find j
    · exact .attends ha ⟨rfl, rfl⟩
    · exact fun _ => ⟨rfl, rfl⟩
  | @reads id r t chunk hr ho =>
    refine alters_of_find (r.feed t chunk) hr ?_ ?_ ?_ hq
    · exact find?_modified hr (fun r => feed_id r t chunk) j
    · exact .fed chunk ho (note_same ..) rfl
    · exact fun h => ⟨note_other _ h .., rfl⟩
  | @finishes id r t hr ho =>
    refine alters_of_find (r.finish t) hr ?_ ?_ ?_ hq
    · exact find?_modified hr (fun r => finish_id r t) j
    · exact .finished ho rfl (note_same ..)
    · exact fun h => ⟨rfl, note_other _ h ..⟩
  | _ => exact ⟨q, hq, .same ⟨rfl, rfl⟩⟩

/-! ### What happens to a call -/

/-- All that can happen to a call. -/
inductive Goes (x y : Supervision) : Option Call → Option Call → Prop where
  | same (c : Option Call) : Goes x y c c
  | asks {id : RunId} (hr : x.supervisor.find? id ≠ none) : Goes x y none (some (.asked id))
  | asksCurrent : Goes x y none (some .current)
  | steps {c c' : Call} (hs : Steps x c c' y.supervisor) (hnow : y.now = x.now) :
    Goes x y (some c) (some c')
  | expires {id : RunId} {deadline : Nat} : Goes x y (some (.waiting id deadline)) (some (.expired id))

/-- **One of these things happens to every call.** -/
theorem Change.goes (hc : Change x y) (me : Nat) : Goes x y (x.calls me) (y.calls me) := by
  cases hc with
  | @begins i c hi hrun hnew =>
    rw [put_calls]
    split
    · next h =>
      rw [h, hi]
      cases hid : c.run? with
      | none =>
        rw [hnew hid]
        exact .asksCurrent
      | some id =>
        obtain ⟨rfl, hr⟩ := hrun id hid
        exact .asks hr
    · exact .same _
  | steps i hi hs =>
    rw [put_calls]
    split
    · next h =>
      rw [h, hi]
      exact .steps hs rfl
    · exact .same _
  | expires i hi hd ht =>
    rw [put_calls]
    split
    · next h =>
      rw [h, hi]
      exact .expires
    · exact .same _
  | _ => exact .same _

/-- Where a call comes from that is there after a change. -/
theorem Change.goes_to (hc : Change x y) {me : Nat} {c' : Call} (hme : y.calls me = some c') :
    ∃ c, x.calls me = c ∧ Goes x y c (some c') := ⟨_, rfl, hme ▸ hc.goes me⟩

/-- Where a call goes that is there before a change. -/
theorem Change.goes_from (hc : Change x y) {me : Nat} {c : Call} (hme : x.calls me = some c) :
    ∃ c', y.calls me = c' ∧ Goes x y (some c) c' := ⟨_, rfl, hme ▸ hc.goes me⟩

/-! ### New runs -/

/-- Nothing was read of a run, and its group has no processes. -/
structure Untouched (x : Supervision) (id : RunId) : Prop where
  octets : x.octets id = fun _ => []
  complete : x.isComplete id = fun _ => false
  members : x.members id = []

/-- A run that is there after a change, and was not there before, was started by it. -/
theorem Change.started (hc : Change x y) {j : RunId} (hj : x.supervisor.find? j = none) {q : Run}
    (hq : y.supervisor.find? j = some q) :
    ∃ c process, y = { x with supervisor := enroll x.supervisor c process } ∧
      q = { id := j, process, command := c.text } ∧ x.isFree process = true := by
  have hsame : ∀ {s : Supervisor} {id : RunId} {r r' : Run}, x.supervisor.find? id = some r →
      s.find? j = (if j = id then some r' else x.supervisor.find? j) → s.find? j = none := by
    intro s id r r' hr hfind
    by_cases h : j = id
    · rw [h, hr] at hj
      cases hj
    · rw [hfind, if_neg h, hj]
  cases hc with
  | @starts c process hp hfree =>
    refine ⟨c, process, rfl, ?_, hfree⟩
    rw [find?_enroll, hj, Option.none_or] at hq
    split at hq
    · next h =>
      cases hq
      rw [h]
    · cases hq
  | steps me hme hs =>
    cases hs with
    | @cancels id =>
      rw [show (x.put me (.stopping id) (x.supervisor.cancel id)).supervisor = x.supervisor.cancel id
        from rfl, find?_cancel] at hq
      split at hq
      · next h =>
        rw [← h, hj] at hq
        cases hq
      · rw [hj] at hq
        cases hq
    | _ => cases hj.symm.trans hq
  | attends hr ha hs => cases (hsame hr (hs.find j)).symm.trans hq
  | @reads id r t chunk hr ho =>
    cases (hsame hr (find?_modified hr (fun r => feed_id r t chunk) j)).symm.trans hq
  | @finishes id r t hr ho =>
    cases (hsame hr (find?_modified hr (fun r => finish_id r t) j)).symm.trans hq
  | _ => cases hj.symm.trans hq

theorem not_isPeopled {j : RunId} (hj : x.supervisor.find? j = none) (h : x.members j = []) :
    x.isPeopled j = false := by
  unfold isPeopled
  rw [hj, h]
  rfl

/-- What is not there yet stays untouched. -/
theorem Change.untouched (hc : Change x y) (h : ∀ j, x.supervisor.find? j = none → Untouched x j)
    {j : RunId} (hj : y.supervisor.find? j = none) : Untouched y j := by
  have hbefore : x.supervisor.find? j = none := by
    cases hx : x.supervisor.find? j with
    | none => rfl
    | some q =>
      obtain ⟨q', hq', -⟩ := hc.alters hx
      cases hj.symm.trans hq'
  have hx := h j hbefore
  have hother : ∀ {id : RunId} {r : Run}, x.supervisor.find? id = some r → j ≠ id := by
    rintro id r hr rfl
    cases hbefore.symm.trans hr
  cases hc with
  | attends hr ha hs =>
    refine ⟨hx.octets, hx.complete, ?_⟩
    cases hsig : Deed.signal? _ with
    | none => exact hx.members
    | some signal =>
      show x.deliver signal j = []
      unfold deliver
      rw [hx.members]
      split <;> rfl
  | reads chunk hr ho => exact ⟨(note_other _ (hother hr) ..).trans hx.octets, hx.complete, hx.members⟩
  | finishes hr ho => exact ⟨hx.octets, (note_other _ (hother hr) ..).trans hx.complete, hx.members⟩
  | @forks id hp =>
    refine ⟨hx.octets, hx.complete, (Function.update_of_ne ?_ ..).trans hx.members⟩
    rintro rfl
    rw [not_isPeopled hbefore hx.members] at hp
    cases hp
  | leaves id k =>
    refine ⟨hx.octets, hx.complete, ?_⟩
    show Function.update x.members id _ j = []
    rw [Function.update_apply]
    split
    · next h => rw [← h, hx.members, List.modify_nil]
    · exact hx.members
  | _ => exact ⟨hx.octets, hx.complete, hx.members⟩

theorem untouched_after (grace : Duration) (σ : Nat → Move) (n : Nat) :
    ∀ j, (after grace σ n).supervisor.find? j = none → Untouched (after grace σ n) j :=
  after_keeps (P := fun x => ∀ j, x.supervisor.find? j = none → Untouched x j) grace
    (fun _ _ => ⟨rfl, rfl, rfl⟩) (fun _ _ hc h _ hj => hc.untouched h hj) σ n

/-- **What holds of a new run, and is kept whatever happens to a run, holds of every run after every
schedule.** -/
theorem runs_keep {P : Supervision → RunId → Run → Prop} {grace : Duration} {σ : Nat → Move}
    (hnew : ∀ x j process command, Untouched x j → P x j { id := j, process, command })
    (hkeeps : ∀ k j r r', (after grace σ k).supervisor.find? j = some r →
      (after grace σ (k + 1)).supervisor.find? j = some r' →
      Alters (after grace σ k) (after grace σ (k + 1)) j r r' →
      P (after grace σ k) j r → P (after grace σ (k + 1)) j r')
    (n : Nat) {j : RunId} {r : Run} (hr : (after grace σ n).supervisor.find? j = some r) :
    P (after grace σ n) j r := by
  induction n generalizing r with
  | zero => cases hr
  | succ n ih =>
    have hc := change_after grace σ n
    cases hx : (after grace σ n).supervisor.find? j with
    | some q =>
      obtain ⟨q', hq', ha⟩ := hc.alters hx
      cases hq'.symm.trans hr
      exact hkeeps n j q r hx hr ha (ih hx)
    | none =>
      obtain ⟨c, process, hy, rfl, -⟩ := hc.started hx hr
      have hu := untouched_after grace σ n j hx
      refine hnew _ j process c.text ?_
      rw [hy]
      exact ⟨hu.octets, hu.complete, hu.members⟩

end Supervision

/-! ### A single run

A supervision with one run, which has the place, and with one call: how it looks, and what becomes of it when
the clock moves or the watcher does something. -/

namespace Supervision

variable {x : Supervision} {r r' : Run} {grace : Duration} {now : Nat} {c : Call}

/-- A program that exits when it is asked to. -/
def listing : Command where
  cwd := ⟨"/"⟩
  program := ⟨"/bin/ls"⟩
  arguments := []
  settings := []

/-- Everything that the watcher of a run does whose readers have ended, after its program has exited. -/
def teardown (id : RunId) : List Move :=
  .watch id (some (.code 0)) :: .finish id .out :: .finish id .err ::
    List.replicate 6 (.watch id none)

/-- A supervision with one run, which has the place, and with one call. -/
structure Looks (x : Supervision) (grace : Duration) (r : Run) (now : Nat) (c : Call) : Prop where
  supervisor : x.supervisor = { grace, place := some ⟨1⟩, next := 2, runs := [r] }
  now : x.now = now
  call : x.calls 0 = some c

/-- A run that is to be stopped, with the watcher at some point. -/
def torn (w : Watch) (outIsOver : Bool) : Run where
  id := ⟨1⟩
  process := 4
  command := listing.text
  stopAsked := true
  watch := w
  out := { isOver := outIsOver }

theorem Looks.clock (h : Looks x grace r now c) (t : Nat) : Looks (x.move (.clock t)) grace r t c :=
  ⟨h.supervisor, rfl, h.call⟩

theorem Looks.find? (h : Looks x grace r now c) (hid : r.id = ⟨1⟩) : x.supervisor.find? ⟨1⟩ = some r := by
  rw [h.supervisor]
  exact List.find?_cons_of_pos (decide_eq_true hid)

theorem Looks.watch (h : Looks x grace r now c) (status : Option WaitStatus)
    {m : DebugHost.Move} (hid : r.id = ⟨1⟩) (hdue : r.due? now status = some m)
    (hmove : (({ grace, place := some ⟨1⟩, next := 2, runs := [r] } : Supervisor).move ⟨1⟩ now m).1 =
      { grace, place := some ⟨1⟩, next := 2, runs := [r'] }) :
    Looks (x.move (.watch ⟨1⟩ status)) grace r' now c := by
  have hwatch : x.move (.watch ⟨1⟩ status) =
      { x with
        supervisor := (x.supervisor.move ⟨1⟩ x.now m).1
        members := ((x.supervisor.move ⟨1⟩ x.now m).2.1.map x.deliver).getD x.members } := by
    show x.watch ⟨1⟩ status = _
    unfold Supervision.watch
    rw [h.find? hid, Option.bind_some, h.now, hdue]
  rw [hwatch]
  refine ⟨?_, h.now, h.call⟩
  show (x.supervisor.move ⟨1⟩ x.now m).1 = _
  rw [h.now, h.supervisor, hmove]

end Supervision
end DebugHost
