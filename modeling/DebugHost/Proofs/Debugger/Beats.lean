import DebugHost.Proofs.Debugger.Moves

/-! # A debugger beat by beat

The moves of a debugger leave open which actions a task attempts. Here the tasks follow their scripts:
a beat is one action of one task, one input that the session takes from its queues, the beginning of a
resume, or something that others do meanwhile. The beats come in any order (`Debugger.played`), so that
reader, users, session and the tasks that wait for the answers to resumes can go on in any order, each
by as little as nothing can come between.

Others may do whatever they like, except what only the session and the tasks of resumes do: take inputs,
and tell or fail the outcome of a command (`Move.foreign`). -/

namespace DebugHost

open DebugHost.Session

namespace Debugger

variable {ρ : Type}

/-! ### Beats -/

/-- What may happen next. -/
inductive Beat (ρ : Type) where
  /-- The task `me` attempts the next action of its script. -/
  | task (me : Nat)
  /-- The session takes its next input, or leaves if it has ended. -/
  | session
  /-- A user begins the call `id`, which is to let a thread go on. -/
  | resume (id : Nat) (kind : StepKind) (thread : Int)
  /-- Others do something. -/
  | other (m : Move ρ)
  /-- A task without a script is set aside. -/
  | lift (me : Nat)
  /-- A task without a script is taken up again. -/
  | lay (me : Nat) (t : Task ρ)
  /-- Schedule, log and output are from now on those of another debugger. -/
  | aside (e : Debugger ρ)

/-- Whether others than the session and the tasks of resumes may make a move. -/
def Move.foreign : Move ρ → Bool
  | .act _ (.reply ..) => false
  | .act _ (.post c) => (Room.ticket? c).isNone
  | .pick => false
  | .input _ => false
  | .leave => false
  | .aside _ => false
  | _ => true

/-- The task `me` goes on with a script. -/
def put (d : Debugger ρ) (me : Nat) (t : Task ρ) : Debugger ρ := { d with tasks := d.tasks ++ [(me, t)] }

/-- The debugger without the task `me`. -/
def without (d : Debugger ρ) (me : Nat) : Debugger ρ :=
  { d with tasks := d.tasks.filter (·.1 != me) }

/-- The task of a number. -/
def task? (d : Debugger ρ) (me : Nat) : Option (Task ρ) := (d.tasks.find? (·.1 == me)).map (·.2)

/-- Whether a task is without a script. -/
def bare : Task ρ → Bool
  | .watch _ => false
  | .call .. => false
  | _ => true

/-- The task `me` attempts an action, and has the rest of its script before it if it was done. -/
def pace (d : Debugger ρ) (me : Nat) {α : Type} (a : Action) (next : a.Reply → Script α) :
    Debugger ρ × Script α :=
  match d.attempt me a with
  | (d, .got r) => (d, next r)
  | (d, .wait _ _) => (d, .act a next)

/-- The task `me` attempts the next action of its script, or is over if there is none. -/
def stride (d : Debugger ρ) (me : Nat) : Debugger ρ :=
  match d.task? me with
  | some (.watch (.done ())) => d.without me
  | some (.watch (.act a next)) =>
    let (d, s) := (d.without me).pace me a next
    d.put me (.watch s)
  | some (.call id (.done r)) =>
    let d := d.without me
    { d with finished := d.finished ++ [(id, r)] }
  | some (.call id (.act a next)) =>
    let (d, s) := (d.without me).pace me a next
    d.put me (.call id s)
  | _ => d

/-- The session takes its next input, or leaves if it has ended. -/
def attend (d : Debugger ρ) : Debugger ρ :=
  if d.Over then d.leave
  else
    match d.room.next with
    | none => d
    | some (i, room) => { d with room := room }.takeInput i

end Debugger

/-- A debugger whose calls are to let the program go on. -/
abbrev Resumer := Debugger (Except DebugError Unit)

namespace Debugger

/-- The debugger after a beat. -/
def beat (d : Resumer) : Beat (Except DebugError Unit) → Resumer
  | .task me => d.stride me
  | .session => d.attend
  | .resume id kind thread => d.call id (resume kind thread)
  | .other m => if m.foreign then d.move m else d
  | .lift me => if (d.task? me).any bare then d.without me else d
  | .lay me t => if bare t ∧ me < d.nextTask ∧ ∀ p ∈ d.tasks, p.1 ≠ me then d.put me t else d
  | .aside e =>
    { d with schedule := e.schedule, log := e.log, stdout := e.stdout, stderr := e.stderr }

/-- The debugger after the first `n` beats of a schedule. -/
def played (d : Resumer) (σ : Nat → Beat (Except DebugError Unit)) (n : Nat) : Resumer :=
  reached beat d σ n

theorem played_succ (d : Resumer) (σ : Nat → Beat (Except DebugError Unit)) (n : Nat) :
    d.played σ (n + 1) = (d.played σ n).beat (σ n) :=
  rfl

variable {ρ : Type}

/-! ### What others leave as it is -/

/-- What tasks and session have still to do, and what they have done. -/
structure Work (ρ : Type) where
  tasks : List (Nat × Task ρ)
  nextTask : Nat
  finished : List (Nat × ρ)
  commands : List Session.Command
  outcomes : List (Nat × Option (Except DebugError Unit))
  nextTicket : Nat
  listening : Bool

/-- The work of a debugger. -/
def work (d : Debugger ρ) : Work ρ :=
  ⟨d.tasks, d.nextTask, d.finished, d.room.commands, d.room.outcomes, d.room.nextTicket,
    d.room.listening⟩

/-- Whether an action gives a command to the session or tells the outcome of one. -/
def speaks : Action → Bool
  | .post _ => true
  | .order _ => true
  | .reply .. => true
  | _ => false

/-- Signals change nothing but the schedule. -/
theorem exists_schedule (d : Debugger ρ) (f : Nat → Signal) (ts : List Nat) :
    ∃ s, ts.foldl (fun d t => d.signal (f t)) d = { d with schedule := s } := by
  induction ts generalizing d with
  | nil => exact ⟨d.schedule, rfl⟩
  | cons t ts ih => exact ih (d.signal (f t))

theorem work_signals (d : Debugger ρ) (f : Nat → Signal) (ts : List Nat) :
    (ts.foldl (fun d t => d.signal (f t)) d).work = d.work := by
  obtain ⟨s, hs⟩ := exists_schedule d f ts
  rw [hs]
  rfl

theorem work_lock (d : Debugger ρ) (me : Nat) :
    ({ d with room := (d.room.lock me).1 } : Debugger ρ).work = d.work := by
  unfold Room.lock
  split
  · rfl
  · split
    · rfl
    · split
      · rfl
      · rfl

theorem work_unlock (d : Debugger ρ) (s : BreakpointSet) :
    ({ d with room := (d.room.unlock s).1 } : Debugger ρ).work = d.work := by
  unfold Room.unlock
  split
  · rfl
  · rfl

theorem work_attempt (d : Debugger ρ) (me : Nat) {a : Action} (ha : speaks a = false) :
    (d.attempt me a).1.work = d.work := by
  cases a with
  | post c => cases ha
  | order o => cases ha
  | reply ticket r => cases ha
  | send command arguments =>
    simp only [attempt, send]
    split
    · rfl
    · rfl
  | response x =>
    simp only [attempt]
    split
    · rfl
    · rfl
    · rfl
  | outcome ticket =>
    simp only [attempt]
    split
    · rfl
    · rfl
  | await states deadline =>
    simp only [attempt]
    split
    · rfl
    · split
      · rfl
      · rfl
  | lock =>
    have h := work_lock d me
    simp only [attempt]
    split
    · next hr => rw [hr] at h; exact h
    · next hr => rw [hr] at h; exact h
  | unlock s =>
    have h := work_unlock d s
    simp only [attempt]
    split
    · next hr => rw [hr] at h; exact h
    · next hr => rw [hr] at h; exact h
  | acquire k =>
    simp only [attempt]
    split
    · rfl
    · rfl
    · rfl
  | deliver k r =>
    simp only [attempt]
    rcases d.room.state.tree.deliver k r with ⟨v, tree, woken⟩
    exact work_signals (d.withTree tree) .slot woken
  | _ => rfl

theorem work_afterStep (d : Debugger ρ) (x : Link.Step) :
    (d.afterStep x).work = d.work := by
  unfold afterStep
  simp only
  cases x.sight <;> rfl

theorem work_passReports (d : Debugger ρ) : d.passReports.work = d.work := by
  unfold passReports
  split
  · split
    · rfl
    · simp only
      split
      · rfl
      · rfl
  · rfl

/-- Others leave tasks, commands and outcomes alone, but for the actions that they attempt. -/
theorem work_move (d : Debugger ρ) {m : Move ρ} (hm : m.foreign = true)
    (hact : ∀ me a, m ≠ .act me a) : (d.move m).work = d.work := by
  cases m with
  | act me a => exact absurd rfl (hact me a)
  | pick => cases hm
  | input i => cases hm
  | leave => cases hm
  | aside e => cases hm
  | read => exact work_afterStep d _
  | write => exact work_afterStep d _
  | pass => exact work_passReports d
  | feed e =>
    simp only [move, feed]
    split
    · rfl
    · rfl
  | _ => rfl

theorem settle_all (r : Room) (ts : List Nat) :
    ts.foldl (fun r t => r.settle t none) r =
      { r with outcomes := r.outcomes ++ ts.map fun t => (t, none) } := by
  induction ts generalizing r with
  | nil => simp only [List.foldl_nil, List.map_nil, List.append_nil]
  | cons t ts ih =>
    rw [List.foldl_cons, ih]
    simp only [Room.settle, List.append_assoc, List.map_cons, List.singleton_append]

theorem work_leave (d : Debugger ρ) :
    d.leave.work = { d.work with
      listening := false, commands := [],
      outcomes := d.room.outcomes ++
        (d.room.commands.filterMap Room.ticket?).map fun t => (t, none) } := by
  unfold leave Room.leave
  simp only
  rw [work_signals, settle_all]
  rfl

/-! ### One beat -/

/-- What comes of a debugger in which the task `me` goes on by one action. -/
inductive Strides (d : Debugger ρ) (me : Nat) (d' : Debugger ρ) : Prop where
  /-- There is no script to go on with. -/
  | idle (same : d' = d)
  | watch (a : Action) (next : a.Reply → Script Unit)
    (task : d.task? me = some (.watch (.act a next)))
    (after : d' = ((d.without me).pace me a next).1.put me (.watch ((d.without me).pace me a next).2))
  | watchOver (task : d.task? me = some (.watch (.done ()))) (after : d' = d.without me)
  | call (id : Nat) (a : Action) (next : a.Reply → Script ρ)
    (task : d.task? me = some (.call id (.act a next)))
    (after : d' = ((d.without me).pace me a next).1.put me (.call id ((d.without me).pace me a next).2))
  | callOver (id : Nat) (r : ρ) (task : d.task? me = some (.call id (.done r)))
    (after : d' = { d.without me with finished := d.finished ++ [(id, r)] })

theorem strides (d : Debugger ρ) (me : Nat) : d.Strides me (d.stride me) := by
  unfold stride
  split
  · next h => exact .watchOver h rfl
  · next a next h => exact .watch a next h rfl
  · next id r h => exact .callOver id r h rfl
  · next id a next h => exact .call id a next h rfl
  · exact .idle rfl

theorem pace_fst (d : Debugger ρ) (me : Nat) {α : Type} (a : Action) (next : a.Reply → Script α) :
    (d.pace me a next).1 = (d.attempt me a).1 := by
  unfold pace
  split
  · next h => rw [h]
  · next h => rw [h]

/-! ### The end of the session -/

/-- What a task attempts changes neither the tasks nor the results, and the session does not leave. -/
theorem attempt_keeps (d : Debugger ρ) (me : Nat) (a : Action) :
    (d.attempt me a).1.tasks = d.tasks ∧ (d.attempt me a).1.nextTask = d.nextTask ∧
    (d.attempt me a).1.room.listening = d.room.listening := by
  cases hs : speaks a with
  | false =>
    have h := work_attempt d me hs
    exact ⟨congrArg Work.tasks h, congrArg Work.nextTask h, congrArg Work.listening h⟩
  | true =>
    cases a with
    | post c => simp only [attempt, post]; split <;> exact ⟨rfl, rfl, rfl⟩
    | order o => simp only [attempt]; split <;> exact ⟨rfl, rfl, rfl⟩
    | reply ticket r => exact ⟨rfl, rfl, rfl⟩
    | _ => cases hs

/-- Only the session ends itself, and only then it leaves. -/
structure Keeps (d d' : Debugger ρ) : Prop where
  ended : d.Over → d'.Over
  listening : d'.room.listening = d.room.listening ∨ d'.Over

theorem Keeps.of_room {d d' : Debugger ρ} (h : d'.room = d.room) : d.Keeps d' :=
  ⟨fun ho => by unfold Over; rw [h]; exact ho, Or.inl (by rw [h])⟩

theorem keeps_attempt (d : Debugger ρ) (me : Nat) (a : Action) : d.Keeps (d.attempt me a).1 :=
  ⟨fun ho => (congrArg Status.state (beside_attempt d me a).status).trans ho,
    Or.inl (attempt_keeps d me a).2.2⟩

theorem keeps_stride (d : Debugger ρ) (me : Nat) : d.Keeps (d.stride me) := by
  have hpace : ∀ {α : Type} (a : Action) (next : a.Reply → Script α) (t : Task ρ),
      d.Keeps (((d.without me).pace me a next).1.put me t) := by
    intro α a next t
    have h := keeps_attempt (d.without me) me a
    rw [← pace_fst _ me a next] at h
    exact ⟨h.ended, h.listening⟩
  cases strides d me with
  | idle h => rw [h]; exact .of_room rfl
  | watch a next _ h => rw [h]; exact hpace a next _
  | watchOver _ h => rw [h]; exact .of_room rfl
  | call id a next _ h => rw [h]; exact hpace a next _
  | callOver id r _ h => rw [h]; exact .of_room rfl

theorem effects_keep_room (d : Debugger ρ) (es : List Effect) :
    (es.foldl effect d).room.listening = d.room.listening ∧
    (es.foldl effect d).room.nextTicket = d.room.nextTicket := by
  induction es generalizing d with
  | nil => exact ⟨rfl, rfl⟩
  | cons e es ih =>
    obtain ⟨hl, hn⟩ := ih (d.effect e)
    rw [List.foldl_cons, hl, hn]
    cases e <;> exact ⟨rfl, rfl⟩

/-- The session and the connection after a step of which nobody has learnt yet. -/
def stepped (d : Debugger ρ) (i : Input) : Debugger ρ :=
  let o := d.room.state.step d.link.connection i
  { d with room := { d.room with state := o.state } }.withConnection o.connection

theorem takeInput_eq (d : Debugger ρ) (i : Input) :
    d.takeInput i = (d.room.state.step d.link.connection i).effects.foldl effect (d.stepped i) :=
  rfl

/-- The session takes an input without beginning anew or leaving. -/
theorem takeInput_keeps_room (d : Debugger ρ) (i : Input) :
    (d.takeInput i).room.listening = d.room.listening ∧
    (d.takeInput i).room.nextTicket = d.room.nextTicket :=
  effects_keep_room (d.stepped i) _

theorem next_keeps_room {r room : Room} {i : Input} (h : r.next = some (i, room)) :
    room.listening = r.listening ∧ room.nextTicket = r.nextTicket := by
  unfold Room.next at h
  split at h
  · cases h; exact ⟨rfl, rfl⟩
  · cases h; exact ⟨rfl, rfl⟩
  · split at h
    · cases h; exact ⟨rfl, rfl⟩
    · split at h
      · cases h
      · cases h; exact ⟨rfl, rfl⟩

theorem keeps_attend (d : Debugger ρ) : d.Keeps d.attend := by
  unfold attend
  split
  · next ho =>
    have hleft : d.leave.Over := by
      unfold Over
      rw [(leave_keeps d).1]
      exact ho
    exact ⟨fun _ => hleft, Or.inr hleft⟩
  · next ho =>
    split
    · exact .of_room rfl
    · next i room hr =>
      exact ⟨fun h => absurd h ho,
        Or.inl ((takeInput_keeps_room { d with room := room } i).1.trans (next_keeps_room hr).1)⟩

theorem keeps_beat (d : Resumer) (b : Beat (Except DebugError Unit)) : d.Keeps (d.beat b) := by
  cases b with
  | task me => exact keeps_stride d me
  | session => exact keeps_attend d
  | resume id kind thread => exact .of_room rfl
  | other m =>
    simp only [beat]
    split
    · next hm =>
      have hsame : d.taken? m = none := by
        unfold taken?
        split
        · rfl
        · cases m <;> first | rfl | cases hm
      refine ⟨fun ho => (congrArg Status.state (beside_move hsame).status).trans ho, Or.inl ?_⟩
      by_cases ha : ∃ me a, m = .act me a
      · obtain ⟨me, a, rfl⟩ := ha
        exact (attempt_keeps d me a).2.2
      · exact congrArg Work.listening (work_move d hm fun me a h => ha ⟨me, a, h⟩)
    · exact .of_room rfl
  | lift me => simp only [beat]; split <;> exact .of_room rfl
  | lay me t => simp only [beat]; split <;> exact .of_room rfl
  | aside e => exact .of_room rfl

end Debugger
end DebugHost
