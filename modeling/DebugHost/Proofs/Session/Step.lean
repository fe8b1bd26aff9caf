import DebugHost.Session.State

/-! # What a session makes of an input

`State.handles_step` says all that a session which has not ended does with an input: it takes note of
it (`State.note`), and then stays in its state, enters one (`State.entered?`), lets the program go on,
or ends. Everything else about steps follows from it, and no proof after it opens `State.step`. -/

namespace DebugHost

/-- What an event of the adapter is about. -/
inductive EventKind where
  | initialized
  | stopped
  | continued
  | exited
  | terminated
  | output
  | thread
  | other
deriving DecidableEq, Repr

/-- What an event of a name is about. -/
def EventKind.ofName : String → EventKind
  | "initialized" => .initialized
  | "stopped" => .stopped
  | "continued" => .continued
  | "exited" => .exited
  | "terminated" => .terminated
  | "output" => .output
  | "thread" => .thread
  | _ => .other

/-- What an event is about. -/
def Event.kind (e : Event) : EventKind := .ofName e.event

namespace Session

open DebugHost.Json

/-- The body of an event, or the default body if it cannot be read. -/
def bodyOf (α : Type) [Typed α] [Inhabited α] (e : Event) : α := (State.eventBody (α := α) e).1

/-! ### What an input says -/

/-- Why an input ends the session, if it does. -/
def Input.cause? : Input → Option Termination
  | .event e =>
    match e.kind with
    | .exited => some (.exited (bodyOf ExitedBody e).exitCode)
    | .terminated => some (.exited none)
    | _ => none
  | .closed reason => some (.connectionLost reason)
  | .command (.order (.terminate cause) _) => some cause
  | .command (.exited e) => some (.ofExit e)
  | .command _ => none

/-- The report of an input that does not end the session, if there is one. The session is in the
generation `g` after it. -/
def Input.report? (g : Generation) : Input → Option DebugEvent
  | .event e =>
    match e.kind with
    | .stopped => some (.stopped (bodyOf StoppedBody e).reason (bodyOf StoppedBody e).threadId g)
    | .continued => some (.continued (bodyOf ContinuedBody e).threadId)
    | .output => some (.output (bodyOf OutputBody e).category (bodyOf OutputBody e).output)
    | .thread => some (.thread (bodyOf ThreadBody e).reason (bodyOf ThreadBody e).threadId)
    | _ => none
  | _ => none

/-- The thread that an input names as stopped. -/
def Input.stoppedThread? : Input → Option Int
  | .event e => if e.kind = .stopped then (bodyOf StoppedBody e).threadId else none
  | _ => none

/-- Whether an input tells that the user wants to stop. -/
def Input.asksStop : Input → Bool
  | .command (.order .stopping _) => true
  | _ => false

/-- The reports among the effects of a step. -/
def emitted (es : List Effect) : List DebugEvent :=
  es.filterMap fun
    | .emit e => some e
    | _ => none

/-! ### What becomes of the state -/

namespace State

/-- The session with an input noted, before its state changes. -/
def note (s : State) : Input → State
  | .event e =>
    let s := { s with epoch := s.epoch + 1 }
    match e.kind with
    | .stopped =>
      let b := bodyOf StoppedBody e
      { s with status := { s.status with
        activeThread := b.threadId.or s.status.activeThread, stopReason := some b.reason } }
    | .thread => { s with threads := s.threads.apply (bodyOf ThreadBody e) }
    | _ => s
  | .command (.order .stopping _) => { s with stopping := true }
  | _ => s

/-- A session and what a note makes of it. -/
structure Noted (s s' : State) : Prop where
  state : s'.status.state = s.status.state
  generation : s'.status.generation = s.status.generation
  termination : s'.status.termination = s.status.termination
  tree : s'.tree = s.tree
  published : s'.published = s.published

/-- Of a command a session notes at most that the user wants to stop. -/
theorem note_command (s : State) (cmd : Command) :
    s.note (.command cmd) = s ∨ s.note (.command cmd) = { s with stopping := true } := by
  cases cmd with
  | order o ticket =>
    cases o with
    | stopping => exact Or.inr rfl
    | resume kind thread => exact Or.inl rfl
    | terminate cause => exact Or.inl rfl
  | resumeFailed epoch error ticket => exact Or.inl rfl
  | configured => exact Or.inl rfl
  | exited e => exact Or.inl rfl

theorem noted_note (s : State) (i : Input) : s.Noted (s.note i) := by
  cases i with
  | event e =>
    simp only [note]
    split
    · exact ⟨rfl, rfl, rfl, rfl, rfl⟩
    · exact ⟨rfl, rfl, rfl, rfl, rfl⟩
    · exact ⟨rfl, rfl, rfl, rfl, rfl⟩
  | closed reason => exact ⟨rfl, rfl, rfl, rfl, rfl⟩
  | command cmd =>
    rcases note_command s cmd with h | h
    · rw [h]; exact ⟨rfl, rfl, rfl, rfl, rfl⟩
    · rw [h]; exact ⟨rfl, rfl, rfl, rfl, rfl⟩

/-- The state that a session enters, or enters anew, on an input. -/
def entered? (s : State) (c : Connection) : Input → Option RunState
  | .event e =>
    match e.kind with
    | .initialized => if s.status.state = .launching then some .configuring else none
    | .stopped => some .paused
    | .continued =>
      if s.status.state = .paused ∨ s.status.state = .running then some .running else none
    | .exited => some .terminated
    | .terminated => some .terminated
    | _ => none
  | .closed _ => some .terminated
  | .command (.order (.resume ..) _) =>
    if s.status.state = .paused ∧ c.isClosed = false then some .running else none
  | .command (.order .stopping _) => none
  | .command (.order (.terminate _) _) => some .terminated
  | .command (.resumeFailed epoch _ _) =>
    if epoch = s.epoch ∧ s.status.state = .running then some .paused else none
  | .command .configured => if s.status.state = .configuring then some .running else none
  | .command (.exited _) => some .terminated

/-- The session after its end. -/
def finish (s : State) (cause : Termination) : State :=
  let tree := s.tree.close
  publish { s with
    epoch := s.epoch + 1, tree := tree,
    status := { s.status with
      state := .terminated, generation := tree.generation,
      termination := some (if s.stopping then .userStopped else cause) } }

end State

end Session

open DebugHost.Json in
/-- The connection after the request that lets a thread go on. -/
def Connection.resumed (c : Connection) (kind : StepKind) (thread : Int) : Connection :=
  (c.takeSeq.2.expect c.nextSeq).post (.request ⟨c.nextSeq, kind.command,
    (Typed.write (ThreadArguments.mk thread)).canonical⟩)

namespace Session

open DebugHost.Json

/-- What a session does with an input. -/
inductive Handles (s : State) (c : Connection) (i : Input) (o : Outcome) : Prop where
  /-- It stays in its state. -/
  | stays (entered : s.entered? c i = none)
    (state : o.state = s.note i) (connection : o.connection = c)
    (emits : emitted o.effects = (i.report? o.state.status.generation).toList)
  /-- It enters a state in which it goes on. -/
  | enters (st : RunState) (entered : s.entered? c i = some st) (goesOn : st ≠ .terminated)
    (other : ∀ kind thread ticket, i ≠ .command (.order (.resume kind thread) ticket))
    (state : o.state = (s.note i).enter st (st = .paused)) (connection : o.connection = c)
    (emits : emitted o.effects = (i.report? o.state.status.generation).toList)
  /-- It lets a thread go on. -/
  | resumes (kind : StepKind) (thread : Int) (ticket : Nat)
    (input : i = .command (.order (.resume kind thread) ticket))
    (paused : s.status.state = .paused) (opened : c.isClosed = false)
    (state : o.state = s.enter .running false) (connection : o.connection = c.resumed kind thread)
    (emits : emitted o.effects = [])
  /-- It ends. -/
  | ends (cause : Termination) (entered : s.entered? c i = some .terminated)
    (why : i.cause? = some cause)
    (state : o.state = (s.note i).finish cause) (connection : o.connection = c.close .shutdown)
    (emits : emitted o.effects = [.terminated (if s.stopping then .userStopped else cause)])

theorem emitted_append (es es' : List Effect) : emitted (es ++ es') = emitted es ++ emitted es' :=
  List.filterMap_append

/-- What is said of a body is no report. -/
theorem emitted_eventBody (α : Type) [Typed α] [Inhabited α] (e : Event) :
    emitted (State.eventBody (α := α) e).2 = [] := by
  unfold State.eventBody
  split <;> rfl

theorem send_open {c : Connection} (h : c.isClosed = false) (kind : StepKind) (thread : Int) :
    c.send kind.command (Typed.write (ThreadArguments.mk thread)).canonical =
      .ok (c.nextSeq, c.resumed kind thread) := by
  unfold Connection.send
  rw [h]
  rfl

namespace State

/-! ### What a note leaves as it is -/

/-- Only an event that the program has stopped is noted in the status. -/
theorem note_activeThread (s : State) (i : Input) :
    (s.note i).status.activeThread = i.stoppedThread?.or s.status.activeThread := by
  cases i with
  | event e =>
    simp only [note, Input.stoppedThread?]
    split
    · next hk => rw [if_pos hk]
    · next hk => rw [if_neg (by rw [hk]; decide)]; rfl
    · next hk _ => rw [if_neg hk]; rfl
  | closed reason => rfl
  | command cmd =>
    rcases note_command s cmd with h | h
    · rw [h]; rfl
    · rw [h]; rfl

theorem note_stopping (s : State) (i : Input) :
    (s.note i).stopping = (s.stopping || i.asksStop) := by
  cases i with
  | event e =>
    simp only [note]
    split
    · exact (Bool.or_false _).symm
    · exact (Bool.or_false _).symm
    · exact (Bool.or_false _).symm
  | closed reason => exact (Bool.or_false _).symm
  | command cmd =>
    cases cmd with
    | order o ticket =>
      cases o with
      | stopping => exact (Bool.or_true _).symm
      | resume kind thread => exact (Bool.or_false _).symm
      | terminate cause => exact (Bool.or_false _).symm
    | resumeFailed epoch error ticket => exact (Bool.or_false _).symm
    | configured => exact (Bool.or_false _).symm
    | exited e => exact (Bool.or_false _).symm

/-- The status of a session that stays in its state is not even noted anything in. -/
theorem note_status {s : State} {c : Connection} {i : Input} (h : s.entered? c i = none) :
    (s.note i).status = s.status := by
  cases i with
  | event e =>
    simp only [note]
    split
    · next hk => simp only [entered?, hk] at h; cases h
    · rfl
    · rfl
  | closed reason => rfl
  | command cmd =>
    rcases note_command s cmd with hn | hn
    · rw [hn]
    · rw [hn]

/-- The inputs that end a session do not ask it to stop. -/
theorem asksStop_of_cause {i : Input} {cause : Termination} (hw : i.cause? = some cause) :
    i.asksStop = false := by
  cases i with
  | event e => rfl
  | closed reason => rfl
  | command cmd =>
    cases cmd with
    | order o ticket =>
      cases o with
      | stopping => cases hw
      | _ => rfl
    | _ => rfl

theorem entered_of_cause {s : State} {c : Connection} {i : Input} {cause : Termination}
    (hw : i.cause? = some cause) : s.entered? c i = some .terminated := by
  cases i with
  | event e =>
    simp only [Input.cause?] at hw
    split at hw
    · next hk => simp only [entered?, hk]
    · next hk => simp only [entered?, hk]
    · cases hw
  | closed reason => rfl
  | command cmd =>
    cases cmd with
    | order o ticket =>
      cases o with
      | terminate cause => rfl
      | _ => cases hw
    | exited e => rfl
    | _ => cases hw

variable {s : State} (c : Connection)

theorem terminate_going (hs : s.status.state ≠ .terminated) (cause : Termination) :
    s.terminate c cause = ⟨s.finish cause, c.close .shutdown, [.published, .closed,
      .log ((s.finish cause).record .info "debug session terminated"
        [("cause", .shown (if s.stopping then Termination.userStopped else cause).text)]),
      .emit (.terminated (if s.stopping then .userStopped else cause))]⟩ := by
  unfold terminate
  rw [if_neg hs]
  rfl

/-- Of the effects only the reports count. -/
theorem handles_effects {i : Input} {o : Outcome} (h : Handles s c i o) {es : List Effect}
    (he : emitted es = emitted o.effects) : Handles s c i { o with effects := es } := by
  cases h with
  | stays hi hs hc hr => exact .stays hi hs hc (he.trans hr)
  | enters st hi hst hother hs hc hr => exact .enters st hi hst hother hs hc (he.trans hr)
  | resumes kind thread ticket hi hp ho hs hc hr =>
    exact .resumes kind thread ticket hi hp ho hs hc (he.trans hr)
  | ends cause hi hw hs hc hr => exact .ends cause hi hw hs hc (he.trans hr)

/-- What is said of the body of an event changes nothing. -/
theorem handles_before {i : Input} {o : Outcome} {es : List Effect} (h : Handles s c i o)
    (hes : emitted es = []) : Handles s c i (before es o) :=
  handles_effects c h (by rw [emitted_append, hes, List.nil_append])

theorem handles_terminate (hs : s.status.state ≠ .terminated) {i : Input} {cause : Termination}
    (hw : i.cause? = some cause) : Handles s c i ((s.note i).terminate c cause) := by
  have hstop : (s.note i).stopping = s.stopping := by
    rw [note_stopping, asksStop_of_cause hw, Bool.or_false]
  rw [← (noted_note s i).state] at hs
  rw [terminate_going c hs]
  exact .ends cause (entered_of_cause hw) hw rfl rfl (by rw [hstop]; rfl)

theorem handles_event (hs : s.status.state ≠ .terminated) (e : Event) :
    Handles s c (.event e) (s.onEvent c e) := by
  have other : ∀ kind thread ticket, Input.event e ≠ .command (.order (.resume kind thread) ticket) :=
    fun _ _ _ => Input.noConfusion
  unfold onEvent
  simp only
  split
  · next h =>
    have hk : e.kind = .initialized := by rw [Event.kind, h]; rfl
    split
    · next hl =>
      refine .enters .configuring ?_ (by decide) other ?_ rfl ?_
      · simp only [entered?, hk, if_pos hl]
      · simp only [note, hk]; rfl
      · simp only [Input.report?, hk]; rfl
    · next hl =>
      refine .stays ?_ ?_ rfl ?_
      · simp only [entered?, hk, if_neg hl]
      · simp only [note, hk]
      · simp only [Input.report?, hk]; rfl
  · next h =>
    have hk : e.kind = .stopped := by rw [Event.kind, h]; rfl
    refine handles_before c (.enters .paused ?_ (by decide) other ?_ rfl ?_)
      (emitted_eventBody StoppedBody e)
    · simp only [entered?, hk]
    · simp only [note, hk]; rfl
    · simp only [Input.report?, hk]; rfl
  · next h =>
    have hk : e.kind = .continued := by rw [Event.kind, h]; rfl
    refine handles_before c ?_ (emitted_eventBody ContinuedBody e)
    split
    · next hl =>
      refine .enters .running ?_ (by decide) other ?_ rfl ?_
      · simp only [entered?, hk, if_pos hl]
      · simp only [note, hk]; rfl
      · simp only [Input.report?, hk]; rfl
    · next hl =>
      refine .stays ?_ ?_ rfl ?_
      · simp only [entered?, hk, if_neg hl]
      · simp only [note, hk]
      · simp only [Input.report?, hk]; rfl
  · next h =>
    have hk : e.kind = .exited := by rw [Event.kind, h]; rfl
    have hn : s.note (.event e) = { s with epoch := s.epoch + 1 } := by simp only [note, hk]
    have hw : (Input.event e).cause? = some (.exited (bodyOf ExitedBody e).exitCode) := by
      simp only [Input.cause?, hk]
    have ht := handles_terminate c hs hw
    rw [hn] at ht
    exact handles_before c ht (emitted_eventBody ExitedBody e)
  · next h =>
    have hk : e.kind = .terminated := by rw [Event.kind, h]; rfl
    have hn : s.note (.event e) = { s with epoch := s.epoch + 1 } := by simp only [note, hk]
    have hw : (Input.event e).cause? = some (.exited none) := by simp only [Input.cause?, hk]
    have ht := handles_terminate c hs hw
    rw [hn] at ht
    exact ht
  · next h =>
    have hk : e.kind = .output := by rw [Event.kind, h]; rfl
    refine .stays ?_ ?_ rfl ?_
    · simp only [entered?, hk]
    · simp only [note, hk]
    · simp only [emitted_append, emitted_eventBody, Input.report?, hk]; rfl
  · next h =>
    have hk : e.kind = .thread := by rw [Event.kind, h]; rfl
    refine .stays ?_ ?_ rfl ?_
    · simp only [entered?, hk]
    · simp only [note, hk]; rfl
    · simp only [emitted_append, emitted_eventBody, Input.report?, hk]; rfl
  · next h1 h2 h3 h4 h5 h6 h7 =>
    have hk : e.kind = .other := by
      unfold Event.kind EventKind.ofName
      split <;> first | rfl | contradiction
    refine .stays ?_ ?_ rfl ?_
    · simp only [entered?, hk]
    · simp only [note, hk]
    · simp only [Input.report?, hk]; rfl

theorem handles_resume (hs : s.status.state ≠ .terminated) (kind : StepKind) (thread : Int)
    (ticket : Nat) :
    Handles s c (.command (.order (.resume kind thread) ticket)) (s.resume c kind thread ticket) := by
  unfold resume
  split
  · next h => exact absurd h hs
  · next h =>
    cases ho : c.isClosed with
    | true =>
      have hsend : c.send kind.command (Typed.write (ThreadArguments.mk thread)).canonical =
          .error .sessionTerminated := by
        unfold Connection.send
        rw [if_pos ho]
      rw [hsend]
      refine .stays ?_ rfl rfl rfl
      simp only [entered?, ho]
      rw [if_neg fun hc => Bool.noConfusion hc.2]
    | false =>
      rw [send_open ho kind thread]
      exact .resumes kind thread ticket rfl h ho rfl rfl rfl
  · next h =>
    refine .stays ?_ rfl rfl rfl
    simp only [entered?]
    rw [if_neg fun hc => h hc.1]

theorem handles_command (hs : s.status.state ≠ .terminated) (cmd : Command) :
    Handles s c (.command cmd) (s.onCommand c cmd) := by
  cases cmd with
  | order o ticket =>
    cases o with
    | resume kind thread => exact handles_resume c hs kind thread ticket
    | stopping => exact .stays rfl rfl rfl rfl
    | terminate cause =>
      have ht : Handles s c (.command (.order (.terminate cause) ticket)) (s.terminate c cause) :=
        handles_terminate c hs rfl
      exact handles_effects c ht (by rw [emitted_append]; exact List.append_nil _)
  | resumeFailed epoch error ticket =>
    simp only [onCommand]
    split
    · next h =>
      refine .enters .paused ?_ (by decide) (fun _ _ _ => ?_) rfl rfl rfl
      · simp only [entered?, if_pos h]
      · intro hc; cases hc
    · next h =>
      refine .stays ?_ rfl rfl rfl
      simp only [entered?, if_neg h]
  | configured =>
    simp only [onCommand]
    split
    · next h =>
      refine .enters .running ?_ (by decide) (fun _ _ _ => ?_) rfl rfl rfl
      · simp only [entered?, if_pos h]
      · intro hc; cases hc
    · next h =>
      refine .stays ?_ rfl rfl rfl
      simp only [entered?, if_neg h]
  | exited e => exact handles_terminate c hs rfl

/-- **All that a session which has not ended does with an input.** -/
theorem handles_step (hs : s.status.state ≠ .terminated) (i : Input) :
    Handles s c i (s.step c i) := by
  cases i with
  | event e => exact handles_event c hs e
  | closed reason => exact handles_terminate c hs rfl
  | command cmd => exact handles_command c hs cmd

end State
end Session
end DebugHost
