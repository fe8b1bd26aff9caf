import Mathlib.Algebra.Order.Group.Multiset
import Mathlib.Data.Multiset.Range
import Mathlib.Tactic.Abel
import DebugHost.Proofs.Session.Tasks

/-! # Tickets

Who gives the session an order takes a ticket for its outcome. A ticket goes from place to place: with a
command into the queue of the session, from there to the task that waits for the answer to a resume,
with a failure back into the queue, and at last to a settled outcome. The ledger lists all tickets with
their places (`Debugger.ledger`). In one beat at most one ticket changes its place, in one of the ways
that `Debugger.Passes` lists, except that those of all commands in the queue are settled when the
session leaves; so every ticket that was given is in just one place (`Debugger.booked_beat`). -/

namespace DebugHost

open DebugHost.Session

namespace Debugger

variable {ρ : Type}

/-! ### Places -/

/-- Where a ticket can be. -/
inductive Place where
  /-- With a command that the session has not taken. -/
  | queued (c : Session.Command)
  /-- With the task that waits for the answer to a resume. -/
  | watched (w : Wait)
  | settled (o : Option (Except DebugError Unit))

/-- The entry of a command. -/
def queuedEntry (c : Session.Command) : Multiset (Nat × Place) :=
  match Room.ticket? c with
  | some ticket => {(ticket, .queued c)}
  | none => 0

/-- The entry of a task that waits for the answer to a resume. -/
def watchEntry (w : Wait) : Multiset (Nat × Place) :=
  match w.ticket? with
  | some ticket => {(ticket, .watched w)}
  | none => 0

/-- The entry of a task. -/
def taskEntry : Task ρ → Multiset (Nat × Place)
  | .watch s => watchEntry (.ofScript s)
  | _ => 0

/-- All tickets with their places. -/
def Work.ledger (w : Work ρ) : Multiset (Nat × Place) :=
  (w.commands.map queuedEntry).sum + (w.tasks.map fun p => taskEntry p.2).sum +
    ↑(w.outcomes.map fun p => (p.1, Place.settled p.2))

/-- All tickets with their places. -/
def ledger (d : Debugger ρ) : Multiset (Nat × Place) := d.work.ledger

/-! ### The ledger and its parts -/

theorem ledger_put (d : Debugger ρ) (me : Nat) (t : Task ρ) :
    (d.put me t).ledger = taskEntry t + d.ledger := by
  simp only [ledger, Work.ledger, work, put, List.map_append, List.sum_append, List.map_cons,
    List.map_nil, List.sum_cons, List.sum_nil]
  abel

theorem ledger_reply (d : Debugger ρ) (ticket : Nat) (o : Option (Except DebugError Unit)) :
    (d.reply ticket o).ledger = {(ticket, .settled o)} + d.ledger := by
  simp only [ledger, Work.ledger, work, reply, signal, Room.settle, List.map_append, List.map_cons,
    List.map_nil, ← Multiset.coe_add, Multiset.coe_singleton]
  abel

theorem ledger_spawn (d : Debugger ρ) (t : Task ρ) :
    (d.spawn t).ledger = taskEntry t + d.ledger := by
  simp only [ledger, Work.ledger, work, spawn, List.map_append, List.sum_append, List.map_cons,
    List.map_nil, List.sum_cons, List.sum_nil]
  abel

theorem ledger_post (d : Debugger ρ) (c : Session.Command) :
    ({ d with room := d.room.post c } : Debugger ρ).ledger = queuedEntry c + d.ledger := by
  simp only [ledger, Work.ledger, work, Room.post, List.map_append, List.sum_append, List.map_cons,
    List.map_nil, List.sum_cons, List.sum_nil]
  abel

/-- What is taken out of a list of numbered things by its number. -/
theorem sum_map_filter_key {α M : Type} [AddCommMonoid M] (f : Nat × α → M) {l : List (Nat × α)}
    {me : Nat} {p : Nat × α} (hl : (l.map (·.1)).Nodup) (hp : l.find? (·.1 == me) = some p) :
    (l.map f).sum = f p + ((l.filter (·.1 != me)).map f).sum := by
  induction l with
  | nil => cases hp
  | cons q l ih =>
    obtain ⟨hq, hl⟩ := List.nodup_cons.mp hl
    by_cases he : q.1 = me
    · have hqp : q = p := by
        rw [List.find?_cons_of_pos (by simpa using he)] at hp
        exact Option.some.inj hp
      have hrest : l.filter (·.1 != me) = l := by
        refine List.filter_eq_self.mpr fun x hx => ?_
        have : x.1 ≠ me := fun h => hq (List.mem_map.mpr ⟨x, hx, h.trans he.symm⟩)
        simpa using this
      rw [List.filter_cons_of_neg (by simpa using he), hrest, ← hqp, List.map_cons, List.sum_cons]
    · rw [List.find?_cons_of_neg (by simpa using he)] at hp
      rw [List.filter_cons_of_pos (by simpa using he), List.map_cons, List.sum_cons, List.map_cons,
        List.sum_cons, ih hl hp]
      abel

theorem ledger_without {d : Debugger ρ} {me : Nat} {t : Task ρ} (hd : (d.tasks.map (·.1)).Nodup)
    (ht : d.task? me = some t) : d.ledger = taskEntry t + (d.without me).ledger := by
  obtain ⟨p, hp, rfl⟩ := Option.map_eq_some_iff.mp ht
  have h := sum_map_filter_key (fun p => taskEntry p.2) hd hp
  simp only [ledger, Work.ledger, work, without, h]
  abel

/-! ### What the session owes -/

theorem taskEntry_script (w : Wait) : taskEntry (.watch w.script : Task ρ) = watchEntry w := by
  rw [taskEntry, Wait.ofScript_script]

/-- The entry of what is to be done on an effect. -/
def effectEntry : Effect → Multiset (Nat × Place)
  | .reply ticket r => {(ticket, .settled (some r))}
  | .sent x epoch ticket => {(ticket, .watched (.begins x.seq x.command epoch ticket))}
  | _ => 0

/-- The entries of what is to be done on effects. -/
def owed (es : List Effect) : Multiset (Nat × Place) := (es.map effectEntry).sum

theorem owed_cons (e : Effect) (es : List Effect) : owed (e :: es) = effectEntry e + owed es := rfl

theorem owed_append (es es' : List Effect) : owed (es ++ es') = owed es + owed es' := by
  simp only [owed, List.map_append, List.sum_append]

theorem ledger_effects (d : Debugger ρ) (es : List Effect) :
    (es.foldl effect d).ledger = owed es + d.ledger := by
  induction es generalizing d with
  | nil => exact (zero_add _).symm
  | cons e es ih =>
    have he : (d.effect e).ledger = effectEntry e + d.ledger := by
      cases e with
      | reply ticket r => exact ledger_reply d ticket (some r)
      | sent x epoch ticket =>
        have h := ledger_spawn (d.signal .toWrite) (.watch (watchResume x epoch ticket))
        have ht : taskEntry (.watch (watchResume x epoch ticket) : Task ρ) = _ :=
          (congrArg (fun s => taskEntry (.watch s)) (watchResume_eq x epoch ticket)).trans
            (taskEntry_script _)
        rw [ht] at h
        exact h
      | _ => exact (zero_add _).symm
    rw [List.foldl_cons, ih, he, owed_cons]
    abel

theorem owed_eventBody (α : Type) [Json.Typed α] [Inhabited α] (e : Event) :
    owed (State.eventBody (α := α) e).2 = 0 := by
  unfold State.eventBody
  split <;> rfl

theorem owed_terminate (s : State) (c : Connection) (cause : Termination) :
    owed (s.terminate c cause).effects = 0 := by
  unfold State.terminate
  split <;> rfl

theorem owed_event (s : State) (c : Connection) (e : Event) : owed (s.onEvent c e).effects = 0 := by
  unfold State.onEvent
  simp only
  split
  · split <;> rfl
  · simp only [State.before, owed_append, owed_eventBody, zero_add]; rfl
  · simp only [State.before, owed_append, owed_eventBody, zero_add]; split <;> rfl
  · simp only [State.before, owed_append, owed_eventBody, owed_terminate, zero_add]
  · exact owed_terminate _ _ _
  · simp only [owed_append, owed_eventBody, zero_add]; rfl
  · simp only [owed_append, owed_eventBody, zero_add]; rfl
  · rfl

theorem ledger_takeInput (d : Debugger ρ) (i : Input) :
    (d.takeInput i).ledger = owed (d.room.state.step d.link.connection i).effects + d.ledger := by
  rw [takeInput_eq]
  exact ledger_effects (d.stepped i) _

/-- The entry of an input. -/
def inputEntry : Input → Multiset (Nat × Place)
  | .command c => queuedEntry c
  | _ => 0

/-- How an input with a ticket is answered. -/
inductive Answers (es : List Effect) : Input → Multiset (Nat × Place) → Prop where
  /-- An input without a ticket is not. -/
  | silent (i : Input) (none : inputEntry i = 0) : Answers es i 0
  /-- The program goes on if the adapter agrees. -/
  | sent (kind : StepKind) (thread : Int) (ticket : Nat) (seq : Int) (epoch : Nat)
    (effect : .sent ⟨seq, kind.command, none⟩ epoch ticket ∈ es) :
    Answers es (.command (.order (.resume kind thread) ticket))
      {(ticket, .watched (.begins seq kind.command epoch ticket))}
  /-- The program does not go on. -/
  | refused (kind : StepKind) (thread : Int) (ticket : Nat) (e : DebugError) :
    Answers es (.command (.order (.resume kind thread) ticket)) {(ticket, .settled (some (.error e)))}
  /-- Another order is carried out. -/
  | carried (o : Order) (ticket : Nat) (other : ∀ kind thread, o ≠ .resume kind thread)
    (r : Except DebugError Unit) : Answers es (.command (.order o ticket)) {(ticket, .settled (some r))}
  /-- A failure is told. -/
  | failed (epoch : Nat) (e : DebugError) (ticket : Nat) :
    Answers es (.command (.resumeFailed epoch e ticket)) {(ticket, .settled (some (.error e)))}

/-- **Every command with a ticket is answered just once.** -/
theorem answers_step {s : State} (hs : s.status.state ≠ .terminated) (c : Connection) (i : Input) :
    Answers (s.step c i).effects i (owed (s.step c i).effects) := by
  cases i with
  | event e =>
    have h : owed (s.step c (.event e)).effects = 0 := owed_event s c e
    rw [h]
    exact .silent _ rfl
  | closed reason =>
    have h : owed (s.step c (.closed reason)).effects = 0 := owed_terminate s c _
    rw [h]
    exact .silent _ rfl
  | command cmd =>
    simp only [State.step]
    cases cmd with
    | order o ticket =>
      cases o with
      | resume kind thread =>
        simp only [State.onCommand, State.resume]
        split
        · next h => exact absurd h hs
        · split
          · next e _ => exact .refused kind thread ticket e
          · exact .sent kind thread ticket _ _ (.tail _ (.tail _ (.head _)))
        · exact .refused kind thread ticket .notPaused
      | stopping => exact .carried .stopping ticket (fun _ _ => Order.noConfusion) (.ok ())
      | terminate cause =>
        have h : owed (s.onCommand c (.order (.terminate cause) ticket)).effects =
            {(ticket, .settled (some (.ok ())))} := by
          simp only [State.onCommand, owed_append, owed_terminate, zero_add]
          rfl
        rw [h]
        exact .carried (.terminate cause) ticket (fun _ _ => Order.noConfusion) (.ok ())
    | resumeFailed epoch e ticket =>
      simp only [State.onCommand]
      split
      · exact .failed epoch e ticket
      · exact .failed epoch e ticket
    | configured =>
      simp only [State.onCommand]
      split
      · exact .silent _ rfl
      · exact .silent _ rfl
    | exited e =>
      have h : owed (s.onCommand c (.exited e)).effects = 0 := owed_terminate s c _
      rw [h]
      exact .silent _ rfl

/-- The next input leaves the queue with its ticket. -/
theorem ledger_next {d : Debugger ρ} {i : Input} {room : Room} (h : d.room.next = some (i, room)) :
    d.ledger = inputEntry i + ({ d with room := room } : Debugger ρ).ledger := by
  unfold Room.next at h
  split at h
  · cases h; exact (zero_add _).symm
  · cases h; exact (zero_add _).symm
  · split at h
    · cases h; exact (zero_add _).symm
    · split at h
      · cases h
      · next c rest hc =>
        cases h
        simp only [ledger, Work.ledger, work, hc, List.map_cons, List.sum_cons, inputEntry]
        abel

/-- The entries of the queue after the session has left. -/
def droppedEntry (c : Session.Command) : Multiset (Nat × Place) :=
  match Room.ticket? c with
  | some ticket => {(ticket, .settled none)}
  | none => 0

theorem sum_droppedEntry (cs : List Session.Command) :
    (cs.map droppedEntry).sum =
      ↑((cs.filterMap Room.ticket?).map fun ticket => (ticket, Place.settled none)) := by
  induction cs with
  | nil => rfl
  | cons c cs ih =>
    rw [List.map_cons, List.sum_cons, ih, droppedEntry]
    cases h : Room.ticket? c with
    | none => rw [List.filterMap_cons_none h, zero_add]
    | some t => rw [List.filterMap_cons_some h, List.map_cons, Multiset.singleton_add, Multiset.cons_coe]

/-- What comes of the queue when the session leaves. -/
theorem ledger_leave (d : Debugger ρ) :
    ∃ l, d.ledger = (d.room.commands.map queuedEntry).sum + l ∧
      d.leave.ledger = (d.room.commands.map droppedEntry).sum + l := by
  refine ⟨(d.tasks.map fun p => taskEntry p.2).sum +
    ↑(d.room.outcomes.map fun p => (p.1, Place.settled p.2)), add_assoc _ _ _, ?_⟩
  rw [ledger, work_leave, sum_droppedEntry]
  simp only [Work.ledger, work, List.map_nil, List.sum_nil, List.map_append, List.map_map,
    ← Multiset.coe_add, Function.comp_def]
  abel

/-! ### Passing from place to place -/

/-- In a beat the session sends the request numbered `seq` for the one who has the ticket. -/
def Asks (d : Resumer) (b : Beat (Except DebugError Unit)) (ticket : Nat) (seq : Int)
    (command : String) : Prop :=
  b = .session ∧ ¬ d.Over ∧ ∃ i room epoch, d.room.next = some (i, room) ∧
    .sent ⟨seq, command, none⟩ epoch ticket ∈ (d.room.state.step d.link.connection i).effects

/-- In a beat the task is told `r` that waits for the answer to the request `x` for the one who has the
ticket. -/
def Tells (d : Resumer) (b : Beat (Except DebugError Unit)) (ticket : Nat) (x : Exchange)
    (r : Except DebugError Response) : Prop :=
  ∃ me epoch, b = .task me ∧ d.task? me = some (.watch (Wait.waits x epoch ticket).script) ∧
    x.result? d.link.connection d.now = some r

/-- In a beat the session leaves without having taken a command. -/
def Drops (d : Resumer) (b : Beat (Except DebugError Unit)) (c : Session.Command) : Prop :=
  b = .session ∧ d.Over ∧ c ∈ d.room.commands

/-- The ways in which a ticket changes its place. -/
inductive Passes (d : Resumer) (b : Beat (Except DebugError Unit)) (ticket : Nat) :
    Place → Place → Prop where
  /-- The session lets the program go on. -/
  | asked (kind : StepKind) (thread : Int) (seq : Int) (epoch : Nat)
    (asks : d.Asks b ticket seq kind.command) :
    Passes d b ticket (.queued (.order (.resume kind thread) ticket))
      (.watched (.begins seq kind.command epoch ticket))
  /-- The session does not let the program go on. -/
  | refused (kind : StepKind) (thread : Int) (e : DebugError) :
    Passes d b ticket (.queued (.order (.resume kind thread) ticket)) (.settled (some (.error e)))
  /-- The session carries out another order. -/
  | carried (o : Order) (other : ∀ kind thread, o ≠ .resume kind thread) (r : Except DebugError Unit) :
    Passes d b ticket (.queued (.order o ticket)) (.settled (some r))
  /-- The wait for the answer begins. -/
  | begins (seq : Int) (command : String) (epoch deadline : Nat) :
    Passes d b ticket (.watched (.begins seq command epoch ticket))
      (.watched (.waits ⟨seq, command, some deadline⟩ epoch ticket))
  /-- The wait for the answer is over. -/
  | told (x : Exchange) (epoch : Nat) (r : Except DebugError Response) (tells : d.Tells b ticket x r) :
    Passes d b ticket (.watched (.waits x epoch ticket)) (.watched (.answered epoch ticket r))
  /-- A failure goes back to the session. -/
  | back (e : DebugError) (epoch : Nat) :
    Passes d b ticket (.watched (.fails e epoch ticket)) (.queued (.resumeFailed epoch e ticket))
  /-- The session is not there to take the failure. -/
  | alone (e : DebugError) (epoch : Nat) :
    Passes d b ticket (.watched (.fails e epoch ticket)) (.watched (.tells (.error e) ticket))
  /-- The outcome is told. -/
  | tells (r : Except DebugError Unit) :
    Passes d b ticket (.watched (.tells r ticket)) (.settled (some r))
  /-- The session takes a failure and tells it. -/
  | undone (e : DebugError) (epoch : Nat) :
    Passes d b ticket (.queued (.resumeFailed epoch e ticket)) (.settled (some (.error e)))
  /-- The session leaves without having taken the command. -/
  | dropped (c : Session.Command) (drops : d.Drops b c) : Passes d b ticket (.queued c) (.settled none)

/-- What becomes of the ledger in a beat. -/
inductive Passed (d : Resumer) (b : Beat (Except DebugError Unit)) (d' : Resumer) : Prop where
  | same (ledger : d'.ledger = d.ledger) (nextTicket : d'.room.nextTicket = d.room.nextTicket)
  | moved (ticket : Nat) (p p' : Place) (l : Multiset (Nat × Place)) (passes : d.Passes b ticket p p')
    (before : d.ledger = {(ticket, p)} + l) (after : d'.ledger = {(ticket, p')} + l)
    (nextTicket : d'.room.nextTicket = d.room.nextTicket)
  | given (o : Order)
    (after : d'.ledger = {(d.room.nextTicket, .queued (.order o d.room.nextTicket))} + d.ledger)
    (nextTicket : d'.room.nextTicket = d.room.nextTicket + 1)
  | left (l : Multiset (Nat × Place)) (beat : b = .session) (ended : d.Over)
    (before : d.ledger = (d.room.commands.map queuedEntry).sum + l)
    (after : d'.ledger = (d.room.commands.map droppedEntry).sum + l)
    (nextTicket : d'.room.nextTicket = d.room.nextTicket)

theorem taskEntry_bare {t : Task ρ} (h : bare t = true) : taskEntry t = 0 := by
  cases t with
  | watch s => cases h
  | call id s => cases h
  | _ => rfl

theorem ledger_watch {d between : Debugger ρ} (hb : between.work = d.work) (me : Nat) (w : Wait) :
    (between.put me (.watch w.script)).ledger = watchEntry w + d.ledger := by
  rw [ledger_put, taskEntry_script, ledger, hb, ← ledger]

theorem ledger_gone (d : Debugger ρ) (me : Nat) :
    (d.put me (.watch Wait.gone.script)).ledger = d.ledger :=
  (ledger_put d me _).trans (zero_add _)

theorem watchEntry_answered (epoch ticket : Nat) (r : Except DebugError Response) :
    watchEntry (.answered epoch ticket r) = {(ticket, .watched (.answered epoch ticket r))} := by
  rcases r with e | r
  · rcases Wait.answered_error epoch ticket e with hw | hw
    · rw [hw]; rfl
    · rw [hw]; rfl
  · rfl

theorem passed_watch {d between : Resumer} (h : d.Orderly) {me : Nat} {w w' : Wait}
    (ht : d.task? me = some (.watch w.script)) (hp : Watches (d.without me) between w w') :
    d.Passed (.task me) (between.put me (.watch w'.script)) := by
  have hl := ledger_without h.distinct ht
  rw [taskEntry_script] at hl
  cases hp with
  | begins seq command epoch ticket deadline hd =>
    rw [hd]
    exact .moved ticket _ _ _ (.begins seq command epoch deadline) hl (ledger_watch rfl me _) rfl
  | waits x epoch ticket _ hw =>
    exact .same ((ledger_watch hw me _).trans hl.symm) (congrArg Work.nextTicket hw)
  | told x epoch ticket r hr hw =>
    have hafter := ledger_watch hw me (.answered epoch ticket r)
    rw [watchEntry_answered] at hafter
    exact .moved ticket _ _ _ (.told x epoch r ⟨me, epoch, rfl, ht, hr⟩) hl hafter
      (congrArg Work.nextTicket hw)
  | back e epoch ticket hd =>
    rw [hd]
    exact .moved ticket _ _ _ (.back e epoch) hl
      ((ledger_gone _ me).trans (ledger_post (d.without me) (.resumeFailed epoch e ticket))) rfl
  | alone e epoch ticket _ hd =>
    rw [hd]
    exact .moved ticket _ _ _ (.alone e epoch) hl (ledger_watch rfl me _) rfl
  | tells r ticket hd =>
    rw [hd]
    exact .moved ticket _ _ _ (.tells r) hl ((ledger_gone _ me).trans (ledger_reply _ ticket _)) rfl

theorem passed_call {d between : Resumer} (h : d.Orderly) {me id : Nat}
    {s s' : Script (Except DebugError Unit)} (ht : d.task? me = some (.call id s))
    (hp : Calls (d.without me) between s s') :
    d.Passed (.task me) (between.put me (.call id s')) := by
  have hl : d.ledger = (d.without me).ledger :=
    (ledger_without h.distinct ht).trans (zero_add _)
  have hput : (between.put me (.call id s')).ledger = between.ledger :=
    (ledger_put between me _).trans (zero_add _)
  cases hp with
  | gives kind thread _ hd =>
    have hb : between.ledger =
        queuedEntry (.order (.resume kind thread) d.room.nextTicket) + (d.without me).ledger := by
      rw [hd]
      exact ledger_post (d.without me) (.order (.resume kind thread) d.room.nextTicket)
    refine .given (.resume kind thread) ?_ (by rw [hd]; rfl)
    rw [hput, hb, hl]
    rfl
  | late _ _ _ hd => exact .same (hput.trans (by rw [hd, hl])) (by rw [hd]; rfl)
  | waits _ hd => exact .same (hput.trans (by rw [hd, hl])) (by rw [hd]; rfl)
  | ends _ _ _ hd => exact .same (hput.trans (by rw [hd, hl])) (by rw [hd]; rfl)

theorem passed_takes {d : Resumer} {i : Input} {room : Room} (ho : ¬ d.Over)
    (hn : d.room.next = some (i, room)) :
    d.Passed .session ({ d with room := room }.takeInput i) := by
  have hstate : room.state = d.room.state := (next_keeps hn).1
  have hl := ledger_next hn
  have hafter := ledger_takeInput { d with room := room } i
  have hticket := (takeInput_keeps_room { d with room := room } i).2.trans (next_keeps_room hn).2
  have hs : ({ d with room := room } : Resumer).room.state.status.state ≠ .terminated := by
    show room.state.status.state ≠ _
    rw [hstate]
    exact ho
  have hansw := answers_step hs d.link.connection i
  generalize howed : owed (State.step _ d.link.connection i).effects = l at hansw hafter
  cases hansw with
  | silent i hi => exact .same (by rw [hafter, hl, hi]) hticket
  | sent kind thread ticket seq epoch hx =>
    rw [hstate] at hx
    exact .moved ticket _ _ _ (.asked kind thread seq epoch ⟨rfl, ho, _, room, epoch, hn, hx⟩) hl
      hafter hticket
  | refused kind thread ticket e =>
    exact .moved ticket _ _ _ (.refused kind thread e) hl hafter hticket
  | carried o ticket hother r => exact .moved ticket _ _ _ (.carried o hother r) hl hafter hticket
  | failed epoch e ticket => exact .moved ticket _ _ _ (.undone e epoch) hl hafter hticket

/-- **What becomes of the ledger in a beat.** -/
theorem passed_beat {d : Resumer} (h : d.Orderly) (b : Beat (Except DebugError Unit)) :
    d.Passed b (d.beat b) := by
  cases beats h b with
  | rests hw => exact .same (congrArg Work.ledger hw) (congrArg Work.nextTicket hw)
  | watch me w w' between hb ht hp hd =>
    rw [hb] at hd ⊢
    rw [hd]
    exact passed_watch h ht hp
  | watchOver me ht hd =>
    rw [hd]
    exact .same ((ledger_without h.distinct ht).trans (zero_add _)).symm rfl
  | call me id s s' between hb ht hp hd =>
    rw [hb] at hd ⊢
    rw [hd]
    exact passed_call h ht hp
  | callOver me id r ht hd =>
    rw [hd]
    exact .same ((ledger_without h.distinct ht).trans (zero_add _)).symm rfl
  | takes i room hb ho hn hd =>
    rw [hb] at hd ⊢
    rw [hd]
    exact passed_takes ho hn
  | leaves hb ho hd =>
    obtain ⟨l, hbefore, hafter⟩ := ledger_leave d
    exact .left l hb ho hbefore (by rw [hd]; exact hafter)
      (by rw [hd]; exact congrArg Work.nextTicket (work_leave d))
  | begins id kind thread _ hd =>
    rw [hd]
    exact .same ((ledger_spawn d _).trans (zero_add _)) rfl
  | orders o hd =>
    rw [hd]
    exact .given o (ledger_post d (.order o d.room.nextTicket)) rfl
  | posts c hc hd =>
    have hq : queuedEntry c = 0 := by simp only [queuedEntry, hc]
    rw [hd]
    exact .same ((ledger_post d c).trans (by rw [hq, zero_add])) rfl
  | lifts me t ht hbare hd =>
    rw [hd]
    exact .same ((ledger_without h.distinct ht).trans (by rw [taskEntry_bare hbare, zero_add])).symm rfl
  | lays me t hbare _ _ hd =>
    rw [hd]
    exact .same ((ledger_put d me t).trans (by rw [taskEntry_bare hbare, zero_add])) rfl

/-! ### One place for every ticket -/

/-- Every ticket that was given is in just one place. -/
structure Booked (d : Resumer) : Prop where
  orderly : d.Orderly
  once : d.ledger.map Prod.fst = Multiset.range d.room.nextTicket

theorem Booked.nodup {d : Resumer} (h : d.Booked) : (d.ledger.map Prod.fst).Nodup := by
  rw [h.once]
  exact Multiset.nodup_range _

theorem Booked.unique {d : Resumer} (h : d.Booked) {ticket : Nat} {p p' : Place}
    (hp : (ticket, p) ∈ d.ledger) (hp' : (ticket, p') ∈ d.ledger) : p = p' :=
  congrArg Prod.snd (Multiset.inj_on_of_nodup_map h.nodup _ hp _ hp' rfl)

/-- The tickets of the queue stay what they are when the session leaves. -/
theorem fst_droppedEntry (cs : List Session.Command) :
    (cs.map droppedEntry).sum.map Prod.fst = (cs.map queuedEntry).sum.map Prod.fst := by
  induction cs with
  | nil => rfl
  | cons c cs ih =>
    simp only [List.map_cons, List.sum_cons, Multiset.map_add, ih]
    unfold droppedEntry queuedEntry
    cases Room.ticket? c <;> rfl

/-- **Every ticket that was given is in just one place.** -/
theorem booked_beat {d : Resumer} (h : d.Booked) (b : Beat (Except DebugError Unit)) :
    (d.beat b).Booked := by
  refine ⟨orderly_beat h.orderly b, ?_⟩
  have honce := h.once
  cases passed_beat h.orderly b with
  | same hl hn => rw [hl, hn, honce]
  | moved ticket p p' l _ hb ha hn =>
    rw [hn, ← honce, hb, ha, Multiset.map_add, Multiset.map_add]
    rfl
  | given o ha hn =>
    rw [ha, hn, Multiset.map_add, honce, Multiset.range_succ]
    rfl
  | left l _ _ hb ha hn =>
    rw [hn, ← honce, hb, ha, Multiset.map_add, Multiset.map_add, fst_droppedEntry]

theorem mem_queuedEntry {cs : List Session.Command} {ticket : Nat} {p : Place}
    (h : (ticket, p) ∈ (cs.map queuedEntry).sum) :
    ∃ c ∈ cs, p = .queued c ∧ (ticket, .settled none) ∈ (cs.map droppedEntry).sum := by
  induction cs with
  | nil => cases h
  | cons c cs ih =>
    simp only [List.map_cons, List.sum_cons, Multiset.mem_add] at h ⊢
    rcases h with h | h
    · unfold queuedEntry at h
      cases hc : Room.ticket? c with
      | none => rw [hc] at h; cases h
      | some t =>
        rw [hc] at h
        cases Multiset.mem_singleton.mp h
        exact ⟨c, .head _, rfl, Or.inl (by simp only [droppedEntry, hc, Multiset.mem_singleton])⟩
    · obtain ⟨c', hc', hp, hd⟩ := ih h
      exact ⟨c', .tail _ hc', hp, Or.inr hd⟩

/-- **A ticket stays in its place or passes to another one.** -/
theorem place_beat {d : Resumer} (h : d.Orderly) (b : Beat (Except DebugError Unit)) {ticket : Nat}
    {p : Place} (hp : (ticket, p) ∈ d.ledger) :
    ∃ p', (ticket, p') ∈ (d.beat b).ledger ∧ (p' = p ∨ d.Passes b ticket p p') := by
  cases passed_beat h b with
  | same hl _ => exact ⟨p, hl ▸ hp, Or.inl rfl⟩
  | moved t q q' l hpass hb ha _ =>
    rw [hb] at hp
    rw [ha]
    rcases Multiset.mem_add.mp hp with hp | hp
    · cases Multiset.mem_singleton.mp hp
      exact ⟨q', Multiset.mem_add.mpr (Or.inl (Multiset.mem_singleton_self _)), Or.inr hpass⟩
    · exact ⟨p, Multiset.mem_add.mpr (Or.inr hp), Or.inl rfl⟩
  | given o ha _ => exact ⟨p, by rw [ha]; exact Multiset.mem_add.mpr (Or.inr hp), Or.inl rfl⟩
  | left l hb ho hbefore ha _ =>
    rw [hbefore] at hp
    rw [ha]
    rcases Multiset.mem_add.mp hp with hp | hp
    · obtain ⟨c, hc, rfl, hd⟩ := mem_queuedEntry hp
      exact ⟨_, Multiset.mem_add.mpr (Or.inl hd), Or.inr (.dropped c ⟨hb, ho, hc⟩)⟩
    · exact ⟨p, Multiset.mem_add.mpr (Or.inr hp), Or.inl rfl⟩

/-! ### What is known after a beat -/

theorem mem_owed {es : List Effect} {e : Effect} (he : e ∈ es) {x : Nat × Place}
    (hx : x ∈ effectEntry e) : x ∈ owed es := by
  induction he with
  | head es => exact Multiset.mem_add.mpr (Or.inl hx)
  | tail e' _ ih => exact Multiset.mem_add.mpr (Or.inr ih)

/-- The request for a ticket has been sent. -/
theorem Asks.after {d : Resumer} {b : Beat (Except DebugError Unit)} {ticket : Nat} {seq : Int}
    {command : String} (h : d.Asks b ticket seq command) :
    ∃ epoch, (ticket, .watched (.begins seq command epoch ticket)) ∈ (d.beat b).ledger := by
  obtain ⟨rfl, ho, i, room, epoch, hn, hx⟩ := h
  have hbeat : d.beat .session = { d with room := room }.takeInput i := by
    simp only [beat, attend, if_neg ho, hn]
  rw [← (next_keeps hn).1] at hx
  have hl := ledger_takeInput { d with room := room } i
  rw [hbeat, hl]
  exact ⟨epoch, Multiset.mem_add.mpr (Or.inl (mem_owed hx (Multiset.mem_singleton_self _)))⟩

/-- What came of the request for a ticket has been told. -/
theorem Tells.after {d : Resumer} {b : Beat (Except DebugError Unit)} {ticket : Nat} {x : Exchange}
    {r : Except DebugError Response} (h : d.Tells b ticket x r) :
    ∃ epoch, (ticket, .watched (.answered epoch ticket r)) ∈ (d.beat b).ledger := by
  obtain ⟨me, epoch, rfl, ht, hr⟩ := h
  obtain ⟨w', hw', hp⟩ := watches_pace (d.without me) me (w := .waits x epoch ticket) rfl
  have hbeat : d.beat (.task me) = (((d.without me).pace me (.response x)
      (tellAnswer epoch ticket)).1).put me (.watch w'.script) := by
    rw [← hw']
    simp only [beat, stride, ht, Wait.script]
  rw [hbeat]
  cases hp with
  | waits _ _ _ hnone _ => cases hnone.symm.trans hr
  | told _ _ _ r' hr' _ =>
    cases hr'.symm.trans hr
    refine ⟨epoch, ?_⟩
    rw [ledger_put, taskEntry_script, watchEntry_answered]
    exact Multiset.mem_add.mpr (Or.inl (Multiset.mem_singleton_self _))

/-- A settled outcome is in the ledger. -/
theorem settled_mem {d : Debugger ρ} {ticket : Nat} {o : Option (Except DebugError Unit)}
    (h : d.room.outcome? ticket = some o) : (ticket, .settled o) ∈ d.ledger := by
  obtain ⟨⟨t, o'⟩, hf, rfl⟩ := Option.map_eq_some_iff.mp h
  have ht : t = ticket := by simpa using List.find?_some hf
  subst ht
  refine Multiset.mem_add.mpr (Or.inr ?_)
  exact Multiset.mem_coe.mpr (List.mem_map.mpr ⟨_, List.mem_of_find?_eq_some hf, rfl⟩)

end Debugger
end DebugHost
