import DebugHost.Proofs.Connection.Intake
import DebugHost.Proofs.Script
import DebugHost.Proofs.Session.Lockstep
import DebugHost.Proofs.Session.Runs

/-! # A session with a single user

A session that nobody else uses has a single call. Reader, writer and session go on beside it in any
order, the adapter does what it likes, time passes, and the program may exit, but no other user acts
(`Debugger.lone`). What is sent and what becomes of the record of breakpoints follows from the deeds of
the call (`follows_attempt`), since everybody else leaves both as they are (`bystands_beat`). -/

namespace DebugHost

open DebugHost.Session DebugHost.Script DebugHost.Traffic

namespace Debugger

/-! ### The requests on their way -/

/-- The requests `rs` have been sent: those that are written are the first of them, and while the
connection is open those that wait are all others. -/
structure Conveys (l : Link) (rs : List Request) : Prop where
  written : requests l.written <+: rs
  waiting : l.connection.isClosed = false → requests (l.written ++ l.connection.queue) = rs

variable {l l' : Link} {rs : List Request}

theorem Conveys.of_same (h : Conveys l rs) (hw : l'.written = l.written)
    (hq : l'.connection.isClosed = false →
      l.connection.isClosed = false ∧
        requests l'.connection.queue = requests l.connection.queue) : Conveys l' rs := by
  refine ⟨hw ▸ h.written, fun ho => ?_⟩
  obtain ⟨hopen, hqueue⟩ := hq ho
  rw [hw, requests_append, hqueue, ← requests_append, h.waiting hopen]

/-- On a closed connection it does not matter what waits. -/
theorem Conveys.of_closed (h : Conveys l rs) (hw : l'.written = l.written)
    (hc : l'.connection.isClosed = true) : Conveys l' rs :=
  h.of_same hw fun ho => Bool.noConfusion (hc.symm.trans ho)

/-- The reader sends no requests, and refuses those of the adapter. -/
theorem Conveys.read (h : Conveys l rs) : Conveys l.read.link rs := by
  unfold Link.read
  split
  · exact h.of_closed rfl (isClosed_endReading l .shutdown)
  · split
    · exact h.of_same rfl fun ho => ⟨ho, rfl⟩
    · next m r _ =>
      cases m with
      | response a =>
        simp only [Link.receive, Connection.complete]
        split
        · exact h.of_same rfl fun ho => ⟨ho, rfl⟩
        · exact h.of_same rfl fun ho => ⟨ho, rfl⟩
      | event e => exact h.of_same rfl fun ho => ⟨ho, rfl⟩
      | request q =>
        refine h.of_same rfl fun ho => ⟨ho, ?_⟩
        exact (requests_append _ _).trans (List.append_nil _)
    · exact h.of_closed rfl (isClosed_endReading _ _)
    · exact h.of_closed rfl (isClosed_endReading _ _)

/-- The writer writes what waits, in order. -/
theorem Conveys.write (h : Conveys l rs) : Conveys l.write.link rs := by
  unfold Link.write
  split
  · exact h.of_same rfl fun ho => ⟨ho, rfl⟩
  · next hopen =>
    have hopen : l.connection.isClosed = false := Bool.eq_false_iff.mpr hopen
    split
    · exact h.of_same rfl fun ho => ⟨ho, rfl⟩
    · next m rest hqueue =>
      simp only
      split
      · have hall : requests ((l.written ++ [m]) ++ rest) = rs := by
          rw [List.append_assoc, List.singleton_append, ← hqueue]
          exact h.waiting hopen
        refine ⟨?_, fun _ => hall⟩
        rw [← hall, requests_append (l.written ++ [m])]
        exact List.prefix_append _ _
      · exact h.of_closed rfl (isClosed_close _ _)

/-- A request that is sent is behind all others. -/
theorem Conveys.send (h : Conveys l rs) {c : Connection} {command : String} {arguments : Json.Value}
    {seq : Int} (hs : l.connection.send command arguments = .ok (seq, c)) :
    Conveys { l with connection := c } (rs ++ [⟨seq, command, arguments⟩]) := by
  unfold Connection.send at hs
  split at hs
  · cases hs
  · next hopen =>
    cases hs
    refine ⟨h.written.trans (List.prefix_append _ _), fun _ => ?_⟩
    have hwaiting := h.waiting (Bool.eq_false_iff.mpr hopen)
    rw [← hwaiting]
    show requests (l.written ++ (l.connection.queue ++ [Message.request _])) = _
    rw [← List.append_assoc, requests_append]
    rfl

/-! ### What a deed does -/

/-- What was done in an attempt, if it was. -/
def Attempt.deed? {a : Action} : Attempt a.Reply → Option Deed
  | .got r => some ⟨a, r⟩
  | .wait .. => none

theorem Attempt.action_of_deed {a : Action} {t : Attempt a.Reply} {x : Deed} (h : t.deed? = some x) :
    x.action = a := by
  cases t with
  | got r => cases h; rfl
  | wait signals deadline => cases h

variable {ρ : Type}

/-- Record and requests follow from what was done. -/
structure Follows (d : Debugger ρ) (x : Option Deed) (d' : Debugger ρ) : Prop where
  record : d'.room.breakpoints = (x.bind Deed.record?).getD d.room.breakpoints
  conveys : ∀ rs, Conveys d.link rs → Conveys d'.link (rs ++ (x.bind Deed.request?).toList)

theorem Follows.of_same {d d' : Debugger ρ} {x : Option Deed} (hr : x.bind Deed.record? = none)
    (hq : x.bind Deed.request? = none) (hb : d'.room.breakpoints = d.room.breakpoints)
    (hc : ∀ rs, Conveys d.link rs → Conveys d'.link rs) : Follows d x d' := by
  refine ⟨by rw [hr]; exact hb, fun rs h => ?_⟩
  rw [hq, Option.toList_none, List.append_nil]
  exact hc rs h

theorem lock_breakpoints (r : Room) (me : Nat) : (r.lock me).1.breakpoints = r.breakpoints := by
  unfold Room.lock
  split
  · rfl
  · split
    · rfl
    · split <;> rfl

theorem unlock_breakpoints (r : Room) (s : BreakpointSet) : (r.unlock s).1.breakpoints = s := by
  unfold Room.unlock
  split <;> rfl

theorem follows_attempt (d : Debugger ρ) (me : Nat) (a : Action) :
    Follows d (d.attempt me a).2.deed? (d.attempt me a).1 := by
  cases a with
  | send command arguments =>
    simp only [attempt, Debugger.send]
    split
    · exact .of_same rfl rfl rfl fun _ h => h
    · next seq c hs => exact ⟨rfl, fun rs h => h.send hs⟩
  | response x =>
    simp only [attempt]
    split
    · exact .of_same rfl rfl rfl fun _ h => h
    · exact .of_same rfl rfl rfl fun _ h => h.of_same rfl fun ho => ⟨ho, rfl⟩
    · exact .of_same rfl rfl rfl fun _ h => h.of_same rfl fun ho => ⟨ho, rfl⟩
  | post c => simp only [attempt, post]; split <;> exact .of_same rfl rfl rfl fun _ h => h
  | order o => simp only [attempt]; split <;> exact .of_same rfl rfl rfl fun _ h => h
  | outcome ticket => simp only [attempt]; split <;> exact .of_same rfl rfl rfl fun _ h => h
  | await states deadline =>
    simp only [attempt]
    split
    · exact .of_same rfl rfl rfl fun _ h => h
    · split <;> exact .of_same rfl rfl rfl fun _ h => h
  | lock =>
    have hb := lock_breakpoints d.room me
    simp only [attempt]
    split
    · next hr => rw [hr] at hb; exact .of_same rfl rfl hb fun _ h => h
    · next hr => rw [hr] at hb; exact .of_same rfl rfl hb fun _ h => h
  | unlock s =>
    have hb := unlock_breakpoints d.room s
    simp only [attempt]
    split
    · next hr => rw [hr] at hb; exact ⟨hb, fun rs h => (List.append_nil rs).symm ▸ h⟩
    · next hr => rw [hr] at hb; exact ⟨hb, fun rs h => (List.append_nil rs).symm ▸ h⟩
  | acquire k => simp only [attempt]; split <;> exact .of_same rfl rfl rfl fun _ h => h
  | deliver k r =>
    simp only [attempt]
    rcases d.room.state.tree.deliver k r with ⟨v, tree, woken⟩
    obtain ⟨s, hs⟩ := exists_schedule (d.withTree tree) .slot woken
    rw [hs]
    exact .of_same rfl rfl rfl fun _ h => h
  | _ => exact .of_same rfl rfl rfl fun _ h => h

/-- What a deed was told can be reckoned with. -/
theorem plausible_attempt {d : Debugger ρ} {me : Nat} {a : Action} {r : a.Reply} {h : List Deed}
    (hr : (d.attempt me a).2 = .got r) (hrecord : d.room.breakpoints = Script.record h) :
    Plausible h a r := by
  cases a with
  | lock =>
    have hb := lock_breakpoints d.room me
    simp only [attempt] at hr
    split at hr
    · next hl =>
      cases hr
      rw [hl] at hb
      exact hb.trans hrecord
    · cases hr
  | await states deadline =>
    simp only [attempt] at hr
    split at hr
    · next hs => cases hr; exact hs
    · split at hr
      · cases hr; exact trivial
      · cases hr
  | _ => exact trivial

/-- Whether an action gives the session no order and tells no outcome. -/
def mute : Action → Bool
  | .order _ => false
  | .reply .. => false
  | .post c => (Room.ticket? c).isNone
  | _ => true

/-- The session has no command of which somebody waits for the outcome. -/
def Ticketless (d : Debugger ρ) : Prop := ∀ c ∈ d.room.commands, Room.ticket? c = none

theorem ticketless_of_same {d d' : Debugger ρ} (h : d.Ticketless)
    (hc : d'.room.commands = d.room.commands) : d'.Ticketless := fun c hm => h c (hc ▸ hm)

theorem ticketless_attempt {d : Debugger ρ} (h : d.Ticketless) (me : Nat) {a : Action}
    (ha : mute a = true) :
    (d.attempt me a).1.Ticketless ∧ (d.attempt me a).1.finished = d.finished := by
  cases hs : speaks a with
  | false =>
    have hw := work_attempt d me hs
    exact ⟨ticketless_of_same h (congrArg Work.commands hw), congrArg Work.finished hw⟩
  | true =>
    cases a with
    | post c =>
      have hc : Room.ticket? c = none := by simpa [mute] using ha
      simp only [attempt, post]
      split
      · refine ⟨fun c' hm => ?_, rfl⟩
        rcases List.mem_append.mp hm with hm | hm
        · exact h c' hm
        · rw [List.mem_singleton.mp hm]
          exact hc
      · exact ⟨h, rfl⟩
    | order o => cases ha
    | reply ticket r => cases ha
    | _ => cases hs

/-! ### What others do -/

/-- Debuggers between which only others have done something. -/
structure Bystands (d d' : Resumer) : Prop where
  follows : Follows d none d'
  ticketless : d'.Ticketless
  finished : d'.finished = d.finished
  scripts : ∀ k t, bare t = false → d.task? k = some t → d'.task? k = some t
  others : ∀ p ∈ d'.tasks, p ∈ d.tasks ∨ bare p.2 = true

variable {d d' : Resumer}

theorem Bystands.refl (h : d.Ticketless) : Bystands d d :=
  ⟨.of_same rfl rfl rfl fun _ h => h, h, rfl, fun _ _ _ h => h, fun _ h => .inl h⟩

/-- The tasks stay as they are. -/
theorem Bystands.of_tasks (ht : d'.tasks = d.tasks) (hf : d'.finished = d.finished)
    (hc : d'.Ticketless) (hb : d'.room.breakpoints = d.room.breakpoints)
    (hl : ∀ rs, Conveys d.link rs → Conveys d'.link rs) : Bystands d d' :=
  ⟨.of_same rfl rfl hb hl, hc, hf, fun k t _ h => by rw [← h]; simp only [task?, ht],
    fun p hp => .inl (ht ▸ hp)⟩

/-- The work stays as it is. -/
theorem Bystands.of_work (h : d.Ticketless) (hw : d'.work = d.work)
    (hb : d'.room.breakpoints = d.room.breakpoints)
    (hl : ∀ rs, Conveys d.link rs → Conveys d'.link rs) : Bystands d d' :=
  .of_tasks (congrArg Work.tasks hw) (congrArg Work.finished hw)
    (ticketless_of_same h (congrArg Work.commands hw)) hb hl

theorem passReports_breakpoints (d : Debugger ρ) :
    d.passReports.room.breakpoints = d.room.breakpoints ∧
    d.passReports.link.written = d.link.written := by
  unfold passReports
  split
  · split
    · exact ⟨rfl, rfl⟩
    · simp only
      split <;> exact ⟨rfl, rfl⟩
  · exact ⟨rfl, rfl⟩

theorem bystands_other (h : d.Ticketless) {m : Move (Except DebugError Unit)}
    (hm : m.foreign = true) (hl : lone (.other m) = true) : Bystands d (d.move m) := by
  cases m with
  | act me a =>
    cases a with
    | post c =>
      cases c with
      | exited e =>
        obtain ⟨hc, hf⟩ := ticketless_attempt h me (a := .post (.exited e)) rfl
        obtain ⟨ht, -, -⟩ := attempt_keeps d me (.post (.exited e))
        refine .of_tasks ht hf hc ?_ fun rs hrs => ?_
        · simp only [move, attempt, post]; split <;> rfl
        · simp only [move, attempt, post]; split <;> exact hrs
      | _ => cases hl
    | _ => cases hl
  | read =>
    refine .of_work h (work_afterStep d _) ?_ fun rs hrs => ?_
    · simp only [move, afterStep_room]
    · simp only [move, afterStep_link]; exact hrs.read
  | write =>
    refine .of_work h (work_afterStep d _) ?_ fun rs hrs => ?_
    · simp only [move, afterStep_room]
    · simp only [move, afterStep_link]; exact hrs.write
  | pass =>
    obtain ⟨hb, hw⟩ := passReports_breakpoints d
    have hc : d.passReports.link.connection = d.link.connection := (passReports_keeps d).2.2
    exact .of_work h (work_passReports d) hb fun rs hrs => hrs.of_same hw fun ho =>
      ⟨hc ▸ ho, congrArg (fun c => requests c.queue) hc⟩
  | pick => cases hm
  | input i => cases hm
  | leave => cases hm
  | aside e => cases hm
  | shutdown =>
    exact .of_work h rfl rfl fun rs hrs => hrs.of_closed rfl (isClosed_close _ .shutdown)
  | feed e => simp only [move, feed]; split <;> exact .of_work h rfl rfl fun _ hrs => hrs
  | _ => exact .of_work h rfl rfl fun _ hrs => hrs.of_same rfl fun ho => ⟨ho, rfl⟩

/-- Where no answer is waited for, effects leave the tasks as they are. -/
theorem effects_bystand (d : Resumer) {es : List Effect}
    (hes : ∀ x epoch ticket, Effect.sent x epoch ticket ∉ es) :
    (es.foldl effect d).tasks = d.tasks ∧ (es.foldl effect d).finished = d.finished ∧
    (es.foldl effect d).room.commands = d.room.commands ∧
    (es.foldl effect d).room.breakpoints = d.room.breakpoints := by
  induction es generalizing d with
  | nil => exact ⟨rfl, rfl, rfl, rfl⟩
  | cons e es ih =>
    obtain ⟨ht, hf, hc, hb⟩ := ih (d.effect e) fun x epoch ticket hm =>
      hes x epoch ticket (List.mem_cons_of_mem _ hm)
    rw [List.foldl_cons, ht, hf, hc, hb]
    cases e with
    | sent x epoch ticket => exact absurd (List.mem_cons_self ..) (hes x epoch ticket)
    | _ => exact ⟨rfl, rfl, rfl, rfl⟩

/-- An input of which nobody waits for the outcome lets nothing be sent. -/
theorem not_sent_of_silent {s : State} (hs : s.status.state ≠ .terminated) (c : Connection) {i : Input}
    (hi : inputEntry i = 0) (x : Exchange) (epoch ticket : Nat) :
    Effect.sent x epoch ticket ∉ (s.step c i).effects := by
  intro hm
  have howed := mem_owed hm (Multiset.mem_singleton_self _)
  have hanswers := answers_step hs c i
  generalize owed (s.step c i).effects = entries at howed hanswers
  cases hanswers with
  | silent => exact absurd howed (Multiset.notMem_zero _)
  | _ => exact Multiset.singleton_ne_zero _ hi

/-- The next input is none of which somebody waits for the outcome. -/
theorem ticketless_next (h : d.Ticketless) {i : Input} {room : Room}
    (hn : d.room.next = some (i, room)) :
    inputEntry i = 0 ∧ ({ d with room := room } : Resumer).Ticketless ∧
    room.breakpoints = d.room.breakpoints := by
  unfold Room.next at hn
  split at hn
  · cases hn; exact ⟨rfl, h, rfl⟩
  · cases hn; exact ⟨rfl, h, rfl⟩
  · split at hn
    · cases hn; exact ⟨rfl, h, rfl⟩
    · split at hn
      · cases hn
      · next c rest hc =>
        cases hn
        refine ⟨?_, fun c' hm => h c' (hc ▸ List.mem_cons_of_mem _ hm), rfl⟩
        have hticket := h c (hc ▸ List.mem_cons_self ..)
        simp only [inputEntry, queuedEntry, hticket]

theorem bystands_attend (h : d.Ticketless) : Bystands d d.attend := by
  unfold attend
  split
  · have hw := work_leave d
    refine .of_tasks (congrArg Work.tasks hw) (congrArg Work.finished hw) ?_ ?_ fun rs hrs => ?_
    · have hc : d.leave.room.commands = [] := congrArg Work.commands hw
      intro c hm
      rw [hc] at hm
      cases hm
    · unfold leave Room.leave
      simp only
      rw [(foldl_signal _ _ _).1, settle_all]
      rfl
    · rw [(leave_keeps d).2.1]
      exact hrs
  · next hgoing =>
    split
    · exact .refl h
    · next i room hn =>
      obtain ⟨hentry, hticketless, hbreakpoints⟩ := ticketless_next h hn
      have hstate : room.state.status.state ≠ .terminated := by
        rw [(next_keeps hn).1]
        exact hgoing
      have hsent : ∀ x epoch ticket,
          Effect.sent x epoch ticket ∉ (room.state.step d.link.connection i).effects :=
        not_sent_of_silent hstate d.link.connection hentry
      obtain ⟨ht, hf, hc, hb⟩ :=
        effects_bystand (({ d with room := room } : Resumer).stepped i) hsent
      refine .of_tasks ht hf (ticketless_of_same hticketless hc) (hb.trans hbreakpoints) ?_
      intro rs hrs
      obtain ⟨-, hlink, -⟩ := takeInput_keeps ({ d with room := room } : Resumer) i
      rw [hlink]
      cases State.handles_step d.link.connection hstate i with
      | stays _ _ hcon => exact hrs.of_same rfl fun ho => by rw [hcon] at *; exact ⟨ho, rfl⟩
      | enters _ _ _ _ _ hcon => exact hrs.of_same rfl fun ho => ⟨hcon ▸ ho, by rw [hcon]⟩
      | resumes kind thread ticket hi =>
        rw [hi] at hentry
        exact absurd hentry (Multiset.singleton_ne_zero _)
      | ends _ _ _ _ hcon => exact hrs.of_closed rfl (by rw [hcon]; exact isClosed_close _ _)

theorem task?_without {k me : Nat} (hk : k ≠ me) : (d.without me).task? k = d.task? k := by
  unfold task? without
  rw [List.find?_filter]
  congr 2
  funext p
  by_cases hp : p.1 = k <;> simp [hp, hk]

/-- **Whoever goes on without a script leaves to the call what is its own.** -/
theorem bystands_beat (h : d.Ticketless) {b : Beat (Except DebugError Unit)} (hb : lone b = true)
    (hidle : ∀ k, b = .task k → ∀ t, d.task? k = some t → bare t = true) :
    Bystands d (d.beat b) := by
  cases b with
  | task me =>
    have hbare := hidle me rfl
    have hsame : d.stride me = d := by
      unfold stride
      split
      · next ht => cases hbare _ ht
      · next ht => cases hbare _ ht
      · next ht => cases hbare _ ht
      · next ht => cases hbare _ ht
      · rfl
    rw [beat, hsame]
    exact .refl h
  | session => exact bystands_attend h
  | resume id kind thread => cases hb
  | other m =>
    simp only [beat]
    split
    · next hm => exact bystands_other h hm hb
    · exact .refl h
  | lift me =>
    simp only [beat]
    split
    · next ht =>
      obtain ⟨t, ht, hbare⟩ := (Option.any_eq_true _ _).mp ht
      refine ⟨.of_same rfl rfl rfl fun _ h => h, h, rfl, fun k t' ht' hk => ?_,
        fun p hp => .inl (List.mem_filter.mp hp).1⟩
      have hne : k ≠ me := by
        rintro rfl
        rw [ht] at hk
        cases hk
        rw [hbare] at ht'
        cases ht'
      rw [task?_without hne]
      exact hk
    · exact .refl h
  | lay me t =>
    simp only [beat]
    split
    · next hlay =>
      obtain ⟨hbare, -, hown⟩ := hlay
      refine ⟨.of_same rfl rfl rfl fun _ h => h, h, rfl, fun k t' _ hk => ?_, fun p hp => ?_⟩
      · obtain ⟨p, hp, rfl⟩ := Option.map_eq_some_iff.mp hk
        simp only [task?, put, List.find?_append, hp, Option.some_or, Option.map_some]
      · rcases mem_put hp with hp | rfl
        · exact .inl hp
        · exact .inr hbare
    · exact .refl h
  | aside e => exact .of_tasks rfl rfl h rfl fun _ hrs => hrs

end Debugger
end DebugHost
