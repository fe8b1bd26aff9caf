import DebugHost.Proofs.Debugger.Touches
import DebugHost.Proofs.Session.Lockstep

/-! # Events on their way to the session

The events of the adapter go through two queues: the reader adds what it has read to the reports of the
connection, from where it comes to the inbox, from which the session takes it. None is lost and none
overtakes another (`Crowd.posted`): as long as the session listens, what has been read is what the session
has taken, and what still waits. A generation goes on as long as nothing that the session takes makes it
enter a state (`Crowd.reign`). -/

namespace DebugHost

open DebugHost.Session DebugHost.Script

variable {ρ : Type}

/-- The event that is reported, if it is one. -/
def ConnectionEvent.event? : ConnectionEvent → Option Event
  | .event e => some e
  | .closed _ => none

/-- The event that an input is, if it is one. -/
def Session.Input.event? : Input → Option Event
  | .event e => some e
  | _ => none

/-- The message that the reader takes next from what has arrived. -/
def Link.coming? (l : Link) : Option Message :=
  if l.connection.isClosed then none
  else
    match l.inbound.next.1 with
    | some (.message m) => some m
    | _ => none

/-- The event of a message, if it is one. -/
def Message.event? : Message → Option Event
  | .event e => some e
  | _ => none

/-- Whether an event makes a session leave a state: the program stops, goes on after it had been told to
run, or is over. -/
def Event.Leaves (st : RunState) (e : Event) : Prop :=
  e.kind = .stopped ∨ e.kind = .exited ∨ e.kind = .terminated ∨
    e.kind = .continued ∧ (st = .paused ∨ st = .running)

/-- An event that makes a session leave its state makes it enter one. -/
theorem Session.State.entered_of_leaves {s : State} {c : Connection} {e : Event}
    (h : e.Leaves s.status.state) : s.entered? c (.event e) ≠ none := by
  rcases h with h | h | h | ⟨h, hst⟩
  · simp [entered?, h]
  · simp [entered?, h]
  · simp [entered?, h]
  · simp [entered?, h, hst]

namespace Debugger

/-! ### The two queues -/

/-- What waits on its way to the session, and whether it goes there. -/
def mail (d : Debugger ρ) : List ConnectionEvent × List ConnectionEvent × Bool × Bool :=
  (d.room.inbox, d.link.reports, d.room.attached, d.room.listening)

/-- The events that have been read and that the session has not taken, oldest first. -/
def waiting (d : Debugger ρ) : List Event :=
  (d.room.inbox ++ d.link.reports).filterMap ConnectionEvent.event?

theorem waiting_of_mail {d d' : Debugger ρ} (h : d'.mail = d.mail) : d'.waiting = d.waiting := by
  simp only [mail, Prod.mk.injEq] at h
  simp only [waiting, h.1, h.2.1]

/-- No task touches the queues. -/
theorem mail_attempt (d : Debugger ρ) (me : Nat) (a : Action) : (d.attempt me a).1.mail = d.mail := by
  cases a with
  | send command arguments => simp only [attempt, send]; split <;> rfl
  | response x => simp only [attempt]; split <;> rfl
  | post c => simp only [attempt, post]; split <;> rfl
  | order o => simp only [attempt]; split <;> rfl
  | outcome ticket => simp only [attempt]; split <;> rfl
  | await states deadline =>
    simp only [attempt]
    split
    · rfl
    · split <;> rfl
  | lock =>
    simp only [attempt, Room.lock]
    cases d.room.holder with
    | none => rfl
    | some h =>
      by_cases hh : h = me
      · simp only [if_pos hh]
      · by_cases hq : me ∈ d.room.queue
        · simp only [if_neg hh, if_pos hq]
        · simp only [if_neg hh, if_neg hq]; rfl
  | unlock s =>
    simp only [attempt, Room.unlock]
    cases d.room.queue <;> rfl
  | acquire k => simp only [attempt]; split <;> rfl
  | deliver k r =>
    simp only [attempt]
    rcases d.room.state.tree.deliver k r with ⟨v, tree, woken⟩
    obtain ⟨hroom, hlink⟩ := foldl_signal (d.withTree tree) .slot woken
    simp only [mail, hroom, hlink]
    rfl
  | _ => rfl

theorem mail_stride (d : Debugger ρ) (me : Nat) : (d.stride me).mail = d.mail := by
  have hattempt {a : Action} {e : Debugger ρ} {o : Attempt a.Reply}
      (ha : (d.without me).attempt me a = (e, o)) : e.mail = d.mail := by
    have h := mail_attempt (d.without me) me a
    rw [ha] at h
    exact h
  have hgoes := goes d me
  generalize own? d me = x, d.stride me = d' at hgoes ⊢
  cases hgoes with
  | idle => rfl
  | does t x next e ht hn ha => exact hattempt (e := e) ha
  | waits t a next e ss deadline ht hn ha => exact hattempt (e := e) ha
  | ends t told ht ho => rfl

theorem mail_effects (d : Debugger ρ) (es : List Effect) : (es.foldl effect d).mail = d.mail := by
  induction es generalizing d with
  | nil => rfl
  | cons e es ih =>
    rw [List.foldl_cons, ih]
    cases e <;> rfl

/-- What the session takes from its inbox is the oldest that is there. -/
theorem mail_next {r room : Room} {i : Input} (h : r.next = some (i, room)) :
    room.attached = r.attached ∧ room.listening = r.listening ∧
    r.inbox.filterMap ConnectionEvent.event? =
      i.event?.toList ++ room.inbox.filterMap ConnectionEvent.event? := by
  unfold Room.next at h
  split at h
  · next e rest hr => cases h; rw [hr]; exact ⟨rfl, rfl, rfl⟩
  · next reason rest hr => cases h; rw [hr]; exact ⟨rfl, rfl, rfl⟩
  · next hr =>
    split at h
    · cases h; rw [hr]; exact ⟨rfl, rfl, rfl⟩
    · split at h
      · cases h
      · cases h; rw [hr]; exact ⟨rfl, rfl, rfl⟩

theorem mail_takeInput (d : Debugger ρ) (i : Input) : (d.takeInput i).mail = d.mail :=
  mail_effects (d.stepped i) _

/-- A session that leaves listens no longer. -/
theorem mail_leave (d : Debugger ρ) :
    d.leave.room.listening = false ∧ d.leave.room.attached = d.room.attached := by
  unfold leave Room.leave
  simp only
  rw [(foldl_signal _ .outcome _).1]
  simp only [settle_all]
  exact ⟨trivial, rfl⟩

/-- What the reader reads it adds to the reports. -/
theorem reports_read (l : Link) : l.read.link.reports.filterMap ConnectionEvent.event? =
    l.reports.filterMap ConnectionEvent.event? ++ (l.coming?.bind Message.event?).toList := by
  have hended (l : Link) (reason : CloseReason) :
      (l.endReading reason).link.reports.filterMap ConnectionEvent.event? =
        l.reports.filterMap ConnectionEvent.event? := by
    simp only [Link.endReading, Link.report, List.filterMap_append]
    exact List.append_nil _
  unfold Link.read Link.coming?
  split
  · exact (hended _ _).trans (List.append_nil _).symm
  · cases hn : l.inbound.next with
    | mk o r =>
      cases o with
      | none => exact (List.append_nil _).symm
      | some o =>
        cases o with
        | ended => exact (hended _ _).trans (List.append_nil _).symm
        | fault f => exact (hended _ _).trans (List.append_nil _).symm
        | message m =>
          cases m with
          | request q => exact (List.append_nil _).symm
          | event e => simp only [Link.receive, Link.report, List.filterMap_append]; rfl
          | response r =>
            simp only [Link.receive]
            split <;> exact (List.append_nil _).symm

theorem waiting_pass {d : Debugger ρ} (ha : d.room.attached = true)
    (hl : d.room.listening = true) : d.passReports.waiting = d.waiting := by
  unfold passReports
  rw [if_pos ha]
  cases hr : d.link.reports with
  | nil => rfl
  | cons e es => simp only [hl, if_true, waiting, signal, hr, List.append_nil]

end Debugger

namespace Crowd

open Debugger

variable {fit : Script ρ → Prop} {d : Debugger ρ} {σ : Nat → Happening fit} {n : Nat}

/-! ### In order -/

/-- The message that is read when something happens. -/
def read? (d : Debugger ρ) : Happening fit → Option Message
  | .outside .read _ => d.link.coming?
  | _ => none

/-- The answer to a request is one of the messages that are read. -/
theorem Heard.reading {h : Happening fit} {r : Response} (hr : Heard d h r) :
    read? d h = some (.response r) := by
  obtain ⟨⟨hmay, rfl⟩, hopen, hnext, -⟩ := hr
  simp only [read?, Link.coming?, hopen, hnext, Bool.false_eq_true, if_false]

/-- The input that the session takes when something happens. -/
def input? (d : Debugger ρ) : Happening fit → Option Input
  | .session => if d.Over then none else d.room.next.map (·.1)
  | _ => none

/-- The events that have been read while the first `n` things have happened, oldest first. -/
def heard (d : Debugger ρ) (σ : Nat → Happening fit) : Nat → List Event
  | 0 => []
  | n + 1 => heard d σ n ++ ((read? (after d σ n) (σ n)).bind Message.event?).toList

/-- The events that the session has taken while the first `n` things have happened, oldest first. -/
def taken (d : Debugger ρ) (σ : Nat → Happening fit) : Nat → List Event
  | 0 => []
  | n + 1 => taken d σ n ++ ((input? (after d σ n) (σ n)).bind Input.event?).toList

/-- The events that have been read have been taken, or wait in their order. -/
structure Posted (d : Debugger ρ) (σ : Nat → Happening fit) (n : Nat) : Prop where
  attached : (after d σ n).room.attached = true
  listens : (after d σ n).room.listening = false → (after d σ n).Over
  order : (after d σ n).room.listening = true →
    heard d σ n = taken d σ n ++ (after d σ n).waiting

/-- Where neither reader nor session do anything, and the queues stay. -/
theorem Posted.silent (h : Posted d σ n) (hr : read? (after d σ n) (σ n) = none)
    (hi : input? (after d σ n) (σ n) = none) (hm : (after d σ (n + 1)).mail = (after d σ n).mail)
    (ho : (after d σ n).Over → (after d σ (n + 1)).Over) : Posted d σ (n + 1) := by
  have hwaiting := waiting_of_mail hm
  simp only [mail, Prod.mk.injEq] at hm
  obtain ⟨-, -, hattached, hlistening⟩ := hm
  refine ⟨hattached.trans h.attached, fun hl => ho (h.listens (hlistening ▸ hl)), fun hl => ?_⟩
  rw [heard, taken, hr, hi, hwaiting, h.order (hlistening ▸ hl)]
  simp only [Option.bind_none, Option.toList_none, List.append_nil]

theorem Posted.session (h : Posted d σ n) (hσ : σ n = .session) : Posted d σ (n + 1) := by
  have hr : read? (after d σ n) (σ n) = none := by rw [hσ]; rfl
  have hafter : after d σ (n + 1) = (after d σ n).attend := by rw [after_succ, hσ]; rfl
  cases attends (after d σ n) with
  | leaves ho hd =>
    have hover : (after d σ n).leave.Over := by
      unfold Over
      rw [(leave_keeps _).1]
      exact ho
    rw [← hafter] at hd
    refine ⟨?_, fun _ => hd ▸ hover, fun hl => ?_⟩
    · rw [hd, (mail_leave _).2]; exact h.attached
    · rw [hd, (mail_leave _).1] at hl; cases hl
  | rests ho hn hd =>
    rw [← hafter] at hd
    refine h.silent hr ?_ (by rw [hd]) fun ho => hd ▸ ho
    rw [hσ, input?, if_neg ho, hn]
    rfl
  | takes i room ho hn hd =>
    rw [← hafter] at hd
    obtain ⟨hattached, hlistening, hinbox⟩ := mail_next hn
    have hi : input? (after d σ n) (σ n) = some i := by rw [hσ, input?, if_neg ho, hn]; rfl
    have hmail := mail_takeInput { after d σ n with room := room } i
    rw [← hd] at hmail
    have hwaiting := waiting_of_mail hmail
    simp only [mail, Prod.mk.injEq] at hmail
    obtain ⟨-, -, hattached', hlistening'⟩ := hmail
    refine ⟨(hattached'.trans hattached).trans h.attached, fun hl => ?_, fun hl => ?_⟩
    · exact absurd (h.listens (hlistening ▸ hlistening' ▸ hl)) ho
    · have horder := h.order (hlistening ▸ hlistening' ▸ hl)
      rw [heard, taken, hr, hi, hwaiting, horder]
      simp only [waiting, List.filterMap_append, hinbox, Option.bind_none, Option.bind_some,
        Option.toList_none, List.append_nil, List.append_assoc]

theorem Posted.outside (h : Posted d σ n) {m : Debugger.Move ρ} {hm : outer m = true}
    (hσ : σ n = .outside m hm) : Posted d σ (n + 1) := by
  have hafter : after d σ (n + 1) = (after d σ n).move m := by rw [after_succ, hσ]; rfl
  have hi : input? (after d σ n) (σ n) = none := by rw [hσ]; rfl
  have hover (ho : (after d σ n).Over) : (after d σ (n + 1)).Over := by
    unfold Over at ho ⊢
    rw [hafter, (room_outer _ hm).1]
    exact ho
  have hsilent (hr : m ≠ .read) (hmail : ((after d σ n).move m).mail = (after d σ n).mail) :
      Posted d σ (n + 1) := by
    refine h.silent ?_ hi (hafter ▸ hmail) hover
    rw [hσ]
    cases m <;> first | rfl | exact absurd rfl hr
  cases m with
  | act me a => exact hsilent (fun h => by cases h) (mail_attempt _ me a)
  | read =>
    have hroom : (after d σ (n + 1)).room = (after d σ n).room := by
      rw [hafter]; exact afterStep_room _ _
    have hlink : (after d σ (n + 1)).link = (after d σ n).link.read.link := by
      rw [hafter]; exact afterStep_link _ _
    refine ⟨hroom ▸ h.attached, fun hl => hover (h.listens (hroom ▸ hl)), fun hl => ?_⟩
    have hread : read? (after d σ n) (σ n) = (after d σ n).link.coming? := by rw [hσ]; rfl
    rw [heard, taken, hread, hi, h.order (hroom ▸ hl)]
    simp only [waiting, hroom, hlink, List.filterMap_append, reports_read, Option.bind_none,
      Option.toList_none, List.append_nil, List.append_assoc]
  | pass =>
    have hlistening : (after d σ (n + 1)).room.listening = (after d σ n).room.listening ∧
        (after d σ (n + 1)).room.attached = (after d σ n).room.attached := by
      rw [hafter]
      simp only [move, passReports]
      split
      · split
        · exact ⟨rfl, rfl⟩
        · split <;> exact ⟨rfl, rfl⟩
      · exact ⟨rfl, rfl⟩
    refine ⟨hlistening.2.trans h.attached, fun hl => hover (h.listens (hlistening.1 ▸ hl)),
      fun hl => ?_⟩
    have hr : read? (after d σ n) (σ n) = none := by rw [hσ]; rfl
    rw [hlistening.1] at hl
    have hwaiting : (after d σ (n + 1)).waiting = (after d σ n).waiting := by
      rw [hafter]
      exact waiting_pass h.attached hl
    rw [heard, taken, hr, hi, hwaiting, h.order hl]
    simp only [Option.bind_none, Option.toList_none, List.append_nil]
  | write =>
    refine hsilent (fun h => by cases h) ?_
    have hreports : (after d σ n).link.write.link.reports = (after d σ n).link.reports := by
      unfold Link.write
      split
      · rfl
      · split
        · rfl
        · split <;> rfl
    simp only [move, mail, afterStep_room, afterStep_link, hreports]
  | pick => cases hm
  | input i => cases hm
  | leave => cases hm
  | feed e => cases hm
  | endFeed => cases hm
  | aside e => cases hm
  | _ => exact hsilent (fun h => by cases h) rfl

/-- **No event is lost, and none overtakes another**, while the session listens. -/
theorem posted (h0 : d.room.attached = true) (hl : d.room.listening = true) (hw : d.waiting = [])
    (σ : Nat → Happening fit) (n : Nat) : Posted d σ n := by
  induction n with
  | zero =>
    refine ⟨h0, fun h => Bool.noConfusion (hl.symm.trans h), fun _ => ?_⟩
    show [] = [] ++ d.waiting
    rw [hw]
    rfl
  | succ n ih =>
    have hidle (hr : read? (after d σ n) (σ n) = none) (hi : input? (after d σ n) (σ n) = none)
        (hroom : (after d σ (n + 1)).room = (after d σ n).room)
        (hlink : (after d σ (n + 1)).link = (after d σ n).link) : Posted d σ (n + 1) := by
      refine ih.silent hr hi (by simp only [mail, hroom, hlink]) fun ho => ?_
      unfold Over at ho ⊢
      rw [hroom]
      exact ho
    cases hσ : σ n with
    | task me =>
      have hafter : after d σ (n + 1) = (after d σ n).stride me := by rw [after_succ, hσ]; rfl
      refine ih.silent (by rw [hσ]; rfl) (by rw [hσ]; rfl) (by rw [hafter, mail_stride]) fun ho => ?_
      rw [hafter]
      exact (keeps_stride _ me).ended ho
    | session => exact ih.session hσ
    | outside m hm => exact ih.outside hσ
    | call id s hs =>
      refine hidle (by rw [hσ]; rfl) (by rw [hσ]; rfl) ?_ ?_ <;> (rw [after_succ, hσ]; rfl)
    | lift me =>
      refine hidle (by rw [hσ]; rfl) (by rw [hσ]; rfl) ?_ ?_ <;>
        (rw [after_succ, hσ]; simp only [happen]; split <;> rfl)
    | lay me t =>
      refine hidle (by rw [hσ]; rfl) (by rw [hσ]; rfl) ?_ ?_ <;>
        (rw [after_succ, hσ]; simp only [happen]; split <;> rfl)
    | aside e =>
      refine hidle (by rw [hσ]; rfl) (by rw [hσ]; rfl) ?_ ?_ <;> (rw [after_succ, hσ]; rfl)

theorem posted_opened (timeout : Duration) (id : SessionId) (σ : Nat → Happening fit) (n : Nat) :
    Posted (opened timeout id) σ n := by
  refine posted ?_ ?_ ?_ σ n <;> (rw [opened_eq]; rfl)

theorem heard_mono {m : Nat} (hmn : m ≤ n) : heard d σ m <+: heard d σ n := by
  induction hmn with
  | refl => exact List.prefix_rfl
  | step _ ih => exact ih.trans (List.prefix_append _ _)

/-- What the session has taken since some moment. -/
theorem taken_since {s : Nat} (hsn : s ≤ n) : ∃ later, taken d σ n = taken d σ s ++ later ∧
    ∀ e ∈ later, ∃ j, s ≤ j ∧ j < n ∧ input? (after d σ j) (σ j) = some (.event e) := by
  induction hsn with
  | refl => exact ⟨[], (List.append_nil _).symm, fun e he => by cases he⟩
  | @step n hsn ih =>
    obtain ⟨later, htaken, hlater⟩ := ih
    refine ⟨later ++ ((input? (after d σ n) (σ n)).bind Input.event?).toList, ?_, fun e he => ?_⟩
    · rw [Nat.succ_eq_add_one, taken, htaken, List.append_assoc]
    · rcases List.mem_append.mp he with he | he
      · obtain ⟨j, hsj, hj, hi⟩ := hlater e he
        exact ⟨j, hsj, Nat.lt_succ_of_lt hj, hi⟩
      · obtain ⟨i, hi, hie⟩ := Option.bind_eq_some_iff.mp (Option.mem_toList.mp he)
        cases i with
        | event e' => cases hie; exact ⟨n, hsn, Nat.lt_succ_self n, hi⟩
        | _ => cases hie

/-- The events that stand between what had been taken in `s` and what is read in `m`. -/
def between (d : Debugger ρ) (σ : Nat → Happening fit) (s m : Nat) : List Event :=
  (heard d σ m).drop (taken d σ s).length

/-- **An event that has been read has been taken, or waits**, while the session listens. -/
theorem Posted.between (h : Posted d σ n) (hl : (after d σ n).room.listening = true) {s m : Nat}
    (hs : s ≤ n) (hm : m ≤ n) : ∀ e ∈ between d σ s m, e ∈ (after d σ n).waiting ∨
      ∃ j, s ≤ j ∧ j < n ∧ input? (after d σ j) (σ j) = some (.event e) := by
  intro e he
  obtain ⟨later, htaken, hlater⟩ := taken_since (d := d) (σ := σ) hs
  have hdrop : (heard d σ n).drop (taken d σ s).length = later ++ (after d σ n).waiting := by
    rw [h.order hl, htaken, List.append_assoc, List.drop_left]
  obtain ⟨more, hmore⟩ := heard_mono (d := d) (σ := σ) hm
  have hmem : e ∈ later ++ (after d σ n).waiting := by
    rw [← hdrop, ← hmore]
    rw [Crowd.between] at he
    exact ((List.sublist_append_left _ more).drop _).subset he
  rcases List.mem_append.mp hmem with hmem | hmem
  · exact .inr (hlater e hmem)
  · exact .inl hmem

end Crowd
end DebugHost
