import DebugHost.Proofs.Session.Ending
import DebugHost.Proofs.Session.Lockstep
import DebugHost.Proofs.Threads.Table

/-! # When the session learns that the configuration has been sent

The command `configured` comes from the one who has waited for the adapter's answer, so that it may reach the
session behind events that the adapter sent later. Two sessions are compared that take the same inputs and this
command at different points. Between these points one of them is configuring and the other one runs; apart from
this, from what is counted and from the tree of what can be inspected, they agree (`State.Agree`).

* `State.agree_handles`: one input that is not dated (`Input.isDated`) keeps sessions in agreement. What becomes
  of each part that counts is said first, a lemma for each part (`handles_state` to `handles_connection`).
* `Debugger.agree_configured`: the command itself leaves a session in agreement with what it was.
* `configured_anytime`: so the point at which it is taken does not matter. -/

namespace DebugHost

/-- A state, when it is no matter whether the configuration has been sent. -/
def RunState.settled : RunState → RunState
  | .configuring => .running
  | st => st

/-- Beside the two that are taken for one, a state is told apart from all others. -/
theorem RunState.eq_iff_of_settled {a b st : RunState} (h : a.settled = b.settled)
    (hc : st ≠ .configuring) (hr : st ≠ .running) : a = st ↔ b = st := by
  have hsettled : ∀ a : RunState, a = st ↔ a.settled = st := by
    intro a
    cases a with
    | configuring => exact ⟨fun he => absurd he.symm hc, fun he => absurd he.symm hr⟩
    | _ => exact Iff.rfl
  rw [hsettled a, hsettled b, h]

/-- A report without the generation that it carries. -/
def DebugEvent.undated : DebugEvent → DebugEvent
  | .stopped reason id _ => .stopped reason id .first
  | e => e

namespace Session

/-- Whether an input counts only in the epoch that it names. -/
def Input.isDated : Input → Bool
  | .command (.resumeFailed ..) => true
  | _ => false

/-- The reason that an input gives for a stop. -/
def Input.stopReason? : Input → Option String
  | .event e => if e.kind = .stopped then some (bodyOf StoppedBody e).reason else none
  | _ => none

/-- The way in which an input lets a thread go on. -/
def Input.resume? : Input → Option (StepKind × Int)
  | .command (.order (.resume kind thread) _) => some (kind, thread)
  | _ => none

/-- The report of an input is the same in every generation, apart from the generation. -/
theorem Input.undated_report (i : Input) (g g' : Generation) :
    (i.report? g).map DebugEvent.undated = (i.report? g').map DebugEvent.undated := by
  cases i with
  | event e =>
    simp only [report?]
    split <;> rfl
  | closed reason => rfl
  | command cmd => rfl

/-- An input that lets a thread go on ends nothing. -/
theorem Input.resume_of_cause {i : Input} {cause : Termination} (h : i.cause? = some cause) :
    i.resume? = none := by
  cases i with
  | event e => rfl
  | closed reason => rfl
  | command cmd =>
    cases cmd with
    | order o ticket =>
      cases o with
      | resume kind thread => cases h
      | _ => rfl
    | _ => rfl

namespace State

variable {s t : State} {c : Connection} {i : Input} {o : Outcome}

/-! ### What becomes of each part -/

theorem note_stopReason (s : State) (i : Input) :
    (s.note i).status.stopReason = i.stopReason?.or s.status.stopReason := by
  cases i with
  | event e =>
    simp only [note, Input.stopReason?]
    split
    · next hk => rw [if_pos hk]; rfl
    · next hk => rw [if_neg (by rw [hk]; decide)]; rfl
    · next hk _ => rw [if_neg hk]; rfl
  | closed reason => rfl
  | command cmd =>
    rcases note_command s cmd with h | h
    · rw [h]; rfl
    · rw [h]; rfl

/-- An input that does not lead to the end has no cause. -/
theorem cause_of_entered (h : s.entered? c i ≠ some .terminated) : i.cause? = none := by
  cases hw : i.cause? with
  | none => rfl
  | some cause => exact absurd (entered_of_cause hw) h

theorem handles_state (h : Handles s c i o) :
    o.state.status.state = (s.entered? c i).getD s.status.state := by
  cases h with
  | stays hi hstate => rw [hstate, hi, note_status hi]; rfl
  | enters st hi _ _ hstate => rw [hstate, hi]; rfl
  | resumes kind thread ticket hi hp ho hstate =>
    have he : s.entered? c i = some .running := by
      rw [hi]
      exact if_pos ⟨hp, ho⟩
    rw [hstate, he]
    rfl
  | ends cause hi _ hstate => rw [hstate, hi]; rfl

theorem handles_stopReason (h : Handles s c i o) :
    o.state.status.stopReason = i.stopReason?.or s.status.stopReason := by
  cases h with
  | stays _ hstate => rw [hstate]; exact note_stopReason s i
  | enters _ _ _ _ hstate => rw [hstate]; exact note_stopReason s i
  | resumes kind thread ticket hi _ _ hstate => rw [hstate, hi]; rfl
  | ends _ _ _ hstate => rw [hstate]; exact note_stopReason s i

theorem handles_stopping (h : Handles s c i o) : o.state.stopping = (s.stopping || i.asksStop) := by
  cases h with
  | stays _ hstate => rw [hstate]; exact note_stopping s i
  | enters _ _ _ _ hstate => rw [hstate]; exact note_stopping s i
  | resumes kind thread ticket hi _ _ hstate => rw [hstate, hi]; exact (Bool.or_false _).symm
  | ends _ _ _ hstate => rw [hstate]; exact note_stopping s i

theorem handles_termination (h : Handles s c i o) :
    o.state.status.termination = (i.cause?.map (causeOf s.stopping)).or s.status.termination := by
  cases h with
  | stays hi hstate =>
    rw [hstate, (noted_note s i).termination, cause_of_entered (by rw [hi]; simp)]
    rfl
  | enters st hi hst _ hstate =>
    rw [hstate, cause_of_entered (by rw [hi]; simpa using hst)]
    exact (noted_note s i).termination
  | resumes kind thread ticket hi _ _ hstate => rw [hstate, hi]; rfl
  | ends cause _ hw hstate =>
    have hstop : (s.note i).stopping = s.stopping := by
      rw [note_stopping, asksStop_of_cause hw, Bool.or_false]
    rw [hstate, hw]
    show some (causeOf (s.note i).stopping cause) = _
    rw [hstop]
    rfl

theorem handles_connection (h : Handles s c i o) :
    o.connection =
      match i.resume? with
      | some (kind, thread) =>
        if s.status.state = .paused ∧ c.isClosed = false then c.resumed kind thread else c
      | none => if i.cause?.isSome then c.close .shutdown else c := by
  cases h with
  | stays hi _ hc =>
    rw [hc, cause_of_entered (by rw [hi]; simp)]
    split
    · next kind thread hr =>
      have hno : ¬ (s.status.state = .paused ∧ c.isClosed = false) := by
        intro hp
        unfold Input.resume? at hr
        split at hr
        · simp only [entered?, if_pos hp] at hi
          cases hi
        · cases hr
      rw [if_neg hno]
    · rfl
  | enters st hi hst hother _ hc =>
    rw [hc, cause_of_entered (by rw [hi]; simpa using hst)]
    split
    · next kind thread hr =>
      unfold Input.resume? at hr
      split at hr
      · exact absurd rfl (hother _ _ _)
      · cases hr
    · rfl
  | resumes kind thread ticket hi hp ho _ hc =>
    rw [hc, hi]
    exact (if_pos ⟨hp, ho⟩).symm
  | ends cause _ hw _ hc => rw [hc, Input.resume_of_cause hw, hw]; rfl

/-- What is reported of an input depends on whether the user has asked to stop, and on the generation. -/
theorem handles_reports (hs : s.status.state ≠ .terminated) (h : Handles s c i o) :
    (emitted o.effects).map DebugEvent.undated =
      match i.cause? with
      | some cause => [.terminated (causeOf s.stopping cause)]
      | none => ((i.report? .first).map DebugEvent.undated).toList := by
  cases hw : i.cause? with
  | some cause =>
    obtain ⟨-, -, -, hr⟩ := handles_over hw h
    rw [hr, List.map_singleton]
    rfl
  | none =>
    obtain ⟨-, -, hr⟩ := handles_goesOn hs hw h
    rw [hr, ← Input.undated_report i o.state.status.generation .first]
    cases i.report? o.state.status.generation <;> rfl

/-! ### Sessions that agree -/

/-- Two sessions that have left the launch and differ at most in whether the configuration has been sent, in
what is counted and in what can be inspected. -/
structure Agree (s t : State) : Prop where
  launched : s.status.state ≠ .launching
  state : s.status.state.settled = t.status.state.settled
  termination : s.status.termination = t.status.termination
  activeThread : s.status.activeThread = t.status.activeThread
  stopReason : s.status.stopReason = t.status.stopReason
  threads : s.threads = t.threads
  stopping : s.stopping = t.stopping

theorem Agree.refl (h : s.status.state ≠ .launching) : Agree s s :=
  ⟨h, rfl, rfl, rfl, rfl, rfl, rfl⟩

/-- Two sessions in agreement are in the same of the states beside the two that are taken for one. -/
theorem Agree.state_iff (h : Agree s t) (st : RunState) (hc : st ≠ .configuring) (hr : st ≠ .running) :
    s.status.state = st ↔ t.status.state = st := RunState.eq_iff_of_settled h.state hc hr

theorem Agree.symm (h : Agree s t) : Agree t s where
  launched := fun ht => h.launched ((h.state_iff .launching (by decide) (by decide)).mpr ht)
  state := h.state.symm
  termination := h.termination.symm
  activeThread := h.activeThread.symm
  stopReason := h.stopReason.symm
  threads := h.threads.symm
  stopping := h.stopping.symm

/-- A session that goes on or is paused lets the program go on when it is told so; one that is configuring
stays. As far as it matters, both are the same. -/
theorem settled_continued (hl : s.status.state ≠ .launching) :
    ((if s.status.state = .paused ∨ s.status.state = .running then some RunState.running else none).getD
      s.status.state).settled =
      if s.status.state = .terminated then .terminated else .running := by
  cases hs : s.status.state with
  | launching => exact absurd hs hl
  | _ => rfl

/-- The states that two sessions in agreement enter differ no more than those that they were in. -/
theorem Agree.entered (h : Agree s t) (hi : i.isDated = false) (c : Connection) :
    ((s.entered? c i).getD s.status.state).settled =
      ((t.entered? c i).getD t.status.state).settled := by
  have hpaused := h.state_iff .paused (by decide) (by decide)
  have hover := h.state_iff .terminated (by decide) (by decide)
  cases i with
  | closed reason => rfl
  | event e =>
    simp only [entered?]
    split
    · -- the launch is over, so that nothing begins any more
      rw [if_neg h.launched, if_neg h.symm.launched]
      exact h.state
    · rfl
    · rw [settled_continued h.launched, settled_continued h.symm.launched]
      simp only [hover]
    · rfl
    · rfl
    · exact h.state
  | command cmd =>
    cases cmd with
    | order o ticket =>
      cases o with
      | resume kind thread =>
        simp only [entered?, hpaused]
        split
        · rfl
        · exact h.state
      | stopping => exact h.state
      | terminate cause => rfl
    | resumeFailed epoch error ticket => cases hi
    | configured =>
      have hsettled : ∀ st : RunState,
          ((if st = .configuring then some RunState.running else none).getD st).settled = st.settled := by
        intro st
        cases st <;> rfl
      simp only [entered?]
      rw [hsettled, hsettled]
      exact h.state
    | exited e => rfl

/-- **One input keeps sessions in agreement**, and both do the same with the connection and report the same. -/
theorem agree_handles {o' : Outcome} (h : Agree s t) (hi : i.isDated = false)
    (hs : s.status.state ≠ .terminated) (ho : Handles s c i o) (ho' : Handles t c i o') :
    Agree o.state o'.state ∧ o.connection = o'.connection ∧
      (emitted o.effects).map DebugEvent.undated = (emitted o'.effects).map DebugEvent.undated := by
  have hover := h.state_iff .terminated (by decide) (by decide)
  have hpaused := h.state_iff .paused (by decide) (by decide)
  refine ⟨⟨?_, ?_, ?_, ?_, ?_, ?_, ?_⟩, ?_, ?_⟩
  · rw [handles_state ho]
    cases he : s.entered? c i with
    | none => exact h.launched
    | some st =>
      rintro rfl
      rcases entered_cases he with ⟨hl, -⟩ | hrank
      · exact h.launched hl
      · exact absurd hrank (by decide)
  · rw [handles_state ho, handles_state ho']
    exact h.entered hi c
  · rw [handles_termination ho, handles_termination ho', h.termination, h.stopping]
  · rw [handles_activeThread ho, handles_activeThread ho', h.activeThread]
  · rw [handles_stopReason ho, handles_stopReason ho', h.stopReason]
  · rw [threads_handles ho, threads_handles ho', h.threads]
  · rw [handles_stopping ho, handles_stopping ho', h.stopping]
  · rw [handles_connection ho, handles_connection ho']
    simp only [hpaused]
  · rw [handles_reports hs ho, handles_reports (fun ht => hs (hover.mpr ht)) ho', h.stopping]

/-- A session that takes the command when it is not configuring does nothing. -/
theorem handles_configured (hc : s.status.state ≠ .configuring)
    (h : Handles s c (.command .configured) o) :
    o.state = s ∧ o.connection = c ∧ emitted o.effects = [] := by
  have he : s.entered? c (.command .configured) = none := if_neg hc
  cases h with
  | stays _ hstate hconn hr => exact ⟨hstate, hconn, hr⟩
  | enters st hi => rw [he] at hi; cases hi
  | resumes kind thread ticket hi => cases hi
  | ends cause hi => rw [he] at hi; cases hi

/-- The command leaves a session in agreement with what it was, and the session does not configure after it. -/
theorem agree_configured (hl : s.status.state ≠ .launching)
    (h : Handles s c (.command .configured) o) :
    Agree s o.state ∧ o.state.status.state ≠ .configuring ∧ o.connection = c ∧ emitted o.effects = [] := by
  by_cases hc : s.status.state = .configuring
  · have he : s.entered? c (.command .configured) = some .running := if_pos hc
    cases h with
    | stays hi => rw [he] at hi; cases hi
    | enters st hi _ _ hstate hconn hr =>
      rw [he] at hi
      cases hi
      refine ⟨⟨hl, ?_, by rw [hstate]; rfl, by rw [hstate]; rfl, by rw [hstate]; rfl,
        by rw [hstate]; rfl, by rw [hstate]; rfl⟩, ?_, hconn, hr⟩
      · rw [hc, hstate]
        rfl
      · rw [hstate]
        exact fun hno => RunState.noConfusion hno
    | resumes kind thread ticket hi => cases hi
    | ends cause hi => rw [he] at hi; cases hi
  · obtain ⟨hstate, hconn, hr⟩ := handles_configured hc h
    rw [hstate]
    exact ⟨.refl hl, hc, hconn, hr⟩

end State
end Session

open DebugHost.Session

namespace Debugger

variable {ρ : Type} {d d' : Debugger ρ} {is : List Input}

/-! ### Any inputs -/

/-- The sessions of two debuggers agree, on the same connection, and have reported the same. -/
structure Agree (d d' : Debugger ρ) : Prop where
  state : d.room.state.Agree d'.room.state
  connection : d.link.connection = d'.link.connection
  reports : d.room.events.map DebugEvent.undated = d'.room.events.map DebugEvent.undated

theorem Agree.symm (h : d.Agree d') : d'.Agree d :=
  ⟨h.state.symm, h.connection.symm, h.reports.symm⟩

theorem agree_input {i : Input} (h : d.Agree d') (hi : i.isDated = false) :
    (d.move (.input i)).Agree (d'.move (.input i)) := by
  have hover : d.Over ↔ d'.Over := h.state.state_iff .terminated (by decide) (by decide)
  by_cases ho : d.Over
  · rw [input_over ho, input_over (hover.mp ho)]
    exact h
  · obtain ⟨-, hs, es, hh, hevents, -⟩ := handles_move (if_neg ho : d.taken? (.input i) = some i)
    obtain ⟨-, -, es', hh', hevents', -⟩ :=
      handles_move (if_neg fun h' => ho (hover.mpr h') : d'.taken? (.input i) = some i)
    rw [← h.connection] at hh'
    obtain ⟨hstate, hconn, hr⟩ := State.agree_handles h.state hi hs hh hh'
    refine ⟨hstate, hconn, ?_⟩
    rw [hevents, hevents', List.map_append, List.map_append, h.reports]
    exact congrArg _ hr

theorem agree_takes (h : d.Agree d') (his : ∀ i ∈ is, i.isDated = false) :
    (d.takes is).Agree (d'.takes is) := by
  induction is generalizing d d' with
  | nil => exact h
  | cons i is ih =>
    rw [takes_cons, takes_cons]
    exact ih (agree_input h (his i (List.mem_cons_self ..)))
      fun j hj => his j (List.mem_cons_of_mem i hj)

/-- **The command leaves a session in agreement with what it was.** -/
theorem agree_configured (hl : d.room.state.status.state ≠ .launching) :
    d.Agree (d.move (.input (.command .configured))) ∧
      (d.move (.input (.command .configured))).room.state.status.state ≠ .configuring := by
  by_cases ho : d.Over
  · rw [input_over ho]
    refine ⟨⟨.refl hl, rfl, rfl⟩, ?_⟩
    rw [ho]
    decide
  · obtain ⟨-, -, es, hh, hevents, -⟩ :=
      handles_move (if_neg ho : d.taken? (.input (.command .configured)) = some _)
    obtain ⟨hstate, hnot, hconn, hr⟩ := State.agree_configured hl hh
    refine ⟨⟨hstate, hconn.symm, ?_⟩, hnot⟩
    rw [hevents, show emitted es = [] from hr, List.append_nil]

/-- A session that neither launches nor configures does not do so any more. -/
theorem settled_input (hl : d.room.state.status.state ≠ .launching)
    (hc : d.room.state.status.state ≠ .configuring) (i : Input) :
    (d.move (.input i)).room.state.status.state ≠ .launching ∧
      (d.move (.input i)).room.state.status.state ≠ .configuring := by
  by_cases ho : d.Over
  · rw [input_over ho]
    exact ⟨hl, hc⟩
  · obtain ⟨-, -, es, hh, -, -⟩ := handles_move (if_neg ho : d.taken? (.input i) = some i)
    have hstate := State.handles_state hh
    cases he : d.room.state.entered? d.link.connection i with
    | none =>
      rw [he] at hstate
      rw [show (d.move (.input i)).room.state.status.state = _ from hstate]
      exact ⟨hl, hc⟩
    | some st =>
      have hrank : 2 ≤ st.rank := (State.entered_cases he).resolve_left fun h => hl h.1
      rw [he] at hstate
      rw [show (d.move (.input i)).room.state.status.state = st from hstate]
      constructor
      · rintro rfl
        exact absurd hrank (by decide)
      · rintro rfl
        exact absurd hrank (by decide)

theorem settled_takes (hl : d.room.state.status.state ≠ .launching)
    (hc : d.room.state.status.state ≠ .configuring) (is : List Input) :
    (d.takes is).room.state.status.state ≠ .configuring := by
  induction is generalizing d with
  | nil => exact hc
  | cons i is ih =>
    obtain ⟨hl', hc'⟩ := settled_input hl hc i
    exact ih hl' hc'

/-- The inputs with the command taken behind the first `m` of them. -/
def configuredAt (is : List Input) (m : Nat) : List Input :=
  is.take m ++ .command .configured :: is.drop m

/-- With the command anywhere among its inputs a session comes to agree with one that has not taken it. -/
theorem agree_configuredAt (hl : d.room.state.status.state ≠ .launching)
    (his : ∀ i ∈ is, i.isDated = false) (m : Nat) :
    (d.takes is).Agree (d.takes (configuredAt is m)) ∧
      (d.takes (configuredAt is m)).room.state.status.state ≠ .configuring := by
  have hstart : (d.takes (is.take m)).Agree (d.takes (is.take m)) :=
    agree_takes ⟨.refl hl, rfl, rfl⟩ fun i hi => his i (List.mem_of_mem_take hi)
  obtain ⟨hconfigured, hnot⟩ := agree_configured hstart.state.launched
  have hrest : ∀ i ∈ is.drop m, i.isDated = false := fun i hi => his i (List.mem_of_mem_drop hi)
  have hbehind := agree_takes hconfigured hrest
  have hwhole : d.takes is = (d.takes (is.take m)).takes (is.drop m) := by
    rw [← takes_append, List.take_append_drop]
  rw [configuredAt, takes_append, takes_cons, hwhole]
  exact ⟨hbehind, settled_takes hconfigured.symm.state.launched hnot (is.drop m)⟩

/-- What two sessions have come to that took the same: all but the generations. -/
structure SameEnd (d d' : Debugger ρ) : Prop where
  state : d.room.state.status.state = d'.room.state.status.state
  termination : d.room.state.status.termination = d'.room.state.status.termination
  activeThread : d.room.state.status.activeThread = d'.room.state.status.activeThread
  stopReason : d.room.state.status.stopReason = d'.room.state.status.stopReason
  threads : d.room.state.threads = d'.room.state.threads
  connection : d.link.connection = d'.link.connection
  reports : d.room.events.map DebugEvent.undated = d'.room.events.map DebugEvent.undated

/-- **The point at which the configuration counts as sent does not matter.** A session that is configuring
takes any inputs: events of the adapter, the end of the connection, commands; only news of a failed resume is
left out, as it counts in one epoch. Wherever among them it takes the command that the configuration has been
sent, it comes to the same state, cause of its end, active thread, reason of the stop, threads and connection,
and has reported the same up to the generations in the reports. If an input before the command has led it to
another state already, such as a stop, the command changes nothing. -/
theorem configured_anytime (d : Debugger ρ) (hd : d.room.state.status.state = .configuring)
    (is : List Input) (his : ∀ i ∈ is, i.isDated = false) :
    (∀ m n, SameEnd (d.takes (configuredAt is m)) (d.takes (configuredAt is n))) ∧
    (∀ m, (d.takes (is.take m)).room.state.status.state ≠ .configuring →
      (d.takes (is.take m ++ [.command .configured])).room.state = (d.takes (is.take m)).room.state ∧
      (d.takes (is.take m ++ [.command .configured])).room.events =
        (d.takes (is.take m)).room.events) := by
  have hl : d.room.state.status.state ≠ .launching := by
    rw [hd]
    decide
  have hsettled : ∀ st : RunState, st ≠ .configuring → st.settled = st := by
    intro st hst
    cases st with
    | configuring => exact absurd rfl hst
    | _ => rfl
  constructor
  · intro m n
    obtain ⟨hm, hcm⟩ := agree_configuredAt hl his m
    obtain ⟨hn, hcn⟩ := agree_configuredAt hl his n
    have hstate := hm.state.state.symm.trans hn.state.state
    rw [hsettled _ hcm, hsettled _ hcn] at hstate
    exact ⟨hstate, hm.state.termination.symm.trans hn.state.termination,
      hm.state.activeThread.symm.trans hn.state.activeThread,
      hm.state.stopReason.symm.trans hn.state.stopReason,
      hm.state.threads.symm.trans hn.state.threads, hm.connection.symm.trans hn.connection,
      hm.reports.symm.trans hn.reports⟩
  · intro m hc
    rw [takes_append, takes_cons]
    show ((d.takes (is.take m)).move (.input (.command .configured))).room.state = _ ∧
      ((d.takes (is.take m)).move (.input (.command .configured))).room.events = _
    by_cases ho : (d.takes (is.take m)).Over
    · rw [input_over ho]
      exact ⟨rfl, rfl⟩
    · obtain ⟨-, -, es, hh, hevents, -⟩ := handles_move
        (if_neg ho : (d.takes (is.take m)).taken? (.input (.command .configured)) = some _)
      obtain ⟨hstate, -, hr⟩ := State.handles_configured hc hh
      refine ⟨hstate, ?_⟩
      rw [hevents, show emitted es = [] from hr, List.append_nil]

/-- A session that is configuring. -/
def configuring : Debugger Unit := begun.takes [.event ⟨1, "initialized", none⟩]

/-- A continue that comes before the stop, the stop, and one more of another thread. -/
def earlyStop : List Input := [.event ⟨2, "continued", none⟩, stoppedAt 7, stoppedAt 9]

theorem configured_anytime_earlyStop :
    SameEnd (configuring.takes (configuredAt earlyStop 0)) (configuring.takes (configuredAt earlyStop 2)) ∧
    (configuring.takes (earlyStop.take 2 ++ [.command .configured])).room.state.status.state = .paused ∧
    (configuring.takes (configuredAt earlyStop 0)).room.events =
      [.continued none, .stopped "breakpoint" (some 7) ⟨4⟩, .stopped "breakpoint" (some 9) ⟨5⟩] ∧
    (configuring.takes (configuredAt earlyStop 2)).room.events =
      [.continued none, .stopped "breakpoint" (some 7) ⟨2⟩, .stopped "breakpoint" (some 9) ⟨3⟩] := by
  have hdated : ∀ i ∈ earlyStop, i.isDated = false := by
    simp only [earlyStop, stoppedAt, List.forall_mem_cons]
    exact ⟨rfl, rfl, rfl, List.forall_mem_nil _⟩
  obtain ⟨hsame, hearly⟩ := configured_anytime configuring rfl earlyStop hdated
  refine ⟨hsame 0 2, ?_, rfl, rfl⟩
  rw [(hearly 2 (by decide)).1]
  rfl

end Debugger
end DebugHost
