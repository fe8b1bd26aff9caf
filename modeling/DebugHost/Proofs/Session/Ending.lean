import DebugHost.Proofs.Debugger.Moves

/-! # The end of a session

A session can be ended from four sides, in any order and more than once. What counts is the first input
that ends it (`Debugger.EndsAt`): until then the reports are those of the inputs, one by one
(`Debugger.reports`), then comes the report of the end, and after it nothing is reported or changed any
more. All of this is said of the inputs that the session is given, whether or not it is still there to
take them. -/

namespace DebugHost

namespace Session.State

variable {s : State} {c : Connection} {i : Input} {o : Outcome}

/-! ### One step -/

/-- The cause that a session gives for its end. -/
def causeOf (stopping : Bool) (cause : Termination) : Termination :=
  if stopping then .userStopped else cause

/-- After an input that does not end it, a session goes on and has reported just that input. -/
theorem handles_goesOn (hs : s.status.state ≠ .terminated) (hw : i.cause? = none)
    (h : Handles s c i o) :
    o.state.status.state ≠ .terminated ∧ o.state.stopping = (s.stopping || i.asksStop) ∧
    emitted o.effects = (i.report? o.state.status.generation).toList := by
  cases h with
  | stays _ hstate _ hr =>
    refine ⟨?_, ?_, hr⟩
    · rw [hstate, (noted_note s i).state]; exact hs
    · rw [hstate]; exact note_stopping s i
  | enters st _ hst _ hstate _ hr =>
    refine ⟨?_, ?_, hr⟩
    · rw [hstate]; exact hst
    · rw [hstate]; exact note_stopping s i
  | resumes kind thread ticket hi _ _ hstate _ hr =>
    refine ⟨?_, ?_, ?_⟩
    · rw [hstate]; exact fun he => RunState.noConfusion he
    · rw [hstate, hi]; exact (Bool.or_false _).symm
    · rw [hr, hi]; rfl
  | ends cause _ hcause => rw [hw] at hcause; cases hcause

/-- After an input that ends it, a session is over, its cause is told and the connection is closed. -/
theorem handles_over {cause : Termination} (hw : i.cause? = some cause) (h : Handles s c i o) :
    o.state.status.state = .terminated ∧
    o.state.status.termination = some (causeOf s.stopping cause) ∧
    o.connection.isClosed = true ∧
    emitted o.effects = [.terminated (causeOf s.stopping cause)] := by
  cases h with
  | stays hi => rw [entered_of_cause hw] at hi; cases hi
  | enters st hi hst => rw [entered_of_cause hw] at hi; cases hi; exact absurd rfl hst
  | resumes kind thread ticket hi => rw [hi] at hw; cases hw
  | ends cause' _ hcause hstate hconn hr =>
    rw [hw] at hcause
    cases hcause
    have hstop : (s.note i).stopping = s.stopping := by
      rw [note_stopping, asksStop_of_cause hw, Bool.or_false]
    refine ⟨by rw [hstate]; rfl, ?_, ?_, hr⟩
    · rw [hstate, ← hstop]; rfl
    · rw [hconn]; exact Debugger.isClosed_close c .shutdown

end Session.State

open DebugHost.Session

namespace Debugger

variable {ρ : Type}

/-! ### Any order of moves -/

/-- Why a move ends the session, if it does. -/
def Move.cause? (m : Move ρ) : Option Termination := m.offered?.bind Input.cause?

/-- Whether a move tells the session that the user wants to stop. -/
def Move.asksStop (m : Move ρ) : Bool := m.offered?.any Input.asksStop

/-- Move `t` is the first that ends the session. -/
structure EndsAt (σ : Nat → Move ρ) (t : Nat) (cause : Termination) : Prop where
  cause : (σ t).cause? = some cause
  first : ∀ k < t, (σ k).cause? = none

/-- Whether one of the first `n` moves told the session that the user wants to stop. -/
def stopAsked (σ : Nat → Move ρ) (n : Nat) : Bool := (List.range n).any fun k => (σ k).asksStop

/-- The reports of what the first `n` moves gave to the session, one by one. -/
def reports (d : Debugger ρ) (σ : Nat → Move ρ) (n : Nat) : List DebugEvent :=
  (List.range n).filterMap fun k =>
    (σ k).offered?.bind (Input.report? (d.session σ (k + 1)).status.generation)

variable {d : Debugger ρ} {σ : Nat → Move ρ}

theorem stopAsked_succ (σ : Nat → Move ρ) (n : Nat) :
    stopAsked σ (n + 1) = (stopAsked σ n || (σ n).asksStop) := by
  unfold stopAsked
  rw [List.range_succ, List.any_append, List.any_cons, List.any_nil, Bool.or_false]

theorem reports_succ (d : Debugger ρ) (σ : Nat → Move ρ) (n : Nat) :
    d.reports σ (n + 1) = d.reports σ n ++
      ((σ n).offered?.bind (Input.report? (d.session σ (n + 1)).status.generation)).toList := by
  unfold reports
  rw [List.range_succ, List.filterMap_append]
  rfl

/-- Until it is ended, a session goes on and has reported what it was given. -/
theorem going_after (h : ¬ d.Over) (hstop : d.room.state.stopping = false)
    (hevents : d.room.events = []) {n : Nat} (hn : ∀ k < n, (σ k).cause? = none) :
    ¬ (d.after σ n).Over ∧ (d.session σ n).stopping = stopAsked σ n ∧
    (d.after σ n).room.events = d.reports σ n := by
  induction n with
  | zero => exact ⟨h, hstop, hevents⟩
  | succ n ih =>
    obtain ⟨hgoing, hs, he⟩ := ih fun k hk => hn k (Nat.lt_succ_of_lt hk)
    have hcause := hn n (Nat.lt_succ_self n)
    have htaken : (d.after σ n).taken? (σ n) = (σ n).offered? := if_neg hgoing
    rw [stopAsked_succ, reports_succ]
    cases hi : (σ n).offered? with
    | none =>
      have hb := beside_move (htaken.trans hi)
      refine ⟨?_, ?_, ?_⟩
      · intro ho
        exact hgoing ((congrArg Status.state hb.status).symm.trans ho)
      · rw [Move.asksStop, hi]
        exact hb.stopping.trans (hs.trans (Bool.or_false _).symm)
      · exact hb.events.trans (he.trans (List.append_nil _).symm)
    | some i =>
      obtain ⟨-, -, es, hh, hevents', -⟩ := handles_move (htaken.trans hi)
      rw [Move.cause?, hi] at hcause
      obtain ⟨hgo, hst, hr⟩ := State.handles_goesOn hgoing hcause hh
      refine ⟨hgo, ?_, ?_⟩
      · rw [Move.asksStop, hi, ← hs]
        exact hst
      · rw [← he]
        exact hevents'.trans (congrArg _ hr)

/-- Once a session is over, nothing changes any more. -/
theorem over_after {i j : Nat} (hij : i ≤ j) (h : (d.after σ i).Over)
    (hc : (d.after σ i).link.connection.isClosed = true) :
    (d.session σ j).status = (d.session σ i).status ∧
    (d.after σ j).room.events = (d.after σ i).room.events ∧
    (d.after σ j).link.connection.isClosed = true := by
  induction hij with
  | refl => exact ⟨rfl, rfl, hc⟩
  | @step j _ ih =>
    obtain ⟨hs, he, hcl⟩ := ih
    have ho : (d.after σ j).Over := (congrArg Status.state hs).trans h
    have hb := beside_move (if_pos ho : (d.after σ j).taken? (σ j) = none)
    exact ⟨hb.status.trans hs, hb.events.trans he, hb.closed hcl⟩

/-- **A session ends once and for all.** In every order of moves from the beginning of a session on: as
long as no input has ended it, it goes on and has reported just what it was given, in order. From the
first input that ends it on, it has reported the end besides, once and last; the cause in the report
and in the status is that of this input, unless the user had told that he wants to stop; the status
does not change any more, and the connection is closed. -/
theorem session_ends_once (d : Debugger ρ) (id : SessionId) (attached : Bool) (σ : Nat → Move ρ) :
    (∀ n, (∀ k < n, (σ k).cause? = none) →
      ((d.fresh id attached).session σ n).status.state ≠ .terminated ∧
      ((d.fresh id attached).after σ n).room.events = (d.fresh id attached).reports σ n) ∧
    (∀ t cause, EndsAt σ t cause → ∀ n, t < n →
      ((d.fresh id attached).after σ n).room.events =
        (d.fresh id attached).reports σ t ++
          [.terminated (State.causeOf (stopAsked σ t) cause)] ∧
      ((d.fresh id attached).session σ n).status.state = .terminated ∧
      ((d.fresh id attached).session σ n).status.termination =
        some (State.causeOf (stopAsked σ t) cause) ∧
      ((d.fresh id attached).session σ n).status = ((d.fresh id attached).session σ (t + 1)).status ∧
      ((d.fresh id attached).after σ n).link.connection.isClosed = true) := by
  have hfresh : ¬ (d.fresh id attached).Over := fun h => RunState.noConfusion h
  refine ⟨fun n hn => ?_, fun t cause ht n hn => ?_⟩
  · obtain ⟨hgo, -, he⟩ := going_after hfresh rfl rfl hn
    exact ⟨hgo, he⟩
  · obtain ⟨hgo, hs, he⟩ := going_after hfresh rfl rfl ht.first
    unfold session at hs
    obtain ⟨i, hi, hw⟩ := Option.bind_eq_some_iff.mp ht.cause
    have htaken : ((d.fresh id attached).after σ t).taken? (σ t) = some i := (if_neg hgo).trans hi
    obtain ⟨-, -, es, hh, hevents, -⟩ := handles_move htaken
    obtain ⟨hover, hterm, hclosed, hr⟩ := State.handles_over hw hh
    obtain ⟨hsame, hsilent, hcl⟩ := over_after hn hover hclosed
    rw [hs] at hterm hr
    refine ⟨?_, ?_, ?_, hsame, hcl⟩
    · rw [hsilent, ← he, ← hr]
      exact hevents
    · rw [hsame]; exact hover
    · rw [hsame]; exact hterm

/-- The program exits after the user has asked to stop, and the adapter tells the same twice more. -/
def threeEnds (n : Nat) : Move Unit :=
  [.input (stoppedAt 7), .input (.event ⟨0, "output", none⟩), .input (.command (.order .stopping 0)),
    .input (.command (.exited ⟨some 3, .exited⟩)), .input (.event ⟨0, "terminated", none⟩),
    .input (stoppedAt 8), .input (.closed .eof)].getD n .read

theorem session_ends_once_threeEnds :
    EndsAt threeEnds 3 (.exited (some 3)) ∧
    (begun.after threeEnds 7).room.events =
      [.stopped "breakpoint" (some 7) ⟨1⟩, .output none "", .terminated .userStopped] ∧
    (begun.session threeEnds 7).status.termination = some .userStopped ∧
    (begun.after threeEnds 7).link.connection.isClosed = true ∧
    (begun.after threeEnds 3).room.events =
      [.stopped "breakpoint" (some 7) ⟨1⟩, .output none ""] := by
  have hfirst : ∀ k < 3, (threeEnds k).cause? = none := by
    intro k hk
    match k with
    | 0 => rfl
    | 1 => rfl
    | 2 => rfl
  have hends : EndsAt threeEnds 3 (.exited (some 3)) := ⟨rfl, hfirst⟩
  obtain ⟨hgoing, hended⟩ := session_ends_once { link := .start ⟨5000⟩ } ⟨1⟩ true threeEnds
  obtain ⟨hevents, -, hterm, -, hclosed⟩ := hended 3 _ hends 7 (by decide)
  exact ⟨hends, hevents, hterm, hclosed, (hgoing 3 hfirst).2⟩

end Debugger
end DebugHost
