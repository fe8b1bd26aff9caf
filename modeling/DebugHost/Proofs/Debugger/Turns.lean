import DebugHost.Proofs.Debugger.Moves

/-! # The runs of a debugger are orders of moves

Tasks take turns in an order that `Debugger.settle` chooses, and go on in a turn until they have to
wait. Every turn, and so everything that a debugger does and everything that comes from outside, is a
sequence of moves (`Debugger.Leads`), and so begins a schedule. What holds in every order of moves
therefore holds in every run. -/

namespace DebugHost.Debugger

open DebugHost.Session

variable {ρ : Type}

/-- Moves lead from one debugger to another. -/
abbrev Leads (d d' : Debugger ρ) : Prop := DebugHost.Leads move d d'

theorem leads_move (d : Debugger ρ) (m : Move ρ) : d.Leads (d.move m) := .one d m

/-- What is beside time, link and room may change at any time. -/
theorem leads_beside {d d' : Debugger ρ} (hn : d'.now = d.now) (hl : d'.link = d.link)
    (hr : d'.room = d.room) : d.Leads d' := by
  have h := leads_move d (.aside d')
  have hd : d.move (.aside d') = d' := by
    show { d' with now := d.now, link := d.link, room := d.room } = d'
    rw [← hn, ← hl, ← hr]
  rw [hd] at h
  exact h

/-! ### Turns -/

theorem leads_park (d : Debugger ρ) (me : Nat) (t : Task ρ) (ss : List Signal) (deadline : Option Nat) :
    d.Leads (d.park me t ss deadline) :=
  leads_beside rfl rfl rfl

/-- The task attempts one action after the other. -/
theorem leads_follow {α : Type} (me : Nat) (s : Script α) (d : Debugger ρ) :
    d.Leads (follow me s d).1 := by
  induction s generalizing d with
  | done a => exact .refl
  | act a next ih =>
    have h := leads_move d (.act me a)
    unfold follow
    split
    · next d' r hr =>
      have hd : d.move (.act me a) = d' := congrArg Prod.fst hr
      rw [hd] at h
      exact h.trans (ih r d')
    · next d' ss deadline hr =>
      have hd : d.move (.act me a) = d' := congrArg Prod.fst hr
      rw [hd] at h
      exact h

theorem leads_readAll (fuel : Nat) (d : Debugger ρ) : d.Leads (readAll fuel d).1 := by
  induction fuel generalizing d with
  | zero => exact .refl
  | succ fuel ih =>
    have h : d.Leads (d.afterStep d.link.read).passReports :=
      (leads_move d .read).trans (leads_move _ .pass)
    unfold readAll
    simp only
    split
    · exact h
    · exact h
    · exact h.trans (ih _)

theorem leads_writeAll (fuel : Nat) (d : Debugger ρ) : d.Leads (writeAll fuel d).1 := by
  induction fuel generalizing d with
  | zero => exact .refl
  | succ fuel ih =>
    have h : d.Leads (d.afterStep d.link.write) := leads_move d .write
    unfold writeAll
    simp only
    split
    · exact h
    · exact h
    · exact h.trans (ih _)

theorem leads_takeAll (fuel : Nat) (d : Debugger ρ) : d.Leads (takeAll fuel d).1 := by
  induction fuel generalizing d with
  | zero => exact .refl
  | succ fuel ih =>
    unfold takeAll
    split
    · next ho =>
      have hover : d.Over := ho
      have h := leads_move d .leave
      rw [move, if_pos hover] at h
      exact h
    · next ho =>
      split
      · exact .refl
      · next i room hr =>
        have hpick : d.move .pick = { d with room := room } := by simp only [move, hr]
        have hstate : room.state = d.room.state := (next_keeps hr).1
        have hgoing : ¬ ({ d with room := room } : Debugger ρ).Over := by
          show room.state.status.state ≠ _
          rw [hstate]
          exact ho
        have h := (leads_move d .pick).trans (leads_move _ (.input i))
        rw [hpick, move, if_neg hgoing] at h
        exact h.trans (ih _)

/-- **A turn is a sequence of moves.** -/
theorem leads_turn (d : Debugger ρ) (me : Nat) : d.Leads (d.turn me) := by
  unfold turn
  split
  · exact .refl
  · next t _ =>
    have h : d.Leads { d with tasks := d.tasks.filter (·.1 != me) } := leads_beside rfl rfl rfl
    refine h.trans ?_
    generalize { d with tasks := d.tasks.filter (·.1 != me) } = d
    cases t with
    | reader =>
      have h := leads_readAll (d.link.inbound.source.size + 2) d
      simp only
      split
      · next hr => rw [hr] at h; exact h.trans (leads_park ..)
      · next hr => rw [hr] at h; exact h
    | writer =>
      have h := leads_writeAll (d.link.connection.queue.length + 2) d
      simp only
      split
      · next hr => rw [hr] at h; exact h.trans (leads_park ..)
      · next hr => rw [hr] at h; exact h
    | session =>
      have h := leads_takeAll (d.room.inbox.length + d.room.commands.length + 2) d
      simp only
      split
      · next hr => rw [hr] at h; exact h.trans (leads_park ..)
      · next hr => rw [hr] at h; exact h
    | watch s =>
      have h := leads_follow me s d
      simp only
      split
      · next hr => rw [hr] at h; exact h
      · next hr => rw [hr] at h; exact h.trans (leads_park ..)
    | call id s =>
      have h := leads_follow me s d
      simp only
      split
      · next hr => rw [hr] at h; exact h.trans (leads_beside rfl rfl rfl)
      · next hr => rw [hr] at h; exact h.trans (leads_park ..)

theorem leads_settleWithin (fuel : Nat) (d : Debugger ρ) : d.Leads (settleWithin fuel d) := by
  induction fuel generalizing d with
  | zero => exact .refl
  | succ fuel ih =>
    unfold settleWithin
    split
    · exact .refl
    · next me rest _ =>
      have h : d.Leads { d with schedule := { d.schedule with ready := rest } } := leads_beside rfl rfl rfl
      exact (h.trans (leads_turn _ me)).trans (ih _)

theorem leads_settle (d : Debugger ρ) : d.Leads d.settle := leads_settleWithin turnLimit d

/-! ### What comes from outside -/

theorem leads_setTime (d : Debugger ρ) (now : Nat) : d.Leads (d.setTime now) := by
  have h : d.Leads { d with now := now, schedule := d.schedule.expire now } :=
    (leads_move d (.clock now)).trans (leads_beside rfl rfl rfl)
  exact h.trans (leads_settle _)

theorem leads_advanceTo (goal fuel : Nat) (d : Debugger ρ) : d.Leads (advanceTo goal fuel d) := by
  induction fuel generalizing d with
  | zero => exact leads_setTime d goal
  | succ fuel ih =>
    unfold advanceTo
    split
    · exact leads_setTime d goal
    · next t _ =>
      split
      · exact (leads_setTime d (max d.now t)).trans (ih _)
      · exact leads_setTime d goal

/-- **Time passes by moves.** -/
theorem leads_advance (d : Debugger ρ) (millis : Nat) : d.Leads (d.advance millis) :=
  leads_advanceTo (d.now + millis) millis d

theorem leads_call (d : Debugger ρ) (id : Nat) (s : Script ρ) : d.Leads (d.call id s) :=
  leads_beside rfl rfl rfl

/-- **A session begins fresh**, and what it does before it first waits is moves. -/
theorem leads_startSession (d : Debugger ρ) (id : SessionId) (attached : Bool) :
    (d.fresh id attached).Leads (d.startSession id attached) := by
  refine Leads.trans (leads_beside ?_ ?_ ?_) (leads_settle _)
  · rfl
  · rfl
  · rfl

end DebugHost.Debugger
