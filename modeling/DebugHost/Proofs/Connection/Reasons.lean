import DebugHost.Proofs.Connection.Intake
import DebugHost.Proofs.Connection.Matching

/-! # The reason for which a connection is closed

A connection has one reason for its end, which is the first that anybody has given (`closed_move`).
Nobody takes the connection for shut down, and neither reader nor writer has come to its end, before a
reason is recorded, and the reason that the reader reports is the one that is recorded
(`ending_after`). -/

namespace DebugHost.Traffic

open DebugHost.Json

variable {x y : Traffic} {r : CloseReason}

/-! ### The first reason -/

theorem close_of_closed {c : Connection} (h : c.closed = some r) (reason : CloseReason) :
    (c.close reason).closed = some r := by
  unfold Connection.close
  rw [h]
  rfl

/-- A recorded reason stays. -/
theorem Change.closed (hc : Change x y) (h : x.connection.closed = some r) :
    y.connection.closed = some r := by
  cases hc with
  | call me hme hgoes => exact hgoes.rest.1.trans h
  | takes hi ht => exact ht.rest.1.trans h
  | shutdown => exact close_of_closed h .shutdown
  | blamed text ho => exact close_of_closed h (.io text)
  | records reason hi => exact close_of_closed h reason
  | _ => exact h

/-- The reason that a move gives for closing the connection: somebody shuts it down, a message could
not be written, or the reader has left its loop. -/
def reason? (x : Traffic) : Move → Option CloseReason
  | .shutdown => some .shutdown
  | .stopWrite =>
    match x.outlet with
    | .failed text => some (.io text)
    | _ => none
  | .goOn =>
    match x.intake with
    | .leaving reason => some reason
    | _ => none
  | _ => none

theorem closed_stopWrite (x : Traffic) :
    x.stopWrite.connection.closed = x.connection.closed.or (x.reason? .stopWrite) := by
  unfold stopWrite reason?
  cases x.outlet with
  | failed text => rfl
  | writing =>
    simp only [Option.or_none]
    split <;> rfl
  | recorded =>
    simp only [Option.or_none]
    split <;> rfl
  | ended => exact (Option.or_none ..).symm

theorem closed_goOn (x : Traffic) :
    x.goOn.connection.closed = x.connection.closed.or (x.reason? .goOn) := by
  unfold goOn reason?
  cases x.intake with
  | leaving reason => rfl
  | recorded reason =>
    simp only [Option.or_none]
    split <;> rfl
  | _ => exact (Option.or_none ..).symm

theorem closed_cancel (x : Traffic) :
    x.cancel.connection.closed = x.connection.closed.or none := by
  unfold cancel
  rw [Option.or_none]
  split <;> rfl

theorem closed_failWrite (x : Traffic) (text : String) :
    (x.write (some text)).connection.closed = x.connection.closed.or none := by
  unfold write
  rw [Option.or_none]
  split <;> rfl

/-- **The first reason that is given is recorded**, and nothing else. -/
theorem closed_move (x : Traffic) (m : Move) :
    (x.move m).connection.closed = x.connection.closed.or (x.reason? m) := by
  have hquiet : m.isQuiet = true → x.reason? m = none →
      (x.move m).connection.closed = x.connection.closed.or (x.reason? m) := by
    intro hm hnone
    rw [(quiet_move x hm).closed, hnone, Option.or_none]
  cases m with
  | shutdown => rfl
  | stopWrite => exact closed_stopWrite x
  | goOn => exact closed_goOn x
  | cancel => exact closed_cancel x
  | failWrite text => exact closed_failWrite x text
  | _ => exact hquiet rfl rfl

theorem Change.isClosed (hc : Change x y) (h : x.connection.closed ≠ none) :
    y.connection.closed ≠ none := by
  obtain ⟨r, hr⟩ := Option.ne_none_iff_exists'.mp h
  exact Option.ne_none_iff_exists'.mpr ⟨r, hc.closed hr⟩

/-- A connection that is shut down stays so. -/
theorem Change.cancelled (hc : Change x y) (h : x.cancelled = true) : y.cancelled = true := by
  cases hc with
  | takes hi ht => exact ht.rest.2.2.2.1.trans h
  | cancel hc => rfl
  | _ => exact h

variable {timeout : Duration} {σ : Nat → Move} {n m : Nat}

theorem closed_stays (hnm : n ≤ m) (h : (after timeout σ n).connection.closed = some r) :
    (after timeout σ m).connection.closed = some r :=
  after_stays (P := fun x => x.connection.closed = some r) (fun _ _ => Change.closed) hnm h

theorem cancelled_stays (hnm : n ≤ m) (h : (after timeout σ n).cancelled = true) :
    (after timeout σ m).cancelled = true :=
  after_stays (P := fun x => x.cancelled = true) (fun _ _ => Change.cancelled) hnm h

/-! ### What an end takes -/

/-- The reason that the reader has recorded, as it is to be reported. -/
def Intake.reason? : Intake → Option CloseReason
  | .recorded reason => some reason
  | .abandoned reason => some reason
  | _ => none

/-- A reader that goes on has recorded nothing and not emptied the table. -/
theorem Intake.on {i : Intake} (h : i.isOn = true) : i.reason? = none ∧ i.isOver = false := by
  cases i with
  | reading => exact ⟨rfl, rfl⟩
  | holding r => exact ⟨rfl, rfl⟩
  | _ => cases h

/-- Ends come in their order: a reason is recorded, the connection is shut down, reader and writer
end; and what the reader reports is the recorded reason. -/
structure Ending (x : Traffic) : Prop where
  cancelled : x.cancelled = true → x.connection.closed ≠ none
  blamed : x.outlet = .recorded → x.connection.closed ≠ none
  silent : x.outlet = .ended → x.cancelled = true
  recorded : ∀ r, x.intake.reason? = some r → x.connection.closed = some r
  emptied : x.intake.isOver = true → x.cancelled = true
  told : ∀ r, .closed r ∈ x.reported → x.connection.closed = some r

theorem ending_start (timeout : Duration) : Ending (start timeout) where
  cancelled h := by cases h
  blamed h := by cases h
  silent h := by cases h
  recorded r h := by cases h
  emptied h := by cases h
  told r h := by cases h

/-- The end is reported by the reader only, when it has nothing else to do. -/
theorem told_change (hc : Change x y) (h : .closed r ∈ y.reported) :
    .closed r ∈ x.reported ∨ x.intake = .abandoned r := by
  cases records_change hc with
  | rests hi hreported hrests => exact Or.inl (hreported ▸ h)
  | ends reason hi hi' hreported hrests =>
    rw [hreported] at h
    rcases List.mem_append.mp h with h | h
    · exact Or.inl h
    · cases List.mem_singleton.mp h
      exact Or.inr hi
  | message m hm =>
    left
    cases hm.handles with
    | event e hconn hi hcompleted hreported =>
      rw [hreported] at h
      rcases List.mem_append.mp h with h | h
      · exact h
      · cases List.mem_singleton.mp h
    | completes a hin hconn hi hcompleted hreported => exact hreported ▸ h
    | orphan a hout hconn hi hcompleted hreported => exact hreported ▸ h
    | refused q ho hconn hi hcompleted hreported => exact hreported ▸ h
    | unheard q ho hconn hi hcompleted hreported => exact hreported ▸ h

/-- The order is kept by a change that brings no end further. -/
theorem Ending.of_same (h : Ending x) (hc : Change x y) (hcancelled : y.cancelled = x.cancelled)
    (hblamed : y.outlet = .recorded → x.outlet = .recorded)
    (hsilent : y.outlet = .ended → x.outlet = .ended)
    (hrecorded : ∀ r, y.intake.reason? = some r → x.intake.reason? = some r)
    (hover : y.intake.isOver = true → x.intake.isOver = true) : Ending y where
  cancelled hy := hc.isClosed (h.cancelled (hcancelled.symm.trans hy))
  blamed hy := hc.isClosed (h.blamed (hblamed hy))
  silent hy := hcancelled.trans (h.silent (hsilent hy))
  recorded r hy := hc.closed (h.recorded r (hrecorded r hy))
  emptied hy := hcancelled.trans (h.emptied (hover hy))
  told r hy := by
    rcases told_change hc hy with hy | hi
    · exact hc.closed (h.told r hy)
    · exact hc.closed (h.recorded r (by rw [hi]; rfl))

theorem Ending.change (hc : Change x y) (h : Ending x) : Ending y := by
  have hold := hc
  cases hc with
  | idle => exact h
  | cancel hcause =>
    have hclosed : x.connection.closed ≠ none := by
      rcases hcause with hcause | ⟨reason, hi⟩ | ho
      · exact hcause
      · rw [h.recorded reason (by rw [hi]; rfl)]
        simp
      · exact h.blamed ho
    exact ⟨fun _ => hclosed, h.blamed, fun _ => rfl, h.recorded, fun _ => rfl, h.told⟩
  | lost m rest text hq ho =>
    exact h.of_same hold rfl (fun hy => by cases hy) (fun hy => by cases hy) (fun _ hy => hy)
      (fun hy => hy)
  | blamed text ho =>
    refine ⟨fun hy => hold.isClosed (h.cancelled hy), fun _ => ?_, fun hy => (by cases hy),
      fun r hy => hold.closed (h.recorded r hy), h.emptied, fun r hy => hold.closed (h.told r hy)⟩
    show (x.connection.closed.or _) ≠ none
    cases x.connection.closed <;> simp
  | endWriting ho hcancelled =>
    exact ⟨h.cancelled, fun hy => (by cases hy), fun _ => hcancelled, h.recorded, h.emptied, h.told⟩
  | takes hi ht =>
    obtain ⟨-, -, -, hcancelled, hout, -⟩ := ht.rest
    have hon : y.intake.reason? = none ∧ y.intake.isOver = false := by
      cases ht with
      | nothing s hn =>
        rw [show (x.withInbound s).intake = x.intake from rfl, hi]
        exact ⟨rfl, rfl⟩
      | last o s reason hn ho => exact ⟨rfl, rfl⟩
      | message m hn hm => exact Intake.on hm.goesOn
    refine h.of_same hold hcancelled (fun hy => hout.symm.trans hy) (fun hy => hout.symm.trans hy) ?_ ?_
    · intro r hy
      rw [hon.1] at hy
      cases hy
    · intro hy
      rw [hon.2] at hy
      cases hy
  | stops reason hi =>
    exact h.of_same hold rfl id id (fun _ hy => by cases hy) (fun hy => by cases hy)
  | hands a hi =>
    exact h.of_same hold rfl id id (fun _ hy => by cases hy) (fun hy => by cases hy)
  | records reason hi =>
    refine ⟨fun hy => hold.isClosed (h.cancelled hy), fun hy => hold.isClosed (h.blamed hy), h.silent,
      fun r hy => ?_, fun hy => (by cases hy), fun r hy => hold.closed (h.told r hy)⟩
    -- what is recorded is what stands afterwards
    obtain rfl := Option.some.inj hy
    show (x.connection.closed.or _) = some ((x.connection.closed.or _).getD reason)
    cases x.connection.closed <;> rfl
  | abandons reason hi hcancelled =>
    refine ⟨h.cancelled, h.blamed, h.silent, fun r hy => ?_, fun _ => hcancelled, h.told⟩
    exact h.recorded r (by rw [hi]; exact hy)
  | ends reason hi =>
    exact h.of_same hold rfl id id (fun _ hy => by cases hy) (fun _ => by rw [hi]; rfl)
  | _ => exact h.of_same hold rfl id id (fun _ hy => hy) id

/-- **Ends come in their order** in every schedule. -/
theorem ending_after (timeout : Duration) (σ : Nat → Move) (n : Nat) : Ending (after timeout σ n) :=
  after_keeps timeout (ending_start timeout) (fun _ _ => Ending.change) σ n

end DebugHost.Traffic
