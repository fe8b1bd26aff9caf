import DebugHost.Proofs.Connection.Progress

/-! # A connection closes once

A connection is closed once and for one reason (`closesOnce`), whoever closes it, and whatever else
happens at the same time: the first reason that is recorded stays, the reader reports it behind all
events and only once, calls that wait are given the answers that were handed over to them and fail
otherwise, and calls that come later fail and do nothing. -/

namespace DebugHost.Traffic

open DebugHost.Json

variable {x y : Traffic} {me : Nat}

/-! ### Moves of the reader and of calls -/

theorem handed_goOn {r : Response} (h : Matched x) (hi : x.intake = .holding r) :
    (x.move .goOn).connection.answer? r.requestSeq = some r ∧ (x.move .goOn).calls = x.calls := by
  show x.goOn.connection.answer? _ = _ ∧ x.goOn.calls = _
  unfold goOn
  rw [hi]
  exact ⟨answer?_handed h hi, rfl⟩

/-- An answer stays as long as a call may take it. -/
theorem answer_kept {r : Response} (hc : Change x y) (hnum : Numbered x)
    (h : x.hopes? me = some r.requestSeq) (ha : x.connection.answer? r.requestSeq = some r)
    (hy : y.hopes? me = some r.requestSeq) : y.connection.answer? r.requestSeq = some r := by
  rcases hc.mine hnum me rfl with ⟨c', conn, ms, hgoes, rfl⟩ | ⟨-, hstays⟩
  · rw [hopes?, put_mine] at hy
    show conn.answer? _ = _
    cases hgoes.tables with
    | same hp hanswers => exact (answer?_congr hanswers _).trans ha
    | enters s hn ho he hu hp hanswers => exact (answer?_congr hanswers _).trans ha
    | leaves s ho he hh hp hanswers =>
      rw [show (some c').bind Call.hopes? = c'.hopes? from rfl, hh] at hy
      cases hy
  · exact hstays _ r (number_of_hopes h) ha

/-- A call that waits takes an answer that is there. -/
theorem advance_takes {r : Response} {command : String} {deadline : Nat}
    (hme : x.calls me = some (.sent ⟨r.requestSeq, command, some deadline⟩))
    (ha : x.connection.answer? r.requestSeq = some r) :
    (x.move (.step me)).calls me = some (.answered ⟨r.requestSeq, command, some deadline⟩ r) := by
  show (x.advance me).calls me = _
  unfold advance
  rw [hme]
  simp only [step, Option.isNone_some, Bool.false_eq_true, if_false, ha]
  exact put_mine ..

theorem stopRead_leaves (hi : x.intake = .reading) (hcancelled : x.cancelled = true) :
    (x.move .stopRead).intake = .leaving .shutdown := by
  show x.stopRead.intake = _
  unfold stopRead
  rw [hi, if_pos hcancelled]

theorem cancel_shuts (h : x.connection.closed ≠ none) : (x.move .cancel).cancelled = true := by
  have hclosed : x.connection.isClosed = true := Option.isSome_iff_ne_none.mpr h
  show x.cancel.cancelled = true
  unfold cancel
  rw [if_pos hclosed]

/-- A call that is made when the connection is shut down fails with its first step. -/
theorem advance_refused {command : String} {arguments : Value}
    (hme : x.calls me = some (.asked command arguments)) (hcancelled : x.cancelled = true) :
    (x.move (.step me)).calls me = some (.failed none .sessionTerminated) := by
  show (x.advance me).calls me = _
  unfold advance
  rw [hme]
  simp only [step, if_pos hcancelled]
  exact put_mine ..

/-! ### Closing -/

/-- What comes of all that may close a connection. -/
structure ClosesOnce (timeout : Duration) (σ : Nat → Move) : Prop where
  /-- The first reason that is given is recorded: by one who shuts the connection down, by the writer
  when it has failed, or by the reader when it has left its loop. -/
  first : ∀ n, (after timeout σ (n + 1)).connection.closed =
    (after timeout σ n).connection.closed.or ((after timeout σ n).reason? (σ n))
  /-- The recorded reason never changes. -/
  stays : ∀ n m r, n ≤ m → (after timeout σ n).connection.closed = some r →
    (after timeout σ m).connection.closed = some r
  /-- The connection is shut down when there is a reason, not before, and stays shut down. -/
  cancels : ∀ n, (after timeout σ n).connection.closed ≠ none → σ n = .cancel →
    (after timeout σ (n + 1)).cancelled = true
  shut : ∀ n, (after timeout σ n).cancelled = true → (after timeout σ n).connection.closed ≠ none ∧
    ∀ m, n ≤ m → (after timeout σ m).cancelled = true
  /-- As long as the reader has not ended, events are all that is reported, -/
  going : ∀ n, (after timeout σ n).intake ≠ .ended →
    (after timeout σ n).reported = (events (after timeout σ n).received).map .event
  /-- and then there is one end behind them, with the recorded reason. -/
  last : ∀ n, (after timeout σ n).intake = .ended →
    ∃ r, (after timeout σ n).connection.closed = some r ∧ (after timeout σ n).reported =
      (events (after timeout σ n).received).map .event ++ [.closed r]
  /-- A reader that waits for something to read when the connection is shut down can leave its loop, -/
  leaves : ∀ n, (after timeout σ n).intake = .reading → (after timeout σ n).cancelled = true →
    σ n = .stopRead → (after timeout σ (n + 1)).intake = .leaving .shutdown
  /-- and a reader that has left its loop ends within four moves. -/
  ends : ∀ n j, (after timeout σ n).intake.isOn = false → 4 ≤ turns Move.isGoOn σ n j →
    (after timeout σ (n + j)).intake = .ended
  /-- A call that waits when the reader hands its answer over is given this answer, whatever comes
  then. (A call waits when no look of its is under way.) -/
  given : ∀ n m me r command deadline, σ n = .goOn → (after timeout σ n).intake = .holding r →
    (after timeout σ n).calls me = some (.sent ⟨r.requestSeq, command, deadline⟩) → n < m →
    Served me command r (after timeout σ m)
  /-- A call that is just looking is given it, too, unless this look ends the call: the answer is there
  from when it was handed over as long as the call may take it, -/
  handed : ∀ n r, σ n = .goOn → (after timeout σ n).intake = .holding r →
    (after timeout σ (n + 1)).connection.answer? r.requestSeq = some r
  kept : ∀ n me r, (after timeout σ n).hopes? me = some r.requestSeq →
    (after timeout σ n).connection.answer? r.requestSeq = some r →
    (after timeout σ (n + 1)).hopes? me = some r.requestSeq →
    (after timeout σ (n + 1)).connection.answer? r.requestSeq = some r
  /-- and is given to it when it waits again. -/
  found : ∀ n m me r command deadline,
    (after timeout σ n).calls me = some (.sent ⟨r.requestSeq, command, deadline⟩) →
    (after timeout σ n).connection.answer? r.requestSeq = some r → n ≤ m →
    Served me command r (after timeout σ m)
  /-- Its next step takes it. -/
  takes : ∀ n me r command deadline,
    (after timeout σ n).calls me = some (.sent ⟨r.requestSeq, command, some deadline⟩) →
    (after timeout σ n).connection.answer? r.requestSeq = some r → σ n = .step me →
    (after timeout σ (n + 1)).calls me = some (.answered ⟨r.requestSeq, command, some deadline⟩ r)
  /-- A call that has sent its request fails because the connection is closed, or its time is over. -/
  fails : ∀ n me e error, (after timeout σ n).calls me = some (.failed (some e) error) →
    Fails (after timeout σ n) e error
  /-- Its time is the one that the connection gives to all calls, from when it began to wait. -/
  time : ∀ n me e deadline, ((after timeout σ n).calls me).bind Call.exchange? = some e →
    e.deadline = some deadline →
    ∃ k < n, (after timeout σ k).calls me = some (.sent ⟨e.seq, e.command, none⟩) ∧
      deadline = (after timeout σ k).now + timeout.millis
  /-- When the connection is shut down, a call that waits is over within four steps. -/
  settles : ∀ n j me c e, (after timeout σ n).cancelled = true →
    (after timeout σ n).calls me = some c → c.waits → c.exchange? = some e →
    4 ≤ turns (Move.isStepOf me) σ n j → Settled (after timeout σ (n + j)) me e
  /-- A call that comes later fails with its first step, and does nothing then or ever. -/
  later : ∀ n m me, (after timeout σ n).cancelled = true → Late me (after timeout σ n) → n ≤ m →
    Late me (after timeout σ m) ∧ (σ m = .step me →
      (after timeout σ (m + 1)).link = (after timeout σ m).link ∧
      ∀ command arguments, (after timeout σ m).calls me = some (.asked command arguments) →
        (after timeout σ (m + 1)).calls me = some (.failed none .sessionTerminated))

/-- An answer is handed over, the connection is shut down, the call looks for its answer, and another
call is made. -/
def lastAnswer : List Move :=
  [.ask 0 "threads" .null, .step 0, .step 0, .step 0, .step 0, .wait 0,
    .arrive (Frame.encode (.response ⟨1, 1, true, "threads", none, none⟩)),
    .read, .goOn, .shutdown, .cancel, .step 0, .ask 1 "threads" .null, .step 1, .stopRead, .goOn, .goOn,
    .goOn]

example : let x := lastAnswer.foldl move (start ⟨5000⟩)
    (x.calls 0).any (fun c => c.result?.any Except.isOk) = true ∧
      (x.calls 1).any (fun c => c.result?.any Except.isOk) = false ∧
      x.connection.closed = some .shutdown ∧ x.reported.length = 1 ∧ x.connection.nextSeq = 2 := by
  decide +kernel

end DebugHost.Traffic
