import DebugHost.Proofs.Connection.Waiting

/-! # What runs on a connection is such an order

What the program does with a connection is done by whole operations: it sends a request
(`Connection.send`), closes the connection, looks how an exchange stands (`Exchange.standing`), lets the
reader and the writer take a step (`Link.read`, `Link.write`). Between them the connection is at rest.
Each of these operations is a sequence of moves, so that a connection in use is one that some schedule
leads to (`after_of_leads`), and what holds after every schedule holds of it. -/

namespace DebugHost.Traffic

open DebugHost.Json

variable {x : Traffic} {me : Nat}

/-- No operation is under way: the connection is shut down if it is closed, and reader and writer wait
or have ended. -/
structure AtRest (x : Traffic) : Prop where
  cancelled : x.cancelled = x.connection.isClosed
  intake : x.intake = if x.link.reading then .reading else .ended
  outlet : x.outlet = if x.link.writing then .writing else .ended
  writing : x.connection.isClosed = false → x.link.writing = true

/-- Moves lead from one state of a connection to another. -/
abbrev Leads (x y : Traffic) : Prop := DebugHost.Leads move x y

theorem leads_move (x : Traffic) (m : Move) : x.Leads (x.move m) := .one x m

theorem atRest_start (timeout : Duration) : AtRest (start timeout) := ⟨rfl, rfl, rfl, fun _ => rfl⟩

theorem isClosed_close (c : Connection) (reason : CloseReason) : (c.close reason).isClosed = true := by
  unfold Connection.close Connection.isClosed
  cases c.closed <;> rfl

/-! ### Calls -/

theorem leads_ask (hme : x.calls me = none) (command : String) (arguments : Value) :
    x.Leads (x.put me (.asked command arguments) x.connection []) := by
  have h : x.Leads (x.ask me command arguments) := leads_move x (.ask me command arguments)
  unfold ask at h
  rw [hme] at h
  exact h

theorem leads_step {c c' : Call} {conn : Connection} {ms : List Message} (hme : x.calls me = some c)
    (hs : x.step c = (c', conn, ms)) : x.Leads (x.put me c' conn ms) := by
  have h : x.Leads (x.advance me) := leads_move x (.step me)
  unfold advance at h
  rw [hme] at h
  simp only [hs] at h
  exact h

theorem AtRest.put (h : AtRest x) {c : Call} {conn : Connection} {ms : List Message}
    (hc : conn.closed = x.connection.closed) : AtRest (x.put me c conn ms) := by
  have hclosed : conn.isClosed = x.connection.isClosed := congrArg Option.isSome hc
  exact ⟨h.cancelled.trans hclosed.symm, h.intake, h.outlet, fun ho => h.writing (hclosed.symm.trans ho)⟩

/-- **Sending is a sequence of moves.** -/
theorem leads_send (h : AtRest x) (hme : x.calls me = none) (command : String) (arguments : Value) :
    match x.connection.send command arguments with
    | .error error => ∃ y, x.Leads y ∧ AtRest y ∧ y.link = x.link ∧ y.calls me = some (.failed none error)
    | .ok (seq, c) => ∃ y, x.Leads y ∧ AtRest y ∧ y.link = { x.link with connection := c } ∧
        y.calls me = some (.sent ⟨seq, command, none⟩) := by
  have hask := leads_ask hme command arguments
  unfold Connection.send
  by_cases hclosed : x.connection.isClosed = true
  · rw [if_pos hclosed]
    have hstep := leads_step (put_mine x me (.asked command arguments) x.connection [])
      (show _ = (Call.failed none .sessionTerminated, x.connection, []) from
        if_pos (h.cancelled.trans hclosed))
    exact ⟨_, hask.trans hstep, (h.put rfl).put rfl, rfl, put_mine ..⟩
  · rw [if_neg hclosed]
    have hopen : x.connection.isClosed = false := Bool.eq_false_iff.mpr hclosed
    have hwriting : x.outlet ≠ .ended := by
      rw [h.outlet, if_pos (h.writing hopen)]
      simp
    have hadmitted := leads_step (put_mine x me (.asked command arguments) x.connection [])
      (show _ = (Call.admitted command arguments, x.connection, []) from
        if_neg (by rw [show (x.put me _ x.connection []).cancelled = x.cancelled from rfl,
          h.cancelled, hopen]; simp))
    refine ⟨_, (((hask.trans hadmitted).trans (leads_step (put_mine ..) rfl)).trans
      (leads_step (put_mine ..) rfl)).trans (leads_step (put_mine ..) (if_neg hwriting)), ?_, rfl,
      put_mine ..⟩
    exact ((((h.put rfl).put rfl).put rfl).put rfl).put rfl

/-- **Waiting begins with a move.** -/
theorem leads_wait (h : AtRest x) {seq : Int} {command : String}
    (hme : x.calls me = some (.sent ⟨seq, command, none⟩)) :
    ∃ y, x.Leads y ∧ AtRest y ∧ y.link = x.link ∧
      y.calls me = some (.sent ⟨seq, command, some (x.now + x.connection.timeout.millis)⟩) := by
  have hwait : x.Leads (x.await me) := leads_move x (.wait me)
  unfold await at hwait
  rw [hme] at hwait
  exact ⟨_, hwait, h.put rfl, rfl, put_mine ..⟩

/-- What a look at an exchange leads to that is over: its number and its answer are taken away. -/
def Ends (x : Traffic) (me : Nat) (e : Exchange) (r : Except DebugError Response) : Prop :=
  ∃ y, x.Leads y ∧ AtRest y ∧ y.link = { x.link with connection := e.settle x.connection } ∧
    (y.calls me).bind Call.result? = some r

theorem ends_step (h : AtRest x) {c c' : Call} {e : Exchange} {r : Except DebugError Response}
    (hme : x.calls me = some c) (hs : x.step c = (c', e.settle x.connection, []))
    (hr : c'.result? = some r) : x.Ends me e r := by
  refine ⟨_, leads_step hme hs, h.put rfl, rfl, ?_⟩
  rw [put_mine]
  exact hr

/-- A step of a call that leaves the connection alone comes before an end. -/
theorem Ends.step {c c' : Call} {e : Exchange} {r : Except DebugError Response}
    (hme : x.calls me = some c) (hs : x.step c = (c', x.connection, []))
    (h : (x.put me c' x.connection []).Ends me e r) : x.Ends me e r := by
  obtain ⟨y, hleads, hrest, hlink, hresult⟩ := h
  exact ⟨y, (leads_step hme hs).trans hleads, hrest, hlink, hresult⟩

/-- **A look how an exchange stands is a sequence of moves**: three steps that lead back to where the
call was, or as many as it takes to end it. -/
theorem leads_response (h : AtRest x) {e : Exchange} (hme : x.calls me = some (.sent e))
    (hd : e.deadline ≠ none) :
    match e.standing x.connection x.now with
    | .waiting => ∃ y, x.Leads y ∧ AtRest y ∧ y.link = x.link ∧ y.calls me = some (.sent e)
    | .over r => x.Ends me e r
    | .late => x.Ends me e (.error (.timeout e.command x.connection.timeout)) := by
  have hwaits : ¬ e.deadline.isNone = true := mt Option.isNone_iff_eq_none.mp hd
  have hfree : x.intake.holds e.seq = false := by
    rw [h.intake]
    cases x.link.reading <;> rfl
  unfold Exchange.standing
  cases ha : x.connection.answer? e.seq with
  | some r =>
    have hstep : x.step (.sent e) = (.answered e r, e.settle x.connection, []) := by
      simp only [step, if_neg hwaits, ha]
    exact ends_step h hme hstep rfl
  | none =>
    by_cases hp : e.seq ∉ x.connection.pending
    · have hstep : x.step (.sent e) =
          (.failed (some e) .sessionTerminated, e.settle x.connection, []) := by
        simp [step, hwaits, ha, hp, hfree]
      simp only [if_pos hp]
      exact ends_step h hme hstep rfl
    · have hlook : x.step (.sent e) = (.looked e, x.connection, []) := by
        simp only [step, if_neg hwaits, ha, if_pos (Or.inl (not_not.mp hp))]
      have hrest : ∀ c, AtRest (x.put me c x.connection []) := fun c => h.put rfl
      simp only [if_neg hp]
      by_cases hl : e.deadline.any (· ≤ x.now) = true
      · simp only [if_pos hl]
        exact .step hme hlook (.step (put_mine ..) (if_pos hl)
          (ends_step ((hrest _).put rfl) (put_mine ..) rfl rfl))
      · have hpatient : (x.put me (.looked e) x.connection []).step (.looked e) =
            (.patient e, x.connection, []) := if_neg hl
        simp only [if_neg hl]
        by_cases hc : x.connection.isClosed = true
        · simp only [if_pos hc]
          exact .step hme hlook (.step (put_mine ..) hpatient (.step (put_mine ..)
            (if_pos (h.cancelled.trans hc))
            (ends_step (((hrest _).put rfl).put rfl) (put_mine ..) rfl rfl)))
        · have hparked : ((x.put me (.looked e) x.connection []).put me (.patient e)
              x.connection []).step (.patient e) = (.sent e, x.connection, []) :=
            if_neg (by rw [← h.cancelled] at hc; exact hc)
          simp only [if_neg hc]
          exact ⟨_, ((leads_step hme hlook).trans (leads_step (put_mine ..) hpatient)).trans
            (leads_step (put_mine ..) hparked), ((hrest _).put rfl).put rfl, rfl, put_mine ..⟩

/-! ### Reader, writer and closing -/

/-- **Closing is a sequence of moves.** -/
theorem leads_shutdown (h : AtRest x) :
    ∃ y, x.Leads y ∧ AtRest y ∧ y.link = { x.link with connection := x.connection.close .shutdown } ∧
      y.calls = x.calls := by
  have hclosed := isClosed_close x.connection .shutdown
  have hcancel := (leads_move x .shutdown).trans (leads_move _ .cancel)
  have hmove : (x.move .shutdown).move .cancel =
      { x.withConnection (x.connection.close .shutdown) with cancelled := true } := if_pos hclosed
  rw [hmove] at hcancel
  exact ⟨_, hcancel, ⟨hclosed.symm, h.intake, h.outlet,
    fun ho => absurd (hclosed.symm.trans ho) (by simp)⟩, rfl, rfl⟩

theorem shut_eq (h : x.cancelled = true) : { x with cancelled := true } = x := by
  cases x
  cases h
  rfl

/-- A reader that has left its loop comes to its end. -/
theorem leads_endReading {reason : CloseReason} (hi : x.intake = .leaving reason)
    (hout : x.outlet = if x.link.writing then .writing else .ended) :
    ∃ y, x.Leads y ∧ AtRest y ∧ y.link = (x.link.endReading reason).link ∧ y.calls = x.calls := by
  have hclosed := isClosed_close x.connection reason
  generalize hr : (x.connection.close reason).closed.getD reason = recorded
  have hrecords : x.goOn =
      { x.withConnection (x.connection.close reason) with intake := .recorded recorded } := by
    unfold goOn
    rw [hi, ← hr]
  have hrecorded := leads_move x .goOn
  rw [show x.move .goOn = x.goOn from rfl, hrecords] at hrecorded
  -- the reader shuts the connection down, unless that has been done
  have hshut : x.Leads { x.withConnection (x.connection.close reason) with
      intake := .recorded recorded, cancelled := true } := by
    by_cases hc : x.cancelled = true
    · rw [← shut_eq (x := { x.withConnection (x.connection.close reason) with
        intake := .recorded recorded }) hc] at hrecorded
      exact hrecorded
    · have hcancels := hrecorded.trans (leads_move _ .goOn)
      have hmove : move { x.withConnection (x.connection.close reason) with
          intake := .recorded recorded } .goOn =
          { x.withConnection (x.connection.close reason) with
            intake := .recorded recorded, cancelled := true } := if_neg hc
      rw [hmove] at hcancels
      exact hcancels
  have hends := (hshut.trans (leads_move _ .goOn)).trans (leads_move _ .goOn)
  refine ⟨_, hends, ⟨hclosed.symm, rfl, hout, fun ho => absurd (hclosed.symm.trans ho) (by simp)⟩,
    ?_, rfl⟩
  rw [← hr]
  rfl

/-- What the reader takes in, it has done with before it reads on. -/
theorem leads_receive (h : AtRest x) (hi : x.intake = .reading)
    (hopen : x.connection.isClosed = false) (m : Message) :
    ∃ y, (x.receive m).Leads y ∧ AtRest y ∧ y.link = (x.link.receive m).link ∧ y.calls = x.calls := by
  have hreading : (if x.link.reading then Intake.reading else .ended) = .reading := h.intake.symm.trans hi
  cases m with
  | event e => exact ⟨_, .refl, ⟨h.cancelled, h.intake, h.outlet, h.writing⟩, rfl, rfl⟩
  | request q =>
    have hwriting : ¬ x.outlet = .ended := by
      rw [h.outlet, if_pos (h.writing hopen)]
      simp
    unfold receive
    simp only [if_neg hwriting]
    exact ⟨_, .refl, ⟨h.cancelled, h.intake, h.outlet, h.writing⟩, rfl, rfl⟩
  | response a =>
    unfold receive Link.receive Connection.complete
    by_cases hp : a.requestSeq ∈ x.connection.pending
    · simp only [if_pos hp]
      exact ⟨_, leads_move _ .goOn, ⟨h.cancelled, hreading.symm, h.outlet, h.writing⟩, rfl, rfl⟩
    · simp only [if_neg hp]
      exact ⟨_, .refl, ⟨h.cancelled, h.intake, h.outlet, h.writing⟩, rfl, rfl⟩

/-- **A step of the reader is a sequence of moves.** -/
theorem leads_read (h : AtRest x) (hreading : x.link.reading = true) :
    ∃ y, x.Leads y ∧ AtRest y ∧ y.link = x.link.read.link ∧ y.calls = x.calls := by
  have hi : x.intake = .reading := h.intake.trans (if_pos hreading)
  unfold Link.read
  by_cases hclosed : x.connection.isClosed = true
  · rw [if_pos hclosed]
    have hstop : x.move .stopRead = { x with intake := .leaving .shutdown } := by
      show x.stopRead = _
      unfold stopRead
      rw [hi, if_pos (h.cancelled.trans hclosed)]
    have hstopped := leads_move x .stopRead
    rw [hstop] at hstopped
    obtain ⟨y, hleads, hrest, hlink, hcalls⟩ :=
      leads_endReading (x := { x with intake := .leaving .shutdown }) rfl h.outlet
    exact ⟨y, hstopped.trans hleads, hrest, hlink, hcalls⟩
  · rw [if_neg hclosed]
    have hopen : x.connection.isClosed = false := Bool.eq_false_iff.mpr hclosed
    have hread := leads_move x .read
    rw [show x.move .read = x.read from rfl, read, hi] at hread
    simp only at hread
    rcases hn : x.link.inbound.next with ⟨_ | (m | f | _), r⟩
    · rw [hn] at hread
      exact ⟨_, hread, ⟨h.cancelled, h.intake, h.outlet, h.writing⟩, rfl, rfl⟩
    · rw [hn] at hread
      obtain ⟨y, hleads, hrest, hlink, hcalls⟩ := leads_receive (x := x.withInbound r)
        ⟨h.cancelled, h.intake, h.outlet, h.writing⟩ hi hopen m
      exact ⟨y, hread.trans hleads, hrest, hlink, hcalls⟩
    · rw [hn] at hread
      obtain ⟨y, hleads, hrest, hlink, hcalls⟩ :=
        leads_endReading (x := { x.withInbound r with intake := .leaving (Link.faultReason f) }) rfl
          h.outlet
      exact ⟨y, hread.trans hleads, hrest, hlink, hcalls⟩
    · rw [hn] at hread
      obtain ⟨y, hleads, hrest, hlink, hcalls⟩ :=
        leads_endReading (x := { x.withInbound r with intake := .leaving .eof }) rfl h.outlet
      exact ⟨y, hread.trans hleads, hrest, hlink, hcalls⟩

/-- A writer that has failed records why, shuts the connection down and ends. -/
theorem leads_blame {text : String} (ho : x.outlet = .failed text) (hopen : x.cancelled = false)
    (hi : x.intake = if x.link.reading then .reading else .ended) :
    ∃ y, x.Leads y ∧ AtRest y ∧
      y.link = { x.link with connection := x.connection.close (.io text), writing := false } ∧
      y.calls = x.calls := by
  have hclosed := isClosed_close x.connection (.io text)
  have hblames : x.stopWrite =
      { x.withConnection (x.connection.close (.io text)) with outlet := .recorded } := by
    unfold stopWrite
    rw [ho]
  have hcancels : move { x.withConnection (x.connection.close (.io text)) with outlet := .recorded }
      .stopWrite = { x.withConnection (x.connection.close (.io text)) with
        outlet := .recorded, cancelled := true } := if_neg (Bool.eq_false_iff.mp hopen)
  have hends := ((leads_move x .stopWrite).trans (leads_move _ .stopWrite)).trans
    (leads_move _ .stopWrite)
  rw [show x.move .stopWrite = x.stopWrite from rfl, hblames, hcancels] at hends
  exact ⟨_, hends, ⟨hclosed.symm, hi, rfl, fun h => absurd (hclosed.symm.trans h) (by simp)⟩, rfl, rfl⟩

/-- **A step of the writer is a sequence of moves.** -/
theorem leads_write (h : AtRest x) (hwriting : x.link.writing = true) :
    ∃ y, x.Leads y ∧ AtRest y ∧ y.link = x.link.write.link ∧ y.calls = x.calls := by
  have ho : x.outlet = .writing := h.outlet.trans (if_pos hwriting)
  unfold Link.write
  by_cases hclosed : x.connection.isClosed = true
  · rw [if_pos hclosed]
    have hstop : x.stopWrite = x.endWriting := by
      unfold stopWrite
      rw [ho, if_pos (h.cancelled.trans hclosed)]
    have hstopped := leads_move x .stopWrite
    rw [show x.move .stopWrite = x.stopWrite from rfl, hstop] at hstopped
    exact ⟨_, hstopped, ⟨h.cancelled, h.intake, rfl, fun hopen => absurd (hclosed.symm.trans hopen)
      (by simp)⟩, rfl, rfl⟩
  · rw [if_neg hclosed]
    have hopen : x.cancelled = false := h.cancelled.trans (Bool.eq_false_iff.mpr hclosed)
    cases hq : x.connection.queue with
    | nil => exact ⟨x, .refl, h, rfl, rfl⟩
    | cons m rest =>
      by_cases hpeer : x.link.peerReads = true
      · simp only [if_pos hpeer]
        have hwrite := leads_move x .write
        rw [show x.move .write = x.write none from rfl, write, ho, hq] at hwrite
        exact ⟨_, hwrite, ⟨h.cancelled, h.intake, h.outlet, h.writing⟩, rfl, rfl⟩
      · simp only [if_neg hpeer]
        have hfail := leads_move x (.failWrite Link.brokenPipe)
        rw [show x.move (.failWrite Link.brokenPipe) = x.write (some Link.brokenPipe) from rfl, write,
          ho, hq] at hfail
        obtain ⟨y, hleads, hrest, hlink, hcalls⟩ := leads_blame (x := { x.withConnection
          { x.connection with queue := rest } with outlet := .failed Link.brokenPipe }) rfl hopen
            h.intake
        exact ⟨y, hfail.trans hleads, hrest, hlink, hcalls⟩

/-! ### Schedules -/

/-- **A connection in use is one that a schedule leads to.** -/
theorem after_of_leads {timeout : Duration} (h : (start timeout).Leads x) :
    ∃ σ n, after timeout σ n = x := h.schedule .take

end DebugHost.Traffic
