import DebugHost.Proofs.Connection.Reasons

/-! # How calls end

A call that waits, that is, one that is not just looking for its answer, is given the answer that the
reader hands over to it, whatever comes then (`served_after`): for the answer stays where it is, and the
call looks there first. It fails for two reasons only (`failing_after`): the connection is closed, or its
time is over, which began when it began to wait (`deadline_after`). A call that is made when the
connection has been shut down does nothing but fail (`late_after`). -/

namespace DebugHost.Traffic

open DebugHost.Json

variable {x y : Traffic} {o : Option Call} {c c' : Call} {conn : Connection} {ms : List Message}
  {me : Nat} {r : Response}

/-- What has become of a call, once it is over. -/
def Call.result? : Call → Option (Except DebugError Response)
  | .answered e r => some (Exchange.outcome e.command r)
  | .failed _ error => some (.error error)
  | _ => none

/-! ### One call among others -/

/-- A call leaves the answers to others alone. -/
theorem Goes.answer? (h : Goes x o c' conn ms) {s : Int} (hne : o.bind Call.number? ≠ some s) :
    conn.answer? s = x.connection.answer? s := by
  cases h.tables with
  | same hp ha he hu hh => exact answer?_congr ha s
  | enters s' hn ho he hu hp ha => exact answer?_congr ha s
  | leaves s' ho he hh hp ha =>
    refine answer?_filter ha ?_
    rintro rfl
    exact hne (bind_of Call.number_of_entered ho)

/-- A change is a move of the call `me`, or leaves it and the answer to it alone. -/
theorem Change.mine (hc : Change x y) (hnum : Numbered x) (me : Nat) (hme : x.calls me = o) :
    (∃ c' conn ms, Goes x o c' conn ms ∧ y = x.put me c' conn ms) ∨
    (y.calls me = o ∧ ∀ s r, o.bind Call.number? = some s → x.connection.answer? s = some r →
      y.connection.answer? s = some r) := by
  cases hc with
  | call i hi hgoes =>
    by_cases heq : i = me
    · subst heq
      rw [hme] at hi
      exact Or.inl ⟨_, _, _, hi ▸ hgoes, rfl⟩
    · refine Or.inr ⟨(put_calls ..).trans ((if_neg (Ne.symm heq)).trans hme), fun s r hs ha => ?_⟩
      refine (hgoes.answer? fun hs' => heq ?_).trans ha
      exact hnum.own i me s (by rw [number?, hi, hs']) (by rw [number?, hme, hs])
  | takes hi ht =>
    obtain ⟨-, -, hanswers, -, -, hcalls, -⟩ := ht.rest
    refine Or.inr ⟨(congrFun hcalls me).trans hme, fun s r _ ha => ?_⟩
    exact (answer?_congr hanswers s).trans ha
  | hands a hi => exact Or.inr ⟨hme, fun s r _ ha => answer?_append ha _⟩
  | _ => exact Or.inr ⟨hme, fun s r _ ha => ha⟩

/-! ### Calls that are given their answers -/

/-- What the reader hands over is the answer that the request finds. -/
theorem answer?_handed (h : Matched x) (hi : x.intake = .holding r) :
    { x.connection with answers := x.connection.answers ++ [(r.requestSeq, r)] }.answer? r.requestSeq =
      some r := by
  obtain ⟨a, ha⟩ := Option.ne_none_iff_exists'.mp (answer?_last x.connection r)
  rw [ha]
  have hsame : a = r := by
    rcases List.mem_append.mp (mem_of_answer? ha) with hmem | hmem
    · -- an answer from before names the same request, which is completed once
      obtain ⟨hseq, hcompleted⟩ := h.answers _ hmem
      have honce := (List.nodup_append.mp h.nodup).2.1
      exact List.inj_on_of_nodup_map honce hcompleted (h.held r hi) hseq
    · exact congrArg Prod.snd (List.mem_singleton.mp hmem)
  rw [hsame]

/-- The call `me` is given the answer `r`: it waits, and will find it, or has found it, or nobody
wants it any more. -/
inductive Served (me : Nat) (command : String) (r : Response) (x : Traffic) : Prop where
  | waits (deadline : Option Nat) (hc : x.calls me = some (.sent ⟨r.requestSeq, command, deadline⟩))
    (ha : x.connection.answer? r.requestSeq = some r) : Served me command r x
  | answered (deadline : Option Nat)
    (hc : x.calls me = some (.answered ⟨r.requestSeq, command, deadline⟩ r)) : Served me command r x
  | dropped (deadline : Option Nat)
    (hc : x.calls me = some (.dropped ⟨r.requestSeq, command, deadline⟩)) : Served me command r x

theorem put_mine (x : Traffic) (me : Nat) (c : Call) (conn : Connection) (ms : List Message) :
    (x.put me c conn ms).calls me = some c :=
  (put_calls ..).trans (if_pos rfl)

theorem Served.change {command : String} (hc : Change x y) (hnum : Numbered x)
    (h : Served me command r x) : Served me command r y := by
  cases h with
  | waits deadline hme ha =>
    rcases hc.mine hnum me hme with ⟨c', conn, ms, hgoes, rfl⟩ | ⟨hsame, hstays⟩
    · cases hgoes with
      | waits => exact .waits _ (put_mine ..) ha
      | dropped => exact .dropped deadline (put_mine ..)
      | steps h =>
        cases h with
        | answered hd ha' =>
          cases Option.some.inj (ha.symm.trans ha')
          exact .answered deadline (put_mine ..)
        | cut hd hnone hp hi =>
          rw [ha] at hnone
          cases hnone
        | looked hd hnone =>
          rw [ha] at hnone
          cases hnone
        | stays c => exact .waits deadline (put_mine ..) ha
    · exact .waits deadline hsame (hstays _ r rfl ha)
  | answered deadline hme =>
    rcases hc.mine hnum me hme with ⟨c', conn, ms, hgoes, rfl⟩ | ⟨hsame, -⟩
    · cases hgoes with
      | steps h =>
        cases h with
        | stays c => exact .answered deadline (put_mine ..)
    · exact .answered deadline hsame
  | dropped deadline hme =>
    rcases hc.mine hnum me hme with ⟨c', conn, ms, hgoes, rfl⟩ | ⟨hsame, -⟩
    · cases hgoes with
      | steps h =>
        cases h with
        | stays c => exact .dropped deadline (put_mine ..)
    · exact .dropped deadline hsame

variable {timeout : Duration} {σ : Nat → Move} {n m : Nat}

/-- **A call that waits and whose answer is there is given it**, whatever comes. -/
theorem served_after {command : String} (hnm : n ≤ m) (h : Served me command r (after timeout σ n)) :
    Served me command r (after timeout σ m) :=
  (after_stays (P := fun x => Numbered x ∧ Served me command r x)
    (fun _ _ hc h => ⟨h.1.change hc, h.2.change hc h.1⟩) hnm ⟨numbered_after timeout σ n, h⟩).2

/-! ### Calls that fail -/

/-- Why a call fails that has sent its request. -/
inductive Fails (x : Traffic) (e : Exchange) : DebugError → Prop where
  | terminated (hc : x.connection.closed ≠ none) : Fails x e .sessionTerminated
  | late (deadline : Nat) (hd : e.deadline = some deadline) (hl : deadline ≤ x.now) :
    Fails x e (.timeout e.command x.connection.timeout)

theorem Change.clock (hc : Change x y) :
    x.now ≤ y.now ∧ y.connection.timeout = x.connection.timeout := by
  cases hc with
  | call me hme hgoes => exact ⟨Nat.le_refl _, hgoes.rest.2.2⟩
  | takes hi ht =>
    obtain ⟨-, htimeout, -, -, -, -, hnow⟩ := ht.rest
    exact ⟨Nat.le_of_eq hnow.symm, htimeout⟩
  | passes millis => exact ⟨Nat.le_add_right .., rfl⟩
  | _ => exact ⟨Nat.le_refl _, rfl⟩

theorem Fails.change {e : Exchange} {error : DebugError} (hc : Change x y) (h : Fails x e error) :
    Fails y e error := by
  cases h with
  | terminated hclosed => exact .terminated (hc.isClosed hclosed)
  | late deadline hd hl =>
    rw [← hc.clock.2]
    exact .late deadline hd (Nat.le_trans hl hc.clock.1)

/-- Calls fail for a reason, and those that have sent nothing because the connection is shut down. -/
structure Failing (x : Traffic) : Prop where
  leaving : ∀ me e error, x.calls me = some (.leaving e error) → Fails x e error
  sent : ∀ me e error, x.calls me = some (.failed (some e) error) → Fails x e error
  unsent : ∀ me error, x.calls me = some (.failed none error) →
    error = .sessionTerminated ∧ x.cancelled = true

/-- A call that comes to fail has a reason. -/
theorem Goes.leaving (h : Goes x o c' conn ms) (hx : Ending x) {e : Exchange} {error : DebugError}
    (hc : c' = .leaving e error) : o = some (.leaving e error) ∨ Fails x e error := by
  cases h with
  | asked => cases hc
  | waits => cases hc
  | dropped => cases hc
  | steps h =>
    cases h with
    | unsent ho =>
      cases hc
      exact Or.inr (.terminated (hx.cancelled (hx.silent ho)))
    | late hl =>
      cases hc
      obtain ⟨deadline, hd, hle⟩ := hl
      exact Or.inr (.late deadline hd hle)
    | closed hcancelled =>
      cases hc
      exact Or.inr (.terminated (hx.cancelled hcancelled))
    | stays c => exact Or.inl (congrArg some hc)
    | _ => cases hc

theorem Goes.failed (h : Goes x o c' conn ms) (hx : Ending x) (hkept : Kept x) (hme : x.calls me = o)
    {e : Exchange} {error : DebugError} (hc : c' = .failed (some e) error) :
    o = some (.failed (some e) error) ∨ o = some (.leaving e error) ∨ Fails x e error := by
  cases h with
  | asked => cases hc
  | waits => cases hc
  | dropped => cases hc
  | steps h =>
    cases h with
    | cut hd ha hp hi =>
      cases hc
      -- nothing is kept for the call, so that the reader has emptied the table
      rcases hkept me e.seq (by rw [hopes?, hme]; rfl) with hp' | hi' | ha' | hover
      · exact absurd hp' hp
      · rw [hi] at hi'
        cases hi'
      · exact absurd ha ha'
      · exact Or.inr (Or.inr (.terminated (hx.cancelled (hx.emptied hover))))
    | left =>
      cases hc
      exact Or.inr (Or.inl rfl)
    | stays c => exact Or.inl (congrArg some hc)
    | _ => cases hc

theorem Goes.unsent (h : Goes x o c' conn ms) {error : DebugError} (hc : c' = .failed none error) :
    o = some (.failed none error) ∨ error = .sessionTerminated ∧ x.cancelled = true := by
  cases h with
  | asked => cases hc
  | waits => cases hc
  | dropped => cases hc
  | steps h =>
    cases h with
    | refused hcancelled =>
      cases hc
      exact Or.inr ⟨rfl, hcancelled⟩
    | stays c => exact Or.inl (congrArg some hc)
    | _ => cases hc

theorem Failing.change (hc : Change x y) (hnum : Numbered x) (hx : Ending x) (hkept : Kept x)
    (h : Failing x) : Failing y := by
  constructor
  case leaving =>
    intro me e error hy
    rcases hc.mine hnum me rfl with ⟨c', conn, ms, hgoes, rfl⟩ | ⟨hsame, -⟩
    · rw [put_mine] at hy
      rcases hgoes.leaving hx (Option.some.inj hy) with ho | hfails
      · exact (h.leaving me e error ho).change hc
      · exact hfails.change hc
    · exact (h.leaving me e error (hsame.symm.trans hy)).change hc
  case sent =>
    intro me e error hy
    rcases hc.mine hnum me rfl with ⟨c', conn, ms, hgoes, rfl⟩ | ⟨hsame, -⟩
    · rw [put_mine] at hy
      rcases hgoes.failed hx hkept rfl (Option.some.inj hy) with ho | ho | hfails
      · exact (h.sent me e error ho).change hc
      · exact (h.leaving me e error ho).change hc
      · exact hfails.change hc
    · exact (h.sent me e error (hsame.symm.trans hy)).change hc
  case unsent =>
    intro me error hy
    rcases hc.mine hnum me rfl with ⟨c', conn, ms, hgoes, rfl⟩ | ⟨hsame, -⟩
    · rw [put_mine] at hy
      rcases hgoes.unsent (Option.some.inj hy) with ho | ⟨herror, hcancelled⟩
      · exact (h.unsent me error ho).imp_right hc.cancelled
      · exact ⟨herror, hc.cancelled hcancelled⟩
    · exact (h.unsent me error (hsame.symm.trans hy)).imp_right hc.cancelled

/-- **Calls fail for a reason only**, in every schedule. -/
theorem failing_after (timeout : Duration) (σ : Nat → Move) (n : Nat) : Failing (after timeout σ n) :=
  (after_keeps (P := fun x => (Numbered x ∧ Ending x ∧ Kept x) ∧ Failing x) timeout
    ⟨⟨numbered_start timeout, ending_start timeout, fun me s hs => (by cases hs)⟩,
      ⟨fun _ _ _ h => (by cases h), fun _ _ _ h => (by cases h), fun _ _ h => (by cases h)⟩⟩
    (fun _ _ hc h => ⟨⟨h.1.1.change hc, h.1.2.1.change hc, h.1.2.2.change hc h.1.1⟩,
      h.2.change hc h.1.1 h.1.2.1 h.1.2.2⟩) σ n).2

/-- What a call has sent, once it has sent something. -/
def Call.exchange? : Call → Option Exchange
  | .sent e => some e
  | .looked e => some e
  | .patient e => some e
  | .leaving e _ => some e
  | .answered e _ => some e
  | .failed e _ => e
  | .dropped e => some e
  | _ => none

/-- A deadline is set when a call begins to wait, and not changed. -/
theorem Goes.deadline (h : Goes x o c' conn ms) {e : Exchange} {deadline : Nat}
    (he : c'.exchange? = some e) (hd : e.deadline = some deadline) :
    o.bind Call.exchange? = some e ∨ o = some (.sent ⟨e.seq, e.command, none⟩) ∧
      deadline = x.now + x.connection.timeout.millis := by
  cases h with
  | asked => cases he
  | dropped => exact Or.inl he
  | waits =>
    cases he
    exact Or.inr ⟨rfl, (Option.some.inj hd).symm⟩
  | steps h =>
    cases h with
    | unsent ho =>
      cases he
      cases hd
    | sent ho =>
      cases he
      cases hd
    | refused hc => cases he
    | admitted hc => cases he
    | numbered => cases he
    | entered => cases he
    | _ => exact Or.inl he

theorem timeout_after (timeout : Duration) (σ : Nat → Move) (n : Nat) :
    (after timeout σ n).connection.timeout = timeout :=
  after_keeps (P := fun x => x.connection.timeout = timeout) timeout rfl
    (fun _ _ hc h => hc.clock.2.trans h) σ n

/-- **The time of a call begins when it begins to wait.** -/
theorem deadline_after {e : Exchange} {deadline : Nat}
    (he : ((after timeout σ n).calls me).bind Call.exchange? = some e)
    (hd : e.deadline = some deadline) :
    ∃ k < n, (after timeout σ k).calls me = some (.sent ⟨e.seq, e.command, none⟩) ∧
      deadline = (after timeout σ k).now + timeout.millis := by
  induction n with
  | zero => cases he
  | succ n ih =>
    have hold : ((after timeout σ n).calls me).bind Call.exchange? = some e →
        ∃ k < n + 1, (after timeout σ k).calls me = some (.sent ⟨e.seq, e.command, none⟩) ∧
          deadline = (after timeout σ k).now + timeout.millis := by
      intro he
      obtain ⟨k, hk, hbegin⟩ := ih he
      exact ⟨k, Nat.lt_succ_of_lt hk, hbegin⟩
    have hc := change_move (after timeout σ n) (σ n)
    rcases hc.mine (numbered_after timeout σ n) me rfl with
      ⟨c', conn, ms, hgoes, hy⟩ | ⟨hsame, -⟩
    · rw [after_succ, hy, put_mine] at he
      rcases hgoes.deadline he hd with he | ⟨ho, hdeadline⟩
      · exact hold he
      · rw [timeout_after] at hdeadline
        exact ⟨n, Nat.lt_succ_self n, ho, hdeadline⟩
    · rw [after_succ, hsame] at he
      exact hold he

/-! ### Calls that come late -/

/-- The call `me` has not begun before the connection is shut down. -/
inductive Late (me : Nat) (x : Traffic) : Prop where
  | none (hc : x.calls me = none)
  | asked (command : String) (arguments : Value) (hc : x.calls me = some (.asked command arguments))
  | refused (hc : x.calls me = some (.failed none .sessionTerminated))

/-- A late call fails at once and does nothing. -/
theorem Late.advance (h : Late me x) (hx : x.cancelled = true) :
    (x.advance me).link = x.link ∧ (x.advance me).posted = x.posted ∧ Late me (x.advance me) := by
  unfold Traffic.advance
  cases h with
  | none hc =>
    rw [hc]
    exact ⟨rfl, rfl, .none hc⟩
  | asked command arguments hc =>
    rw [hc]
    simp only [step, if_pos hx]
    exact ⟨rfl, List.append_nil _, .refused (put_mine ..)⟩
  | refused hc =>
    rw [hc]
    exact ⟨rfl, List.append_nil _, .refused (put_mine ..)⟩

theorem Late.change (hc : Change x y) (hnum : Numbered x) (hx : x.cancelled = true) (h : Late me x) :
    Late me y := by
  rcases hc.mine hnum me rfl with ⟨c', conn, ms, hgoes, rfl⟩ | ⟨hsame, -⟩
  · cases h with
    | none hnone =>
      rw [hnone] at hgoes
      cases hgoes with
      | asked => exact .asked _ _ (put_mine ..)
    | asked command arguments hasked =>
      rw [hasked] at hgoes
      cases hgoes with
      | steps h =>
        cases h with
        | refused _ => exact .refused (put_mine ..)
        | admitted hopen =>
          rw [hx] at hopen
          cases hopen
        | stays c => exact .asked _ _ (put_mine ..)
    | refused hfailed =>
      rw [hfailed] at hgoes
      cases hgoes with
      | steps h =>
        cases h with
        | stays c => exact .refused (put_mine ..)
  · cases h with
    | none hnone => exact .none (hsame.trans hnone)
    | asked command arguments hasked => exact .asked command arguments (hsame.trans hasked)
    | refused hfailed => exact .refused (hsame.trans hfailed)

/-- **A call that comes late stays late.** -/
theorem late_after (hnm : n ≤ m) (hx : (after timeout σ n).cancelled = true)
    (h : Late me (after timeout σ n)) : Late me (after timeout σ m) :=
  (after_stays (P := fun x => (Numbered x ∧ x.cancelled = true) ∧ Late me x)
    (fun _ _ hc h => ⟨⟨h.1.1.change hc, hc.cancelled h.1.2⟩, h.2.change hc h.1.1 h.1.2⟩) hnm
    ⟨⟨numbered_after timeout σ n, hx⟩, h⟩).2

end DebugHost.Traffic
