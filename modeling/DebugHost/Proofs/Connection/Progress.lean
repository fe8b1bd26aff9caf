import DebugHost.Proofs.Connection.Waiting

/-! # Calls and the reader come to their ends

When the connection has been shut down, a call that waits has only a few steps left (`call_settles`), and
so has the reader once it has left its loop (`reader_ends`): each of their own moves makes less what is
left of them to do, and no other move makes it more (`left_le`). -/

namespace DebugHost.Traffic

open DebugHost.Json

variable {x y : Traffic} {me : Nat} {timeout : Duration} {σ : Nat → Move} {n : Nat}

/-! ### What is left to do -/

/-- How many moves are `own` among the `j` that come behind the first `n`. -/
def turns (own : Move → Bool) (σ : Nat → Move) (n : Nat) : Nat → Nat
  | 0 => 0
  | j + 1 => turns own σ n j + if own (σ (n + j)) then 1 else 0

/-- What its own moves make less and no other move makes more is done after as many moves. -/
theorem left_le {left : Traffic → Nat} (own : Move → Bool)
    (hall : ∀ k, n ≤ k → left (after timeout σ (k + 1)) ≤ left (after timeout σ k))
    (hown : ∀ k, n ≤ k → own (σ k) = true →
      left (after timeout σ (k + 1)) ≤ left (after timeout σ k) - 1) (j : Nat) :
    left (after timeout σ (n + j)) ≤ left (after timeout σ n) - turns own σ n j := by
  induction j with
  | zero => exact Nat.le_refl _
  | succ j ih =>
    have hle := hall (n + j) (Nat.le_add_right ..)
    unfold turns
    split
    · next h =>
      have hlt := hown (n + j) (Nat.le_add_right ..) h
      show left (after timeout σ (n + j + 1)) ≤ _
      omega
    · show left (after timeout σ (n + j + 1)) ≤ _
      omega

/-! ### Calls -/

/-- Whether a move is a step of the call `me`. -/
def Move.isStepOf (me : Nat) : Move → Bool
  | .step i => i = me
  | _ => false

/-- How many steps a call takes at most, once it waits and the connection is shut down. -/
def Call.left : Call → Nat
  | .sent e => if e.deadline.isSome then 4 else 5
  | .looked _ => 3
  | .patient _ => 2
  | .leaving .. => 1
  | .answered .. => 0
  | .failed .. => 0
  | .dropped _ => 0
  | _ => 5

/-- Whether a call waits for an answer or is over. -/
def Call.waits (c : Call) : Prop := c.left ≤ 4

theorem step_left (hx : x.cancelled = true) {c : Call} (hc : c.waits) :
    (x.step c).1.left ≤ c.left - 1 := by
  unfold Call.waits at hc
  cases c with
  | asked command arguments => exact absurd hc (by simp [Call.left])
  | admitted command arguments => exact absurd hc (by simp [Call.left])
  | numbered seq command arguments => exact absurd hc (by simp [Call.left])
  | entered seq command arguments => exact absurd hc (by simp [Call.left])
  | sent e =>
    have hd : e.deadline.isSome = true := by
      by_contra hd
      simp [Call.left, hd] at hc
    have hd' : ¬ e.deadline.isNone = true := by
      rw [Option.isNone_iff_eq_none]
      exact Option.isSome_iff_ne_none.mp hd
    have hleft : (Call.sent e).left = 4 := if_pos hd
    rw [hleft]
    unfold step
    simp only [if_neg hd']
    split
    · exact Nat.zero_le _
    · split
      · exact Nat.le_refl 3
      · exact Nat.zero_le _
  | looked e =>
    unfold step
    simp only
    split
    · exact Nat.le_succ 1
    · exact Nat.le_refl 2
  | patient e =>
    unfold step
    simp only [if_pos hx]
    exact Nat.le_refl 1
  | leaving e error => exact Nat.le_refl 0
  | answered e r => exact Nat.le_refl 0
  | failed e error => exact Nat.le_refl 0
  | dropped e => exact Nat.le_refl 0

/-- What is left of the call `me`. -/
def callLeft (me : Nat) (x : Traffic) : Nat := ((x.calls me).map Call.left).getD 5

theorem callLeft_advance (hx : x.cancelled = true) (hc : callLeft me x ≤ 4) :
    callLeft me (x.advance me) ≤ callLeft me x - 1 := by
  unfold callLeft at hc ⊢
  unfold Traffic.advance
  cases hme : x.calls me with
  | none =>
    rw [hme] at hc
    exact absurd hc (by simp)
  | some c =>
    rw [hme] at hc
    simp only
    rw [put_mine]
    exact step_left hx hc

theorem callLeft_change (hc : Change x y) (hnum : Numbered x) (hx : x.cancelled = true)
    (hleft : callLeft me x ≤ 4) : callLeft me y ≤ callLeft me x := by
  unfold callLeft at hleft ⊢
  rcases hc.mine hnum me rfl with ⟨c', conn, ms, hgoes, rfl⟩ | ⟨hsame, -⟩
  · rw [put_mine]
    generalize x.calls me = o at hgoes hleft ⊢
    cases hgoes with
    | asked => exact absurd hleft (by simp)
    | waits => exact absurd hleft (by simp [Call.left])
    | dropped => exact Nat.zero_le _
    | steps h =>
      cases h with
      | stays c => exact Nat.le_refl _
      | parked hopen =>
        rw [hx] at hopen
        cases hopen
      | refused hcancelled => exact Nat.zero_le _
      | admitted hopen => exact Nat.le_refl 5
      | numbered => exact Nat.le_refl 5
      | entered => exact Nat.le_refl 5
      | unsent ho => exact Nat.le_add_left 1 4
      | sent ho => exact Nat.le_refl 5
      | answered hd ha => exact Nat.zero_le _
      | cut hd ha hp hi => exact Nat.zero_le _
      | looked hd ha =>
        simp only [Option.map_some, Option.getD_some, Call.left]
        split <;> omega
      | late hl => exact Nat.le_add_left 1 2
      | patient => exact Nat.le_succ 2
      | closed hcancelled => exact Nat.le_succ 1
      | left => exact Nat.zero_le _
  · exact Nat.le_of_eq (congrArg (fun o => (o.map Call.left).getD 5) hsame)

/-- A call that waits keeps what it has sent. -/
theorem exchange_change {e : Exchange} (hc : Change x y) (hnum : Numbered x)
    (hleft : callLeft me x ≤ 4) (he : (x.calls me).bind Call.exchange? = some e) :
    (y.calls me).bind Call.exchange? = some e := by
  unfold callLeft at hleft
  rcases hc.mine hnum me rfl with ⟨c', conn, ms, hgoes, rfl⟩ | ⟨hsame, -⟩
  · rw [put_mine]
    generalize x.calls me = o at hgoes hleft he
    cases hgoes with
    | asked => cases he
    | waits => exact absurd hleft (by simp [Call.left])
    | dropped => exact he
    | steps h =>
      cases h with
      | refused hcancelled => cases he
      | admitted hopen => cases he
      | numbered => cases he
      | entered => cases he
      | unsent ho => cases he
      | sent ho => cases he
      | _ => exact he
  · rw [hsame]
    exact he

/-- The call `me`, which has sent `e`, is over: it has an answer to its request that was read, or it has
failed for a reason, or nobody wants its answer any more. -/
inductive Settled (x : Traffic) (me : Nat) (e : Exchange) : Prop where
  | answered (r : Response) (hc : x.calls me = some (.answered e r)) (hseq : r.requestSeq = e.seq)
    (hread : r ∈ responses x.received) : Settled x me e
  | failed (error : DebugError) (hc : x.calls me = some (.failed (some e) error))
    (hfails : Fails x e error) : Settled x me e
  | dropped (hc : x.calls me = some (.dropped e)) : Settled x me e

/-- A call of which nothing is left to do is over. -/
theorem settled_of_left {e : Exchange} (hmatched : Matched x) (hcounted : Counted x)
    (hfailing : Failing x) (hleft : callLeft me x = 0)
    (he : (x.calls me).bind Call.exchange? = some e) : Settled x me e := by
  obtain ⟨c, hc, hce⟩ := Option.bind_eq_some_iff.mp he
  unfold callLeft at hleft
  rw [hc] at hleft
  cases c with
  | answered e' r =>
    cases hce
    obtain ⟨hseq, hcompleted⟩ := hmatched.answered me e r hc
    exact .answered r hc hseq (hcounted.completed.subset hcompleted)
  | failed e' error =>
    obtain rfl : e' = some e := hce
    exact .failed error hc (hfailing.sent me e error hc)
  | dropped e' =>
    cases hce
    exact .dropped hc
  | sent e' => cases hd : e'.deadline.isSome <;> simp [Call.left, hd] at hleft
  | _ => cases hleft

/-- **A call that waits when the connection is shut down is over within four steps.** -/
theorem call_settles {c : Call} {e : Exchange} {j : Nat}
    (hcancelled : (after timeout σ n).cancelled = true) (hme : (after timeout σ n).calls me = some c)
    (hwaits : c.waits) (he : c.exchange? = some e) (hturns : 4 ≤ turns (Move.isStepOf me) σ n j) :
    Settled (after timeout σ (n + j)) me e := by
  have hchange : ∀ k, Change (after timeout σ k) (after timeout σ (k + 1)) :=
    fun k => change_move _ (σ k)
  have hstart : callLeft me (after timeout σ n) ≤ 4 := by
    unfold callLeft
    rw [hme]
    exact hwaits
  have hsent : ((after timeout σ n).calls me).bind Call.exchange? = some e := by
    rw [hme]
    exact he
  have hstays : ∀ k, n ≤ k → (after timeout σ k).cancelled = true ∧
      callLeft me (after timeout σ k) ≤ 4 ∧
      ((after timeout σ k).calls me).bind Call.exchange? = some e := fun k hnk =>
    (after_stays (P := fun x => Numbered x ∧ x.cancelled = true ∧ callLeft me x ≤ 4 ∧
        (x.calls me).bind Call.exchange? = some e)
      (fun _ _ hc h => ⟨h.1.change hc, hc.cancelled h.2.1,
        Nat.le_trans (callLeft_change hc h.1 h.2.1 h.2.2.1) h.2.2.1,
        exchange_change hc h.1 h.2.2.1 h.2.2.2⟩)
      hnk ⟨numbered_after timeout σ n, hcancelled, hstart, hsent⟩).2
  have hown : ∀ k, n ≤ k → (σ k).isStepOf me = true →
      callLeft me (after timeout σ (k + 1)) ≤ callLeft me (after timeout σ k) - 1 := by
    intro k hk hown
    obtain ⟨hshut, hleft, -⟩ := hstays k hk
    rw [after_succ]
    cases hm : σ k with
    | step i =>
      rw [hm] at hown
      obtain rfl : i = me := of_decide_eq_true hown
      exact callLeft_advance hshut hleft
    | _ =>
      rw [hm] at hown
      cases hown
  have hall : ∀ k, n ≤ k →
      callLeft me (after timeout σ (k + 1)) ≤ callLeft me (after timeout σ k) := by
    intro k hk
    obtain ⟨hshut, hleft, -⟩ := hstays k hk
    exact callLeft_change (hchange k) (numbered_after timeout σ k) hshut hleft
  have hle := left_le (Move.isStepOf me) hall hown j
  have hzero : callLeft me (after timeout σ (n + j)) = 0 := by omega
  obtain ⟨-, -, hsent'⟩ := hstays (n + j) (Nat.le_add_right n j)
  exact settled_of_left (matched_after timeout σ _) (counted_after timeout σ _)
    (failing_after timeout σ _) hzero hsent'

/-! ### The reader -/

/-- Whether a move is one of the reader's with what it has begun. -/
def Move.isGoOn : Move → Bool
  | .goOn => true
  | _ => false

/-- How many moves the reader makes at most, once it has left its loop. -/
def readerLeft (x : Traffic) : Nat :=
  match x.intake with
  | .reading => 5
  | .holding _ => 5
  | .leaving _ => 4
  | .recorded _ => if x.cancelled then 2 else 3
  | .abandoned _ => 1
  | .ended => 0

theorem readerLeft_le (h : x.intake.isOn = false) : readerLeft x ≤ 4 := by
  unfold readerLeft
  cases hi : x.intake with
  | reading =>
    rw [hi] at h
    cases h
  | holding r =>
    rw [hi] at h
    cases h
  | leaving reason => exact Nat.le_refl 4
  | recorded reason =>
    simp only
    split <;> omega
  | abandoned reason => exact Nat.le_add_left 1 3
  | ended => exact Nat.zero_le 4

theorem ended_of_readerLeft (h : readerLeft x = 0) : x.intake = .ended := by
  unfold readerLeft at h
  cases hi : x.intake with
  | ended => rfl
  | recorded reason =>
    rw [hi] at h
    simp only at h
    split at h <;> cases h
  | _ =>
    rw [hi] at h
    cases h

/-- A reader that has left its loop does not come back. -/
theorem off_change (hc : Change x y) (h : x.intake.isOn = false) : y.intake.isOn = false := by
  cases hc with
  | takes hi ht =>
    rw [hi] at h
    cases h
  | hands r hi =>
    rw [hi] at h
    cases h
  | stops reason hi => rfl
  | records reason hi => rfl
  | abandons reason hi hcancelled => rfl
  | ends reason hi => rfl
  | _ => exact h

theorem readerLeft_goOn (h : x.intake.isOn = false) : readerLeft x.goOn ≤ readerLeft x - 1 := by
  unfold goOn
  cases hi : x.intake with
  | reading =>
    rw [hi] at h
    cases h
  | holding r =>
    rw [hi] at h
    cases h
  | leaving reason =>
    unfold readerLeft
    rw [hi]
    simp only
    split <;> omega
  | recorded reason =>
    simp only
    split
    · next hc =>
      unfold readerLeft
      rw [hi]
      simp only [if_pos hc]
      exact Nat.le_refl 1
    · next hc =>
      unfold readerLeft
      simp only [hi, if_neg hc, if_true]
      exact Nat.le_refl 2
  | abandoned reason => exact Nat.zero_le _
  | ended =>
    unfold readerLeft
    simp only [hi]
    exact Nat.le_refl 0

theorem readerLeft_change (hc : Change x y) (h : x.intake.isOn = false) :
    readerLeft y ≤ readerLeft x := by
  cases hc with
  | takes hi ht =>
    rw [hi] at h
    cases h
  | stops reason hi =>
    rw [hi] at h
    cases h
  | hands r hi =>
    rw [hi] at h
    cases h
  | records reason hi =>
    unfold readerLeft
    rw [hi]
    simp only
    split <;> omega
  | abandons reason hi hcancelled =>
    unfold readerLeft
    rw [hi]
    simp only [if_pos hcancelled]
    exact Nat.le_succ 1
  | ends reason hi => exact Nat.zero_le _
  | cancel hcause =>
    unfold readerLeft
    cases x.intake with
    | recorded reason =>
      simp only [if_true]
      split <;> omega
    | _ => exact Nat.le_refl _
  | _ => exact Nat.le_refl _

/-- **A reader that has left its loop ends within four moves.** -/
theorem reader_ends {j : Nat} (hoff : (after timeout σ n).intake.isOn = false)
    (hturns : 4 ≤ turns Move.isGoOn σ n j) : (after timeout σ (n + j)).intake = .ended := by
  have hstays : ∀ k, n ≤ k → (after timeout σ k).intake.isOn = false := fun k hnk =>
    after_stays (P := fun x => x.intake.isOn = false) (fun _ _ => off_change) hnk hoff
  have hown : ∀ k, n ≤ k → (σ k).isGoOn = true →
      readerLeft (after timeout σ (k + 1)) ≤ readerLeft (after timeout σ k) - 1 := by
    intro k hk hown
    rw [after_succ]
    cases hm : σ k with
    | goOn => exact readerLeft_goOn (hstays k hk)
    | _ =>
      rw [hm] at hown
      cases hown
  have hstart := readerLeft_le hoff
  have hle := left_le Move.isGoOn (fun k hk => readerLeft_change (change_move _ (σ k)) (hstays k hk))
    hown j
  exact ended_of_readerLeft (by omega)

end DebugHost.Traffic
