import DebugHost.Proofs.Launch.Runs

/-! # What a failed launch leaves behind

A launch starts its program only where nothing has the place, and the call that it makes is for its own run, so
that all other runs stay as they are (`leftAlone`): what is done for the launch neither stops them nor takes the
place from them.

Whatever comes between its moves, a launch that fails leaves the session as it was and other programs alone.
When it gives back its error, the call that stops its program has given back its result, so that the run has
left the place unless the call has waited for too long (`failed_launch`). -/

namespace DebugHost.Launching

open DebugHost.Supervision

/-! ### What a launch does to others -/

variable {config : DebugConfig} {grace : Duration} {σ : Nat → Move} {x : Launching} {m : Move}
  {stage stage' : Stage} {s : Step} {id : RunId} {me n k : Nat}

/-- All moves that are made for a launch: its own, those of the call that stops its program, and those of the
watcher of its program. -/
inductive ActsFor (x : Launching) (me : Nat) : Move → Prop where
  | goes {m : Move} (hm : m.launch? = some me) : ActsFor x me m
  | steps {stage : Stage} {id : RunId} {call : Nat} (hstage : x.launches me = some stage)
    (hcall : stage.call? = some (id, call)) : ActsFor x me (.around (.step call))
  | expires {stage : Stage} {id : RunId} {call : Nat} (hstage : x.launches me = some stage)
    (hcall : stage.call? = some (id, call)) : ActsFor x me (.around (.expire call))
  | watches {stage : Stage} {id : RunId} (status : Option WaitStatus) (hstage : x.launches me = some stage)
    (hid : stage.run? = some id) : ActsFor x me (.around (.watch id status))

/-- A run is as it was; if it has the place, it keeps it, and the processes of its group are as they were. -/
structure LeftAlone (y z : Supervision) (id : RunId) : Prop where
  run : ∀ r, y.supervisor.find? id = some r → z.supervisor.find? id = some r
  place : y.supervisor.place = some id → z.supervisor.place = some id
  members : y.supervisor.place = some id → z.members id = y.members id

theorem leftAlone_of_same {y z : Supervision} (hs : z.supervisor = y.supervisor) (hm : z.members = y.members)
    (id : RunId) : LeftAlone y z id where
  run r hr := by rw [hs]; exact hr
  place hp := by rw [hs]; exact hp
  members _ := by rw [hm]

theorem leftAlone_put (y : Supervision) (call : Nat) (c : Call) (id : RunId) :
    LeftAlone y (y.put call c y.supervisor) id := ⟨fun _ hr => hr, fun hp => hp, fun _ => rfl⟩

/-- A start leaves all runs alone: while one has the place, it is refused. -/
theorem leftAlone_start {y : Supervision} (hp : Placed y) (c : Command) (spawned : Except OsError Nat)
    (id : RunId) : LeftAlone y (y.move (.start c spawned)) id := by
  show LeftAlone y (if y.mayAnswer spawned then y.start c spawned else y) id
  split
  · rcases start_eq y.supervisor c spawned with h | ⟨process, rfl, hfree, h⟩
    · exact leftAlone_of_same (z := y.start c spawned) h rfl id
    · have hstart : (y.start c (.ok process)).supervisor = enroll y.supervisor c process := h
      refine ⟨fun r hr => ?_, fun hplace => ?_, fun _ => rfl⟩
      · rw [hstart, find?_enroll, hr]
        rfl
      · rw [hp.place_none hfree] at hplace
        cases hplace
  · exact leftAlone_of_same rfl rfl id

theorem leftAlone_stop (y : Supervision) (call : Nat) (j id : RunId) :
    LeftAlone y (y.move (.stop call j)) id := by
  show LeftAlone y (if (y.supervisor.find? j).isSome then y.begin call (.asked j) else y) id
  unfold begin
  split
  · split
    · exact leftAlone_put y call (.asked j) id
    · exact leftAlone_of_same rfl rfl id
  · exact leftAlone_of_same rfl rfl id

/-- A step of a call leaves all runs alone but its own. -/
theorem leftAlone_step {y : Supervision} {call : Nat} (h : ∀ c, y.calls call = some c → c.run? ≠ some id) :
    LeftAlone y (y.move (.step call)) id := by
  refine ⟨fun r hr => (find?_step h).trans hr, fun hplace => ?_, fun _ => ?_⟩
  · show (y.advance call).supervisor.place = some id
    unfold Supervision.advance
    split
    · exact hplace
    · next c hc =>
      have hsteps := steps_step y c
      generalize y.step c = p at hsteps
      obtain ⟨c', s⟩ := p
      cases hsteps with
      | cancels => exact hplace
      | _ => exact hplace
  · show (y.advance call).members id = y.members id
    unfold Supervision.advance
    split <;> rfl

theorem leftAlone_expire (y : Supervision) (call : Nat) (id : RunId) :
    LeftAlone y (y.move (.expire call)) id := by
  show LeftAlone y (y.expire call) id
  unfold Supervision.expire
  split
  · next j deadline _ =>
    split
    · exact leftAlone_put y call (.expired j) id
    · exact leftAlone_of_same rfl rfl id
  · exact leftAlone_of_same rfl rfl id

/-- A watcher sends signals only while its run has the place. -/
theorem not_released_of_signal {r r' : Run} {g now : Nat} {deed : Deed} (ha : Attends g now r r' deed)
    (hsignal : deed.signal? ≠ none) : r.watch.isReleased = false := by
  cases ha with
  | terminate hw ha => rw [hw]; rfl
  | kill hw hd => rw [hw]; rfl
  | _ => exact absurd rfl hsignal

/-- A watcher leaves all runs alone but its own. -/
theorem leftAlone_watch {y : Supervision} (hp : Placed y) {j : RunId} (hne : j ≠ id)
    (status : Option WaitStatus) : LeftAlone y (y.move (.watch j status)) id := by
  show LeftAlone y (y.watch j status) id
  cases hm : (y.supervisor.find? j).bind (·.due? y.now status) with
  | none =>
    unfold Supervision.watch
    rw [hm]
    exact leftAlone_of_same rfl rfl id
  | some m =>
    obtain ⟨r, hr, hdue⟩ := Option.bind_eq_some_iff.mp hm
    obtain ⟨r', deed, s, hattends, hdone, hwatch⟩ := watch_due hr hdue
    rw [hwatch]
    refine ⟨fun q hq => ?_, fun hplace => ?_, fun hplace => ?_⟩
    · exact (hdone.find id).trans ((if_neg hne.symm).trans hq)
    · refine hdone.place.trans ?_
      rw [hplace]
      cases deed with
      | release => exact if_neg fun h => hne (Option.some.inj h).symm
      | _ => rfl
    · cases hsignal : deed.signal? with
      | none => rfl
      | some signal =>
        -- the run of the watcher would have the place
        have hheld : y.supervisor.place = some j := (hp.held j).mpr <|
          (released?_of_find hr).trans
            (congrArg some (not_released_of_signal hattends (by rw [hsignal]; simp)))
        exact absurd (Option.some.inj (hheld.symm.trans hplace)) hne

/-- **What is done for a launch leaves all runs alone but its own.** -/
theorem leftAlone (hp : Placed x.supervision)
    (hsound : ∀ stage, x.launches me = some stage → Sound x.supervision stage)
    (hid : ∀ stage, x.launches me = some stage → stage.run? ≠ some id) (ha : x.ActsFor me m) :
    LeftAlone x.supervision (x.move m).supervision id := by
  have hmove : (x.move m).supervision = x.supervision.move (x.deed m) := rfl
  cases ha with
  | goes hm =>
    cases handles x hm with
    | nothing hsame => exact leftAlone_of_same (by rw [hsame]) (by rw [hsame]) id
    | starts addr c spawned j hdeed hstart hgoes =>
      rw [hmove, hdeed]
      exact leftAlone_start hp c spawned id
    | stops j e call hdeed hstage =>
      rw [hmove, hdeed]
      exact leftAlone_stop _ call j id
  | @steps stage j call hstage hcall =>
    obtain ⟨c, hc, hrun, -⟩ := (hsound _ hstage).call j call hcall
    refine leftAlone_step fun c' hc' hrun' => ?_
    cases hc.symm.trans hc'
    exact hid _ hstage ((Stage.run?_of_call? hcall).trans (hrun.symm.trans hrun'))
  | expires hstage hcall => exact leftAlone_expire _ _ id
  | watches status hstage hj =>
    refine leftAlone_watch hp (fun h => hid _ hstage ?_) status
    rw [← h]
    exact hj

variable {b : Nat} {error : DebugError} {stop : Option (RunId × Nat)}

/-! ### The session -/

/-- Whether a launch is over. -/
def Stage.isOver : Stage → Bool
  | .launched _ | .failed _ _ => true
  | _ => false

/-- A launch that is over stays so. -/
theorem over_later (h : (after config grace σ k).launches me = some stage) (hover : stage.isOver = true)
    (hkn : k ≤ n) : (after config grace σ n).launches me = some stage := by
  induction hkn with
  | refl => exact h
  | @step n _ ih =>
    rcases launches_move (after config grace σ n) (σ n) me with
      hsame | ⟨addr, -, hnone, -⟩ | ⟨s, stage₀, stage₁, -, hstage, ha, -⟩
    · exact hsame.trans ih
    · cases hnone.symm.trans ih
    · cases hstage.symm.trans ih
      cases ha <;> cases hover

/-- **Only a launch whose session is set up changes the session.** -/
theorem session_move (x : Launching) (m : Move) : (x.move m).session = x.session ∨
    ∃ me id, x.launches me = some (.connected id) ∧ (x.move m).launches me = some (.launched id) ∧
      (x.move m).session = some id := by
  have hnext : (x.move m).session = x.nextSession m := rfl
  unfold nextSession at hnext
  split at hnext
  · next me =>
    split at hnext
    · next id hstage => exact Or.inr ⟨me, id, hstage, launches_of_advance hstage rfl, hnext⟩
    · exact Or.inl hnext
  · exact Or.inl hnext

/-- Another launch has set up its session between two times, and no launch after it. -/
def Succeeded (config : DebugConfig) (grace : Duration) (σ : Nat → Move) (me b n : Nat) : Prop :=
  ∃ other ≠ me, ∃ k id, b ≤ k ∧ k < n ∧ (after config grace σ k).launches other = some (.connected id) ∧
    (after config grace σ (k + 1)).launches other = some (.launched id) ∧
    (after config grace σ n).session = some id

/-- A launch that fails leaves the session to others. -/
theorem session_kept (h : (after config grace σ n).launches me = some (.failed error stop)) (hbn : b ≤ n) :
    (after config grace σ n).session = (after config grace σ b).session ∨
      Succeeded config grace σ me b n := by
  suffices hall : ∀ k, b ≤ k → k ≤ n →
      (after config grace σ k).session = (after config grace σ b).session ∨
        Succeeded config grace σ me b k from hall n hbn (Nat.le_refl n)
  intro k hbk
  induction hbk with
  | refl => exact fun _ => Or.inl rfl
  | @step k hbk ih =>
    intro hkn
    rcases session_move (after config grace σ k) (σ k) with
      hsame | ⟨other, id, hconnected, hlaunched, hsession⟩
    · rcases ih (by omega) with hkept | ⟨other, hne, i, id, hbi, hik, hconnected, hlaunched, hsession⟩
      · exact Or.inl (hsame.trans hkept)
      · exact Or.inr ⟨other, hne, i, id, hbi, by omega, hconnected, hlaunched, hsame.trans hsession⟩
    · refine Or.inr ⟨other, fun heq => ?_, k, id, hbk, Nat.lt_succ_self k, hconnected, hlaunched, hsession⟩
      have hfinal := over_later (k := k + 1) hlaunched rfl hkn
      rw [heq, h] at hfinal
      cases hfinal

/-! ### Launches that start nothing -/

/-- A launch that fails before its program is started does nothing to the supervisor. -/
theorem supervision_early (h : (after config grace σ n).launches me = some (.failed error none)) (hkn : k < n)
    (hm : (σ k).launch? = some me) :
    (after config grace σ (k + 1)).supervision = (after config grace σ k).supervision := by
  have hnone : ∀ i ≤ n, ∀ stage, (after config grace σ i).launches me = some stage →
      stage.run? = none := fun i hi stage hstage => by
    by_contra hne
    obtain ⟨id, hid⟩ := Option.ne_none_iff_exists'.mp hne
    obtain ⟨stage', h', hid'⟩ := run_later hstage hid hi
    cases h.symm.trans h'
    cases hid'
  cases handles (after config grace σ k) hm with
  | nothing hsame => exact hsame
  | starts addr c spawned id hdeed hstart hgoes => cases hnone (k + 1) hkn _ hgoes
  | stops id e call hdeed hstage => cases hnone k (Nat.le_of_lt hkn) _ hstage

/-! ### The place of a run that was stopped -/

/-- A watcher that has recorded the exit of its run frees the place next. -/
theorem released_watch {y : Supervision} {e : Exit} (he : y.exit? id = some e) (status : Option WaitStatus) :
    (y.move (.watch id status)).released? id = some true := by
  obtain ⟨r, hr, hrecorded⟩ := exists_of_exit he
  show (y.watch id status).released? id = some true
  by_cases hreleased : r.watch.isReleased = true
  · exact (change_watch y id status).released ((released?_of_find hr).trans (congrArg some hreleased))
  · have hw : r.watch = .recorded e := by
      cases hw : r.watch with
      | recorded e' =>
        rw [hw] at hrecorded
        exact congrArg Watch.recorded (Option.some.inj hrecorded)
      | released e' => exact absurd (by rw [hw]; rfl) hreleased
      | told e' => exact absurd (by rw [hw]; rfl) hreleased
      | «over» e' => exact absurd (by rw [hw]; rfl) hreleased
      | _ =>
        rw [hw] at hrecorded
        cases hrecorded
    have hdue : r.due? y.now status = some .release := by simp [Run.due?, hw]
    obtain ⟨r', deed, s, hattends, hdone, hwatch⟩ := watch_due hr hdue
    rw [hwatch]
    refine (released?_done hdone rfl id).trans ((if_pos rfl).trans (congrArg some ?_))
    cases hattends with
    | release => rfl
    | exited status hwaits => cases hw.symm.trans hwaits
    | ended status hends =>
      rw [hw] at hends
      rcases hends with ⟨d, hends⟩ | hends <;> cases hends
    | _ hother => cases hw.symm.trans hother

/-- A run that has left the place does not come back. -/
theorem never_back (h : (after config grace σ k).supervision.released? id = some true) (hkn : k ≤ n) :
    (after config grace σ n).supervision.supervisor.place ≠ some id :=
  (placed config grace σ n).not_held
    (stays (P := fun y => y.released? id = some true) (fun _ _ hc hy => hc.released hy) hkn h)

/-! ### All together -/

/-- What is so once launch `me` has given back its error, when `n` moves have been made. `stop` is the run
that it had started, with the call by which it has stopped it. -/
structure LeavesNothing (config : DebugConfig) (grace : Duration) (σ : Nat → Move) (me n : Nat)
    (stop : Option (RunId × Nat)) : Prop where
  /-- The session is the one from any time before, unless another launch has succeeded since. -/
  session : ∀ b ≤ n, (after config grace σ n).session = (after config grace σ b).session ∨
    Succeeded config grace σ me b n
  /-- Nothing that was done for the launch has touched a run other than its own: another run is as it was,
  and keeps the place if it has it. -/
  others : ∀ id, stop.map (·.1) ≠ some id → ∀ k < n, (after config grace σ k).ActsFor me (σ k) →
    LeftAlone (after config grace σ k).supervision (after config grace σ (k + 1)).supervision id
  /-- A launch that has started no program has done nothing at all to the supervisor. -/
  early : stop = none → ∀ k < n, (σ k).launch? = some me →
    (after config grace σ (k + 1)).supervision = (after config grace σ k).supervision
  /-- The run that it has stopped is the one that it has started itself, and no run that it has started is
  left out. -/
  own : ∀ id, (∃ k < n, (after config grace σ k).started? (σ k) = some (some me, id)) ↔
    stop.map (·.1) = some id
  /-- A run that anybody else starts, at any time, is not its own. -/
  foreign : ∀ who ≠ some me, ∀ k id, (after config grace σ k).started? (σ k) = some (who, id) →
    stop.map (·.1) ≠ some id
  /-- The call that stops its run has given back its result. If it was told an exit in time, or its run had
  left the place before, the run never has the place again. If the run did not report an exit in time, but one
  is found recorded, its watcher is about to free the place. -/
  gone : ∀ id call, stop = some (id, call) → ∃ exit,
    (after config grace σ n).supervision.calls call = some (.ended id exit) ∧
      (∀ m ≥ n, (after config grace σ m).supervision.supervisor.place ≠ some id) ∨
    (after config grace σ n).supervision.calls call = some (.gaveUp id exit) ∧
      (exit ≠ none → ∀ m ≥ n, ∀ status, σ m = .around (.watch id status) →
        ∀ l > m, (after config grace σ l).supervision.supervisor.place ≠ some id)

/-- A launch whose program exits while it sleeps. Before it wakes, somebody else starts a program. -/
def overtaken : List Move :=
  [.begin 0 "127.0.0.1:5678", .go 0 (.check (.ok ())), .go 0 (.start listing (.ok 4)), .go 0 .look,
    .go 0 (.attempt (.error .networkUnreachable))] ++ (teardown ⟨1⟩).map .around ++
  [.forward ⟨1⟩, .around (.start listing (.ok 5)), .go 0 .wake, .go 0 .look, .go 0 (.stop 0),
    .around (.step 0), .around (.step 0), .go 0 .finish]

end DebugHost.Launching
