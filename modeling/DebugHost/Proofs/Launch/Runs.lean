import DebugHost.Proofs.Launch.Launching

/-! # Launches and their runs

The run of a launch is one that it has started itself, nobody else, and only once (`started_by`,
`started_once`); it keeps this run until it is over. The one call that it makes is for this run (`Sound`), even
if the run has left the place since and another one has taken it. -/

namespace DebugHost.Launching

open DebugHost.Supervision

variable {config : DebugConfig} {grace : Duration} {σ : Nat → Move} {x : Launching} {m : Move}
  {stage stage' : Stage} {s : Step} {id : RunId} {me n k : Nat}

/-! ### The supervisor beneath -/

theorem placed (config : DebugConfig) (grace : Duration) (σ : Nat → Move) (n : Nat) :
    Placed (after config grace σ n).supervision := by
  rw [supervision_after]
  exact placed_after grace _ n

theorem changes (x : Launching) (m : Move) : Change x.supervision (x.move m).supervision :=
  change_move x.supervision (x.deed m)

/-- What is kept by every change of the supervision holds from the time on when it holds. -/
theorem stays {P : Supervision → Prop} (hkeeps : ∀ y z, Change y z → P y → P z) {n k : Nat} (hnk : n ≤ k)
    (h : P (after config grace σ n).supervision) : P (after config grace σ k).supervision := by
  induction hnk with
  | refl => exact h
  | step _ ih => exact hkeeps _ _ (changes _ _) ih

/-- A run that is started was not there before. -/
theorem start_ok {y : Supervision} (hp : Placed y) {c : Command} {spawned : Except OsError Nat}
    (hmay : y.mayAnswer spawned = true) (hstart : (y.supervisor.start c spawned).1 = .ok id) :
    y.released? id = none ∧ (y.move (.start c spawned)).released? id = some false := by
  have hmove : y.move (.start c spawned) =
      { y with supervisor := (y.supervisor.start c spawned).2.1 } := if_pos hmay
  rw [hmove]
  unfold Supervisor.start at hstart ⊢
  split at hstart
  · cases hstart
  · cases hstart
  · next process _ =>
    cases hstart
    have hnew : y.released? ⟨y.supervisor.next⟩ = none := by
      by_contra h
      exact find?_isSome_iff.mpr h hp.find_next
    refine ⟨hnew, ?_⟩
    have henroll := released?_enroll hp c process ⟨y.supervisor.next⟩
    rw [if_pos rfl] at henroll
    exact henroll

/-- Every call is in accord with its run. -/
theorem fits (config : DebugConfig) (grace : Duration) (σ : Nat → Move) (n : Nat) {call : Nat} {c : Call}
    (hc : (after config grace σ n).supervision.calls call = some c) :
    Fits (after config grace σ n).supervision c := by
  rw [supervision_after] at hc ⊢
  exact fits_after grace _ n call c hc

/-! ### A launch and its run -/

/-- The call by which a launch stops its program. -/
def Stage.call? : Stage → Option (RunId × Nat)
  | .stopping id _ call => some (id, call)
  | .failed _ stop => stop
  | _ => none

theorem Stage.run?_of_call? {call : Nat} (h : stage.call? = some (id, call)) : stage.run? = some id := by
  cases stage with
  | stopping j e i => cases h; rfl
  | failed e stop =>
    obtain rfl : stop = some (id, call) := h
    rfl
  | _ => cases h

/-- What is known of the run of a launch and of its call. -/
structure Sound (x : Supervision) (stage : Stage) : Prop where
  known : ∀ id, stage.run? = some id → x.released? id ≠ none
  call : ∀ id call, stage.call? = some (id, call) →
    ∃ c, x.calls call = some c ∧ c.run? = some id ∧ (stage.isFailed = true → c.isBack = true)

/-- A call that has given back its result does not go on. -/
theorem left_of_isBack {c : Call} (h : c.isBack = true) : c.left = 0 := by
  cases c with
  | idle => rfl
  | ended id exit => rfl
  | gaveUp id exit => rfl
  | _ => cases h

theorem Sound.change {y z : Supervision} (h : Sound y stage) (hc : Change y z) : Sound z stage where
  known id hid := hc.known (h.known id hid)
  call id call hcall := by
    obtain ⟨c, hc', hrun, hback⟩ := h.call id call hcall
    obtain ⟨d, hd, hleft, hdrun⟩ := hc.call hc'
    refine ⟨d, hd, hdrun id hrun, fun hf => ?_⟩
    rcases hleft with rfl | hlt
    · exact hback hf
    · rw [left_of_isBack (hback hf)] at hlt
      exact absurd hlt (Nat.not_lt_zero _)

/-- **A launch that has a run keeps it**, and one that comes to one has just started it. -/
theorem Advances.run (h : Advances x stage s stage') :
    stage'.run? = stage.run? ∨
      (stage.run? = none ∧ ∃ c spawned id, s = .start c spawned ∧ stage'.run? = some id ∧
        stage.deed? s = some (.start c spawned) ∧ x.supervision.mayAnswer spawned = true ∧
        (x.supervision.supervisor.start c spawned).1 = .ok id) := by
  cases h with
  | starts hmay hstart => exact Or.inr ⟨rfl, _, _, _, rfl, rfl, rfl, hmay, hstart⟩
  | _ => exact Or.inl rfl

/-- **What is known of a launch stays known** when it goes on. -/
theorem Sound.advance (h : Sound x.supervision stage) (hp : Placed x.supervision)
    (hstage : x.launches me = some stage) (ha : Advances x stage s stage') :
    Sound (x.move (.go me s)).supervision stage' where
  known j hj := by
    rcases ha.run with hrun | ⟨-, c, spawned, id, rfl, hid, hdeed, hmay, hstart⟩
    · exact (changes x (.go me s)).known (h.known j (hrun ▸ hj))
    · -- the run that has just been started
      obtain rfl : id = j := by
        rw [hid] at hj
        exact Option.some.inj hj
      rw [supervision_go hstage, hdeed]
      show (x.supervision.move (.start c spawned)).released? id ≠ none
      rw [(start_ok hp hmay hstart).2]
      simp
  call j call hcall := by
    cases ha with
    | @stops id e i hfree =>
      cases hcall
      have hfind : (x.supervision.supervisor.find? j).isSome = true :=
        Option.isSome_iff_ne_none.mpr (find?_isSome_iff.mpr (h.known j rfl))
      refine ⟨.asked j, ?_, rfl, fun hf => by cases hf⟩
      rw [supervision_go hstage]
      show (if (x.supervision.supervisor.find? j).isSome then x.supervision.begin call (.asked j)
        else x.supervision).calls call = _
      rw [if_pos hfind, begin, hfree]
      exact (put_calls ..).trans (if_pos rfl)
    | @returns id e i c hc hback =>
      cases hcall
      obtain ⟨d, hd, hrun, -⟩ := h.call j call rfl
      cases hd.symm.trans hc
      exact ⟨c, by rw [supervision_go hstage]; exact hc, hrun, fun _ => hback⟩
    | _ => cases hcall

/-- What is known of every launch. -/
theorem sound (config : DebugConfig) (grace : Duration) (σ : Nat → Move) {n : Nat}
    (h : (after config grace σ n).launches me = some stage) :
    Sound (after config grace σ n).supervision stage := by
  induction n generalizing stage with
  | zero => cases h
  | succ n ih =>
    rcases launches_move (after config grace σ n) (σ n) me with
      hsame | ⟨addr, -, -, hbegun⟩ | ⟨s, stage₀, stage₁, hm, hstage, ha, hgoes⟩
    · exact (ih (hsame.symm.trans h)).change (changes _ _)
    · cases hbegun.symm.trans h
      exact ⟨fun id hid => (nomatch hid), fun id call hcall => (nomatch hcall)⟩
    · cases hgoes.symm.trans h
      rw [after_succ, hm]
      exact (ih hstage).advance (placed config grace σ n) hstage ha

/-! ### Launches over time -/

/-- A launch that has a run keeps it. -/
theorem run_later (h : (after config grace σ k).launches me = some stage) (hid : stage.run? = some id)
    (hkn : k ≤ n) : ∃ stage', (after config grace σ n).launches me = some stage' ∧ stage'.run? = some id := by
  induction hkn with
  | refl => exact ⟨stage, h, hid⟩
  | @step n _ ih =>
    obtain ⟨stage', h', hid'⟩ := ih
    rcases launches_move (after config grace σ n) (σ n) me with
      hsame | ⟨addr, -, hnone, -⟩ | ⟨s, stage₀, stage₁, -, hstage, ha, hgoes⟩
    · exact ⟨stage', hsame.trans h', hid'⟩
    · cases hnone.symm.trans h'
    · cases hstage.symm.trans h'
      rcases ha.run with hrun | ⟨hnone, -⟩
      · exact ⟨stage₁, hgoes, hrun.trans hid'⟩
      · cases hnone.symm.trans hid'

/-! ### Who starts a run -/

/-- The run that is started in a move, and the launch that starts it, if it is one. -/
def started? (x : Launching) (m : Move) : Option (Option Nat × RunId) :=
  match x.deed m with
  | .start c spawned =>
    if x.supervision.mayAnswer spawned then
      (x.supervision.supervisor.start c spawned).1.toOption.map (m.launch?, ·)
    else none
  | _ => none

variable {who who' : Option Nat} {k' : Nat}

/-- Whoever starts a run does so by a start that succeeds. -/
theorem start_of_started (h : x.started? m = some (who, id)) :
    ∃ c spawned, m.launch? = who ∧ x.deed m = .start c spawned ∧
      x.supervision.mayAnswer spawned = true ∧ (x.supervision.supervisor.start c spawned).1 = .ok id := by
  unfold started? at h
  split at h
  · next c spawned hdeed =>
    split at h
    · next hmay =>
      cases hstart : (x.supervision.supervisor.start c spawned).1 with
      | error e => rw [hstart] at h; cases h
      | ok j =>
        rw [hstart] at h
        cases h
        exact ⟨c, spawned, rfl, hdeed, hmay, hstart⟩
    · cases h
  · cases h

/-- A run that is started was not there before, and is there afterwards. -/
theorem started_new (hp : Placed x.supervision) (h : x.started? m = some (who, id)) :
    x.supervision.released? id = none ∧ (x.move m).supervision.released? id ≠ none := by
  obtain ⟨c, spawned, -, hdeed, hmay, hstart⟩ := start_of_started h
  obtain ⟨hbefore, hafter⟩ := start_ok hp hmay hstart
  refine ⟨hbefore, ?_⟩
  show (x.supervision.move (x.deed m)).released? id ≠ none
  rw [hdeed, hafter]
  simp

/-- **A run is started once.** -/
theorem started_once (h : (after config grace σ k).started? (σ k) = some (who, id))
    (h' : (after config grace σ k').started? (σ k') = some (who', id)) : k = k' := by
  have hearlier : ∀ {i j : Nat} {w w' : Option Nat},
      (after config grace σ i).started? (σ i) = some (w, id) →
      (after config grace σ j).started? (σ j) = some (w', id) → ¬ i < j := by
    intro i j w w' hi hj hlt
    have hknown := (started_new (placed config grace σ i) hi).2
    have hlater : (after config grace σ j).supervision.released? id ≠ none :=
      stays (P := fun y => y.released? id ≠ none) (fun y z hc hy => hc.known hy)
        (Nat.succ_le_of_lt hlt) hknown
    exact hlater (started_new (placed config grace σ j) hj).1
  have hle := hearlier h h'
  have hge := hearlier h' h
  omega

/-- **The run of a launch is one that it has started itself.** -/
theorem started_by (h : (after config grace σ n).launches me = some stage) (hid : stage.run? = some id) :
    ∃ k < n, (after config grace σ k).started? (σ k) = some (some me, id) := by
  induction n generalizing stage with
  | zero => cases h
  | succ n ih =>
    have hearlier (h' : ∃ k < n, (after config grace σ k).started? (σ k) = some (some me, id)) :
        ∃ k < n + 1, (after config grace σ k).started? (σ k) = some (some me, id) := by
      obtain ⟨k, hk, hstarted⟩ := h'
      exact ⟨k, Nat.lt_succ_of_lt hk, hstarted⟩
    rcases launches_move (after config grace σ n) (σ n) me with
      hsame | ⟨addr, -, -, hbegun⟩ | ⟨s, stage₀, stage₁, hm, hstage, ha, hgoes⟩
    · exact hearlier (ih (hsame.symm.trans h) hid)
    · cases hbegun.symm.trans h
      cases hid
    · cases hgoes.symm.trans h
      rcases ha.run with hrun | ⟨-, c, spawned, j, rfl, hj, hdeed, hmay, hstart⟩
      · exact hearlier (ih hstage (hrun ▸ hid))
      · obtain rfl : j = id := by
          rw [hj] at hid
          exact Option.some.inj hid
        refine ⟨n, Nat.lt_succ_self n, ?_⟩
        have hmove : (after config grace σ n).deed (σ n) = .start c spawned := by
          rw [hm, deed, hstage, Option.bind_some, hdeed]
          rfl
        unfold started?
        rw [hmove]
        simp only [if_pos hmay, hstart, hm]
        rfl

/-- A launch that has started a run has it. -/
theorem run_of_started (h : (after config grace σ k).started? (σ k) = some (some me, id)) (hkn : k < n) :
    ∃ stage, (after config grace σ n).launches me = some stage ∧ stage.run? = some id := by
  have hp := placed config grace σ k
  have hnew := started_new hp h
  obtain ⟨c, spawned, hm, hdeed, -, hstart⟩ := start_of_started h
  cases handles (after config grace σ k) hm with
  | nothing hsame =>
    rw [hsame] at hnew
    exact absurd hnew.1 hnew.2
  | starts addr c' spawned' j hdeed' hstart' hgoes =>
    cases hdeed.symm.trans hdeed'
    obtain rfl : id = j := Except.ok.inj (hstart.symm.trans hstart')
    exact run_later (k := k + 1) hgoes rfl hkn
  | stops j e call hdeed' hstage => cases hdeed.symm.trans hdeed'

end DebugHost.Launching
