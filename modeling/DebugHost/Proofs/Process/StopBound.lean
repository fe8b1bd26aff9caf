import DebugHost.Proofs.Process.Teardown

/-! # Whether a stop waits long enough

A teardown may take three grace periods (`slowest_after`): the program does not end before it is killed, and
both readers are made to end. A call that stops a run waits for two of them and `Supervisor.slack`, which
covers all cases just if a grace period is no longer than the slack; otherwise the call may come back without
an exit while its run still has the place (`stopBound`). -/

namespace DebugHost.Supervision

variable {x y : Supervision} {id : RunId} {r : Run} {grace : Duration} {σ : Nat → Move}
  {n now : Nat}

/-! ### The slowest teardown -/

/-- Prompt moves lead from one supervision to another. -/
inductive LeadsPromptly (x : Supervision) : Supervision → Prop where
  | refl : LeadsPromptly x x
  | tail {y : Supervision} (move : Move) (h : LeadsPromptly x y) (hprompt : y.isPrompt move = true) :
    LeadsPromptly x (y.move move)

/-- Finitely many prompt moves go on a prompt schedule. -/
theorem LeadsPromptly.schedule (hσ : Prompt grace σ) (h : LeadsPromptly (after grace σ n) y) :
    ∃ σ' m, n ≤ m ∧ Prompt grace σ' ∧ after grace σ' n = after grace σ n ∧ after grace σ' m = y := by
  induction h with
  | refl => exact ⟨σ, n, Nat.le_refl n, hσ, rfl, rfl⟩
  | tail move _ hprompt ih =>
    obtain ⟨σ', m, hnm, hσ', hn, rfl⟩ := ih
    -- the moves behind the new one do not matter
    let σ'' (k : Nat) : Move := if k < m then σ' k else if k = m then move else .leave ⟨0⟩ 0
    have hsame : ∀ k ≤ m, after grace σ'' k = after grace σ' k := fun k hk =>
      reached_congr _ fun i hi => if_pos (Nat.lt_of_lt_of_le hi hk)
    have hm : σ'' m = move := (if_neg (Nat.lt_irrefl m)).trans (if_pos rfl)
    refine ⟨σ'', m + 1, Nat.le_succ_of_le hnm, fun k => ?_, (hsame n hnm).trans hn, ?_⟩
    · rcases Nat.lt_trichotomy k m with hk | rfl | hk
      · rw [hsame k (Nat.le_of_lt hk), show σ'' k = σ' k from if_pos hk]
        exact hσ' k
      · rw [hsame k (Nat.le_refl k), hm]
        exact hprompt
      · rw [show σ'' k = .leave ⟨0⟩ 0 from
          (if_neg (Nat.lt_asymm hk)).trans (if_neg (Nat.ne_of_gt hk))]
        rfl
    · rw [after_succ, hsame m (Nat.le_refl m), hm]

theorem LeadsPromptly.begins (h : LeadsPromptly (new grace) y) :
    ∃ σ n, Prompt grace σ ∧ after grace σ n = y := by
  have hidle : Prompt grace fun _ => .leave ⟨0⟩ 0 := fun _ => rfl
  obtain ⟨σ, n, -, hσ, -, hn⟩ := LeadsPromptly.schedule (n := 0) hidle h
  exact ⟨σ, n, hσ, hn⟩

/-- Whether moves are prompt, one after the other. -/
def arePrompt (x : Supervision) : List Move → Bool
  | [] => true
  | m :: ms => x.isPrompt m && (x.move m).arePrompt ms

theorem LeadsPromptly.moves (h : LeadsPromptly x y) {ms : List Move} (hms : y.arePrompt ms = true) :
    LeadsPromptly x (ms.foldl move y) := by
  induction ms generalizing y with
  | nil => exact h
  | cons m ms ih =>
    obtain ⟨hm, hrest⟩ := Bool.and_eq_true_iff.mp hms
    exact ih (h.tail m hm) hrest

variable {w : Watch} {b : Bool} {c : Call} {t : Nat}

theorem Looks.isPrompt_clock (h : Looks x grace r now c) (ht : now ≤ t)
    (hr : ∀ d, r.restsUntil? now = some d → t ≤ d) : x.isPrompt (.clock t) = true := by
  have hfind : x.supervisor.find? r.id = some r := by
    rw [h.supervisor]
    exact List.find?_cons_of_pos (decide_eq_true rfl)
  unfold isPrompt
  simp only [h.supervisor, List.all_cons, List.all_nil, Bool.and_true, restsUntil?_of_find hfind, h.now]
  refine Bool.and_eq_true_iff.mpr ⟨decide_eq_true ht, ?_⟩
  cases hd : r.restsUntil? now with
  | none => rfl
  | some d => exact decide_eq_true (Nat.le_trans (hr d hd) (Nat.le_max_right now d))

/-- A run is started, and a call that is to stop it waits. -/
def firstStop : List Move :=
  [.start listing (.ok 4), .stop 0 ⟨1⟩, .step 0, .step 0, .step 0]

theorem stopped_promptly (grace : Duration) : ∃ y, LeadsPromptly (new grace) y ∧
    Looks y grace (torn .waiting false) 0 (.waiting ⟨1⟩ (0 + (grace.millis * 2 + Supervisor.slack))) :=
  ⟨firstStop.foldl move (new grace), LeadsPromptly.refl.moves rfl, rfl, rfl, rfl⟩

/-- The exit of a program that was killed because it did not end when it was asked to. -/
def killed : Exit := .ofStatus (.signal 9) true

/-- The program ends when it is killed, the reader of its output when it is made to, and the one of its
error output goes on. -/
theorem torn_slowly (h : Looks x grace (torn .waiting false) 0 c) (ht : 2 * grace.millis ≤ t)
    (ht' : t ≤ 3 * grace.millis) : ∃ y, LeadsPromptly x y ∧
      Looks y grace (torn (.joining killed .err (2 * grace.millis + grace.millis)) true) t c := by
  have hasked : Looks _ grace (torn (.terminating (0 + grace.millis)) false) 0 c :=
    h.watch none rfl rfl rfl
  have hpatient := hasked.clock grace.millis
  have hkilled : Looks _ grace (torn .killing false) grace.millis c :=
    hpatient.watch none rfl (if_pos (Nat.le_of_eq (Nat.zero_add _))) rfl
  have hexited : Looks _ grace (torn (.joining killed .out (grace.millis + grace.millis)) false)
      grace.millis c := hkilled.watch (some (.signal 9)) rfl rfl rfl
  have hheld := hexited.clock (2 * grace.millis)
  have habandoned : Looks _ grace (torn (.joining killed .err (2 * grace.millis + grace.millis)) true)
      (2 * grace.millis) c :=
    hheld.watch none rfl
      (if_pos (show grace.millis + grace.millis ≤ 2 * grace.millis by omega)) rfl
  refine ⟨_, ?_, habandoned.clock t⟩
  refine .tail _ (.tail _ (.tail _ (.tail _ (.tail _ (.tail _ (.tail _ .refl rfl) ?_) rfl) rfl) ?_) rfl) ?_
  · refine hasked.isPrompt_clock (Nat.zero_le _) fun d hd => ?_
    cases hd
    omega
  · refine hexited.isPrompt_clock (by omega) fun d hd => ?_
    cases hd
    omega
  · refine habandoned.isPrompt_clock ht fun d hd => ?_
    cases hd
    omega

/-- **The exit may be told as late as that.** -/
theorem slowest_after (grace : Duration) : ∃ σ, Prompt grace σ ∧ ∃ n m id r, n ≤ m ∧
    (after grace σ n).supervisor.find? id = some r ∧ r.stopAsked = true ∧
    (after grace σ m).supervisor.toldExit? id = none ∧
    (after grace σ m).now = (after grace σ n).now + 3 * grace.millis := by
  obtain ⟨y, hy, hstopped⟩ := stopped_promptly grace
  obtain ⟨z, hz, htorn⟩ := torn_slowly (t := 3 * grace.millis) hstopped (by omega) (Nat.le_refl _)
  obtain ⟨σ, n, hσ, rfl⟩ := hy.begins
  obtain ⟨σ', m, hnm, hσ', hn, rfl⟩ := hz.schedule hσ
  refine ⟨σ', hσ', n, m, ⟨1⟩, _, hnm, hn ▸ hstopped.find? rfl, rfl, ?_, ?_⟩
  · unfold Supervisor.toldExit?
    rw [htorn.find? rfl]
    rfl
  · rw [htorn.now, hn, hstopped.now, Nat.zero_add]

theorem Looks.expire {deadline : Nat} (h : Looks x grace (torn w b) now (.waiting ⟨1⟩ deadline))
    (hd : deadline ≤ now) (ht : (torn w b).toldExit? = none) :
    Looks (x.move (.expire 0)) grace (torn w b) now (.expired ⟨1⟩) := by
  have htold : x.supervisor.toldExit? ⟨1⟩ = none := by
    unfold Supervisor.toldExit?
    rw [h.find? rfl]
    exact ht
  have hexpire : x.move (.expire 0) = x.put 0 (.expired ⟨1⟩) x.supervisor := by
    show x.expire 0 = _
    unfold Supervision.expire
    rw [h.call]
    exact if_pos ⟨h.now ▸ hd, htold⟩
  rw [hexpire]
  exact ⟨h.supervisor, h.now, (put_calls ..).trans (if_pos rfl)⟩

theorem Looks.isPrompt_expire {deadline : Nat} (h : Looks x grace (torn w b) now (.waiting ⟨1⟩ deadline))
    (hr : ∀ d, (torn w b).restsUntil? now = some d → now < d) : x.isPrompt (.expire 0) = true := by
  unfold isPrompt
  simp only [h.call, restsUntil?_of_find (h.find? rfl), h.now]
  cases hd : (torn w b).restsUntil? now with
  | none => rfl
  | some d => exact decide_eq_true (hr d hd)

/-- A call whose time has run out comes back with nothing while its run still has the place. -/
theorem Looks.give_up (h : Looks x grace (torn w b) now (.expired ⟨1⟩)) :
    (x.move (.step 0)).calls 0 = some (.gaveUp ⟨1⟩ none) ∧
      (x.move (.step 0)).supervisor.place = some ⟨1⟩ := by
  show (x.advance 0).calls 0 = _ ∧ (x.advance 0).supervisor.place = _
  unfold advance
  rw [h.call]
  refine ⟨(put_calls ..).trans ?_, ?_⟩
  · show some (Call.gaveUp ⟨1⟩ (x.supervisor.recordedExit ⟨1⟩)) = _
    rw [h.supervisor]
    rfl
  · show x.supervisor.place = _
    rw [h.supervisor]

/-- If a grace period is longer than the slack, a call may give up. -/
theorem gives_up (hg : Supervisor.slack < grace.millis) : ∃ σ, Prompt grace σ ∧ ∃ n me id,
    (after grace σ n).calls me = some (.gaveUp id none) ∧
    (after grace σ n).supervisor.place = some id := by
  obtain ⟨y, hy, hstopped⟩ := stopped_promptly grace
  obtain ⟨z, hz, htorn⟩ :=
    torn_slowly (t := 0 + (grace.millis * 2 + Supervisor.slack)) hstopped (by omega) (by omega)
  have hexpired := htorn.expire (Nat.le_refl _) rfl
  have hprompt : z.isPrompt (.expire 0) = true := by
    refine htorn.isPrompt_expire fun d hd => ?_
    cases hd
    omega
  obtain ⟨σ, n, hσ, rfl⟩ := hy.begins
  obtain ⟨σ', m, -, hσ', -, hm⟩ := ((hz.tail _ hprompt).tail (.step 0) rfl).schedule hσ
  exact ⟨σ', hσ', m, 0, ⟨1⟩, hm ▸ hexpired.give_up⟩

/-! ### Prompt and fair -/

theorem Steps.next {c c' : Call} {s : Supervisor} (hs : Steps x c c' s) :
    s.next = x.supervisor.next := by
  cases hs <;> rfl

theorem next_turns (x : Supervision) (k : Nat) :
    (x.move (turns k)).supervisor.next = x.supervisor.next := by
  unfold turns
  split
  · rfl
  · show (x.advance _).supervisor.next = _
    unfold advance
    split
    · rfl
    · next c hc =>
      exact (steps_step x c).next
  · show (x.watch _ _).supervisor.next = _
    cases hm : (x.supervisor.find? ⟨(k / 3).unpair.1⟩).bind (·.due? x.now (some (.code 0))) with
    | none =>
      unfold Supervision.watch
      rw [hm]
    | some m =>
      obtain ⟨r, hr, hdue⟩ := Option.bind_eq_some_iff.mp hm
      obtain ⟨r', deed, s, -, hdone, hwatch⟩ := watch_due hr hdue
      rw [hwatch]
      exact hdone.next

/-- Turns for everybody start nothing, and a watcher that has told the exit goes on from there. -/
theorem left_turns {k : Nat} (h : ∀ id r, x.supervisor.find? id = some r → r.watch.left ≤ 1)
    (hr : (x.move (turns k)).supervisor.find? id = some r) : r.watch.left ≤ 1 := by
  have hc := change_move x (turns k)
  cases hx : x.supervisor.find? id with
  | some q =>
    obtain ⟨q', hq', ha⟩ := hc.alters hx
    cases hq'.symm.trans hr
    exact Nat.le_trans ha.left_le (h id q hx)
  | none =>
    obtain ⟨command, process, hstarts, -, -⟩ := hc.started hx hr
    have hnext := next_turns x k
    rw [hstarts] at hnext
    exact absurd hnext (Nat.succ_ne_self _)

theorem restsUntil?_of_left (h : r.watch.left ≤ 1) : r.restsUntil? now = none := by
  unfold Run.restsUntil?
  cases hw : r.watch with
  | told e => rfl
  | «over» e => rfl
  | joining e t d => cases t <;> simp [hw, Watch.left] at h
  | _ => simp [hw, Watch.left] at h

/-- A prompt beginning after which the exits of all runs are told goes on promptly and fairly. -/
theorem prompt_fairly (hσ : ∀ k < n, (after grace σ k).isPrompt (σ k) = true)
    (hnow : (after grace σ n).now ≤ n)
    (hleft : ∀ id r, (after grace σ n).supervisor.find? id = some r → r.watch.left ≤ 1) :
    Prompt grace (fairly σ n) := by
  have hsame : ∀ k ≤ n, after grace (fairly σ n) k = after grace σ k := fun k hk =>
    reached_congr _ fun i hi => if_pos (Nat.lt_of_lt_of_le hi hk)
  have hlater : ∀ k, n ≤ k → (after grace (fairly σ n) k).now ≤ k ∧
      ∀ id r, (after grace (fairly σ n) k).supervisor.find? id = some r → r.watch.left ≤ 1 := by
    intro k hk
    induction hk with
    | refl => exact (hsame n (Nat.le_refl n)).symm ▸ ⟨hnow, hleft⟩
    | @step k hk ih =>
      rw [after_succ, fairly_turns hk]
      refine ⟨?_, fun id r hr => left_turns ih.2 hr⟩
      by_cases hmod : k % 3 = 0
      · rw [turns_clock hmod]
        exact Nat.le_succ k
      · rw [now_turns hmod]
        exact Nat.le_succ_of_le ih.1
  intro k
  rcases Nat.lt_or_ge k n with hk | hk
  · rw [hsame k (Nat.le_of_lt hk), show fairly σ n k = σ k from if_pos hk]
    exact hσ k hk
  · rw [fairly_turns hk]
    obtain ⟨hnow', hleft'⟩ := hlater k hk
    unfold turns
    split
    · refine Bool.and_eq_true_iff.mpr ⟨decide_eq_true hnow', List.all_eq_true.mpr fun r hr => ?_⟩
      unfold Supervision.restsUntil?
      cases hfind : (after grace (fairly σ n) k).supervisor.find? r.id with
      | none => rfl
      | some q =>
        rw [Option.bind_some, restsUntil?_of_left (hleft' _ q hfind)]
        rfl
    · rfl
    · rfl

/-! ### All together -/

/-- How long a teardown takes, compared with how long a call waits for it. -/
structure StopBound (grace : Duration) : Prop where
  /-- The exit of a run that is to be stopped is told within three grace periods. -/
  within : ∀ σ, Prompt grace σ → ∀ n m id r, n ≤ m → (after grace σ n).supervisor.find? id = some r →
    r.stopAsked = true → (after grace σ m).supervisor.toldExit? id = none →
    (after grace σ m).now ≤ (after grace σ n).now + 3 * grace.millis
  /-- It may take as long as that. -/
  slowest : ∃ σ, Prompt grace σ ∧ ∃ n m id r, n ≤ m ∧ (after grace σ n).supervisor.find? id = some r ∧
    r.stopAsked = true ∧ (after grace σ m).supervisor.toldExit? id = none ∧
    (after grace σ m).now = (after grace σ n).now + 3 * grace.millis
  /-- If a grace period is no longer than the slack, the time of no call runs out, and a call that has
  found its run comes back with its exit, when the run has left the place. -/
  covered : grace.millis ≤ Supervisor.slack → ∀ σ, Prompt grace σ →
    (∀ n me id, (after grace σ n).calls me ≠ some (.expired id)) ∧
    (Fair grace σ → ∀ n me c id, (after grace σ n).calls me = some c → c.run? = some id →
      c.hasFound = true → ∃ m ≥ n, ∃ e, (after grace σ m).calls me = some (.ended id (some e)) ∧
        (after grace σ m).supervisor.place ≠ some id)
  /-- If it is longer, a call may come back without an exit, while its run still has the place. -/
  exceeded : Supervisor.slack < grace.millis → ∃ σ, Prompt grace σ ∧ ∃ n me id,
    (after grace σ n).calls me = some (.gaveUp id none) ∧
    (after grace σ n).supervisor.place = some id

/-- **A teardown takes up to three grace periods**, and a call that waits for two of them and the slack waits
long enough just if a grace period is no longer than the slack. -/
theorem stopBound (grace : Duration) : StopBound grace where
  within σ hσ n m id r hnm hr hs ht := told_within hσ hr hs hnm ht
  slowest := slowest_after grace
  covered hg σ hσ := by
    refine ⟨fun n me id hme => ?_, fun hfair n me c id hme hid hfound =>
      comes_back hσ hg hfair hme hid hfound⟩
    cases inTime_prompt hσ hg me n _ hme
  exceeded hg := gives_up hg

/-- Moves in which a run is stopped, up to the end of the run and of the call. -/
def wholeStop : List Move := firstStop ++ .watch ⟨1⟩ none :: teardown ⟨1⟩ ++ [.step 0]

theorem wholeStop_prompt : (new ⟨100⟩).arePrompt wholeStop = true ∧
    let x := wholeStop.foldl move (new ⟨100⟩)
    x.now = 0 ∧ (∀ r ∈ x.supervisor.runs, r.watch.left = 0) ∧
      x.calls 0 = some (.ended ⟨1⟩ (some ⟨some 0, .stopped⟩)) := by
  decide +kernel

/-- There are schedules that are prompt and fair in which a run is stopped. -/
theorem prompt_and_fair : ∃ σ, Prompt ⟨100⟩ σ ∧ Fair ⟨100⟩ σ ∧
    ∃ n, (after ⟨100⟩ σ n).calls 0 = some (.ended ⟨1⟩ (some ⟨some 0, .stopped⟩)) := by
  obtain ⟨hprompt, hnow, hleft, hcall⟩ := wholeStop_prompt
  obtain ⟨σ, n, hσ, hn⟩ := (LeadsPromptly.refl.moves hprompt).begins
  rw [← hn] at hnow hleft hcall
  refine ⟨fairly σ n, prompt_fairly (fun k _ => hσ k) (by omega) fun id q hq => ?_,
    fair_fairly ⟨100⟩ σ n, n, ?_⟩
  · rw [hleft q (List.mem_of_find?_eq_some hq)]
    exact Nat.zero_le 1
  · rw [show after ⟨100⟩ (fairly σ n) n = after ⟨100⟩ σ n from
      reached_congr _ fun i hi => if_pos hi]
    exact hcall

end DebugHost.Supervision
