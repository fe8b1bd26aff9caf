import DebugHost.Proofs.Process.Progress

/-! # How long a stop takes

In a prompt schedule only that takes time what has to: a program may take a grace period to end after it was
asked to, and each of the two readers may take another one after the program has ended, one after the other.
So the exit of a run that is to be stopped is told within three grace periods (`told_within`). What carries
the proof is the time by which the exit is told at the latest (`Run.latest`), which no prompt move makes
later. A call that stops a run waits for two grace periods and `Supervisor.slack`; if a grace period is no
longer than the slack, the call waits until the latest time (`waits_enough`), and it comes back with the exit
(`comes_back`). -/

namespace DebugHost

/-- The time by which the exit of a run that is to be stopped is told at the latest. -/
def Run.latest (r : Run) (grace now : Nat) : Nat :=
  match r.watch with
  | .waiting => now + 3 * grace
  | .terminating d => max now d + 2 * grace
  | .killing => now + 2 * grace
  | .joining _ .out d => max now d + grace
  | .joining _ .err d => max now d
  | _ => now

/-- The time until which a watcher does nothing if nothing happens, unless that is for good. A program that
was killed ends at once. -/
def Run.restsUntil? (r : Run) (now : Nat) : Option Nat :=
  match r.watch with
  | .waiting => if r.stopAsked then some now else none
  | .terminating d => some d
  | .joining _ s d => if (r.reader s).isOver then some now else some d
  | .killing | .joined _ | .recorded _ | .released _ => some now
  | .told _ | .over _ => none

namespace Supervision

variable {x y : Supervision} {id : RunId} {r r' : Run} {e : Exit} {grace : Duration} {σ : Nat → Move}
  {n m me g now : Nat}

/-- The time until which the watcher of a run does nothing if nothing happens. -/
def restsUntil? (x : Supervision) (id : RunId) : Option Nat :=
  (x.supervisor.find? id).bind (·.restsUntil? x.now)

/-- Whether a move is prompt: no time passes while a watcher has something to do, and the time of a call
runs out only if the watcher of its run has nothing to do. -/
def isPrompt (x : Supervision) : Move → Bool
  | .clock t => x.now ≤ t && x.supervisor.runs.all fun r => (x.restsUntil? r.id).all (t ≤ max x.now ·)
  | .expire me =>
    match x.calls me with
    | some (.waiting id _) => (x.restsUntil? id).all (x.now < ·)
    | _ => true
  | _ => true

/-- All moves of a schedule are prompt. -/
def Prompt (grace : Duration) (σ : Nat → Move) : Prop := ∀ n, (after grace σ n).isPrompt (σ n) = true

theorem restsUntil?_of_find (hr : x.supervisor.find? id = some r) :
    x.restsUntil? id = r.restsUntil? x.now := by
  unfold Supervision.restsUntil?
  rw [hr, Option.bind_some]

theorem isPrompt_clock {t : Nat} (h : x.isPrompt (.clock t) = true) : x.now ≤ t ∧ ∀ id r d,
    x.supervisor.find? id = some r → r.restsUntil? x.now = some d → t ≤ max x.now d := by
  obtain ⟨hforward, hruns⟩ := Bool.and_eq_true_iff.mp h
  refine ⟨of_decide_eq_true hforward, fun id r d hr hd => ?_⟩
  have hrun := List.all_eq_true.mp hruns r (List.mem_of_find?_eq_some hr)
  rw [id_of_find? hr, restsUntil?_of_find hr, hd] at hrun
  exact of_decide_eq_true hrun

theorem isPrompt_expire (h : x.isPrompt (.expire me) = true) {deadline d : Nat}
    (hme : x.calls me = some (.waiting id deadline)) (hr : x.supervisor.find? id = some r)
    (hd : r.restsUntil? x.now = some d) : x.now < d := by
  unfold isPrompt at h
  simp only [hme, restsUntil?_of_find hr, hd] at h
  exact of_decide_eq_true h

/-! ### The latest time -/

/-- Nothing that a watcher does makes the latest time later. -/
theorem Attends.latest {deed : Deed} (ha : Attends g now r r' deed) :
    r'.latest g now ≤ r.latest g now := by
  unfold Run.latest
  cases ha with
  | exited status hw => rw [hw]; simp only; omega
  | terminate hw hs => rw [hw]; simp only; omega
  | ended status hw =>
    rcases hw with ⟨d, hw⟩ | hw
    · rw [hw]; simp only; omega
    · rw [hw]; simp only; omega
  | kill hw hd => rw [hw]; simp only; omega
  | @join e t d hw ho =>
    rw [hw]
    cases t
    · simp only [behind]; omega
    · simp only [behind]; omega
  | @abandon e t d hw hd ho =>
    rw [hw]
    cases t
    · simp only [behind]; omega
    · simp only [behind]; omega
  | record hw => rw [hw]
  | release hw => rw [hw]
  | tell hw => rw [hw]
  | complete hw => rw [hw]

theorem latest_congr (h : r'.watch = r.watch) : r'.latest g now = r.latest g now := by
  unfold Run.latest
  rw [h]

/-- A clock that moves promptly does not make the latest time later. -/
theorem latest_clock {t : Nat} (hs : r.stopAsked = true) (hleft : 1 < r.watch.left) (ht : now ≤ t)
    (hrests : ∀ d, r.restsUntil? now = some d → t ≤ max now d) : r.latest g t ≤ r.latest g now := by
  unfold Run.restsUntil? at hrests
  unfold Run.latest
  cases hw : r.watch with
  | waiting =>
    have ht' := hrests now (by rw [hw]; exact if_pos hs)
    simp only; omega
  | terminating d =>
    have ht' := hrests d (by rw [hw])
    simp only; omega
  | killing =>
    have ht' := hrests now (by rw [hw])
    simp only; omega
  | joining e s d =>
    have ht' : t ≤ max now d := by
      by_cases ho : (r.reader s).isOver = true
      · exact Nat.le_trans (hrests now (by rw [hw]; exact if_pos ho)) (by omega)
      · exact hrests d (by rw [hw]; exact if_neg ho)
    cases s
    · simp only; omega
    · simp only; omega
  | joined e =>
    have ht' := hrests now (by rw [hw])
    simp only; omega
  | recorded e =>
    have ht' := hrests now (by rw [hw])
    simp only; omega
  | released e =>
    have ht' := hrests now (by rw [hw])
    simp only; omega
  | told e => rw [hw] at hleft; exact absurd hleft (Nat.lt_irrefl 1)
  | «over» e => rw [hw] at hleft; exact absurd hleft (Nat.not_lt_zero 1)

/-- The latest time is never over. -/
theorem now_le_latest : now ≤ r.latest g now := by
  unfold Run.latest
  split <;> omega

/-- A watcher waits at most for a grace period. -/
theorem latest_le (hd : ∀ d, r.deadline? = some d → d ≤ now + g) : r.latest g now ≤ now + 3 * g := by
  unfold Run.deadline? at hd
  unfold Run.latest
  cases hw : r.watch with
  | terminating d =>
    have hd' := hd d (by rw [hw])
    simp only; omega
  | joining e s d =>
    have hd' := hd d (by rw [hw])
    cases s
    · simp only; omega
    · simp only; omega
  | _ => simp only; omega

/-- While the watcher of a run that is to be stopped has nothing to do, the latest time is still to
come. -/
theorem now_lt_latest (hs : r.stopAsked = true) (hleft : 1 < r.watch.left)
    (hrests : ∀ d, r.restsUntil? now = some d → now < d) : now < r.latest g now := by
  unfold Run.restsUntil? at hrests
  unfold Run.latest
  cases hw : r.watch with
  | waiting => exact absurd (hrests now (by rw [hw]; exact if_pos hs)) (Nat.lt_irrefl now)
  | terminating d =>
    have hd := hrests d (by rw [hw])
    simp only; omega
  | killing => exact absurd (hrests now (by rw [hw])) (Nat.lt_irrefl now)
  | joining e s d =>
    by_cases ho : (r.reader s).isOver = true
    · exact absurd (hrests now (by rw [hw]; exact if_pos ho)) (Nat.lt_irrefl now)
    · have hd := hrests d (by rw [hw]; exact if_neg ho)
      cases s
      · simp only; omega
      · simp only; omega
  | joined e => exact absurd (hrests now (by rw [hw])) (Nat.lt_irrefl now)
  | recorded e => exact absurd (hrests now (by rw [hw])) (Nat.lt_irrefl now)
  | released e => exact absurd (hrests now (by rw [hw])) (Nat.lt_irrefl now)
  | told e => rw [hw] at hleft; exact absurd hleft (Nat.lt_irrefl 1)
  | «over» e => rw [hw] at hleft; exact absurd hleft (Nat.not_lt_zero 1)

/-! ### Prompt schedules -/

theorem Change.keeps_grace (hc : Change x y) : y.supervisor.grace = x.supervisor.grace := by
  cases hc with
  | steps me hme hs => cases hs <;> rfl
  | attends hr ha hs => exact hs.grace
  | _ => rfl

theorem grace_after (grace : Duration) (σ : Nat → Move) (n : Nat) :
    (after grace σ n).supervisor.grace = grace :=
  after_keeps (P := fun x => x.supervisor.grace = grace) grace rfl
    (fun _ _ hc h => hc.keeps_grace.trans h) σ n

/-- In a prompt move the clock does not go back. -/
theorem now_le_move {move : Move} (hprompt : x.isPrompt move = true) : x.now ≤ (x.move move).now := by
  by_cases hclock : ∃ t, move = .clock t
  · obtain ⟨t, rfl⟩ := hclock
    exact (isPrompt_clock hprompt).1
  · exact Nat.le_of_eq (now_move fun t ht => hclock ⟨t, ht⟩).symm

/-- What becomes of a run in a prompt move: the clock moves promptly, or it stays where it is. -/
theorem prompt_move {move : Move} (hprompt : x.isPrompt move = true) (hr : x.supervisor.find? id = some r) :
    ∃ r', (x.move move).supervisor.find? id = some r' ∧ Alters x (x.move move) id r r' ∧
      (r' = r ∧ (∀ d, r.restsUntil? x.now = some d → (x.move move).now ≤ max x.now d) ∨
        (x.move move).now = x.now) := by
  obtain ⟨r', hr', ha⟩ := (change_move x move).alters hr
  refine ⟨r', hr', ha, ?_⟩
  by_cases hclock : ∃ t, move = .clock t
  · obtain ⟨t, rfl⟩ := hclock
    cases hr.symm.trans hr'
    exact Or.inl ⟨rfl, fun d hd => (isPrompt_clock hprompt).2 id r d hr hd⟩
  · exact Or.inr (now_move fun t ht => hclock ⟨t, ht⟩)

/-- No prompt move makes the latest time of a run later that is to be stopped. -/
theorem latest_move {move : Move} (hprompt : x.isPrompt move = true) (hr : x.supervisor.find? id = some r)
    (hs : r.stopAsked = true) (hleft : 1 < r.watch.left) :
    ∃ r', (x.move move).supervisor.find? id = some r' ∧
      r'.latest x.supervisor.grace.millis (x.move move).now ≤
        r.latest x.supervisor.grace.millis x.now := by
  obtain ⟨r', hr', ha, hcases⟩ := prompt_move hprompt hr
  refine ⟨r', hr', ?_⟩
  rcases hcases with ⟨rfl, hrests⟩ | hstands
  · exact latest_clock hs hleft (now_le_move hprompt) hrests
  · rw [hstands]
    cases ha with
    | same hu => exact Nat.le_refl _
    | attends ha hu => exact ha.latest
    | cancelled hme hu => exact Nat.le_of_eq (latest_congr rfl)
    | fed chunk ho => exact Nat.le_of_eq (latest_congr (watch_feed r _ chunk))
    | finished ho => exact Nat.le_of_eq (latest_congr (watch_finish r _))

/-- Until its exit is told, the latest time of a run that is to be stopped does not become later. -/
theorem latest_succ (hσ : Prompt grace σ) (hr : (after grace σ n).supervisor.find? id = some r)
    (hs : r.stopAsked = true) (hr' : (after grace σ (n + 1)).supervisor.find? id = some r')
    (hleft : 1 < r'.watch.left) : 1 < r.watch.left ∧
      r'.latest grace.millis (after grace σ (n + 1)).now ≤
        r.latest grace.millis (after grace σ n).now := by
  obtain ⟨q, hq, ha⟩ := (change_after grace σ n).alters hr
  cases hq.symm.trans hr'
  have hleft' : 1 < r.watch.left := Nat.lt_of_lt_of_le hleft ha.left_le
  obtain ⟨q, hq, hle⟩ := latest_move (hσ n) hr hs hleft'
  cases hq.symm.trans hr'
  rw [grace_after] at hle
  exact ⟨hleft', hle⟩

theorem latest_later (hσ : Prompt grace σ) (hr : (after grace σ n).supervisor.find? id = some r)
    (hs : r.stopAsked = true) (hnm : n ≤ m) (hr' : (after grace σ m).supervisor.find? id = some r')
    (hleft : 1 < r'.watch.left) :
    r'.latest grace.millis (after grace σ m).now ≤ r.latest grace.millis (after grace σ n).now := by
  induction hnm generalizing r' with
  | refl =>
    cases hr.symm.trans hr'
    exact Nat.le_refl _
  | @step m hnm ih =>
    obtain ⟨q, hq, hstop, -⟩ := stopped_later hr hs hnm
    obtain ⟨hleft', hle⟩ := latest_succ hσ hq hstop hr' hleft
    exact Nat.le_trans hle (ih hq hleft')

theorem Attends.deadline {deed : Deed} (ha : Attends g now r r' deed) {d : Nat}
    (hd : r'.deadline? = some d) : d = now + g := by
  unfold Run.deadline? at hd
  cases ha with
  | @join e t d' hw ho => cases t <;> simp_all [behind]
  | @abandon e t d' hw hd' ho => cases t <;> simp_all [behind]
  | _ => simp_all

theorem deadline_congr (h : r'.watch = r.watch) : r'.deadline? = r.deadline? := by
  unfold Run.deadline?
  rw [h]

/-- A watcher waits for a grace period at most. -/
theorem deadline_le (hσ : Prompt grace σ) (n : Nat)
    (hr : (after grace σ n).supervisor.find? id = some r) :
    ∀ d, r.deadline? = some d → d ≤ (after grace σ n).now + grace.millis := by
  refine runs_keep (P := fun x _ r => ∀ d, r.deadline? = some d → d ≤ x.now + grace.millis)
    (fun _ _ _ _ _ _ hd => nomatch hd) (fun k j q q' _ _ ha h d hd => ?_) n hr
  have hforward : (after grace σ k).now ≤ (after grace σ (k + 1)).now := now_le_move (hσ k)
  have hkeeps : q'.deadline? = q.deadline? → d ≤ (after grace σ (k + 1)).now + grace.millis := by
    intro hsame
    have hle := h d (hsame ▸ hd)
    omega
  cases ha with
  | same hu => exact hkeeps rfl
  | attends ha hu =>
    have hle := ha.deadline hd
    rw [grace_after] at hle
    omega
  | cancelled hme hu => exact hkeeps rfl
  | fed chunk ho => exact hkeeps (deadline_congr (watch_feed q _ chunk))
  | finished ho => exact hkeeps (deadline_congr (watch_finish q _))

theorem left_of_not_told (hr : x.supervisor.find? id = some r) (ht : x.supervisor.toldExit? id = none) :
    1 < r.watch.left := by
  by_contra hle
  obtain ⟨e, he⟩ := told_of_left hr (Nat.le_of_not_lt hle)
  cases ht.symm.trans he

/-- **The exit of a run that is to be stopped is told within three grace periods.** -/
theorem told_within (hσ : Prompt grace σ) (hr : (after grace σ n).supervisor.find? id = some r)
    (hs : r.stopAsked = true) (hnm : n ≤ m)
    (hm : (after grace σ m).supervisor.toldExit? id = none) :
    (after grace σ m).now ≤ (after grace σ n).now + 3 * grace.millis := by
  obtain ⟨r', hr', -, -⟩ := stopped_later hr hs hnm
  have hleft := left_of_not_told hr' hm
  calc (after grace σ m).now
      ≤ r'.latest grace.millis (after grace σ m).now := now_le_latest
    _ ≤ r.latest grace.millis (after grace σ n).now := latest_later hσ hr hs hnm hr' hleft
    _ ≤ (after grace σ n).now + 3 * grace.millis := latest_le (deadline_le hσ n hr)

/-! ### Calls that wait long enough -/

/-- Where a call comes from that waits. -/
theorem Change.waiting (hc : Change x y) {deadline : Nat}
    (hme : y.calls me = some (.waiting id deadline)) :
    x.calls me = some (.waiting id deadline) ∨
      deadline = x.now + x.supervisor.stopBound ∧ y.now = x.now := by
  obtain ⟨c, hx, hgoes⟩ := hc.goes_to hme
  cases hgoes with
  | same => exact Or.inl hx
  | steps hs hnow =>
    generalize y.supervisor = s at hs
    cases hs with
    | waits => exact Or.inr ⟨rfl, hnow⟩
    | stays => exact Or.inl hx

/-- If a grace period is no longer than the slack, a call waits until the exit is told at the latest. -/
theorem waits_enough (hσ : Prompt grace σ) (hg : grace.millis ≤ Supervisor.slack) (n : Nat)
    {deadline : Nat} (hme : (after grace σ n).calls me = some (.waiting id deadline))
    (hr : (after grace σ n).supervisor.find? id = some r) (hleft : 1 < r.watch.left) :
    r.latest grace.millis (after grace σ n).now ≤ deadline := by
  induction n generalizing r with
  | zero => cases hme
  | succ n ih =>
    rcases (change_after grace σ n).waiting hme with hbefore | ⟨rfl, hnow⟩
    · obtain ⟨q, hq, hs⟩ := asks_after grace σ n me _ hbefore
      obtain ⟨hleft', hle⟩ := latest_succ hσ hq hs hr hleft
      exact Nat.le_trans hle (ih hbefore hq hleft')
    · have hle : r.latest grace.millis (after grace σ (n + 1)).now ≤ _ :=
        latest_le (deadline_le hσ (n + 1) hr)
      rw [hnow] at hle ⊢
      unfold Supervisor.stopBound
      rw [grace_after]
      omega

/-- Then the time of no call runs out. -/
theorem expire_idle (hσ : Prompt grace σ) (hg : grace.millis ≤ Supervisor.slack)
    (hn : σ n = .expire me) : after grace σ (n + 1) = after grace σ n := by
  have hprompt := hσ n
  rw [hn] at hprompt
  rw [after_succ, hn]
  show (after grace σ n).expire me = _
  unfold expire
  split
  · next id deadline hme =>
    split
    · next h =>
      obtain ⟨hd, ht⟩ := h
      obtain ⟨r, hr, hs⟩ := asks_after grace σ n me _ hme
      have hleft := left_of_not_told hr ht
      have henough := waits_enough hσ hg n hme hr hleft
      have hlater : (after grace σ n).now < r.latest grace.millis (after grace σ n).now :=
        now_lt_latest hs hleft fun d => isPrompt_expire hprompt hme hr
      omega
    · rfl
  · rfl

theorem inTime_prompt (hσ : Prompt grace σ) (hg : grace.millis ≤ Supervisor.slack) (me n : Nat) :
    InTime (after grace σ n) me := by
  induction n with
  | zero => exact fun _ h => nomatch h
  | succ n ih =>
    by_cases hn : σ n = .expire me
    · rw [expire_idle hσ hg hn]
      exact ih
    · exact ih.move hn

/-- Whether a call has found its run in the place, and has not come away without an exit. -/
def Call.hasFound : Call → Bool
  | .found _ | .stopping _ | .waiting _ _ | .ended _ (some _) => true
  | _ => false

theorem Steps.hasFound {c c' : Call} {s : Supervisor} (hs : Steps x c c' s) (hc : c.hasFound = true) :
    c'.hasFound = true := by
  cases hs with
  | stays => exact hc
  | cancels => rfl
  | waits => rfl
  | told ht => rfl
  | _ => cases hc

theorem Change.hasFound (hc : Change x y) {c : Call} (hme : x.calls me = some c)
    (hfound : c.hasFound = true) :
    ∃ c', y.calls me = some c' ∧ (c'.hasFound = true ∨ c'.isLate = true) := by
  obtain ⟨c', hy, hgoes⟩ := hc.goes_from hme
  cases hgoes with
  | same => exact ⟨c, hy, Or.inl hfound⟩
  | steps hs hnow => exact ⟨_, hy, Or.inl (hs.hasFound hfound)⟩
  | expires => exact ⟨_, hy, Or.inr rfl⟩

theorem found_later (htime : ∀ k, InTime (after grace σ k) me) {c : Call}
    (hme : (after grace σ n).calls me = some c) (hfound : c.hasFound = true) (hnm : n ≤ m) :
    ∃ c', (after grace σ m).calls me = some c' ∧ c'.hasFound = true := by
  induction hnm with
  | refl => exact ⟨c, hme, hfound⟩
  | @step k _ ih =>
    obtain ⟨d, hd, hdfound⟩ := ih
    obtain ⟨d', hd', hcases⟩ := (change_after grace σ k).hasFound hd hdfound
    rcases hcases with hdfound' | hlate
    · exact ⟨d', hd', hdfound'⟩
    · cases hlate.symm.trans (htime (k + 1) d' hd')

/-- **A call that has found its run comes back with its exit**, if a grace period is no longer than the
slack. -/
theorem comes_back (hσ : Prompt grace σ) (hg : grace.millis ≤ Supervisor.slack) (hfair : Fair grace σ)
    {c : Call} (hme : (after grace σ n).calls me = some c) (hid : c.run? = some id)
    (hfound : c.hasFound = true) :
    ∃ m ≥ n, ∃ e, (after grace σ m).calls me = some (.ended id (some e)) ∧
      (after grace σ m).supervisor.place ≠ some id := by
  have htime : ∀ k, InTime (after grace σ k) me := inTime_prompt hσ hg me
  obtain ⟨m, hnm, c', hc', hover, hrun⟩ := ends hfair htime hme
  obtain ⟨d, hd, hdfound⟩ := found_later htime hme hfound hnm
  cases hd.symm.trans hc'
  have hrun' := hrun id hid
  have hfits := fits_after grace σ m me c' hc'
  cases c' with
  | ended j result =>
    cases hrun'
    cases result with
    | none => cases hdfound
    | some e => exact ⟨m, hnm, e, hc', (placed_after grace σ m).not_held (Results.released hfits)⟩
  | idle => cases hrun'
  | _ => cases hover

end Supervision
end DebugHost
