import DebugHost.Proofs.Process.Stops
import Mathlib.Data.Nat.Pairing

/-! # Every call ends

In a fair schedule every call goes on again and again, every watcher has its turn again and again, a
program that was killed has exited, and every time comes. Then a run that is to be stopped comes to the
point where its exit is told (`told_eventually`), and every call whose time does not run out comes to its
result (`ends`). What carries both is how far a watcher or a call still has to go, which it makes less and
nobody makes more. Every beginning of a schedule goes on fairly (`goes_on_fairly`). -/

namespace DebugHost

/-- How far a watcher has to go until its run is over. -/
def Watch.left : Watch → Nat
  | .waiting => 9
  | .terminating _ => 8
  | .killing => 7
  | .joining _ .out _ => 6
  | .joining _ .err _ => 5
  | .joined _ => 4
  | .recorded _ => 3
  | .released _ => 2
  | .told _ => 1
  | .over _ => 0

namespace Supervision

variable {x y : Supervision} {id : RunId} {r r' : Run} {e : Exit} {grace : Duration} {σ : Nat → Move}
  {n m me : Nat}

/-- How far a call has to go until it has its result. -/
def Call.left : Call → Nat
  | .current => 6
  | .asked _ => 5
  | .found _ => 4
  | .stopping _ => 3
  | .waiting _ _ => 2
  | .missed _ | .expired _ => 1
  | .idle | .ended _ _ | .gaveUp _ _ => 0

/-- Whether the time of a call has run out. -/
def Call.isLate : Call → Bool
  | .expired _ | .gaveUp _ _ => true
  | _ => false

/-- Whether a call has come to its result. -/
def Call.isOver : Call → Bool
  | .idle | .ended _ _ => true
  | _ => false

/-- Nobody's turn is put off for ever, a killed program exits, and every time comes. -/
structure Fair (grace : Duration) (σ : Nat → Move) : Prop where
  calls : ∀ me n, ∃ m ≥ n, σ m = .step me
  watchers : ∀ id n, ∃ m ≥ n, ∃ status, σ m = .watch id status ∧
    ∀ r, (after grace σ m).supervisor.find? id = some r → r.watch = .killing → status ≠ none
  time : ∀ t, ∃ n, ∀ m ≥ n, t ≤ (after grace σ m).now

/-! ### Watchers come to their end -/

theorem Attends.left {g now : Nat} {deed : Deed} (ha : Attends g now r r' deed) :
    r'.watch.left < r.watch.left := by
  cases ha with
  | exited status hw => simp [hw, Watch.left]
  | terminate hw ha => simp [hw, Watch.left]
  | ended status hw =>
    rcases hw with ⟨d, hw⟩ | hw
    · simp [hw, Watch.left]
    · simp [hw, Watch.left]
  | kill hw hd => simp [hw, Watch.left]
  | @join e t d hw ho => cases t <;> simp [hw, Watch.left, behind]
  | @abandon e t d hw hd ho => cases t <;> simp [hw, Watch.left, behind]
  | record hw => simp [hw, Watch.left]
  | release hw => simp [hw, Watch.left]
  | tell hw => simp [hw, Watch.left]
  | complete hw => simp [hw, Watch.left]

theorem Attends.stopAsked {g now : Nat} {deed : Deed} (ha : Attends g now r r' deed) :
    r'.stopAsked = r.stopAsked := by
  cases ha with
  | @abandon e t d hw hd ho => cases t <;> rfl
  | _ => rfl

/-- A watcher that does anything comes nearer to its end, and nobody else changes how far it is. -/
theorem Alters.left (ha : Alters x y id r r') :
    r'.watch = r.watch ∨ r'.watch.left < r.watch.left := by
  cases ha with
  | same hu => exact Or.inl rfl
  | attends ha hu => exact Or.inr ha.left
  | cancelled hme hu => exact Or.inl rfl
  | fed chunk ho => exact Or.inl (watch_feed r _ chunk)
  | finished ho => exact Or.inl (watch_finish r _)

theorem Alters.stopAsked (ha : Alters x y id r r') (hs : r.stopAsked = true) : r'.stopAsked = true := by
  cases ha with
  | same hu => exact hs
  | attends ha hu => exact ha.stopAsked.trans hs
  | cancelled hme hu => rfl
  | fed chunk ho => exact (stopAsked_feed r _ chunk).trans hs
  | finished ho => exact (stopAsked_finish r _).trans hs

theorem Alters.left_le (ha : Alters x y id r r') : r'.watch.left ≤ r.watch.left := by
  rcases ha.left with hw | hlt
  · exact Nat.le_of_eq (congrArg Watch.left hw)
  · exact Nat.le_of_lt hlt

/-- A run stays, its watcher is where it was or nearer to its end, and a stop is not taken back. -/
theorem run_later (hr : (after grace σ n).supervisor.find? id = some r) (hnm : n ≤ m) :
    ∃ r', (after grace σ m).supervisor.find? id = some r' ∧
      (r.stopAsked = true → r'.stopAsked = true) ∧
      (r'.watch = r.watch ∨ r'.watch.left < r.watch.left) := by
  induction hnm with
  | refl => exact ⟨r, hr, fun hs => hs, Or.inl rfl⟩
  | step _ ih =>
    obtain ⟨q, hq, hstop, hleft⟩ := ih
    obtain ⟨q', hfind, ha⟩ := (change_after grace σ _).alters hq
    refine ⟨q', hfind, fun hs => ha.stopAsked (hstop hs), ?_⟩
    rcases ha.left with hw | hlt
    · rw [hw]; exact hleft
    · rcases hleft with hw | hlt'
      · exact Or.inr (hw ▸ hlt)
      · exact Or.inr (Nat.lt_trans hlt hlt')

/-- A run that is to be stopped is so later on, and its watcher is where it was or nearer to its end. -/
theorem stopped_later (hr : (after grace σ n).supervisor.find? id = some r) (hs : r.stopAsked = true)
    (hnm : n ≤ m) : ∃ r', (after grace σ m).supervisor.find? id = some r' ∧ r'.stopAsked = true ∧
      (r'.watch = r.watch ∨ r'.watch.left < r.watch.left) := by
  obtain ⟨r', hfind, hstop, hleft⟩ := run_later hr hnm
  exact ⟨r', hfind, hstop hs, hleft⟩

/-- As long as the exit of a run that is to be stopped is not told, something is due when its deadline has
passed and its program has exited if it was killed. -/
theorem due_of_stopAsked {now : Nat} {status : Option WaitStatus} (hs : r.stopAsked = true)
    (hleft : 1 < r.watch.left) (hd : ∀ d, r.deadline? = some d → d ≤ now)
    (hkilled : r.watch = .killing → status ≠ none) : ∃ m, r.due? now status = some m := by
  unfold Run.due?
  cases hw : r.watch with
  | waiting =>
    cases status with
    | none => exact ⟨.terminate, if_pos hs⟩
    | some status => exact ⟨_, rfl⟩
  | terminating d =>
    cases status with
    | none => exact ⟨.kill, if_pos (hd d (by unfold Run.deadline?; rw [hw]))⟩
    | some status => exact ⟨_, rfl⟩
  | killing =>
    cases status with
    | none => exact absurd rfl (hkilled hw)
    | some status => exact ⟨_, rfl⟩
  | joining e t d =>
    by_cases ho : (r.reader t).isOver = true
    · exact ⟨.join, if_pos ho⟩
    · exact ⟨.abandon, (if_neg ho).trans (if_pos (hd d (by unfold Run.deadline?; rw [hw])))⟩
  | joined e => exact ⟨_, rfl⟩
  | recorded e => exact ⟨_, rfl⟩
  | released e => exact ⟨_, rfl⟩
  | told e => rw [hw] at hleft; exact absurd hleft (Nat.lt_irrefl 1)
  | «over» e => rw [hw] at hleft; exact absurd hleft (Nat.not_lt_zero 1)

theorem told_of_left (hr : x.supervisor.find? id = some r) (hleft : r.watch.left ≤ 1) :
    ∃ e, x.supervisor.toldExit? id = some e := by
  unfold Supervisor.toldExit?
  rw [hr, Option.bind_some]
  unfold Run.toldExit?
  cases hw : r.watch with
  | told e => exact ⟨e, rfl⟩
  | «over» e => exact ⟨e, rfl⟩
  | joining e t d => cases t <;> simp [hw, Watch.left] at hleft
  | _ => simp [hw, Watch.left] at hleft

theorem Alters.told (ha : Alters x y id r r') (he : r.toldExit? = some e) : r'.toldExit? = some e := by
  have hsame : r'.watch = r.watch → r'.toldExit? = some e := by
    intro hw
    unfold Run.toldExit? at he ⊢
    rwa [hw]
  cases ha with
  | attends ha hu =>
    cases ha with
    | @complete e' hw =>
      unfold Run.toldExit? at he
      rw [hw] at he
      exact he
    | ended status hw =>
      rcases hw with ⟨d, hw⟩ | hw
      · simp [Run.toldExit?, hw] at he
      · simp [Run.toldExit?, hw] at he
    | exited status hw => simp [Run.toldExit?, hw] at he
    | terminate hw hs => simp [Run.toldExit?, hw] at he
    | kill hw hd => simp [Run.toldExit?, hw] at he
    | join hw ho => simp [Run.toldExit?, hw] at he
    | abandon hw hd ho => simp [Run.toldExit?, hw] at he
    | record hw => simp [Run.toldExit?, hw] at he
    | release hw => simp [Run.toldExit?, hw] at he
    | tell hw => simp [Run.toldExit?, hw] at he
  | fed chunk ho => exact hsame (watch_feed r _ chunk)
  | finished ho => exact hsame (watch_finish r _)
  | _ => exact hsame rfl

/-- An exit that was told stays told. -/
theorem told_later (hnm : n ≤ m) (he : (after grace σ n).supervisor.toldExit? id = some e) :
    (after grace σ m).supervisor.toldExit? id = some e := by
  refine after_stays (P := fun x => x.supervisor.toldExit? id = some e) (fun x y hc hx => ?_) hnm he
  obtain ⟨r, hr, ht⟩ := Option.bind_eq_some_iff.mp hx
  obtain ⟨r', hr', ha⟩ := hc.alters hr
  exact Option.bind_eq_some_iff.mpr ⟨r', hr', ha.told ht⟩

/-- **The exit of a run that is to be stopped is told at last.** -/
theorem told_eventually (hfair : Fair grace σ) (hr : (after grace σ n).supervisor.find? id = some r)
    (hs : r.stopAsked = true) : ∃ m ≥ n, ∃ e, (after grace σ m).supervisor.toldExit? id = some e := by
  -- by induction on how far the watcher has to go
  induction hk : r.watch.left using Nat.strongRecOn generalizing n r with
  | ind k ih =>
    by_cases hleft : r.watch.left ≤ 1
    · exact ⟨n, Nat.le_refl n, told_of_left hr hleft⟩
    · -- the watcher has its turn when its deadline has passed
      obtain ⟨n', htime⟩ := hfair.time (r.deadline?.getD 0)
      obtain ⟨m, hm, status, hσ, hkilled⟩ := hfair.watchers id (max n n')
      have hnm : n ≤ m := Nat.le_trans (Nat.le_max_left ..) hm
      obtain ⟨q, hq, hstop, hw⟩ := stopped_later hr hs hnm
      rcases hw with hw | hlt
      · obtain ⟨move, hdue⟩ : ∃ move, q.due? (after grace σ m).now status = some move := by
          refine due_of_stopAsked hstop (by rw [hw]; omega) (fun d hd => ?_) (hkilled q hq)
          have hd' : r.deadline? = some d := by
            unfold Run.deadline? at hd ⊢
            rw [← hw]
            exact hd
          have hreached := htime m (Nat.le_trans (Nat.le_max_right ..) hm)
          rw [hd'] at hreached
          exact hreached
        obtain ⟨q', deed, s, ha, hdone, hwatch⟩ := watch_due hq hdue
        have hq' : (after grace σ (m + 1)).supervisor.find? id = some q' := by
          rw [after_succ, hσ]
          show ((after grace σ m).watch id status).supervisor.find? id = _
          rw [hwatch]
          exact (hdone.find id).trans (if_pos rfl)
        obtain ⟨m', hm', htold⟩ :=
          ih q'.watch.left (hk ▸ hw ▸ ha.left) hq' (ha.stopAsked.trans hstop) rfl
        exact ⟨m', by omega, htold⟩
      · obtain ⟨m', hm', htold⟩ := ih q.watch.left (hk ▸ hlt) hq hstop rfl
        exact ⟨m', Nat.le_trans hnm hm', htold⟩

/-! ### Calls come to their end -/

/-- The run for which a call waits is to be stopped. -/
def Asks (x : Supervision) : Call → Prop
  | .stopping id | .waiting id _ => ∃ r, x.supervisor.find? id = some r ∧ r.stopAsked = true
  | _ => True

theorem Asks.change {c : Call} (h : Asks x c) (hc : Change x y) : Asks y c := by
  have hstays : ∀ id, (∃ r, x.supervisor.find? id = some r ∧ r.stopAsked = true) →
      ∃ r, y.supervisor.find? id = some r ∧ r.stopAsked = true := by
    rintro id ⟨r, hr, hs⟩
    obtain ⟨r', hr', ha⟩ := hc.alters hr
    exact ⟨r', hr', ha.stopAsked hs⟩
  cases c with
  | stopping id => exact hstays id h
  | waiting id deadline => exact hstays id h
  | _ => trivial

theorem Asks.steps {c c' : Call} (h : Asks x c) (hfits : Fits x c) (hc : Change x y) {s : Supervisor}
    (hs : Steps x c c' s) (hy : y.supervisor = s) : Asks y c' := by
  cases hs with
  | @cancels id =>
    obtain ⟨r, hr⟩ := Option.ne_none_iff_exists'.mp (find?_isSome_iff.mpr (hfits id rfl))
    refine ⟨{ r with stopAsked := true }, ?_, rfl⟩
    rw [hy, find?_cancel, if_pos rfl, hr]
    rfl
  | waits => exact Asks.change (x := x) (c := .stopping _) h hc
  | stays => exact h.change hc
  | _ => trivial

/-- The runs for which calls wait are to be stopped. -/
def AllAsk (x : Supervision) : Prop := ∀ me c, x.calls me = some c → Asks x c

theorem AllAsk.change (h : AllAsk x) (hfit : AllFit x) (hc : Change x y) : AllAsk y := by
  intro me c' hme
  obtain ⟨c, hx, hgoes⟩ := hc.goes_to hme
  cases hgoes with
  | same => exact (h me c' hx).change hc
  | steps hs hnow => exact (h me _ hx).steps (hfit me _ hx) hc hs rfl
  | _ => trivial

theorem asks_after (grace : Duration) (σ : Nat → Move) (n : Nat) : AllAsk (after grace σ n) := by
  induction n with
  | zero => exact fun _ _ h => nomatch h
  | succ n ih => exact ih.change (fits_after grace σ n) (change_after grace σ n)

theorem Steps.left {c c' : Call} {s : Supervisor} (hs : Steps x c c' s) :
    c' = c ∨ c'.left < c.left := by
  cases hs with
  | stays => exact Or.inl rfl
  | _ => exact Or.inr (by simp [Call.left])

/-- A call stays, with its run, and is where it was or nearer to its end. -/
theorem Change.call (hc : Change x y) {c : Call} (hme : x.calls me = some c) :
    ∃ c', y.calls me = some c' ∧ (c' = c ∨ c'.left < c.left) ∧
      ∀ id, c.run? = some id → c'.run? = some id := by
  obtain ⟨c', hy, hgoes⟩ := hc.goes_from hme
  cases hgoes with
  | same => exact ⟨c, hy, Or.inl rfl, fun _ h => h⟩
  | steps hs hnow => exact ⟨_, hy, hs.left, fun _ => hs.run⟩
  | expires => exact ⟨_, hy, Or.inr (Nat.lt_succ_self 1), fun _ h => h⟩

theorem call_later {c : Call} (hme : (after grace σ n).calls me = some c) (hnm : n ≤ m) :
    ∃ c', (after grace σ m).calls me = some c' ∧ (c' = c ∨ c'.left < c.left) ∧
      ∀ id, c.run? = some id → c'.run? = some id := by
  induction hnm with
  | refl => exact ⟨c, hme, Or.inl rfl, fun _ h => h⟩
  | step _ ih =>
    obtain ⟨d, hd, hleft, hrun⟩ := ih
    obtain ⟨d', hd', hleft', hrun'⟩ := (change_after grace σ _).call hd
    refine ⟨d', hd', ?_, fun id h => hrun' id (hrun id h)⟩
    rcases hleft' with rfl | hlt
    · exact hleft
    · rcases hleft with rfl | hlt'
      · exact Or.inr hlt
      · exact Or.inr (Nat.lt_trans hlt hlt')

/-! ### Late calls -/

theorem Steps.isLate {c c' : Call} {s : Supervisor} (hs : Steps x c c' s) (hc : c'.isLate = true) :
    c.isLate = true := by
  cases hs with
  | givesUp => rfl
  | stays => exact hc
  | _ => cases hc

/-- Whether a move is one of a call. -/
def Move.isCall : Move → Bool
  | .stop _ _ | .stopCurrent _ | .step _ | .expire _ => true
  | _ => false

theorem calls_move (x : Supervision) {move : Move} (h : move.isCall = false) :
    (x.move move).calls = x.calls := by
  cases move with
  | start c spawned =>
    show (if x.mayAnswer spawned then x.start c spawned else x).calls = x.calls
    split <;> rfl
  | watch id status =>
    show (x.watch id status).calls = x.calls
    unfold watch
    split <;> rfl
  | read id t chunk =>
    show (x.read id t chunk).calls = x.calls
    unfold read
    split <;> rfl
  | finish id t =>
    show (x.finish id t).calls = x.calls
    unfold finish
    split <;> rfl
  | fork id =>
    show (x.fork id).calls = x.calls
    unfold fork
    split <;> rfl
  | leave id k => rfl
  | clock now => rfl
  | _ => cases h

theorem now_move {move : Move} (h : ∀ t, move ≠ .clock t) : (x.move move).now = x.now := by
  cases move with
  | clock t => exact absurd rfl (h t)
  | start c spawned =>
    show (if x.mayAnswer spawned then x.start c spawned else x).now = x.now
    split <;> rfl
  | stop i id =>
    show (if (x.supervisor.find? id).isSome then x.begin i (.asked id) else x).now = x.now
    unfold begin
    split
    · split <;> rfl
    · rfl
  | stopCurrent i =>
    show (x.begin i .current).now = x.now
    unfold begin
    split <;> rfl
  | step i =>
    show (x.advance i).now = x.now
    unfold advance
    split <;> rfl
  | expire i =>
    show (x.expire i).now = x.now
    unfold expire
    split
    · split <;> rfl
    · rfl
  | watch id status =>
    show (x.watch id status).now = x.now
    unfold watch
    split <;> rfl
  | read id t chunk =>
    show (x.read id t chunk).now = x.now
    unfold read
    split <;> rfl
  | finish id t =>
    show (x.finish id t).now = x.now
    unfold finish
    split <;> rfl
  | fork id =>
    show (x.fork id).now = x.now
    unfold fork
    split <;> rfl
  | leave id k => rfl

/-- No call has run out of time that has the name `me`. -/
def InTime (x : Supervision) (me : Nat) : Prop := ∀ c, x.calls me = some c → c.isLate = false

theorem InTime.put (h : InTime x me) {i : Nat} {c : Call} {s : Supervisor}
    (hc : i = me → c.isLate = false) : InTime (x.put i c s) me := by
  intro d hd
  rw [put_calls] at hd
  split at hd
  · next hi =>
    cases hd
    exact hc hi.symm
  · exact h d hd

theorem InTime.begin (h : InTime x me) {i : Nat} {c : Call} (hc : c.isLate = false) :
    InTime (x.begin i c) me := by
  unfold Supervision.begin
  split
  · exact h.put fun _ => hc
  · exact h

/-- The time of a call runs out only by a move that says so. -/
theorem InTime.move (h : InTime x me) {move : Move} (hmove : move ≠ .expire me) :
    InTime (x.move move) me := by
  cases move with
  | stop i id =>
    show InTime (if (x.supervisor.find? id).isSome then x.begin i (.asked id) else x) me
    split
    · exact h.begin rfl
    · exact h
  | stopCurrent i => exact h.begin rfl
  | step i =>
    show InTime (x.advance i) me
    unfold advance
    split
    · exact h
    · next c hc =>
      refine h.put fun hi => Bool.eq_false_iff.mpr fun hlate => ?_
      cases ((steps_step x c).isLate hlate).symm.trans (h c (hi ▸ hc))
  | expire i =>
    show InTime (x.expire i) me
    unfold expire
    split
    · split
      · exact h.put fun hi => absurd (congrArg Move.expire hi) hmove
      · exact h
    · exact h
  | _ => exact fun c hc => h c (by rwa [calls_move x rfl] at hc)

theorem inTime_after (hσ : ∀ k, σ k ≠ .expire me) (n : Nat) : InTime (after grace σ n) me := by
  induction n with
  | zero => exact fun _ h => nomatch h
  | succ n ih => exact ih.move (hσ n)

/-! ### Every call ends -/

theorem step_call {c : Call} (hme : (after grace σ n).calls me = some c) (hσ : σ n = .step me) :
    (after grace σ (n + 1)).calls me = some ((after grace σ n).step c).1 := by
  rw [after_succ, hσ]
  show ((after grace σ n).advance me).calls me = _
  unfold advance
  rw [hme]
  exact (put_calls ..).trans (if_pos rfl)

/-- A step brings a call nearer to its end, unless it has to wait. -/
theorem step_left {c : Call} (hover : c.isOver = false) (hlate : c.isLate = false)
    (htold : ∀ id deadline, c = .waiting id deadline → ∃ e, x.supervisor.toldExit? id = some e) :
    (x.step c).1.left < c.left := by
  cases c with
  | current =>
    simp only [step]
    split <;> simp [Call.left]
  | asked id =>
    simp only [step]
    split <;> simp [Call.left]
  | found id => simp [step, Call.left]
  | missed id => simp [step, Call.left]
  | stopping id => simp [step, Call.left]
  | waiting id deadline =>
    obtain ⟨e, he⟩ := htold id deadline rfl
    simp [step, he, Call.left]
  | idle => cases hover
  | ended id result => cases hover
  | expired id => cases hlate
  | gaveUp id result => cases hlate

/-- A call that is not over comes nearer to its end. -/
theorem nearer (hfair : Fair grace σ) {c : Call} (hme : (after grace σ n).calls me = some c)
    (hover : c.isOver = false) (hlate : c.isLate = false) :
    ∃ m ≥ n, ∃ c', (after grace σ m).calls me = some c' ∧ c'.left < c.left ∧
      ∀ id, c.run? = some id → c'.run? = some id := by
  -- a call that waits has to be told first
  obtain ⟨n', hn', htold⟩ : ∃ n' ≥ n, ∀ id deadline, c = .waiting id deadline →
      ∃ e, (after grace σ n').supervisor.toldExit? id = some e := by
    cases c with
    | waiting id deadline =>
      obtain ⟨r, hr, hs⟩ := asks_after grace σ n me _ hme
      obtain ⟨n', hn', e, he⟩ := told_eventually hfair hr hs
      refine ⟨n', hn', fun j d hj => ?_⟩
      cases hj
      exact ⟨e, he⟩
    | _ => exact ⟨n, Nat.le_refl n, fun _ _ h => nomatch h⟩
  obtain ⟨m, hm, hσ⟩ := hfair.calls me n'
  obtain ⟨d, hd, hleft, hrun⟩ := call_later hme (Nat.le_trans hn' hm)
  rcases hleft with rfl | hlt
  · refine ⟨m + 1, by omega, _, step_call hd hσ, ?_, fun id hid => (steps_step _ d).run hid⟩
    refine step_left hover hlate fun id deadline hd => ?_
    obtain ⟨e, he⟩ := htold id deadline hd
    exact ⟨e, told_later hm he⟩
  · exact ⟨m, Nat.le_trans hn' hm, d, hd, hlt, hrun⟩

/-- **Every call comes to its result**, whatever it has come to, unless its time runs out. -/
theorem ends (hfair : Fair grace σ) (htime : ∀ k, InTime (after grace σ k) me) {c : Call}
    (hme : (after grace σ n).calls me = some c) :
    ∃ m ≥ n, ∃ c', (after grace σ m).calls me = some c' ∧ c'.isOver = true ∧
      ∀ id, c.run? = some id → c'.run? = some id := by
  -- by induction on how far the call has to go
  induction hk : c.left using Nat.strongRecOn generalizing n c with
  | ind k ih =>
    cases hover : c.isOver with
    | true => exact ⟨n, Nat.le_refl n, c, hme, hover, fun _ h => h⟩
    | false =>
      obtain ⟨m, hm, c', hc', hlt, hrun⟩ := nearer hfair hme hover (htime n c hme)
      obtain ⟨m', hm', c'', hc'', hdone, hrun'⟩ := ih c'.left (hk ▸ hlt) hc' rfl
      exact ⟨m', Nat.le_trans hm hm', c'', hc'', hdone, fun id h => hrun' id (hrun id h)⟩

/-! ### Fair schedules -/

/-- Moves that give everybody a turn again and again: the clock shows the number of the move, calls go
on, and programs have exited. -/
def turns (k : Nat) : Move :=
  match k % 3 with
  | 0 => .clock k
  | 1 => .step (k / 3).unpair.1
  | _ => .watch ⟨(k / 3).unpair.1⟩ (some (.code 0))

/-- The first moves of a schedule, and turns for everybody behind them. -/
def fairly (σ : Nat → Move) (n k : Nat) : Move := if k < n then σ k else turns k

theorem fairly_turns (h : n ≤ m) : fairly σ n m = turns m := if_neg (Nat.not_lt_of_le h)

theorem turns_clock {k : Nat} (h : k % 3 = 0) : turns k = .clock k := by
  unfold turns
  rw [h]
  rfl

theorem turns_step (me n : Nat) : turns (3 * Nat.pair me n + 1) = .step me := by
  have hmod : (3 * Nat.pair me n + 1) % 3 = 1 := by omega
  have hdiv : (3 * Nat.pair me n + 1) / 3 = Nat.pair me n := by omega
  unfold turns
  rw [hmod, hdiv, Nat.unpair_pair]
  rfl

theorem turns_watch (i n : Nat) : turns (3 * Nat.pair i n + 2) = .watch ⟨i⟩ (some (.code 0)) := by
  have hmod : (3 * Nat.pair i n + 2) % 3 = 2 := by omega
  have hdiv : (3 * Nat.pair i n + 2) / 3 = Nat.pair i n := by omega
  unfold turns
  rw [hmod, hdiv, Nat.unpair_pair]
  rfl

/-- Only every third turn moves the clock. -/
theorem now_turns {k : Nat} (h : k % 3 ≠ 0) : (x.move (turns k)).now = x.now := by
  refine now_move fun t ht => h ?_
  unfold turns at ht
  split at ht
  · assumption
  · cases ht
  · cases ht

theorem now_fairly (grace : Duration) (σ : Nat → Move) (h : n + 3 ≤ m) :
    m ≤ (after grace (fairly σ n) m).now + 3 := by
  -- the clock was moved last one, two or three moves ago
  have hclock : ∀ k, n ≤ k → k % 3 = 0 → (after grace (fairly σ n) (k + 1)).now = k := by
    intro k hk hmod
    rw [after_succ, fairly_turns hk, turns_clock hmod]
    rfl
  have hkeeps : ∀ k, n ≤ k → k % 3 ≠ 0 →
      (after grace (fairly σ n) (k + 1)).now = (after grace (fairly σ n) k).now := by
    intro k hk hmod
    rw [after_succ, fairly_turns hk, now_turns hmod]
  obtain ⟨k, rfl⟩ : ∃ k, m = k + 3 := ⟨m - 3, by omega⟩
  have h3 : k % 3 = 0 ∨ k % 3 = 1 ∨ k % 3 = 2 := by omega
  rcases h3 with h3 | h3 | h3
  · rw [hkeeps (k + 2) (by omega) (by omega), hkeeps (k + 1) (by omega) (by omega),
      hclock k (by omega) h3]
  · rw [hclock (k + 2) (by omega) (by omega)]
    omega
  · rw [hkeeps (k + 2) (by omega) (by omega), hclock (k + 1) (by omega) (by omega)]
    omega

theorem fair_fairly (grace : Duration) (σ : Nat → Move) (n : Nat) : Fair grace (fairly σ n) where
  calls me m := by
    have hm := Nat.right_le_pair me (max n m)
    refine ⟨3 * Nat.pair me (max n m) + 1, by omega, ?_⟩
    rw [fairly_turns (by omega), turns_step]
  watchers id m := by
    have hm := Nat.right_le_pair id.number (max n m)
    refine ⟨3 * Nat.pair id.number (max n m) + 2, by omega, some (.code 0), ?_, fun _ _ _ => by simp⟩
    rw [fairly_turns (by omega), turns_watch]
  time t := by
    refine ⟨n + t + 3, fun m hm => ?_⟩
    have hnow := now_fairly grace σ (show n + 3 ≤ m by omega)
    omega

/-- **Every beginning of a schedule goes on fairly**, without a call that runs out of time. -/
theorem goes_on_fairly (grace : Duration) (σ : Nat → Move) (n : Nat) :
    ∃ σ', (∀ k < n, σ' k = σ k) ∧ Fair grace σ' ∧ ∀ k ≥ n, ∀ me, σ' k ≠ .expire me := by
  refine ⟨fairly σ n, fun k hk => if_pos hk, fair_fairly grace σ n, fun k hk me => ?_⟩
  rw [fairly_turns hk]
  unfold turns
  split <;> simp

end Supervision
end DebugHost
